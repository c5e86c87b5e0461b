import HazardDispatch.Json.Parser

/-!
# Typed reading of JSON values

A reader walks a tree from left to right and reports the first problem that it meets.

* `DecodeError`      the kinds of problem, `DecodeError.message?` the wording where there is one;
* `Json.asText`, …   readers of the leaves; what is malformed wins over what has the wrong type;
* `Record`           the fields of a structure, in the order of their declaration. `Record.read`
                     takes an object, in any order of its members and with unknown ones skipped,
                     or a list with the fields at their positions;
* `Json.variant`     one of a set of names, with what it carries.
-/

namespace HazardDispatch

/-- Why a text is not the JSON of a value of the expected type. -/
inductive DecodeError where
  /-- The text is not well formed here. -/
  | malformed
  /-- A well-formed value of another type, or out of range. -/
  | mismatch
  | missingField (name : String)
  | duplicateField (name : String)
  | unknownVariant (name : String) (expected : List String)
deriving DecidableEq, Repr

namespace DecodeError

/-- The names, each in backquotes, with commas between them. -/
def quotedList (names : List String) : String :=
  String.intercalate ", " (names.map fun n => s!"\x60{n}\x60")

/-- The names that would have been right. -/
def oneOf (names : List String) : String :=
  match names with
  | [a] => quotedList [a]
  | [a, b] => quotedList [a] ++ " or " ++ quotedList [b]
  | names => "one of " ++ quotedList names

/-- The wording, for the problems that name a field or a variant. -/
def message? : DecodeError → Option String
  | malformed => none
  | mismatch => none
  | missingField n => some ("missing field " ++ quotedList [n])
  | duplicateField n => some ("duplicate field " ++ quotedList [n])
  | unknownVariant n expected =>
    some ("unknown variant " ++ quotedList [n] ++ ", expected " ++ oneOf expected)

end DecodeError

abbrev Reader (α : Type) := Json → Except DecodeError α

namespace Json

/-- The error for a value of the wrong type. A leaf is looked at first: a string that spells no text
and a numeral that is out of range are malformed wherever they stand. -/
def wrongType : Json → DecodeError
  | .broken => .malformed
  | .str b => if b.text?.isSome then .mismatch else .malformed
  | .num n => if n.float?.isSome then .mismatch else .malformed
  | _ => .mismatch

/-- The text that the pieces of a string spell. -/
def spelled (b : Body) : Except DecodeError String :=
  match b.text? with
  | some s => .ok s
  | none => .error .malformed

def asText : Reader String
  | .str b => spelled b
  | j => .error j.wrongType

def asBool : Reader Bool
  | .bool b => .ok b
  | j => .error j.wrongType

/-- A natural number below `bound`, written without point and exponent. -/
def asNat (bound : Nat) : Reader Nat
  | .num n =>
    match n.natural? with
    | some k => if k < bound then .ok k else .error (wrongType (.num n))
    | none => .error (wrongType (.num n))
  | j => .error j.wrongType

def asWord32 : Reader UInt32 := fun j => (asNat Word32.bound j).map .ofNat

def asWord64 : Reader UInt64 := fun j => (asNat Word64.bound j).map .ofNat

/-- Any number in range. -/
def asFloat : Reader Float
  | .num n =>
    match n.float? with
    | some x => .ok x
    | none => .error .malformed
  | j => .error j.wrongType

def asChar : Reader Char := fun j => do
  match (← asText j).toList with
  | [c] => return c
  | _ => throw .mismatch

def asNull : Reader Unit
  | .null => .ok ()
  | j => .error j.wrongType

/-- `null` for no value. -/
def asOption {α : Type} (read : Reader α) : Reader (Option α)
  | .null => .ok none
  | j => (read j).map some

def closing (closed : Bool) : Except DecodeError Unit :=
  if closed then .ok () else .error .malformed

def asListItems {α : Type} (read : Reader α) (closed : Bool) :
    List Json → Except DecodeError (List α)
  | [] => (closing closed).map fun _ => []
  | j :: js => do
    let a ← read j
    let as ← asListItems read closed js
    return a :: as

def asList {α : Type} (read : Reader α) : Reader (List α)
  | .arr items closed => asListItems read closed items
  | j => .error j.wrongType

/-- A value that is skipped has to be well formed, and nothing more. -/
def skip (j : Json) : Except DecodeError Unit := closing j.whole

/-! ## maps -/

/-- The members of an object as keys and values, in the order of the text. -/
def asEntries {κ α : Type} (readKey : Body → Except DecodeError κ) (read : Reader α)
    (closed : Bool) : List (Body × Json) → Except DecodeError (List (κ × α))
  | [] => (closing closed).map fun _ => []
  | (k, j) :: ms => do
    let key ← readKey k
    let a ← read j
    let rest ← asEntries readKey read closed ms
    return (key, a) :: rest

/-- An object as a list of entries. -/
def asMap {κ α : Type} (readKey : Body → Except DecodeError κ) (read : Reader α) :
    Reader (List (κ × α))
  | .obj members closed => asEntries readKey read closed members
  | j => .error j.wrongType

/-- A key that is a natural number: digits only, none of them escaped, no leading zero. -/
def natKey (bound : Nat) (b : Body) : Except DecodeError Nat :=
  let digit? : Piece → Option Decimal.Digit
    | .plain (.char c) => Decimal.Digit.ofChar? c
    | _ => none
  match b.mapM digit? with
  | none => .error .mismatch
  | some [] => .error .mismatch
  | some ds =>
    if ds.head? = some Decimal.Digit.zero ∧ 1 < ds.length then .error .mismatch
    else if Decimal.value ds < bound then .ok (Decimal.value ds) else .error .mismatch

/-! ## variants -/

/-- One of a set of names: alone as a string, or as the only key of an object with what it carries.
`pick` says how the rest is read; it gets nothing when the name stands alone. -/
def variant {α : Type} (names : List String)
    (pick : String → Option (Option Json → Except DecodeError α)) : Reader α
  | .str b => do
    let name ← spelled b
    match pick name with
    | some k => k none
    | none => throw (.unknownVariant name names)
  | .obj ((key, j) :: rest) closed => do
    let name ← spelled key
    match pick name with
    | none => throw (.unknownVariant name names)
    | some k =>
      let a ← k (some j)
      closing (closed && rest.isEmpty)
      return a
  | _ => .error .malformed

/-- A name that carries nothing, for which `null` may be written. -/
def bare {α : Type} (a : α) : Option Json → Except DecodeError α
  | none => .ok a
  | some j => (asNull j).map fun _ => a

/-- One of a set of names that carry nothing. -/
def oneOf {α : Type} (names : List (String × α)) : Reader α :=
  variant (names.map (·.1)) fun name => (names.lookup name).map bare

end Json

/-! ## records -/

structure Record.Field (α : Type) where
  name : String
  read : Reader α
  /-- The value if the object has no such member. -/
  absent : Option α := none
  /-- The value if the list ends before it. -/
  omitted : Option α := none

/-- A value of type `α` made from fields, the first one innermost. -/
inductive Record : Type → Type 1 where
  | build {α : Type} (make : α) : Record α
  | field {α β : Type} (before : Record (β → α)) (f : Record.Field β) : Record α

namespace Record

def required {α β : Type} (r : Record (β → α)) (name : String) (read : Reader β) : Record α :=
  r.field { name, read }

def defaulted {α β : Type} (r : Record (β → α)) (name : String) (read : Reader β) (d : β) :
    Record α :=
  r.field { name, read, absent := some d, omitted := some d }

/-- What has been read so far: each field's value, if it has been met. -/
def Slots : {α : Type} → Record α → Type
  | _, .build _ => Unit
  | _, @Record.field _ β before _ => before.Slots × Option β

def empty : {α : Type} → (r : Record α) → r.Slots
  | _, .build _ => ()
  | _, .field before _ => (before.empty, none)

/-- Reads the member `name`; nothing if the record has no such field. -/
def put (name : String) (j : Json) :
    {α : Type} → (r : Record α) → r.Slots → Option (Except DecodeError r.Slots)
  | _, .build _, _ => none
  | _, .field before f, s =>
    if name = f.name then
      if s.2.isSome then some (.error (.duplicateField name))
      else some ((f.read j).map fun b => (s.1, some b))
    else (before.put name j s.1).map fun res => res.map fun slots => (slots, s.2)

/-- Reads the members of an object in their order. -/
def collect {α : Type} (r : Record α) (closed : Bool) :
    r.Slots → List (Body × Json) → Except DecodeError r.Slots
  | slots, [] => (Json.closing closed).map fun _ => slots
  | slots, (key, j) :: ms => do
    let name ← Json.spelled key
    match r.put name j slots with
    | some res => collect r closed (← res) ms
    | none => do
      j.skip
      collect r closed slots ms

def finish : {α : Type} → (r : Record α) → r.Slots → Except DecodeError α
  | _, .build a, _ => .ok a
  | _, .field before f, s => do
    let make ← before.finish s.1
    match s.2 with
    | some b => return make b
    | none =>
      match f.absent with
      | some b => return make b
      | none => throw (.missingField f.name)

/-- Reads the fields from the items of a list; returns the items that are left. -/
def positional (closed : Bool) :
    {α : Type} → Record α → List Json → Except DecodeError (α × List Json)
  | _, .build a, items => .ok (a, items)
  | _, .field before f, items => do
    let (make, items) ← positional closed before items
    match items with
    | j :: rest => return (make (← f.read j), rest)
    | [] => do
      Json.closing closed
      match f.omitted with
      | some b => return (make b, [])
      | none => throw .mismatch

def read {α : Type} (r : Record α) : Reader α
  | .obj members closed => do r.finish (← r.collect closed r.empty members)
  | .arr items closed => do
    let (a, rest) ← r.positional closed items
    Json.closing (closed && rest.isEmpty)
    return a
  | j => .error j.wrongType

end Record

/-! ## whole texts -/

/-- Reads a whole text: nothing but blanks may follow the value. -/
def Document.read {α : Type} (d : Document) (read : Reader α) : Except DecodeError α := do
  let a ← read d.value
  Json.closing (!d.trailing)
  return a

end HazardDispatch
