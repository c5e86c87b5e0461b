import HazardDispatch.Json.Syntax
import HazardDispatch.Text.Pieces
import HazardDispatch.Text.Hex

/-!
# Reading JSON text

`Json.value` reads one value from a list of symbols and returns it with the symbols after it. At the
first place where the text is malformed it gives up the rest: the value there is `broken`, and every
list and object around it stays unclosed.

The fuel of the mutual functions counts nested steps. A value and the separator before it take at
most two steps and at least one symbol, so twice the length of the text is more than enough; the
wrappers `Json.parse` and `Document.ofSymbols` show none.
-/

namespace HazardDispatch

open Decimal (Digit Numeral Exponent)

/-! ## lexical forms -/

/-- The four symbols before `r` are hexadecimal digits: their number. -/
def Piece.unit? (a b c d : Symbol) : Option Nat := do
  let x ← a.char?.bind Hex.value?
  let y ← b.char?.bind Hex.value?
  let z ← c.char?.bind Hex.value?
  let w ← d.char?.bind Hex.value?
  return x * 4096 + y * 256 + z * 16 + w

/-- The character of a one-letter escape. -/
def Piece.short? (letter : Char) : Option Char :=
  match letter with
  | '"' => some '"'
  | '\\' => some '\\'
  | '/' => some '/'
  | 'b' => some '\x08'
  | 'f' => some '\x0c'
  | 'n' => some '\n'
  | 'r' => some '\r'
  | 't' => some '\t'
  | _ => none

/-- The symbol may stand for itself inside a string. -/
def Piece.isPlain : Symbol → Bool
  | .char c => 0x20 ≤ c.toNat
  | .stray _ => true

/-- The pieces of a string up to its closing quote, and the symbols after it. -/
def Body.scan : List Symbol → Option (Body × List Symbol)
  | [] => none
  | .char '"' :: r => some ([], r)
  | .char '\\' :: .char 'u' :: a :: b :: c :: d :: r =>
    (Piece.unit? a b c d).bind fun n => (scan r).map fun (ps, t) => (.unit n :: ps, t)
  | .char '\\' :: .char l :: r =>
    (Piece.short? l).bind fun c => (scan r).map fun (ps, t) => (.short l c :: ps, t)
  | .char '\\' :: _ => none
  | s :: r => if Piece.isPlain s then (scan r).map fun (ps, t) => (.plain s :: ps, t) else none

def scanDigits (s : List Symbol) : List Digit × List Symbol :=
  Text.takeValues (fun a => a.char?.bind Digit.ofChar?) s

/-- The digits at the start, at least one. -/
def scanDigits1 (s : List Symbol) : Option (List Digit × List Symbol) :=
  match scanDigits s with
  | ([], _) => none
  | r => some r

/-- The whole part of a numeral: a zero alone, or digits that start with another one. -/
def scanWhole (s : List Symbol) : Option (List Digit × List Symbol) :=
  (scanDigits1 s).bind fun (ds, r) =>
    if ds.head? = some Digit.zero ∧ 1 < ds.length then none else some (ds, r)

def scanFraction : List Symbol → Option (List Digit × List Symbol)
  | .char '.' :: r => scanDigits1 r
  | r => some ([], r)

/-- The sign of an exponent, `true` for minus. -/
def scanSign : List Symbol → Bool × List Symbol
  | .char '+' :: r => (false, r)
  | .char '-' :: r => (true, r)
  | r => (false, r)

def scanPower (s : List Symbol) : Option (Option Exponent × List Symbol) :=
  let (negative, r) := scanSign s
  (scanDigits1 r).map fun (ds, t) => (some ⟨negative, ds⟩, t)

def scanExponent : List Symbol → Option (Option Exponent × List Symbol)
  | .char 'e' :: r => scanPower r
  | .char 'E' :: r => scanPower r
  | r => some (none, r)

def scanUnsigned (negative : Bool) (s : List Symbol) : Option (Numeral × List Symbol) := do
  let (whole, s) ← scanWhole s
  let (fraction, s) ← scanFraction s
  let (exponent, s) ← scanExponent s
  return (⟨negative, whole, fraction, exponent⟩, s)

def scanNumeral : List Symbol → Option (Numeral × List Symbol)
  | .char '-' :: r => scanUnsigned true r
  | r => scanUnsigned false r

/-- The symbols from the first that is not blank. Blank are space, line feed, return and tab. -/
def skipBlank : List Symbol → List Symbol
  | .char ' ' :: r => skipBlank r
  | .char '\n' :: r => skipBlank r
  | .char '\r' :: r => skipBlank r
  | .char '\t' :: r => skipBlank r
  | r => r

/-! ## values -/

namespace Json

mutual

/-- The value at the start, and the symbols after it. -/
def value : Nat → List Symbol → Json × List Symbol
  | 0, _ => (.broken, [])
  | n + 1, s =>
    match skipBlank s with
    | .char '"' :: r =>
      match Body.scan r with
      | some (b, t) => (.str b, t)
      | none => (.broken, [])
    | .char '[' :: r =>
      match skipBlank r with
      | .char ']' :: t => (.arr [] true, t)
      | t => let (items, closed, u) := elements n t; (.arr items closed, u)
    | .char '{' :: r =>
      match skipBlank r with
      | .char '}' :: t => (.obj [] true, t)
      | t => let (members, closed, u) := entries n t; (.obj members closed, u)
    | .char 'n' :: .char 'u' :: .char 'l' :: .char 'l' :: r => (.null, r)
    | .char 't' :: .char 'r' :: .char 'u' :: .char 'e' :: r => (.bool true, r)
    | .char 'f' :: .char 'a' :: .char 'l' :: .char 's' :: .char 'e' :: r => (.bool false, r)
    | t =>
      match scanNumeral t with
      | some (d, r) => (.num d, r)
      | none => (.broken, [])

def elements : Nat → List Symbol → List Json × Bool × List Symbol
  | 0, _ => ([], false, [])
  | n + 1, s =>
    match value n s with
    | (.broken, _) => ([], false, [])
    | (j, r) =>
      match skipBlank r with
      | .char ',' :: t => let (js, closed, u) := elements n t; (j :: js, closed, u)
      | .char ']' :: t => ([j], true, t)
      | _ => ([j], false, [])

def entries : Nat → List Symbol → List (Body × Json) × Bool × List Symbol
  | 0, _ => ([], false, [])
  | n + 1, s =>
    match skipBlank s with
    | .char '"' :: r =>
      match Body.scan r with
      | none => ([], false, [])
      | some (k, r) =>
        match skipBlank r with
        | .char ':' :: r =>
          match value n r with
          | (.broken, _) => ([(k, .broken)], false, [])
          | (j, r) =>
            match skipBlank r with
            | .char ',' :: t => let (ms, closed, u) := entries n t; ((k, j) :: ms, closed, u)
            | .char '}' :: t => ([(k, j)], true, t)
            | _ => ([(k, j)], false, [])
        | _ => ([(k, .broken)], false, [])
    | _ => ([], false, [])

end

/-- The value at the start of a text, and the symbols after it. -/
def parse (s : List Symbol) : Json × List Symbol := value (2 * s.length + 2) s

end Json

/-- A whole text: a value, and whether anything but blanks follows it. -/
structure Document where
  value : Json
  trailing : Bool

def Document.ofSymbols (s : List Symbol) : Document :=
  let (j, r) := Json.parse s
  ⟨j, !(skipBlank r).isEmpty⟩

def Document.ofText (s : String) : Document := .ofSymbols (Utf8.ofText s)

/-- The document that a byte sequence spells. -/
def Document.ofBytes (bs : List UInt8) : Document := .ofSymbols (Utf8.symbols bs)

end HazardDispatch
