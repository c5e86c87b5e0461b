/-!
# Media types

A media type is a type and a subtype, each of them a token, and parameters after semicolons. A
subtype with a plus has a suffix, which names the format that it is built on.

`isJson` says whether a content type announces JSON: `application/json`, or another type of
application with that suffix, in letters of any case.
-/

namespace HazardDispatch.Http.MediaType

/-- The character may stand in a token. -/
def isToken (c : Char) : Bool := c.isAlphanum || "!#$%&'*+-.^_\x60|~".toList.contains c

/-- The character may stand in a quoted value. -/
def isQuotable (c : Char) : Bool := decide (32 ≤ c.toNat) && c.toNat != 127 || c == '\t'

inductive Part where
  /-- The blanks before a name. -/
  | gap
  /-- A name, after its first character. -/
  | name
  /-- The start of a value. -/
  | start
  /-- A plain value, after its first character. -/
  | plain
  /-- Inside quotes; `fresh` at their start. -/
  | quoted (fresh : Bool)
  /-- After a backslash. -/
  | escaped
  /-- After the closing quote. -/
  | closed
deriving DecidableEq, Repr

/-- The part after one more character, if it fits. -/
def Part.next (p : Part) (c : Char) : Option Part :=
  match p with
  | .gap => if c = ' ' then some .gap else if isToken c then some .name else none
  | .name => if c = '=' then some .start else if isToken c then some .name else none
  | .start =>
    if c = '"' then some (.quoted true) else if isToken c then some .plain else none
  | .plain => if c = ';' then some .gap else if isToken c then some .plain else none
  | .quoted fresh =>
    if c = '"' then (if fresh then none else some .closed)
    else if c = '\\' then some .escaped
    else if isQuotable c then some (.quoted false) else none
  | .escaped => if isQuotable c then some (.quoted false) else none
  | .closed => if c = ';' then some .gap else if c = ' ' then some .closed else none

/-- The parameters may end here. -/
def Part.mayEnd : Part → Bool
  | .gap => true
  | .start => true
  | .plain => true
  | .closed => true
  | _ => false

/-- The characters are parameters. -/
def areParameters : Part → List Char → Bool
  | p, [] => p.mayEnd
  | p, c :: cs =>
    match p.next c with
    | some q => areParameters q cs
    | none => false

/-- The subtype without its suffix, and the suffix. The plus is the last one that is not at the
start. -/
def splitSuffix (s : List Char) : List Char × Option (List Char) :=
  let suffix := (s.reverse.takeWhile (· != '+')).reverse
  let base := s.take (s.length - suffix.length - 1)
  if suffix.length < s.length ∧ base ≠ [] then (base, some suffix) else (s, none)

def isName (name : String) (s : List Char) : Bool := String.ofList (s.map Char.toLower) == name

def isJson (s : String) : Bool :=
  let cs := s.toList
  let type := cs.takeWhile isToken
  match cs.drop type.length with
  | '/' :: r =>
    let subtype := r.takeWhile isToken
    let parameters :=
      match r.drop subtype.length with
      | [] => true
      | ';' :: ps => !subtype.isEmpty && areParameters .gap ps
      | _ => false
    let (base, suffix) := splitSuffix subtype
    parameters && isName "application" type &&
      (isName "json" base || (suffix.map (isName "json")).getD false)
  | _ => false

end HazardDispatch.Http.MediaType
