import HazardDispatch.Text.Utf8
import HazardDispatch.Decimal.Numeral

/-!
# JSON documents as trees

A document is kept as far as it is well formed. Where the text goes wrong, the tree says so: a value
that is no JSON value is `broken`, and a list or an object that is cut short is not `closed`. What
stands before that place is in the tree, so a reader that walks the tree from left to right meets
the same first problem as one that walks the text.

The leaves are kept as written: a numeral with its digits, a string as its pieces. Whether a string
spells a text is a question of its own (`Body.text?`): an escape can name half of a surrogate pair.
-/

namespace HazardDispatch

/-- One piece of a written string. -/
inductive Piece where
  /-- A symbol that stands for itself. -/
  | plain (s : Symbol)
  /-- An escape of one letter, and the character that it stands for. -/
  | short (letter c : Char)
  /-- An escape of four hexadecimal digits. -/
  | unit (n : Nat)
deriving DecidableEq, Repr

/-- What stands between the quotes of a string. -/
abbrev Body := List Piece

/-- A JSON value, as far as its text is well formed. -/
inductive Json where
  | null
  | bool (b : Bool)
  | num (n : Decimal.Numeral)
  | str (body : Body)
  | arr (items : List Json) (closed : Bool)
  | obj (members : List (Body × Json)) (closed : Bool)
  | broken
deriving Repr

/-! ## strings -/

namespace Body

/-- The character of a surrogate pair, if `hi` and `lo` are one. -/
def pair? (hi lo : Nat) : Option Char :=
  if 0xD800 ≤ hi ∧ hi < 0xDC00 ∧ 0xDC00 ≤ lo ∧ lo < 0xE000 then
    some (Char.ofNat (0x10000 + (hi - 0xD800) * 0x400 + (lo - 0xDC00)))
  else none

/-- The character of a single code unit, unless it is a surrogate. -/
def single? (n : Nat) : Option Char :=
  if n < 0xD800 ∨ 0xE000 ≤ n then some (Char.ofNat n) else none

/-- The characters that the pieces spell: no stray byte, and surrogates in pairs only. -/
def chars? : Body → Option (List Char)
  | [] => some []
  | .plain (.char c) :: r => (chars? r).map (c :: ·)
  | .plain (.stray _) :: _ => none
  | .short _ c :: r => (chars? r).map (c :: ·)
  | .unit n :: .unit m :: r =>
    match single? n with
    | some c => (chars? (.unit m :: r)).map (c :: ·)
    | none => (pair? n m).bind fun c => (chars? r).map (c :: ·)
  | .unit n :: r => (single? n).bind fun c => (chars? r).map (c :: ·)

def text? (b : Body) : Option String := (chars? b).map String.ofList

/-- The letter that escapes a character, for those that have one. -/
def shortLetter? (c : Char) : Option Char :=
  if c = '"' then some '"'
  else if c = '\\' then some '\\'
  else if c = '\x08' then some 'b'
  else if c = '\x0c' then some 'f'
  else if c = '\n' then some 'n'
  else if c = '\r' then some 'r'
  else if c = '\t' then some 't'
  else none

/-- How a character is written: escaped if it is a quote, a backslash or a control character, and
as itself otherwise. -/
def piece (c : Char) : Piece :=
  match shortLetter? c with
  | some l => .short l c
  | none => if c.toNat < 0x20 then .unit c.toNat else .plain (.char c)

def ofText (s : String) : Body := s.toList.map piece

end Body

/-! ## building values -/

namespace Json

def text (s : String) : Json := .str (Body.ofText s)

def nat (n : Nat) : Json := .num (.ofNat n)

def int (i : Int) : Json := .num ⟨decide (i < 0), Decimal.digits i.natAbs, [], none⟩

def list (items : List Json) : Json := .arr items true

/-- An object, its members in the given order. -/
def record (members : List (String × Json)) : Json :=
  .obj (members.map fun (k, v) => (Body.ofText k, v)) true

/-- Numbers are written with the fewest digits that read back: with a point for leading exponents
from -5 to 15, with an exponent beyond, and never as a bare whole number. -/
def floatFormat : Decimal.Numeral.Format := ⟨.even, some (-5, 16), true⟩

/-- A double; `null` if it is not finite. -/
def float (x : Float) : Json :=
  match Decimal.Numeral.ofFloat? floatFormat x with
  | some n => .num n
  | none => .null

/-- A value that may be missing, `null` then. -/
def option {α : Type} (write : α → Json) : Option α → Json
  | none => .null
  | some a => write a

mutual

/-- The text of the value is well formed to its end. -/
def whole : Json → Bool
  | .broken => false
  | .arr items closed => closed && wholeItems items
  | .obj members closed => closed && wholeMembers members
  | _ => true

def wholeItems : List Json → Bool
  | [] => true
  | j :: js => whole j && wholeItems js

def wholeMembers : List (Body × Json) → Bool
  | [] => true
  | (_, j) :: ms => whole j && wholeMembers ms

end

end Json
end HazardDispatch
