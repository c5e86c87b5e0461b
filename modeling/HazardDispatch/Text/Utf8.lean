/-!
# Text read from bytes

A byte sequence is read as a list of symbols: characters, and bytes that belong to no character.
Keeping the stray bytes lets a reader decide where they matter: inside a text that is only skipped
they do no harm.

* `Symbol`          a character or a stray byte;
* `Utf8.symbols`    reading bytes: the longest well-formed sequence of one to four bytes is a
                    character, any other byte is stray;
* `Utf8.bytes`      writing characters;
* `Utf8.text?`      the text, when no byte is stray.
-/

namespace HazardDispatch

/-- One unit of a text that was read from bytes. -/
inductive Symbol where
  | char (c : Char)
  | stray (b : UInt8)
deriving DecidableEq, Repr

def Symbol.char? : Symbol → Option Char
  | .char c => some c
  | .stray _ => none

namespace Utf8

/-- The character with scalar value `n`, if there is one and its encoding needs `least` or more. -/
def scalar? (least n : Nat) : Option Char :=
  if h : n.isValidChar then
    if least ≤ n then some (Char.ofNatAux n h) else none
  else none

/-- The six bits of a continuation byte. -/
def tail? (b : UInt8) : Option Nat :=
  if 0x80 ≤ b.toNat ∧ b.toNat < 0xC0 then some (b.toNat - 0x80) else none

def one? (a : UInt8) : Option Char :=
  if a.toNat < 0x80 then scalar? 0 a.toNat else none

def two? (a b : UInt8) : Option Char :=
  if 0xC0 ≤ a.toNat ∧ a.toNat < 0xE0 then
    (tail? b).bind fun y => scalar? 0x80 ((a.toNat - 0xC0) * 64 + y)
  else none

def three? (a b c : UInt8) : Option Char :=
  if 0xE0 ≤ a.toNat ∧ a.toNat < 0xF0 then
    (tail? b).bind fun y => (tail? c).bind fun z =>
      scalar? 0x800 ((a.toNat - 0xE0) * 4096 + y * 64 + z)
  else none

def four? (a b c d : UInt8) : Option Char :=
  if 0xF0 ≤ a.toNat ∧ a.toNat < 0xF8 then
    (tail? b).bind fun y => (tail? c).bind fun z => (tail? d).bind fun w =>
      scalar? 0x10000 ((a.toNat - 0xF0) * 262144 + y * 4096 + z * 64 + w)
  else none

/-- The character that starts with byte `a`, and how many of the bytes `r` after it belong to it. -/
def leading? (a : UInt8) (r : List UInt8) : Option (Char × Nat) :=
  match one? a, r with
  | some x, _ => some (x, 0)
  | none, [] => none
  | none, [b] => (two? a b).map (·, 1)
  | none, [b, c] => (two? a b).map (·, 1) <|> (three? a b c).map (·, 2)
  | none, b :: c :: d :: _ =>
    (two? a b).map (·, 1) <|> (three? a b c).map (·, 2) <|> (four? a b c d).map (·, 3)

/-- The symbols of the bytes after the first `k`, which belong to a character already read. -/
def symbolsAfter : Nat → List UInt8 → List Symbol
  | _, [] => []
  | k + 1, _ :: r => symbolsAfter k r
  | 0, a :: r =>
    match leading? a r with
    | some (x, k) => .char x :: symbolsAfter k r
    | none => .stray a :: symbolsAfter 0 r

/-- The symbols of a byte sequence, from left to right. -/
def symbols (bs : List UInt8) : List Symbol := symbolsAfter 0 bs

def bytes (s : String) : List UInt8 := s.toList.flatMap String.utf8EncodeChar

/-- The text that the bytes spell, if they spell one. -/
def text? (bs : List UInt8) : Option String :=
  ((symbols bs).mapM Symbol.char?).map String.ofList

def ofText (s : String) : List Symbol := s.toList.map .char

end Utf8
end HazardDispatch
