import HazardDispatch.Text.Hex
import HazardDispatch.Text.Utf8

/-!
# Percent encoding

A byte is written as `%` and two hexadecimal digits. When reading, a percent sign that no two digits
follow stands for itself.
-/

namespace HazardDispatch.Percent

def ofByte (b : UInt8) : List Char :=
  ['%', Hex.capital (b.toNat / 16), Hex.capital (b.toNat % 16)]

/-- The characters that `keep` says stand for themselves; the bytes of all others are written out. -/
def encode (keep : Char → Bool) (cs : List Char) : List Char :=
  cs.flatMap fun c => if keep c then [c] else (String.utf8EncodeChar c).flatMap ofByte

/-- The byte that two symbols after a percent sign stand for. -/
def byte? (a b : UInt8) : Option UInt8 := do
  let x ← Hex.value? (Char.ofNat a.toNat)
  let y ← Hex.value? (Char.ofNat b.toNat)
  return .ofNat (x * 16 + y)

/-- The bytes that a written form stands for. -/
def decodeBytes : List UInt8 → List UInt8
  | [] => []
  | 0x25 :: a :: b :: r =>
    match byte? a b with
    | some x => x :: decodeBytes r
    | none => 0x25 :: decodeBytes (a :: b :: r)
  | a :: r => a :: decodeBytes r

/-- The text that a written form stands for, if its bytes spell one. -/
def decode? (s : String) : Option String := Utf8.text? (decodeBytes (Utf8.bytes s))

end HazardDispatch.Percent
