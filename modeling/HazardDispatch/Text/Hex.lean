/-!
# Hexadecimal digits

`digit` writes a number below sixteen, in small letters or capitals; `value?` reads either.
-/

namespace HazardDispatch.Hex

/-- The digit of a number below sixteen, in small letters. -/
def digit (n : Nat) : Char :=
  if n < 10 then Char.ofNat (48 + n) else Char.ofNat (87 + n)

/-- The digit of a number below sixteen, in capitals. -/
def capital (n : Nat) : Char :=
  if n < 10 then Char.ofNat (48 + n) else Char.ofNat (55 + n)

/-- The number of a digit, written in either case. -/
def value? (c : Char) : Option Nat :=
  let n := c.toNat
  if 48 ≤ n ∧ n < 58 then some (n - 48)
  else if 97 ≤ n ∧ n < 103 then some (n - 87)
  else if 65 ≤ n ∧ n < 71 then some (n - 55)
  else none

def ofBytes (bs : List UInt8) : String :=
  String.ofList (bs.flatMap fun b => [digit (b.toNat / 16), digit (b.toNat % 16)])

/-- The bytes that pairs of digits stand for. -/
def toBytes? : List Char → Option (List UInt8)
  | [] => some []
  | a :: b :: r => do
    let x ← value? a
    let y ← value? b
    let rest ← toBytes? r
    some (.ofNat (x * 16 + y) :: rest)
  | [_] => none

end HazardDispatch.Hex
