/-!
# Base64 text

Three bytes are four letters of the standard alphabet, six bits each. A last group of one or two
bytes is padded with `=` to four letters. Reading is strict: whole groups only, padding only at the
end, nothing outside the alphabet, and the bits of the last letter that belong to no byte are zero.
So each byte list has one written form, and `decode` accepts exactly the written forms.
-/

namespace HazardDispatch.Base64

/-- The letter of a number below 64. -/
def letter (n : Nat) : Char :=
  if n < 26 then Char.ofNat (65 + n)
  else if n < 52 then Char.ofNat (97 + (n - 26))
  else if n < 62 then Char.ofNat (48 + (n - 52))
  else if n = 62 then '+'
  else '/'

def sextet? (c : Char) : Option Nat :=
  let n := c.toNat
  if 65 ≤ n ∧ n < 91 then some (n - 65)
  else if 97 ≤ n ∧ n < 123 then some (n - 97 + 26)
  else if 48 ≤ n ∧ n < 58 then some (n - 48 + 52)
  else if c = '+' then some 62
  else if c = '/' then some 63
  else none

def encode : List UInt8 → List Char
  | [] => []
  | [a] => [letter (a.toNat / 4), letter (a.toNat % 4 * 16), '=', '=']
  | [a, b] =>
    [letter (a.toNat / 4), letter (a.toNat % 4 * 16 + b.toNat / 16),
      letter (b.toNat % 16 * 4), '=']
  | a :: b :: c :: r =>
    letter (a.toNat / 4) :: letter (a.toNat % 4 * 16 + b.toNat / 16) ::
      letter (b.toNat % 16 * 4 + c.toNat / 64) :: letter (c.toNat % 64) :: encode r

/-- The bytes of a written form; nothing for any other text. -/
def decode : List Char → Option (List UInt8)
  | [] => some []
  | [p, q, '=', '='] => do
    let x ← sextet? p
    let y ← sextet? q
    if y % 16 = 0 then some [.ofNat (x * 4 + y / 16)] else none
  | [p, q, r, '='] => do
    let x ← sextet? p
    let y ← sextet? q
    let z ← sextet? r
    if z % 4 = 0 then some [.ofNat (x * 4 + y / 16), .ofNat (y % 16 * 16 + z / 4)] else none
  | p :: q :: r :: s :: t => do
    let x ← sextet? p
    let y ← sextet? q
    let z ← sextet? r
    let w ← sextet? s
    let rest ← decode t
    some (.ofNat (x * 4 + y / 16) :: .ofNat (y % 16 * 16 + z / 4) ::
      .ofNat (z % 4 * 64 + w) :: rest)
  | _ => none

end HazardDispatch.Base64
