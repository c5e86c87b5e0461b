/-!
# Double-precision numbers as integers times powers of two

`Binary64.ofFloat? x` is the exact value of a finite `x`: a sign, a mantissa and a binary exponent.
The mantissa is below `2 ^ 53`; it is `2 ^ 52` or more unless the exponent is the least one.
-/

namespace HazardDispatch.Decimal

/-- The value `± mantissa * 2 ^ exponent`. -/
structure Binary64 where
  negative : Bool
  mantissa : Nat
  exponent : Int
deriving DecidableEq, Repr

/-- The least exponent, that of zero and of the numbers next to it. -/
def Binary64.leastExponent : Int := -1074

/-- The parts of a finite number; nothing for infinities and for what is no number. -/
def Binary64.ofFloat? (x : Float) : Option Binary64 :=
  let bits := x.toBits.toNat
  let fraction : Nat := bits % Nat.pow 2 52
  let biased : Nat := bits / Nat.pow 2 52 % Nat.pow 2 11
  let negative := decide (Nat.pow 2 63 ≤ bits)
  if biased = 2047 then none
  else if biased = 0 then some ⟨negative, fraction, leastExponent⟩
  else some ⟨negative, Nat.pow 2 52 + fraction, (biased : Int) - 1075⟩

/-- The gap below the number is half the gap above it: it is the least of its binade, and there is
a smaller binade. -/
def Binary64.narrowBelow (x : Binary64) : Bool :=
  x.mantissa == Nat.pow 2 52 && decide (leastExponent < x.exponent)

end HazardDispatch.Decimal
