import HazardDispatch.Decimal.Digits
import HazardDispatch.Decimal.Binary64

/-!
# The fewest digits that read back

The reals that round to a double form an interval around it, ends included iff its mantissa is even.
`Binary64.shortest` looks for a decimal with few digits in that interval: for one digit, two digits,
up to seventeen, it tests the two neighbours of the value on that decimal grid. If any point of a
grid lies in the interval, so does one of the two neighbours, so the first grid with a hit has the
fewest digits. Of two hits the nearer is taken, and `tie` decides when both are equally near.

All tests are made on natural numbers: value, ends and grid point are brought to one denominator.
-/

namespace HazardDispatch.Decimal

/-- Which of two equally near candidates is taken. -/
inductive Tie where
  | even
  | up
deriving DecidableEq, Repr

/-- A decimal `digits * 10 ^ exponent`. -/
structure Scaled where
  digits : Nat
  exponent : Int
deriving DecidableEq, Repr

/-- A double and its interval, all over the same denominator. -/
structure Span where
  low : Nat
  value : Nat
  high : Nat
  denominator : Nat
  closed : Bool

/-- The span of a double, measured in units of `10 ^ k`. -/
def Binary64.span (x : Binary64) (k : Int) : Span :=
  let num := Nat.pow 2 x.exponent.toNat * Nat.pow 10 (-k).toNat
  { low := (4 * x.mantissa - if x.narrowBelow then 1 else 2) * num
    value := 4 * x.mantissa * num
    high := (4 * x.mantissa + 2) * num
    denominator := 4 * Nat.pow 2 (-x.exponent).toNat * Nat.pow 10 k.toNat
    closed := x.mantissa % 2 == 0 }

/-- The grid point `c` lies in the span. -/
def Span.contains (s : Span) (c : Nat) : Bool :=
  if s.closed then s.low ≤ c * s.denominator && c * s.denominator ≤ s.high
  else s.low < c * s.denominator && c * s.denominator < s.high

/-- The better of the two grid points next to the value that lie in the span, if one does. -/
def Span.neighbour? (s : Span) (tie : Tie) : Option Nat :=
  let c := s.value / s.denominator
  let below := s.value - c * s.denominator
  let above := (c + 1) * s.denominator - s.value
  match s.contains c, s.contains (c + 1) with
  | true, false => some c
  | false, true => some (c + 1)
  | false, false => none
  | true, true =>
    if below < above then some c
    else if above < below then some (c + 1)
    else match tie with
      | .up => some (c + 1)
      | .even => some (if c % 2 = 0 then c else c + 1)

/-- The exponent of the leading digit of a positive double: `e` with `10 ^ e ≤ x < 10 ^ (e + 1)`.
Every positive double is at least `10 ^ (-400)`, so its multiple by `10 ^ 400` has a whole part with
`e + 401` digits. -/
def Binary64.leadingExponent (x : Binary64) : Int :=
  let s := x.span (-400)
  ((Decimal.digits (s.value / s.denominator)).length : Int) - 401

/-- A decimal with the fewest digits that reads back as the positive double `x`. -/
def Binary64.shortest (tie : Tie) (x : Binary64) : Scaled :=
  let e := x.leadingExponent
  let found := (List.range 17).findSome? fun (n : Nat) =>
    let k : Int := e - n
    ((x.span k).neighbour? tie).map fun c => (⟨c, k⟩ : Scaled)
  found.getD ⟨x.mantissa, x.exponent⟩

/-- The digits of a decimal without zeros at its end, and the exponent of its leading digit. -/
def Scaled.leading (s : Scaled) : List Digit × Int :=
  let ds := Decimal.digits s.digits
  let kept := (ds.reverse.dropWhile (· == Digit.zero)).reverse
  (kept, s.exponent + ds.length - 1)

end HazardDispatch.Decimal
