import HazardDispatch.Decimal.Shortest
import HazardDispatch.Word64

/-!
# Decimal numerals

A numeral is kept as it is written: sign, whole digits, digits after the point, exponent.

* `Numeral.text`      the written form; an exponent carries its sign;
* `Numeral.ofNat`, `Numeral.ofFloat?`   the numeral of a number;
* `Numeral.natural?`  the number, when the numeral is a plain whole number;
* `Numeral.float?`    the double that is read for the numeral, when it is in range.

Reading a double takes the leading digits as far as they fit into 64 bits, and scales them by powers
of ten in double-precision arithmetic.
-/

namespace HazardDispatch.Decimal

/-- The power of ten in a numeral. -/
structure Exponent where
  negative : Bool
  digits : List Digit
deriving DecidableEq, Repr

structure Numeral where
  negative : Bool
  whole : List Digit
  fraction : List Digit
  exponent : Option Exponent
deriving DecidableEq, Repr

namespace Numeral

def exponentText : Option Exponent → List Char
  | none => []
  | some e => 'e' :: (if e.negative then '-' else '+') :: Decimal.text e.digits

def fractionText : List Digit → List Char
  | [] => []
  | ds => '.' :: Decimal.text ds

def text (n : Numeral) : List Char :=
  (if n.negative then ['-'] else []) ++ Decimal.text n.whole ++ fractionText n.fraction ++
    exponentText n.exponent

def ofNat (n : Nat) : Numeral := ⟨false, digits n, [], none⟩

/-- The natural number that the numeral denotes, if it has neither sign, point nor exponent. -/
def natural? (n : Numeral) : Option Nat :=
  if n.negative || !n.fraction.isEmpty || n.exponent.isSome then none else some (value n.whole)

@[simp] theorem natural?_ofNat (n : Nat) : (ofNat n).natural? = some n := by
  simp [ofNat, natural?, value_digits]

/-! ## writing a double -/

/-- The digits at and after the point of `ds * 10 ^ (e - length + 1)`, in positional notation. -/
def positional (ds : List Digit) (e : Int) : List Digit × List Digit :=
  if e < 0 then ([Digit.zero], List.replicate (-e - 1).toNat Digit.zero ++ ds)
  else
    let n := e.toNat + 1
    (ds.take n ++ List.replicate (n - ds.length) Digit.zero, ds.drop n)

structure Format where
  /-- Which of two equally near digit strings is written. -/
  tie : Tie
  /-- Positional notation for leading exponents from `least` to below `bound`; nothing to write
  every number so. -/
  positional : Option (Int × Int)
  /-- A whole number keeps one zero after the point. -/
  pointZero : Bool

/-- The numeral of a finite double. -/
def ofFloat? (f : Format) (x : Float) : Option Numeral := do
  let b ← Binary64.ofFloat? x
  let zero := if f.pointZero then [Digit.zero] else []
  if b.mantissa = 0 then
    return ⟨b.negative, [Digit.zero], zero, none⟩
  let (ds, e) := (b.shortest f.tie).leading
  let inside := match f.positional with
    | none => true
    | some (least, bound) => decide (least ≤ e ∧ e < bound)
  if inside then
    let (whole, fraction) := positional ds e
    return ⟨b.negative, whole, if fraction.isEmpty then zero else fraction, none⟩
  else
    return ⟨b.negative, ds.take 1, ds.drop 1, some ⟨decide (e < 0), digits e.natAbs⟩⟩

/-! ## reading a double -/

/-- `10 ^ n` as a double, for `n` up to 308. -/
def tenPower (n : Nat) : Float := Float.ofScientific 1 false n

/-- The whole number that the digits extend `s` to, as long as it stays below `Word64.bound`, and the
digits that are left. -/
def gather (s : Nat) : List Digit → Nat × List Digit
  | [] => (s, [])
  | d :: ds => if s * 10 + d.val < Word64.bound then gather (s * 10 + d.val) ds else (s, d :: ds)

/-- `x / 10 ^ n`, by steps of at most `10 ^ 308`. -/
def shrink (x : Float) (n : Nat) : Float :=
  if n ≤ 308 then x / tenPower n
  else if x == 0 then x
  else shrink (x / tenPower 308) (n - 308)
termination_by n

/-- `x * 10 ^ e`, unless that is too large for a double. -/
def scale? (x : Float) (e : Int) : Option Float :=
  if e < 0 then some (shrink x e.natAbs)
  else if e ≤ 308 then
    let y := x * tenPower e.natAbs
    if y.isInf then none else some y
  else if x == 0 then some x else none

/-- The double that is read for a numeral; nothing if it is out of range. -/
def float? (n : Numeral) : Option Float := do
  let (s, dropped) := gather 0 n.whole
  let (s, ignored) := gather s n.fraction
  let point := (dropped.length : Int) - (n.fraction.length - ignored.length : Nat)
  let e := match n.exponent with
    | none => point
    | some e => if e.negative then point - value e.digits else point + value e.digits
  let x ← scale? (Float.ofNat s) e
  return if n.negative then -x else x

end Numeral
end HazardDispatch.Decimal
