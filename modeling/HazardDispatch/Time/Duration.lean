import HazardDispatch.Decimal.Binary64

/-!
# Spans of time

A span is a whole number of nanoseconds. `Duration.clamped` reads seconds from a double, rounded to
the nearest nanosecond and kept between zero and a ceiling, so that every double is a span.
-/

namespace HazardDispatch

@[ext] structure Duration where
  nanos : Nat
deriving DecidableEq, Repr, Inhabited

namespace Duration

def zero : Duration := ⟨0⟩

/-- Nanoseconds in a second. -/
def nanosPerSecond : Nat := 1000000000

def ofSeconds (n : Nat) : Duration := ⟨n * nanosPerSecond⟩

def seconds (d : Duration) : Float :=
  Float.ofNat (d.nanos / nanosPerSecond) + Float.ofNat (d.nanos % nanosPerSecond) / 1e9

/-- Whole milliseconds, rounded up. -/
def millisUp (d : Duration) : Nat := (d.nanos + 999999) / 1000000

/-- `n / d` rounded to the nearest whole number, a half to the even one. -/
def roundDiv (n d : Nat) : Nat :=
  let q := n / d
  let r := 2 * (n % d)
  if r < d then q else if d < r then q + 1 else q + q % 2

/-- The nearest span to so many seconds, not more than the ceiling. Negative seconds, and what is no
number, are zero. -/
def clamped (ceiling : Duration) (seconds : Float) : Duration :=
  match Decimal.Binary64.ofFloat? seconds with
  | none => if 0 < seconds then ceiling else zero
  | some b =>
    if b.negative then zero
    else
      let nanos := roundDiv (b.mantissa * nanosPerSecond * Nat.pow 2 b.exponent.toNat)
        (Nat.pow 2 (-b.exponent).toNat)
      ⟨min nanos ceiling.nanos⟩

theorem clamped_le (ceiling : Duration) (x : Float) :
    (clamped ceiling x).nanos ≤ ceiling.nanos := by
  unfold clamped
  split
  · split <;> simp [zero]
  · split
    · simp [zero]
    · exact Nat.min_le_right ..

end Duration
end HazardDispatch
