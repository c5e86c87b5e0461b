import HazardDispatch.Stats.Scalar

/-!
# Running statistics

Count, sum, spread and extremes of a stream of samples, without keeping the samples.

The spread is kept as the sum of squared distances from the mean. A new sample `x` moves the centre
from `c` to `c'` and adds `(x - c) * (x - c')`, which is what the definition grows by; unlike a
difference of sums this loses nothing when the samples are large and nearly equal.
-/

namespace HazardDispatch

structure RunningStats (F : Type) where
  count : Nat
  sum : F
  /-- The mean, moved with every sample. -/
  centre : F
  /-- The sum of squared distances from the mean. -/
  m2 : F
  least : Option F
  greatest : Option F

namespace RunningStats

variable {F : Type} [Add F] [Sub F] [Mul F] [Div F] [Scalar F]

def empty : RunningStats F := ⟨0, Scalar.ofNat 0, Scalar.ofNat 0, Scalar.ofNat 0, none, none⟩

def push (s : RunningStats F) (x : F) : RunningStats F :=
  let count := s.count + 1
  let delta := x - s.centre
  let centre := s.centre + delta / Scalar.ofNat count
  { count, sum := s.sum + x, centre, m2 := s.m2 + delta * (x - centre)
    least := some (Scalar.lesser s.least x)
    greatest := some (Scalar.greater s.greatest x) }

def ofSamples (xs : List F) : RunningStats F := xs.foldl push empty

/-- The mean, if there is a sample. -/
def mean? (s : RunningStats F) : Option F :=
  if s.count = 0 then none else some (s.sum / Scalar.ofNat s.count)

/-- The sample variance, if there are two samples: one sample has no spread. -/
def variance? (s : RunningStats F) : Option F :=
  if s.count < 2 then none else some (s.m2 / Scalar.ofNat (s.count - 1))

def stddev? (s : RunningStats F) : Option F := s.variance?.map Scalar.sqrt

end RunningStats
end HazardDispatch
