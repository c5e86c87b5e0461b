import HazardDispatch.Decimal.Binary64
import HazardDispatch.Proofs.Table.Gathering
import HazardDispatch.Stats.Metrics
import Mathlib.Algebra.BigOperators.Ring.List
import Mathlib.Analysis.Real.Sqrt
import Mathlib.Tactic.FieldSimp
import Mathlib.Tactic.LinearCombination
import Mathlib.Tactic.Ring

/-!
# Figures in exact arithmetic

`ExactScalar F` says that figures are computed in an ordered field, without rounding. What number a
double stands for is left open there; for the real numbers it is its exact value.

In exact arithmetic running statistics are what they are defined to be: `s.Describes xs` gives count,
sum, mean, sum of squared distances from the mean, and extremes of the samples `xs` by their
definitions, and one more sample keeps it (`Describes.push`). The only step with an argument in it is
the sum of squares: around any point `c` it is `∑ x² - 2 c ∑ x + n c²` (`sum_squares_around`).

None of these definitions looks at the order of the samples, so neither do the figures by operation
(`Metrics.eq_of_perm`).
-/

namespace HazardDispatch

/-- Numbers that are computed with exactly. -/
class ExactScalar (F : Type) [Field F] [LinearOrder F] [Scalar F] : Prop
    extends IsStrictOrderedRing F where
  ofNat (n : Nat) : (Scalar.ofNat n : F) = n
  less (a b : F) : Scalar.less a b = decide (a < b)
  lesser_none (x : F) : Scalar.lesser none x = x
  lesser_some (a x : F) : Scalar.lesser (some a) x = min a x
  greater_none (x : F) : Scalar.greater none x = x
  greater_some (a x : F) : Scalar.greater (some a) x = max a x

/-! ## real numbers -/

/-- The value of a finite double. -/
noncomputable def Decimal.Binary64.toReal (x : Decimal.Binary64) : ℝ :=
  (if x.negative then -1 else 1) * x.mantissa * (2 : ℝ) ^ x.exponent

/-- Doubles are measured as what they are; what is no number, and infinity, counts as nothing. -/
noncomputable instance : Scalar ℝ where
  ofNat n := n
  ofFloat x := ((Decimal.Binary64.ofFloat? x).map (·.toReal)).getD 0
  sqrt := Real.sqrt
  lesser a x := (a.map (min · x)).getD x
  greater a x := (a.map (max · x)).getD x
  less a b := decide (a < b)

instance : ExactScalar ℝ where
  ofNat _ := rfl
  less _ _ := rfl
  lesser_none _ := rfl
  lesser_some _ _ := rfl
  greater_none _ := rfl
  greater_some _ _ := rfl

/-! ## samples -/

namespace Samples

section
variable {F : Type} [Field F]

def mean (xs : List F) : F := xs.sum / xs.length

/-- The sum of squared distances from the mean. -/
def spread (xs : List F) : F := (xs.map fun x => (x - mean xs) ^ 2).sum

theorem sum_squares_around (c : F) (xs : List F) : (xs.map fun x => (x - c) ^ 2).sum
    = (xs.map (· ^ 2)).sum - 2 * c * xs.sum + xs.length * c ^ 2 := by
  induction xs with
  | nil => simp
  | cons x xs ih =>
    simp only [List.map_cons, List.sum_cons, List.length_cons, Nat.cast_add, Nat.cast_one, ih]
    ring

variable [LinearOrder F] [IsStrictOrderedRing F]

theorem length_mul_mean (xs : List F) : xs.length * mean xs = xs.sum := by
  cases xs with
  | nil => simp
  | cons x xs =>
    have hlength : ((x :: xs).length : F) ≠ 0 := Nat.cast_ne_zero.mpr (by simp)
    rw [mean, mul_div_cancel₀ _ hlength]

theorem mean_concat (xs : List F) (x : F) :
    mean (xs ++ [x]) = mean xs + (x - mean xs) / (xs.length + 1 : Nat) := by
  have hlength : ((xs.length + 1 : Nat) : F) ≠ 0 := Nat.cast_ne_zero.mpr (Nat.succ_ne_zero _)
  have hmean := length_mul_mean xs
  rw [mean, List.sum_append, List.sum_singleton, List.length_append, List.length_singleton]
  rw [div_eq_iff hlength, add_mul, div_mul_cancel₀ _ hlength, ← hmean]
  push_cast
  ring

theorem spread_concat (xs : List F) (x : F) :
    spread (xs ++ [x]) = spread xs + (x - mean xs) * (x - mean (xs ++ [x])) := by
  have hbefore := length_mul_mean xs
  have hafter := length_mul_mean (xs ++ [x])
  -- both spreads as sums of squares around zero, so that only sums and the two means are left
  simp only [spread, sum_squares_around]
  simp only [List.map_append, List.map_cons, List.map_nil, List.sum_append, List.sum_singleton,
    List.length_append, List.length_singleton, Nat.cast_add, Nat.cast_one] at hafter ⊢
  generalize mean (xs ++ [x]) = c' at *
  linear_combination (c' - mean xs) * (hafter + hbefore)
end

section
variable {F : Type} [LinearOrder F] {xs ys : List F}

theorem min?_concat (xs : List F) (x : F) :
    (xs ++ [x]).min? = some (xs.min?.elim x (min · x)) := by
  cases xs with
  | nil => rfl
  | cons y ys => simp only [List.cons_append, List.min?_cons', List.foldl_append, List.foldl_cons,
      List.foldl_nil, Option.elim_some]

theorem max?_concat (xs : List F) (x : F) :
    (xs ++ [x]).max? = some (xs.max?.elim x (max · x)) := by
  cases xs with
  | nil => rfl
  | cons y ys => simp only [List.cons_append, List.max?_cons', List.foldl_append, List.foldl_cons,
      List.foldl_nil, Option.elim_some]

theorem min?_eq_of_perm (h : xs.Perm ys) : xs.min? = ys.min? := by
  ext m
  rw [List.min?_eq_some_iff, List.min?_eq_some_iff]
  simp only [h.mem_iff]

theorem max?_eq_of_perm (h : xs.Perm ys) : xs.max? = ys.max? := by
  ext m
  rw [List.max?_eq_some_iff, List.max?_eq_some_iff]
  simp only [h.mem_iff]

end
end Samples

/-! ## running statistics -/

section
variable {F : Type} [Field F] [LinearOrder F] [Scalar F]

structure RunningStats.Describes (s : RunningStats F) (xs : List F) : Prop where
  count : s.count = xs.length
  sum : s.sum = xs.sum
  centre : s.centre = Samples.mean xs
  m2 : s.m2 = Samples.spread xs
  least : s.least = xs.min?
  greatest : s.greatest = xs.max?

structure OperationFigures.Describes (a : OperationFigures F) (rs : List TaskResult) : Prop where
  durations : a.durations.Describes
    ((rs.filter (·.isSuccess)).map fun r => Scalar.ofFloat r.duration)
  maxMemory : a.maxMemory
    = ((rs.filter (·.isSuccess)).map fun r => Scalar.ofFloat r.peakMemory).foldl max 0
  failures : a.failures = rs.countP (!·.isSuccess)

def Metrics.Describes (m : Metrics F) (rs : List TaskResult) : Prop :=
  m.operations.Gathers (·.operation) OperationFigures.Describes rs

variable [ExactScalar F]

namespace RunningStats

theorem describes_empty : (empty : RunningStats F).Describes [] where
  count := rfl
  sum := by simp [empty, ExactScalar.ofNat]
  centre := by simp [empty, ExactScalar.ofNat, Samples.mean]
  m2 := by simp [empty, ExactScalar.ofNat, Samples.spread]
  least := rfl
  greatest := rfl

theorem Describes.push {s : RunningStats F} {xs : List F} (h : s.Describes xs) (x : F) :
    (s.push x).Describes (xs ++ [x]) := by
  have hcentre : (s.push x).centre = Samples.mean (xs ++ [x]) := by
    rw [Samples.mean_concat, ← h.centre, ← h.count, ← ExactScalar.ofNat]
    rfl
  constructor
  · show s.count + 1 = _
    rw [h.count, List.length_append, List.length_singleton]
  · show s.sum + x = _
    rw [h.sum, List.sum_append, List.sum_singleton]
  · exact hcentre
  · show s.m2 + (x - s.centre) * (x - (s.push x).centre) = _
    rw [Samples.spread_concat, h.m2, hcentre, h.centre]
  · show some (Scalar.lesser s.least x) = _
    rw [Samples.min?_concat, ← h.least]
    cases s.least with
    | none => rw [ExactScalar.lesser_none, Option.elim_none]
    | some a => rw [ExactScalar.lesser_some, Option.elim_some]
  · show some (Scalar.greater s.greatest x) = _
    rw [Samples.max?_concat, ← h.greatest]
    cases s.greatest with
    | none => rw [ExactScalar.greater_none, Option.elim_none]
    | some a => rw [ExactScalar.greater_some, Option.elim_some]

omit [Scalar F] [ExactScalar F] in
theorem Describes.eq_of_perm {s s' : RunningStats F} {xs xs' : List F} (h : s.Describes xs)
    (h' : s'.Describes xs') (hp : xs.Perm xs') : s = s' := by
  have hmean : Samples.mean xs = Samples.mean xs' := by
    rw [Samples.mean, Samples.mean, hp.sum_eq, hp.length_eq]
  have hspread : Samples.spread xs = Samples.spread xs' := by
    rw [Samples.spread, Samples.spread, hmean]
    exact (hp.map _).sum_eq
  obtain ⟨count, sum, centre, m2, least, greatest⟩ := s
  obtain ⟨count', sum', centre', m2', least', greatest'⟩ := s'
  rw [RunningStats.mk.injEq]
  exact ⟨(h.count.trans hp.length_eq).trans h'.count.symm,
    (h.sum.trans hp.sum_eq).trans h'.sum.symm, (h.centre.trans hmean).trans h'.centre.symm,
    (h.m2.trans hspread).trans h'.m2.symm,
    (h.least.trans (Samples.min?_eq_of_perm hp)).trans h'.least.symm,
    (h.greatest.trans (Samples.max?_eq_of_perm hp)).trans h'.greatest.symm⟩

end RunningStats

/-! ## figures by operation -/

namespace OperationFigures

theorem describes_empty : (empty : OperationFigures F).Describes [] where
  durations := RunningStats.describes_empty
  maxMemory := by simp [empty, ExactScalar.ofNat]
  failures := rfl

theorem Describes.record {a : OperationFigures F} {rs : List TaskResult} (h : a.Describes rs)
    (r : TaskResult) : (a.record r).Describes (rs ++ [r]) := by
  unfold OperationFigures.record
  cases hr : r.isSuccess with
  | true =>
    have hrs : (rs ++ [r]).filter (·.isSuccess) = rs.filter (·.isSuccess) ++ [r] := by simp [hr]
    constructor
    · rw [hrs, List.map_append]
      exact h.durations.push _
    · rw [hrs, List.map_append, List.foldl_append, ← h.maxMemory]
      exact ExactScalar.greater_some _ _
    · simpa [hr] using h.failures
  | false =>
    have hrs : (rs ++ [r]).filter (·.isSuccess) = rs.filter (·.isSuccess) := by simp [hr]
    constructor
    · rw [hrs]
      exact h.durations
    · rw [hrs]
      exact h.maxMemory
    · simp [hr, h.failures]

omit [ExactScalar F] in
theorem Describes.eq_of_perm {a a' : OperationFigures F} {rs rs' : List TaskResult}
    (h : a.Describes rs) (h' : a'.Describes rs') (hp : rs.Perm rs') : a = a' := by
  have hsuccesses := hp.filter (·.isSuccess)
  have hmax : ∀ {xs ys : List F}, xs.Perm ys → xs.foldl max 0 = ys.foldl max 0 :=
    fun hxs => hxs.foldl_eq 0
  obtain ⟨durations, maxMemory, failures⟩ := a
  obtain ⟨durations', maxMemory', failures'⟩ := a'
  rw [OperationFigures.mk.injEq]
  exact ⟨h.durations.eq_of_perm h'.durations (hsuccesses.map _),
    (h.maxMemory.trans (hmax (hsuccesses.map _))).trans h'.maxMemory.symm,
    (h.failures.trans (hp.countP_eq _)).trans h'.failures.symm⟩

end OperationFigures

namespace Metrics

theorem Describes.record {m : Metrics F} {rs : List TaskResult} (h : m.Describes rs)
    (r : TaskResult) : (m.record r).Describes (rs ++ [r]) :=
  Table.Gathers.put h ((Table.Gathers.getD h OperationFigures.describes_empty _).record r)

theorem describes_foldl (rs : List TaskResult) :
    (rs.foldl Metrics.record (.empty : Metrics F)).Describes rs := by
  induction rs using List.reverseRecOn with
  | nil => exact Table.gathers_empty
  | append_singleton rs r ih =>
    rw [List.foldl_append]
    exact ih.record r

omit [ExactScalar F] in
theorem Describes.eq_of_perm {m m' : Metrics F} {rs rs' : List TaskResult} (h : m.Describes rs)
    (h' : m'.Describes rs') (hp : rs.Perm rs') : m = m' := by
  obtain ⟨operations⟩ := m
  obtain ⟨operations'⟩ := m'
  rw [Metrics.mk.injEq]
  exact Table.Gathers.eq_of_perm h h' hp fun k _ _ hv hv' => hv.eq_of_perm hv' (hp.filter _)

end Metrics
end
end HazardDispatch
