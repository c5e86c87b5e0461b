import HazardDispatch.Proofs.Stats.Exact

/-!
# What a snapshot says

The snapshot of the metrics has a summary for each operation that occurred, and the summary goes back to
the results of the operation: `s.Recounts a rs` gives each of its figures by a definition. The sum of
squared distances is not part of the summary and is read off the figures `a` behind it. In exact
arithmetic it is the sum around the mean that is reported, though that mean is computed from the sum of
the samples and the other one is moved with every sample.
-/

namespace HazardDispatch

section
variable {F : Type} [Field F] [LinearOrder F] [Scalar F]

def TaskResult.ofSuccesses (figure : TaskResult → Float) (rs : List TaskResult) : List F :=
  (rs.filter (·.isSuccess)).map fun r => Scalar.ofFloat (figure r)

/-- The summary is that of the results of one operation, and has these figures behind it. -/
structure OperationStats.Recounts (s : OperationStats F) (a : OperationFigures F)
    (rs : List TaskResult) : Prop where
  count : s.count = rs.countP (·.isSuccess)
  failures : s.failures = rs.countP (!·.isSuccess)
  total : s.total = (TaskResult.ofSuccesses (·.duration) rs).sum
  mean : s.mean = if s.count = 0 then none else some (s.total / s.count)
  least : s.least = (TaskResult.ofSuccesses (·.duration) rs).min?
  greatest : s.greatest = (TaskResult.ofSuccesses (·.duration) rs).max?
  maxMemory : (0 :: TaskResult.ofSuccesses (·.peakMemory) rs).max? = some s.maxMemory
  m2 : a.durations.m2
    = ((TaskResult.ofSuccesses (·.duration) rs).map fun x => (x - s.total / s.count) ^ 2).sum
  m2_nonneg : 0 ≤ a.durations.m2
  stddev : s.stddev = if s.count < 2 then none
    else some (Scalar.sqrt (a.durations.m2 / (s.count - 1 : Nat)))
  missing : (s.mean = none ↔ s.count = 0) ∧ (s.least = none ↔ s.count = 0) ∧
    (s.greatest = none ↔ s.count = 0) ∧ (s.stddev = none ↔ s.count < 2)

namespace Samples
variable [IsStrictOrderedRing F]
omit [Scalar F]

theorem spread_nonneg (xs : List F) : 0 ≤ spread xs := by
  refine List.sum_nonneg fun y hy => ?_
  obtain ⟨x, -, rfl⟩ := List.mem_map.mp hy
  exact sq_nonneg _

end Samples

variable [ExactScalar F]

omit [LinearOrder F] [ExactScalar F] in
theorem RunningStats.stddev?_eq (s : RunningStats F) : s.stddev?
    = if s.count < 2 then none else some (Scalar.sqrt (s.m2 / Scalar.ofNat (s.count - 1))) := by
  rw [stddev?, variance?]
  split <;> rfl

theorem OperationFigures.Describes.recounts {a : OperationFigures F} {rs : List TaskResult}
    (h : a.Describes rs) : a.summary.Recounts a rs := by
  let xs : List F := TaskResult.ofSuccesses (·.duration) rs
  have hxs : a.durations.Describes xs := h.durations
  have hcount : a.summary.count = xs.length := hxs.count
  have hmean : a.summary.total / (a.summary.count : F) = Samples.mean xs := by
    rw [hcount, Samples.mean, ← hxs.sum]
    rfl
  have hreported : a.summary.mean = if a.summary.count = 0 then none
      else some (a.summary.total / (a.summary.count : F)) := by
    rw [← ExactScalar.ofNat]
    rfl
  have hstddev : a.summary.stddev = if a.summary.count < 2 then none
      else some (Scalar.sqrt (a.durations.m2 / (a.summary.count - 1 : Nat))) := by
    rw [← ExactScalar.ofNat]
    exact a.durations.stddev?_eq
  refine ⟨?_, h.failures, hxs.sum, hreported, hxs.least, hxs.greatest, ?_, ?_, ?_, hstddev, ?_⟩
  · rw [hcount, List.countP_eq_length_filter]
    exact List.length_map _
  · rw [List.max?_cons']
    exact congrArg some h.maxMemory.symm
  · rw [hmean]
    exact hxs.m2
  · rw [hxs.m2]
    exact Samples.spread_nonneg xs
  · have hleast : a.summary.least = xs.min? := hxs.least
    have hgreatest : a.summary.greatest = xs.max? := hxs.greatest
    rw [hreported, hleast, hgreatest, hstddev, List.min?_eq_none_iff, List.max?_eq_none_iff, hcount]
    simp

/-- After any results, in whatever order those of the operations came: the snapshot has a summary of
each operation that occurred and of no other, and it recounts the results of that operation. -/
theorem Metrics.snapshot_recounts (rs : List TaskResult) :
    let m : Metrics F := rs.foldl .record .empty
    (∀ op, m.snapshot.get? op ≠ none ↔ op ∈ rs.map (·.operation)) ∧
      ∀ op s, m.snapshot.get? op = some s → ∃ a, m.operations.get? op = some a ∧
        s.Recounts a (rs.filter fun r => r.operation = op) := by
  intro m
  have hm : m.Describes rs := describes_foldl rs
  have hsnapshot (op : Operation) :
      m.snapshot.get? op = (m.operations.get? op).map OperationFigures.summary :=
    Table.get?_mapValues _ _ op
  refine ⟨fun op => ?_, fun op s hs => ?_⟩
  · rw [hsnapshot, Ne, Option.map_eq_none_iff]
    exact hm.listed op
  · rw [hsnapshot] at hs
    obtain ⟨a, ha, rfl⟩ := Option.map_eq_some_iff.mp hs
    exact ⟨a, ha, (hm.gathered op a ha).recounts⟩

end

def someResult (op : Operation) (status : ResultStatus) (duration : Float) : TaskResult :=
  { taskId := ⟨"t1"⟩, attempt := 1, workerId := ⟨"w1"⟩, operation := op, status
    duration, peakMemory := 64, bytesSent := 0, bytesReceived := 0, payload := .empty }

/-- Two successes of one operation, and between them a failure of another one. -/
def interleaved : List TaskResult :=
  [someResult .preclassical .success 0.5, someResult .classical (.failure .timeout) 0,
    someResult .preclassical .success 1.5]

theorem Metrics.snapshot_recounts_interleaved :
    let m : Metrics ℝ := interleaved.foldl .record .empty
    (∃ s a, m.snapshot.get? .preclassical = some s ∧ s.Recounts a
        [someResult .preclassical .success 0.5, someResult .preclassical .success 1.5] ∧
      s.count = 2 ∧ s.mean = some (s.total / 2) ∧ s.stddev = some (Scalar.sqrt a.durations.m2)) ∧
    (∃ s, m.snapshot.get? .classical = some s ∧ s.failures = 1 ∧ s.mean = none) ∧
    m.snapshot.get? .buildRuptures = none := by
  intro m
  obtain ⟨hlisted, hrecounts⟩ := Metrics.snapshot_recounts (F := ℝ) interleaved
  refine ⟨?_, ?_, ?_⟩
  · obtain ⟨s, hs⟩ := Option.ne_none_iff_exists'.mp ((hlisted .preclassical).mpr (by decide))
    obtain ⟨a, -, h⟩ := hrecounts .preclassical s hs
    have hcount : s.count = 2 := h.count
    have hmean := h.mean
    have hstddev := h.stddev
    rw [hcount] at hmean hstddev
    exact ⟨s, a, hs, h, hcount, by simpa using hmean, by simpa using hstddev⟩
  · obtain ⟨s, hs⟩ := Option.ne_none_iff_exists'.mp ((hlisted .classical).mpr (by decide))
    obtain ⟨a, -, h⟩ := hrecounts .classical s hs
    have hcount : s.count = 0 := h.count
    exact ⟨s, hs, h.failures, h.missing.1.mpr hcount⟩
  · exact not_not.mp ((hlisted .buildRuptures).not.mpr (by decide))

end HazardDispatch
