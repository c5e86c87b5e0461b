import HazardDispatch.Proofs.Report.Assembly
import HazardDispatch.Proofs.Stats.Exact

/-!
# What the results amount to

Five accounts are fed from the results under different conditions. Bytes count for every result
(`TransferStats.Sums`). Everything else is taken from the first success of each task, and of those from
the ones whose payload carries figures (`firstSuccesses`, `outputs`): a later success of the task counts
for nothing, also if the first one carried no figures.

In exact arithmetic the time of a source is summed up as its counts are (`SourceInfo.Sums`).
`a.Tallies rs` says what the tables hold with timings and ruptures read off the results, and which tasks
are done; taking in a result keeps it (`Tallies.absorb`).

`volume rs` is what the results add to each counter. It grows by just what the next result demands
of a tallied account (`volume_concat`, `Tallies.demand_eq`), so that a whole history fits exactly if
its volume does.
-/

namespace HazardDispatch

/-! ## what counts -/

def firstSuccesses : List TaskResult → List TaskResult
  | [] => []
  | r :: rs =>
    if r.isSuccess then r :: (firstSuccesses rs).filter (·.taskId ≠ r.taskId) else firstSuccesses rs

/-- The figures that count. -/
def outputs (rs : List TaskResult) : List TaskOutput :=
  (firstSuccesses rs).filterMap fun r => (r.payload.decode TaskOutput.ofJson).toOption

def timings (rs : List TaskResult) : List SourceTiming := (outputs rs).flatMap (·.timings)

def ruptureCounts (rs : List TaskResult) : List (UInt32 × UInt64) :=
  (outputs rs).flatMap (·.effRuptures.entries)

/-- What the results add to a counter. -/
def volume (rs : List TaskResult) (k : Counter) : Nat :=
  (rs.map (·.moves k)).sum + ((outputs rs).map (·.adds k)).sum

/-- The result is a success, and none of these is one of its task. -/
def TaskResult.IsFirstAfter (r : TaskResult) (rs : List TaskResult) : Prop :=
  r.isSuccess ∧ ∀ r' ∈ rs, r'.isSuccess → r'.taskId ≠ r.taskId

instance (r : TaskResult) (rs : List TaskResult) : Decidable (r.IsFirstAfter rs) :=
  inferInstanceAs (Decidable (_ ∧ _))

/-- What the result adds to a counter after these. -/
def TaskResult.bringsAfter (r : TaskResult) (rs : List TaskResult) (k : Counter) : Nat :=
  r.moves k + if r.IsFirstAfter rs then r.output.adds k else 0

theorem firstSuccesses_concat_of_first {rs : List TaskResult} {r : TaskResult}
    (h : r.IsFirstAfter rs) : firstSuccesses (rs ++ [r]) = firstSuccesses rs ++ [r] := by
  obtain ⟨hsuccess, hnew⟩ := h
  induction rs with
  | nil => simp [firstSuccesses, hsuccess]
  | cons r₀ rs ih =>
    have hrest := ih fun r' hr' => hnew r' (List.mem_cons_of_mem _ hr')
    rw [List.cons_append, firstSuccesses, firstSuccesses, hrest]
    by_cases h₀ : r₀.isSuccess
    · have hne : r.taskId ≠ r₀.taskId := Ne.symm (hnew r₀ List.mem_cons_self h₀)
      simp [h₀, hne]
    · simp [h₀]

theorem firstSuccesses_concat_of_later {rs : List TaskResult} {r : TaskResult}
    (h : ¬ r.IsFirstAfter rs) : firstSuccesses (rs ++ [r]) = firstSuccesses rs := by
  induction rs with
  | nil =>
    have hfailed : ¬ r.isSuccess := fun hr => h ⟨hr, fun r' hr' => absurd hr' List.not_mem_nil⟩
    simp [firstSuccesses, hfailed]
  | cons r₀ rs ih =>
    rw [List.cons_append, firstSuccesses, firstSuccesses]
    by_cases hrest : r.IsFirstAfter rs
    · have hhead : r₀.isSuccess ∧ r₀.taskId = r.taskId := by
        by_contra hne
        refine h ⟨hrest.1, fun r' hr' hs => ?_⟩
        rcases List.mem_cons.mp hr' with rfl | hr'
        · exact fun htask => hne ⟨hs, htask⟩
        · exact hrest.2 r' hr' hs
      rw [firstSuccesses_concat_of_first hrest]
      simp [hhead.1, hhead.2]
    · rw [ih hrest]

/-- With one success for each task at most, every success counts. -/
theorem firstSuccesses_eq_filter {rs : List TaskResult}
    (h : ((rs.filter (·.isSuccess)).map (·.taskId)).Nodup) :
    firstSuccesses rs = rs.filter (·.isSuccess) := by
  induction rs with
  | nil => rfl
  | cons r rs ih =>
    rw [firstSuccesses]
    by_cases hr : r.isSuccess
    · rw [List.filter_cons_of_pos hr, List.map_cons, List.nodup_cons] at h
      rw [if_pos hr, ih h.2, List.filter_cons_of_pos hr]
      congr 1
      rw [List.filter_eq_self]
      intro r' hr'
      have hne : r'.taskId ≠ r.taskId := fun heq => h.1 (heq ▸ List.mem_map_of_mem hr')
      simpa using hne
    · rw [List.filter_cons_of_neg hr] at h
      rw [if_neg hr, ih h, List.filter_cons_of_neg hr]

section
variable {rs : List TaskResult} {r : TaskResult}

theorem outputs_concat_of_later (h : ¬ r.IsFirstAfter rs) : outputs (rs ++ [r]) = outputs rs := by
  rw [outputs, firstSuccesses_concat_of_later h, outputs]

/-- A payload without figures is as one with empty figures. -/
theorem flatMap_outputs_concat {α : Type} (f : TaskOutput → List α) (hf : f .empty = [])
    (h : r.IsFirstAfter rs) :
    (outputs (rs ++ [r])).flatMap f = (outputs rs).flatMap f ++ f r.output := by
  rw [outputs, firstSuccesses_concat_of_first h, List.filterMap_append, List.flatMap_append, outputs]
  congr 1
  unfold TaskResult.output
  cases hdecode : r.payload.decode TaskOutput.ofJson with
  | ok o => simp [Except.toOption, hdecode]
  | error e => simp [Except.toOption, hdecode, hf]

theorem volume_concat (rs : List TaskResult) (r : TaskResult) (k : Counter) :
    volume (rs ++ [r]) k = volume rs k + r.bringsAfter rs k := by
  rw [volume, volume, List.map_append, List.sum_append, List.map_singleton, List.sum_singleton,
    TaskResult.bringsAfter]
  split
  · next hfirst =>
    -- a sum of amounts is the length of as many marks
    have hmarks := flatMap_outputs_concat (fun o => List.replicate (o.adds k) ()) rfl hfirst
    have hlength := congrArg List.length hmarks
    simp only [List.length_flatMap, List.length_append, List.length_replicate] at hlength
    rw [hlength]
    omega
  · next hlater =>
    rw [outputs_concat_of_later hlater]
    omega

end

/-! ## sums -/

/-- The source with the figures of these timings, the first of which gives its kind. -/
structure SourceInfo.Sums {F : Type} [Add F] [Zero F] [Scalar F] (s : SourceInfo F)
    (ts : List SourceTiming) : Prop extends s.Counts ts where
  calcTime : s.calcTime = (ts.map fun t => (Scalar.ofFloat t.calcTime : F)).sum

theorem SourceInfo.additive_sums {F : Type} [Field F] [LinearOrder F] [Scalar F] [ExactScalar F] :
    Additive (F := F) Sums where
  first hw := by
    refine ⟨additive_counts.first hw, ?_⟩
    rw [add_of_whole hw]
    simp [ofTiming, ExactScalar.ofNat]
  add h hw := by
    refine ⟨additive_counts.add h.toCounts hw, ?_⟩
    rw [add_of_whole hw]
    simp [h.calcTime]

namespace Assembler

variable {F : Type} [Field F] [Scalar F]

/-- The account is that of these results. -/
structure Tallies (a : Assembler F) (rs : List TaskResult) : Prop where
  completed_once : a.completed.Nodup
  completed : ∀ id, id ∈ a.completed ↔ ∃ r ∈ rs, r.isSuccess ∧ r.taskId = id
  tables : Tables SourceInfo.Sums a rs (timings rs) (ruptureCounts rs)

theorem tallies_empty (topK : Nat) : (empty topK : Assembler F).Tallies [] where
  completed_once := .nil
  completed id := by simp [empty]
  tables := tables_empty topK

/-! ## results -/

theorem Tallies.of_eq {a a' : Assembler F} {rs : List TaskResult} (h : a.Tallies rs)
    (hcompleted : a'.completed = a.completed) (htransfer : a'.transfer = a.transfer)
    (hsources : a'.sources = a.sources) (hruptures : a'.effRuptures = a.effRuptures) :
    a'.Tallies rs :=
  ⟨hcompleted ▸ h.completed_once, hcompleted ▸ h.completed,
    h.tables.of_eq htransfer hsources hruptures⟩

section
variable {a : Assembler F} {rs : List TaskResult} {r : TaskResult}

/-- The account knows which success is the first. -/
theorem Tallies.isFirstSuccess_iff (h : a.Tallies rs) :
    a.isFirstSuccess r ↔ r.IsFirstAfter rs := by
  have hold : a.completed.contains r.taskId ↔ ∃ r' ∈ rs, r'.isSuccess ∧ r'.taskId = r.taskId := by
    rw [List.contains_iff_mem, h.completed]
  rw [isFirstSuccess, Bool.and_eq_true, Bool.not_eq_true', Bool.eq_false_iff, Ne, hold]
  simp only [TaskResult.IsFirstAfter, not_exists, not_and, Ne]

theorem Tallies.demand_eq (h : a.Tallies rs) : a.demand r = r.bringsAfter rs := by
  funext k
  by_cases hfirst : a.isFirstSuccess r
  · rw [demand_of_first hfirst, TaskResult.brings, TaskResult.bringsAfter,
      if_pos (h.isFirstSuccess_iff.mp hfirst)]
  · rw [demand, if_neg hfirst, TaskResult.bringsAfter,
      if_neg (h.isFirstSuccess_iff.not.mp hfirst)]

theorem absorb_of_later (h : ¬ a.isFirstSuccess r) : a.absorb r = a.addTransfer r := by
  unfold absorb
  by_cases ht : (a.addTransfer r).2 = none
  · rw [Halting.andThen_of_whole _ ht, addTransfer_isFirstSuccess, if_neg h]
    exact Prod.ext rfl ht.symm
  · rw [Halting.andThen_of_stopped _ ht]

theorem Tallies.absorb [LinearOrder F] [ExactScalar F] (h : a.Tallies rs) (hw : (a.absorb r).2 = none) :
    (a.absorb r).1.Tallies (rs ++ [r]) := by
  refine ⟨nodup_completed_absorb h.completed_once hw, fun id => ?_, ?_⟩
  · rw [mem_completed_absorb hw, h.completed]
    simp [or_and_right, exists_or]
  · by_cases hfirst : a.isFirstSuccess r
    · have hnew := h.isFirstSuccess_iff.mp hfirst
      rw [timings, ruptureCounts, flatMap_outputs_concat (·.timings) rfl hnew,
        flatMap_outputs_concat (·.effRuptures.entries) rfl hnew]
      exact h.tables.absorb SourceInfo.additive_sums hfirst hw
    · have hlater := h.isFirstSuccess_iff.not.mp hfirst
      rw [absorb_of_later hfirst] at hw ⊢
      rw [timings, ruptureCounts, outputs_concat_of_later hlater]
      exact h.tables.addTransfer hw

end
end Assembler
end HazardDispatch
