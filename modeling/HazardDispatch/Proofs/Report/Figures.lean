import HazardDispatch.Proofs.Dispatch.Account
import HazardDispatch.Proofs.Dispatch.Hearing
import HazardDispatch.Proofs.Report.Counters

/-!
# The figures of an account

`Figures n es a` ties the accounts of a calculation to the events that they heard: the figures by
operation count the successes and failures that were forwarded, the tasks that are done are those of
the successes, and the tasks that failed are those given up. Every turn of a dispatcher keeps it
(`Turn.figures`), whatever the results are.
-/

namespace HazardDispatch

def successes (rs : List TaskResult) : Nat := rs.countP (·.isSuccess)

def failures (rs : List TaskResult) : Nat := rs.countP (!·.isSuccess)

theorem successes_append (rs rs' : List TaskResult) :
    successes (rs ++ rs') = successes rs + successes rs' := List.countP_append

theorem failures_append (rs rs' : List TaskResult) :
    failures (rs ++ rs') = failures rs + failures rs' := List.countP_append

theorem isSuccess_iff {r : TaskResult} : r.isSuccess = true ↔ r.status = .success :=
  beq_iff_eq

namespace Metrics

variable {F : Type} [Add F] [Sub F] [Mul F] [Div F] [Scalar F]

def total {F : Type} (m : Metrics F) (figure : OperationFigures F → Nat) : Nat :=
  (m.operations.values.map figure).sum

theorem total_record (m : Metrics F) (r : TaskResult) (figure : OperationFigures F → Nat) (k : Nat)
    (hempty : figure .empty = 0) (hrecord : ∀ a, figure (a.record r) = figure a + k) :
    (m.record r).total figure = m.total figure + k := by
  have hput := Table.sum_values_put m.operations r.operation
    (((m.operations.get? r.operation).getD .empty).record r) figure
  have hold : figure ((m.operations.get? r.operation).getD .empty)
      = (m.operations.get? r.operation).elim 0 figure := by
    cases m.operations.get? r.operation with
    | none => exact hempty
    | some a => rfl
  rw [hrecord, hold] at hput
  show ((m.operations.put r.operation
    (((m.operations.get? r.operation).getD .empty).record r)).values.map figure).sum
      = (m.operations.values.map figure).sum + k
  omega

theorem total_counts (m : Metrics F) (r : TaskResult) : (m.record r).total (·.durations.count)
    = m.total (·.durations.count) + successes [r] := by
  refine total_record m r _ _ rfl fun a => ?_
  unfold OperationFigures.record
  cases hr : r.isSuccess
  · simp [successes, hr]
  · simp [successes, hr, RunningStats.push]

theorem total_failures (m : Metrics F) (r : TaskResult) :
    (m.record r).total (·.failures) = m.total (·.failures) + failures [r] := by
  refine total_record m r _ _ rfl fun a => ?_
  unfold OperationFigures.record
  cases hr : r.isSuccess
  · simp [failures, hr]
  · simp [failures, hr]

end Metrics

namespace Assembler

variable {F : Type}

/-- Nothing is changed but figures about sources and bytes. -/
structure SameTasks (a a' : Assembler F) : Prop where
  completed : a'.completed = a.completed
  failed : a'.failed = a.failed
  expected : a'.expected = a.expected

theorem SameTasks.trans {a a' a'' : Assembler F} (h : a.SameTasks a') (h' : a'.SameTasks a'') :
    a.SameTasks a'' :=
  ⟨h'.completed.trans h.completed, h'.failed.trans h.failed, h'.expected.trans h.expected⟩

theorem sameTasks_addRuptures (a : Assembler F) (e : UInt32 × UInt64) :
    a.SameTasks (a.addRuptures e).1 := by
  unfold addRuptures
  simp only []
  split <;> exact ⟨rfl, rfl, rfl⟩

variable [Add F] [Scalar F]

theorem sameTasks_addOutput (a : Assembler F) (o : TaskOutput) : a.SameTasks (a.addOutput o).1 := by
  have htimings : a.SameTasks (Halting.overList addTiming a o.timings).1 :=
    Halting.overList_keeps (P := a.SameTasks) (fun s t h => h.trans ⟨rfl, rfl, rfl⟩) _
      ⟨rfl, rfl, rfl⟩
  exact Halting.andThen_keeps (P := a.SameTasks) htimings fun s hs =>
    Halting.overList_keeps (fun s e h => h.trans (sameTasks_addRuptures s e)) _ hs

/-- A result that is taken in whole is noted if it is the first success of its task. -/
theorem absorb_tasks {a : Assembler F} {r : TaskResult} (hw : (a.absorb r).2 = none) :
    (a.absorb r).1.completed
        = (if a.isFirstSuccess r then r.taskId :: a.completed else a.completed) ∧
      (a.absorb r).1.failed = a.failed ∧ (a.absorb r).1.expected = a.expected := by
  unfold absorb at hw ⊢
  obtain ⟨-, -, heq⟩ := Halting.whole_of_andThen hw
  rw [heq]
  have hsame : a.SameTasks (a.addTransfer r).1 := ⟨rfl, rfl, rfl⟩
  by_cases hfirst : a.isFirstSuccess r
  · simp only [addTransfer_isFirstSuccess, hfirst, if_true]
    cases r.payload.decode TaskOutput.ofJson with
    | ok o =>
      have ho := sameTasks_addOutput { (a.addTransfer r).1 with
        completed := r.taskId :: (a.addTransfer r).1.completed } o
      exact ⟨ho.completed, ho.failed.trans hsame.failed, ho.expected.trans hsame.expected⟩
    | error e => exact ⟨rfl, rfl, rfl⟩
  · simp only [addTransfer_isFirstSuccess, hfirst, Bool.false_eq_true, if_false]
    exact ⟨rfl, rfl, rfl⟩

theorem mem_completed_absorb {a : Assembler F} {r : TaskResult} {id : TaskId}
    (hw : (a.absorb r).2 = none) :
    id ∈ (a.absorb r).1.completed ↔ id ∈ a.completed ∨ r.isSuccess ∧ r.taskId = id := by
  rw [(absorb_tasks hw).1]
  split
  · next hfirst =>
    have hsuccess := (Bool.and_eq_true_iff.mp hfirst).1
    rw [List.mem_cons]
    constructor
    · rintro (rfl | hold)
      · exact .inr ⟨hsuccess, rfl⟩
      · exact .inl hold
    · rintro (hold | ⟨-, rfl⟩)
      · exact .inr hold
      · exact .inl rfl
  · next hfirst =>
    refine ⟨.inl, fun hor => hor.elim (·) fun ⟨hsuccess, htask⟩ => ?_⟩
    rw [Assembler.isFirstSuccess, hsuccess, Bool.true_and, Bool.not_eq_true',
      Bool.not_eq_false, List.contains_iff_mem] at hfirst
    exact htask ▸ hfirst

theorem nodup_completed_absorb {a : Assembler F} {r : TaskResult} (h : a.completed.Nodup)
    (hw : (a.absorb r).2 = none) : (a.absorb r).1.completed.Nodup := by
  rw [(absorb_tasks hw).1]
  split
  · next hfirst =>
    refine List.nodup_cons.mpr ⟨fun hmem => ?_, h⟩
    have hcontains := List.contains_iff_mem.mpr hmem
    rw [Assembler.isFirstSuccess, hcontains, Bool.not_true, Bool.and_false] at hfirst
    cases hfirst
  · exact h

omit [Add F] [Scalar F] in
theorem mem_failed_markFailed {a : Assembler F} {id id' : TaskId} :
    id' ∈ (a.markFailed id).failed ↔ id' ∈ a.failed ∨ id' = id := by
  unfold markFailed
  split
  · next hold =>
    have hmem := List.contains_iff_mem.mp hold
    exact ⟨.inl, fun hor => hor.elim (·) fun heq => heq ▸ hmem⟩
  · rw [List.mem_append, List.mem_singleton]

omit [Add F] [Scalar F] in
theorem nodup_failed_markFailed {a : Assembler F} {id : TaskId} (h : a.failed.Nodup) :
    (a.markFailed id).failed.Nodup := by
  unfold markFailed
  split
  · exact h
  · next hnew =>
    have hmem : id ∉ a.failed := fun hm => hnew (List.contains_iff_mem.mpr hm)
    rw [List.nodup_append]
    refine ⟨h, List.nodup_cons.mpr ⟨List.not_mem_nil, .nil⟩, ?_⟩
    rintro t ht t' ht' rfl
    rw [List.mem_singleton] at ht'
    exact hmem (ht' ▸ ht)

omit [Add F] [Scalar F] in
theorem markFailed_eq (a : Assembler F) (id : TaskId) :
    a.markFailed id = { a with failed := (a.markFailed id).failed } := by
  unfold markFailed
  split <;> rfl

end Assembler

variable {F : Type} [Add F] [Sub F] [Mul F] [Div F] [Scalar F]

/-- The accounts of `n` tasks after these events. -/
structure Figures (n : Nat) (es : List Event) (a : Accounts F) : Prop where
  counts : a.1.total (·.durations.count) = successes (forwards es)
  failures : a.1.total (·.failures) = failures (forwards es)
  expected : a.2.expected = n
  completed_once : a.2.completed.Nodup
  completed : ∀ t, t ∈ a.2.completed ↔ ∃ r ∈ forwards es, r.isSuccess ∧ r.taskId = t
  failed_once : a.2.failed.Nodup
  failed : ∀ t, t ∈ a.2.failed ↔ ∃ x ∈ abandons es, x.1.id = t

namespace Figures

variable {n : Nat} {es es' : List Event} {a : Accounts F} {r : TaskResult} {t : Task}
  {reason : FailureReason}

omit [Add F] [Sub F] [Mul F] [Div F] [Scalar F] in
theorem start (n topK : Nat) : Figures n [] ((Accounts.empty topK : Accounts F).expect n) where
  counts := rfl
  failures := rfl
  expected := rfl
  completed_once := .nil
  completed _ := ⟨fun h => (nomatch h), fun ⟨_, h, _⟩ => (nomatch h)⟩
  failed_once := .nil
  failed _ := ⟨fun h => (nomatch h), fun ⟨_, h, _⟩ => (nomatch h)⟩

omit [Add F] [Sub F] [Mul F] [Div F] [Scalar F] in
theorem quiet (h : Figures n es a) (hf : forwards es' = []) (ha : abandons es' = []) :
    Figures n (es ++ es') a := by
  have hf' : forwards (es ++ es') = forwards es := by rw [forwards_append, hf, List.append_nil]
  have ha' : abandons (es ++ es') = abandons es := by rw [abandons_append, ha, List.append_nil]
  exact ⟨hf' ▸ h.counts, hf' ▸ h.failures, h.expected, h.completed_once, hf' ▸ h.completed,
    h.failed_once, ha' ▸ h.failed⟩

theorem record (h : Figures n es a) (hw : (Sink.record a r).2 = none) (hf : forwards es' = [r])
    (ha : abandons es' = []) : Figures n (es ++ es') (Sink.record a r).1 := by
  obtain ⟨-, hw₂, heq⟩ := record_pair hw
  obtain ⟨hcompleted, hfailed, hexpected⟩ := Assembler.absorb_tasks (a := a.2) hw₂
  have hf' : forwards (es ++ es') = forwards es ++ [r] := by rw [forwards_append, hf]
  have ha' : abandons (es ++ es') = abandons es := by rw [abandons_append, ha, List.append_nil]
  rw [heq]
  constructor
  · show (a.1.record r).total _ = _
    rw [Metrics.total_counts, h.counts, hf', successes_append]
  · show (a.1.record r).total _ = _
    rw [Metrics.total_failures, h.failures, hf', failures_append]
  · exact hexpected.trans h.expected
  · exact Assembler.nodup_completed_absorb h.completed_once hw₂
  · intro t
    show t ∈ (a.2.absorb r).1.completed ↔ _
    rw [Assembler.mem_completed_absorb hw₂, h.completed, hf']
    simp [or_and_right, exists_or]
  · exact hfailed ▸ h.failed_once
  · intro t
    show t ∈ (a.2.absorb r).1.failed ↔ _
    rw [hfailed, ha']
    exact h.failed t

theorem abandon (h : Figures n es a) (hf : forwards es' = []) (ha : abandons es' = [(t, reason)]) :
    Figures n (es ++ es') (Sink.abandon a t reason) := by
  have hf' : forwards (es ++ es') = forwards es := by rw [forwards_append, hf, List.append_nil]
  have heq := Assembler.markFailed_eq a.2 t.id
  refine ⟨hf' ▸ h.counts, hf' ▸ h.failures, ?_, ?_, ?_, ?_, ?_⟩
  · show (a.2.markFailed t.id).expected = n
    rw [heq]
    exact h.expected
  · show (a.2.markFailed t.id).completed.Nodup
    rw [heq]
    exact h.completed_once
  · intro t'
    show t' ∈ (a.2.markFailed t.id).completed ↔ _
    rw [heq, hf']
    exact h.completed t'
  · exact Assembler.nodup_failed_markFailed h.failed_once
  · intro t'
    show t' ∈ (a.2.markFailed t.id).failed ↔ _
    rw [Assembler.mem_failed_markFailed, h.failed, abandons_append, ha]
    simp [or_and_right, exists_or, eq_comm]

end Figures

theorem Dispatcher.Turn.figures {n : Nat} {u : Option TaskId} {d d' : Dispatcher (Accounts F)}
    {es es₀ : List Event} (turn : Turn False u d es d') (h : Figures n es₀ d.sink) :
    Figures n (es₀ ++ es) d'.sink := by
  cases turn with
  | quiet => exact h.quiet rfl rfl
  | accepted => exact h.quiet rfl rfl
  | launched => exact h.quiet rfl rfl
  | withdrawn => exact h.quiet rfl rfl
  | marked => exact h.quiet rfl rfl
  | cancelled => exact h.quiet rfl rfl
  | returned => exact h.quiet rfl rfl
  | completed _ _ _ _ _ _ whole => exact h.record whole rfl rfl
  | retried _ _ _ _ _ _ _ _ whole => exact h.record whole rfl rfl
  | @abandoned _ r _ e reason _ _ _ _ _ _ _ whole =>
    have hrecord : Figures n (es₀ ++ [.forwarded e.ticket r]) (Sink.record d.sink r).1 :=
      h.record whole rfl rfl
    rw [List.append_cons]
    exact hrecord.abandon rfl rfl
  | halted _ h => exact h.elim

/-! ## the report -/

omit [Add F] [Sub F] [Mul F] in
theorem sum_snapshot (m : Metrics F) (figure : OperationStats F → Nat) :
    (m.snapshot.values.map figure).sum = m.total fun a => figure a.summary := by
  rw [Metrics.total, Metrics.snapshot, Table.values, Table.mapValues, Table.values]
  simp only [List.map_map]
  rfl

theorem TaskId.pairwise_mergeSort (ids : List TaskId) :
    (ids.mergeSort TaskId.le).Pairwise (TaskId.le · ·) := by
  have htrans : ∀ t u v, TaskId.le t u → TaskId.le u v → TaskId.le t v :=
    fun _ _ _ => Std.TransCmp.isLE_trans
  have htotal : ∀ t u, (TaskId.le t u || TaskId.le u t) = true := by
    intro t u
    have hswap : compare u t = (compare t u).swap := Std.OrientedCmp.eq_swap
    rw [TaskId.le, TaskId.le, hswap]
    cases compare t u <;> rfl
  exact List.pairwise_mergeSort htrans htotal _

omit [Sub F] [Mul F] in
theorem failedTasks_sorted (a : Accounts F) :
    a.report.failedTasks.Pairwise (TaskId.le · ·) ∧ a.report.failedTasks.Perm a.2.failed :=
  ⟨TaskId.pairwise_mergeSort _, List.mergeSort_perm _ _⟩

end HazardDispatch
