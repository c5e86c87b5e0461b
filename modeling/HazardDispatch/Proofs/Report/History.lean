import HazardDispatch.Proofs.Decimal.Readback
import HazardDispatch.Proofs.Report.Ranking
import HazardDispatch.Proofs.Report.Tally
import HazardDispatch.Proofs.Source.Output

/-!
# A report against its history

The account of a calculation is told of results, of the number of tasks to expect, and of tasks that
failed for good, in any order and as often as one likes (`Assembler.Call`). Its report is determined by
what it was told. `r.Recounts topK cs` gives every field of the report of the calls `cs` by a definition
that goes back to them.

If no sum leaves the range of 64 bits, every call is made to its end and the report recounts the
calls. It does so in whatever order the sources are listed (`report_recounts`).
-/

namespace HazardDispatch

/-! ## calls -/

inductive Assembler.Call where
  | absorb (r : TaskResult)
  | expect (n : Nat)
  | markFailed (id : TaskId)

namespace Assembler

section
variable {F : Type} [Add F] [Scalar F]

def perform (a : Assembler F) : Call → Halting (Assembler F)
  | .absorb r => a.absorb r
  | .expect n => .done (a.expect n)
  | .markFailed id => .done (a.markFailed id)

def performAll (a : Assembler F) (cs : List Call) : Halting (Assembler F) :=
  Halting.overList perform a cs

end

def Call.result? : Call → Option TaskResult
  | .absorb r => some r
  | _ => none

def Call.announced? : Call → Option Nat
  | .expect n => some n
  | _ => none

def Call.marked? : Call → Option TaskId
  | .markFailed id => some id
  | _ => none

def results (cs : List Call) : List TaskResult := cs.filterMap Call.result?

/-- The number that was announced last. -/
def announced (cs : List Call) : Nat := (cs.filterMap Call.announced?).getLast?.getD 0

def marked (cs : List Call) : List TaskId := cs.filterMap Call.marked?

/-- What the call adds to a counter after these results. -/
def Call.adds (c : Call) (rs : List TaskResult) (k : Counter) : Nat :=
  match c with
  | .absorb r => r.bringsAfter rs k
  | _ => 0

theorem results_concat (cs : List Call) (c : Call) :
    results (cs ++ [c]) = results cs ++ c.result?.toList := by
  rw [results, List.filterMap_append, results]
  cases c <;> rfl

theorem marked_concat (cs : List Call) (c : Call) :
    marked (cs ++ [c]) = marked cs ++ c.marked?.toList := by
  rw [marked, List.filterMap_append, marked]
  cases c <;> rfl

theorem announced_concat (cs : List Call) (c : Call) :
    announced (cs ++ [c]) = c.announced?.getD (announced cs) := by
  rw [announced, List.filterMap_append, List.getLast?_append, announced]
  cases c <;> rfl

theorem volume_results_concat (cs : List Call) (c : Call) (k : Counter) :
    volume (results (cs ++ [c])) k = volume (results cs) k + c.adds (results cs) k := by
  rw [results_concat]
  cases c with
  | absorb r => exact volume_concat _ r k
  | expect n => exact congrArg (volume · k) (List.append_nil _)
  | markFailed id => exact congrArg (volume · k) (List.append_nil _)

end Assembler

/-! ## the report -/

open Assembler

/-- Everything in the report goes back to the calls. -/
structure CompositeReport.Recounts {F : Type} [Field F] [LinearOrder F] [Scalar F]
    (r : CompositeReport F) (topK : Nat) (cs : List Call) : Prop where
  complete : r.complete ↔
    marked cs = [] ∧ 0 < r.completedTasks ∧ r.expectedTasks ≤ r.completedTasks
  expectedTasks : r.expectedTasks = announced cs
  completedTasks : r.completedTasks
    = (((results cs).filter (·.isSuccess)).map (·.taskId)).dedup.length
  failedTasks : r.failedTasks.Pairwise (TaskId.le · ·) ∧ r.failedTasks.Perm (marked cs).dedup
  dataTransfer : r.dataTransfer.Gathers (·.operation) TransferStats.Sums (results cs)
  effRuptures : r.effRuptures.Gathers (·.1) SumsRuptures (ruptureCounts (results cs))
  sources : ∃ sources : Table String (SourceInfo F),
    sources.Gathers (·.sourceId) SourceInfo.Sums (timings (results cs)) ∧
      r.calcTimeByCode.Gathers (·.code.toString) TimeOfSources sources.values ∧
      ∃ ranked : List (SourceInfo F), ranked.Perm sources.values ∧
        ranked.Pairwise SourceInfo.Before ∧ r.slowestSources = ranked.take topK

namespace Assembler

variable {F : Type} [Field F] [Scalar F]

structure Follows (a : Assembler F) (cs : List Call) : Prop where
  expected : a.expected = announced cs
  failed_once : a.failed.Nodup
  failed : ∀ id, id ∈ a.failed ↔ id ∈ marked cs
  tallies : a.Tallies (results cs)

theorem follows_empty (topK : Nat) : (empty topK : Assembler F).Follows [] where
  expected := rfl
  failed_once := .nil
  failed _ := Iff.rfl
  tallies := tallies_empty topK

theorem Follows.adds {a : Assembler F} {cs : List Call} (h : a.Follows cs) (c : Call) :
    Halting.Adds count (a.perform c) a (c.adds (results cs)) := by
  cases c with
  | absorb r =>
    show Halting.Adds count (a.absorb r) a (r.bringsAfter (results cs))
    rw [← h.tallies.demand_eq]
    exact absorb_adds a r
  | expect n => exact .done a.count_lt fun k => by cases k <;> rfl
  | markFailed id =>
    refine .done a.count_lt fun k => ?_
    rw [markFailed_eq]
    cases k <;> rfl

variable [LinearOrder F] [ExactScalar F]

theorem Follows.absorb {a : Assembler F} {cs : List Call} (h : a.Follows cs) {r : TaskResult}
    (hw : (a.absorb r).2 = none) : (a.absorb r).1.Follows (cs ++ [.absorb r]) := by
  obtain ⟨-, hfailed, hexpected⟩ := absorb_tasks hw
  constructor
  · rw [announced_concat, hexpected]
    exact h.expected
  · exact hfailed ▸ h.failed_once
  · intro id
    rw [marked_concat, hfailed, show (Call.absorb r).marked?.toList = [] from rfl, List.append_nil]
    exact h.failed id
  · rw [results_concat]
    exact h.tallies.absorb hw

omit [LinearOrder F] [ExactScalar F] in
theorem Follows.expect {a : Assembler F} {cs : List Call} (h : a.Follows cs) (n : Nat) :
    (a.expect n).Follows (cs ++ [.expect n]) := by
  constructor
  · rw [announced_concat]
    rfl
  · exact h.failed_once
  · intro id
    rw [marked_concat, show (Call.expect n).marked?.toList = [] from rfl, List.append_nil]
    exact h.failed id
  · rw [results_concat, show (Call.expect n).result?.toList = [] from rfl, List.append_nil]
    exact h.tallies.of_eq rfl rfl rfl rfl

omit [LinearOrder F] [ExactScalar F] in
theorem Follows.markFailed {a : Assembler F} {cs : List Call} (h : a.Follows cs) (id : TaskId) :
    (a.markFailed id).Follows (cs ++ [.markFailed id]) := by
  have heq := markFailed_eq a id
  constructor
  · rw [announced_concat, heq]
    exact h.expected
  · exact nodup_failed_markFailed h.failed_once
  · intro id'
    rw [marked_concat, mem_failed_markFailed, h.failed, List.mem_append]
    simp [Call.marked?]
  · rw [results_concat, heq, show (Call.markFailed id).result?.toList = [] from rfl,
      List.append_nil]
    exact h.tallies.of_eq rfl rfl rfl rfl

theorem Follows.perform {a : Assembler F} {cs : List Call} (h : a.Follows cs) {c : Call}
    (hw : (a.perform c).2 = none) : (a.perform c).1.Follows (cs ++ [c]) := by
  cases c with
  | absorb r => exact h.absorb hw
  | expect n => exact h.expect n
  | markFailed id => exact h.markFailed id

/-! ## whole histories -/

theorem follows_performAll {topK : Nat} {cs : List Call}
    (hw : (performAll (empty topK : Assembler F) cs).2 = none) :
    (performAll (empty topK : Assembler F) cs).1.Follows cs :=
  Halting.overList_induction (P := fun a cs => a.Follows cs)
    (fun _ _ _ hbefore hstep => hbefore.perform hstep) cs (follows_empty topK) hw

/-- A history adds its volume to the counters. -/
theorem performAll_adds (topK : Nat) (cs : List Call) :
    Halting.Adds count (performAll (empty topK : Assembler F) cs) (empty topK)
      (volume (results cs)) := by
  induction cs using List.reverseRecOn with
  | nil => exact .done (empty topK : Assembler F).count_lt fun _ => rfl
  | append_singleton cs c ih =>
    -- what the last call demands can be said only of an account that heard all calls before it
    have hboth := ih.andThen (f := fun a => a.perform c) fun hw => (follows_performAll hw).adds c
    rw [performAll, Halting.overList_concat, funext (volume_results_concat cs c)]
    exact hboth

theorem whole_of_fits {topK : Nat} {cs : List Call}
    (hfits : ∀ k, volume (results cs) k < Word64.bound) :
    (performAll (empty topK : Assembler F) cs).2 = none := by
  have hempty : ∀ k, (empty topK : Assembler F).count k = 0 := by
    intro k
    cases k <;> rfl
  rw [(performAll_adds topK cs).whole_iff]
  intro k
  rw [hempty, Nat.zero_add]
  exact hfits k

omit [LinearOrder F] [ExactScalar F] in
theorem topK_performAll (topK : Nat) (cs : List Call) :
    (performAll (empty topK : Assembler F) cs).1.topK = topK := by
  refine Halting.overList_keeps (P := fun a : Assembler F => a.topK = topK) (fun a c h => ?_) cs rfl
  cases c with
  | absorb r => exact (topK_absorb a r).trans h
  | expect n => exact h
  | markFailed id =>
    show (a.markFailed id).topK = topK
    rw [markFailed_eq]
    exact h

/-! ## the fields of a report -/

omit [ExactScalar F] [LinearOrder F] in
theorem nodup_sourceIds {sources : Table String (SourceInfo F)} {ts : List SourceTiming}
    (h : sources.Gathers (·.sourceId) SourceInfo.Sums ts) :
    (sources.values.map (·.sourceId)).Nodup := by
  rw [SourceInfo.map_sourceId h fun _ _ hs => hs.toCounts]
  exact sources.nodup_keys

theorem Follows.report {a : Assembler F} {cs : List Call} (h : a.Follows cs)
    (operations : Table Operation (OperationStats F)) :
    (a.report operations).Recounts a.topK cs := by
  have hmarked : a.failed = [] ↔ marked cs = [] := by
    simp only [List.eq_nil_iff_forall_not_mem, h.failed]
  have hfailed : a.failed.Perm (marked cs).dedup := by
    rw [List.perm_ext_iff_of_nodup h.failed_once (List.nodup_dedup _)]
    intro id
    rw [h.failed, List.mem_dedup]
  have hcompleted : a.completed.Perm
      (((results cs).filter (·.isSuccess)).map (·.taskId)).dedup := by
    rw [List.perm_ext_iff_of_nodup h.tallies.completed_once (List.nodup_dedup _)]
    intro id
    rw [h.tallies.completed, List.mem_dedup]
    simp [and_assoc]
  have hids := nodup_sourceIds h.tallies.tables.sources
  constructor
  · show a.isComplete ↔ _
    simp only [isComplete, Bool.and_eq_true, decide_eq_true_eq, List.isEmpty_iff, hmarked, and_assoc]
    rfl
  · exact h.expected
  · exact hcompleted.length_eq
  · exact ⟨TaskId.pairwise_mergeSort _, (List.mergeSort_perm _ _).trans hfailed⟩
  · exact h.tallies.tables.transfer
  · exact h.tallies.tables.effRuptures
  · exact ⟨a.sources, h.tallies.tables.sources, gathers_timeByCode _, _, List.mergeSort_perm _ _,
      pairwise_mergeSort_ranksBefore hids, rfl⟩

/-- If no sum leaves its range, the calls are made to the end, and the report recounts them. It does not
matter in which order the sources are listed. -/
theorem report_recounts (topK : Nat) (cs : List Call)
    (hfits : ∀ k, volume (results cs) k < Word64.bound) :
    ∃ a, performAll (empty topK : Assembler F) cs = .done a ∧
      ∀ operations, (a.report operations).Recounts topK cs ∧
        ∀ listed : List (SourceInfo F), listed.Perm a.sources.values →
          (a.report operations).slowestSources = (listed.mergeSort ranksBefore).take topK ∧
          (a.report operations).calcTimeByCode = timeByCode listed := by
  have hwhole : (performAll (empty topK : Assembler F) cs).2 = none := whole_of_fits hfits
  have hfollows := follows_performAll hwhole
  have htopK : (performAll (empty topK : Assembler F) cs).1.topK = topK := topK_performAll topK cs
  refine ⟨_, Prod.ext rfl hwhole, fun operations => ⟨?_, fun listed hlisted => ⟨?_, ?_⟩⟩⟩
  · have hreport := hfollows.report operations
    rw [htopK] at hreport
    exact hreport
  · have hids := nodup_sourceIds hfollows.tallies.tables.sources
    have hranked := mergeSort_eq_of_perm hids hlisted.symm
    rw [← hranked, Assembler.report, htopK]
  · exact (timeByCode_eq_of_perm hlisted).symm

def sampleResult (status : ResultStatus) (payload : Payload) : TaskResult :=
  { taskId := ⟨"t1"⟩, attempt := 1, workerId := ⟨"w1"⟩, operation := .classical, status
    duration := 0, peakMemory := 0, bytesSent := 10, bytesReceived := 20, payload }

def sampleOutput : TaskOutput :=
  ⟨[⟨"a", 'P', 3, (Duration.ofSeconds 2).seconds, 4⟩], Table.empty.put 7 5⟩

def sampleFailure : TaskResult := sampleResult (.failure .timeout) .empty

def sampleSuccess : TaskResult := sampleResult .success (.ofValue sampleOutput.toJson)

theorem outputs_of_sampleSuccess {rs : List TaskResult} (h : firstSuccesses rs = [sampleSuccess]) :
    ∃ time, outputs rs = [⟨[⟨"a", 'P', 3, time, 4⟩], Table.empty.put 7 5⟩] := by
  have hlegible : ∀ t ∈ sampleOutput.timings, Json.Legible t.calcTime := by
    intro t ht
    obtain rfl := List.mem_singleton.mp ht
    exact Json.float_seconds (d := .ofSeconds 2) (by decide)
  obtain ⟨ts, hdecode, hsame⟩ := decode_output hlegible
  obtain ⟨t, _, ⟨time, rfl⟩, hnil, rfl⟩ := List.forall₂_cons_left_iff.mp hsame
  obtain rfl := List.forall₂_nil_left_iff.mp hnil
  have hpayload : sampleSuccess.payload = .ofValue sampleOutput.toJson := rfl
  have hread : (Payload.ofValue sampleOutput.toJson).decode TaskOutput.ofJson
      = .ok ⟨[⟨"a", 'P', 3, time, 4⟩], Table.empty.put 7 5⟩ := hdecode
  refine ⟨time, ?_⟩
  rw [outputs, h]
  simp [hpayload, hread, Except.toOption]

theorem moves_sampleResult (status : ResultStatus) (payload : Payload) (k : Counter) :
    (sampleResult status payload).moves k ≤ 20 := by
  cases k with
  | sent op =>
    show (if Operation.classical = op then 10 else 0) ≤ 20
    split <;> decide
  | received op =>
    show (if Operation.classical = op then 20 else 0) ≤ 20
    split <;> decide
  | _ => exact Nat.zero_le _

theorem volume_of_sampleSuccess {rs : List TaskResult} (h : firstSuccesses rs = [sampleSuccess])
    {k : Counter} (hmoves : (rs.map (·.moves k)).sum ≤ 60) : volume rs k < Word64.bound := by
  obtain ⟨time, houtputs⟩ := outputs_of_sampleSuccess h
  have hadds : ((outputs rs).map (·.adds k)).sum ≤ 5 := by
    rw [houtputs]
    cases k with
    | sites s =>
      show (if "a" = s then 3 else 0) + 0 + 0 + 0 ≤ 5
      split <;> decide
    | events s =>
      show (if "a" = s then 4 else 0) + 0 + 0 + 0 ≤ 5
      split <;> decide
    | ruptures g =>
      show 0 + ((if 7 = g then 5 else 0) + 0) + 0 ≤ 5
      split <;> decide
    | _ => exact Nat.zero_le _
  rw [volume, Word64.bound]
  omega

/-- A failure, two successes of the task, and another task that is given up. -/
def sampleCalls : List Call :=
  [.expect 2, .absorb sampleFailure, .absorb sampleSuccess, .markFailed ⟨"t2"⟩,
    .absorb sampleSuccess]

theorem volume_sampleCalls (k : Counter) : volume (results sampleCalls) k < Word64.bound := by
  have hfailure := moves_sampleResult (.failure .timeout) .empty k
  have hsuccess := moves_sampleResult .success (.ofValue sampleOutput.toJson) k
  refine volume_of_sampleSuccess rfl ?_
  show sampleFailure.moves k + (sampleSuccess.moves k + (sampleSuccess.moves k + 0)) ≤ 60
  rw [sampleFailure, sampleSuccess]
  omega

theorem report_recounts_sampleCalls :
    (∀ k, volume (results sampleCalls) k < Word64.bound) ∧
      ∃ a, performAll (empty 1 : Assembler ℝ) sampleCalls = .done a ∧
        (a.report .empty).Recounts 1 sampleCalls := by
  obtain ⟨a, ha, hreport⟩ := report_recounts (F := ℝ) 1 sampleCalls volume_sampleCalls
  exact ⟨volume_sampleCalls, a, ha, (hreport .empty).1⟩

end Assembler
end HazardDispatch
