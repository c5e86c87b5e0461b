import HazardDispatch.Proofs.Report.History

/-!
# Reports do not depend on the order of the results

Results of workers that run side by side come in any order. If no task has two successes and every
source is of one kind (`OrderFree`), the order leaves no trace in the report, and neither do the places
of the other calls (`report_of_reordered`).

Without first successes to choose from, what counts is a filter of the results, so that all lists a
report is made from are the same up to order. Every table is determined by such lists
(`Table.Gathers.eq_of_perm`), and what is listed in order is sorted.
-/

namespace HazardDispatch

open Assembler

/-! ## calls to both accounts -/

section
variable {F : Type} [Add F] [Sub F] [Mul F] [Div F] [Scalar F]

namespace Accounts

/-- The figures by operation only hear of results. -/
def perform (a : Accounts F) : Call → Halting (Accounts F)
  | .absorb r => Sink.record a r
  | .expect n => .done (a.expect n)
  | .markFailed id => .done (a.1, a.2.markFailed id)

def performAll (a : Accounts F) (cs : List Call) : Halting (Accounts F) :=
  Halting.overList perform a cs

theorem perform_of_whole {a : Accounts F} {c : Call} (hw : (a.2.perform c).2 = none) :
    a.perform c = .done (c.result?.toList.foldl Metrics.record a.1, (a.2.perform c).1) := by
  cases c with
  | absorb r =>
    show ((a.1.record r, (a.2.absorb r).1), (a.2.absorb r).2) = _
    rw [show (a.2.absorb r).2 = none from hw]
    rfl
  | expect n => rfl
  | markFailed id => rfl

theorem performAll_of_whole {a : Accounts F} {cs : List Call} (hw : (a.2.performAll cs).2 = none) :
    a.performAll cs
      = .done ((results cs).foldl Metrics.record a.1, (a.2.performAll cs).1) := by
  induction cs generalizing a with
  | nil => rfl
  | cons c cs ih =>
    rw [Assembler.performAll, Halting.overList] at hw ⊢
    obtain ⟨hc, hcs, heq⟩ := Halting.whole_of_andThen hw
    have hresults : results (c :: cs) = c.result?.toList ++ results cs := by
      cases c <;> rfl
    rw [performAll, Halting.overList, perform_of_whole hc, heq, hresults, List.foldl_append]
    exact ih (a := (c.result?.toList.foldl Metrics.record a.1, (a.2.perform c).1)) hcs

end Accounts
end

/-! ## what is the same -/

/-- No task has two successes, and every source is of one kind. -/
structure OrderFree (rs : List TaskResult) : Prop where
  once : ((rs.filter (·.isSuccess)).map (·.taskId)).Nodup
  kinds : ∀ t ∈ timings rs, ∀ t' ∈ timings rs, t.sourceId = t'.sourceId → t.code = t'.code

/-- The same calls in another order; tasks may also be given up more than once. -/
structure Assembler.Reordered (cs cs' : List Call) : Prop where
  results : (results cs).Perm (results cs')
  announced : announced cs = announced cs'
  marked : ∀ id, id ∈ marked cs ↔ id ∈ marked cs'

section
variable {rs rs' : List TaskResult}

theorem outputs_perm (h : OrderFree rs) (hp : rs.Perm rs') : (outputs rs).Perm (outputs rs') := by
  have honce' : ((rs'.filter (·.isSuccess)).map (·.taskId)).Nodup :=
    ((hp.filter _).map _).nodup_iff.mp h.once
  rw [outputs, outputs, firstSuccesses_eq_filter h.once, firstSuccesses_eq_filter honce']
  exact (hp.filter _).filterMap _

theorem volume_eq_of_perm (h : OrderFree rs) (hp : rs.Perm rs') : volume rs = volume rs' := by
  funext k
  rw [volume, volume, (hp.map _).sum_eq, ((outputs_perm h hp).map _).sum_eq]

end

/-! ## sums -/

theorem TransferStats.Sums.eq_of_perm {s s' : TransferStats} {rs rs' : List TaskResult}
    (h : s.Sums rs) (h' : s'.Sums rs') (hp : rs.Perm rs') : s = s' := by
  ext
  · exact ((h.sent.trans (hp.map _).sum_eq).trans h'.sent.symm)
  · exact ((h.received.trans (hp.map _).sum_eq).trans h'.received.symm)

theorem SumsRuptures.eq_of_perm {n n' : UInt64} {es es' : List (UInt32 × UInt64)}
    (h : SumsRuptures n es) (h' : SumsRuptures n' es') (hp : es.Perm es') : n = n' :=
  UInt64.toNat_inj.mp ((h.trans (hp.map _).sum_eq).trans h'.symm)

theorem SourceInfo.Sums.eq_of_perm {F : Type} [Field F] [Scalar F] {s s' : SourceInfo F}
    {ts ts' : List SourceTiming} (h : s.Sums ts) (h' : s'.Sums ts') (hp : ts.Perm ts')
    (hsame : ∀ t ∈ ts, ∀ t' ∈ ts, t.sourceId = t'.sourceId ∧ t.code = t'.code) : s = s' := by
  obtain ⟨t, hhead, hid, hcode⟩ := h.first
  obtain ⟨t', hhead', hid', hcode'⟩ := h'.first
  obtain ⟨heqid, heqcode⟩ := hsame t (List.mem_of_mem_head? hhead) t'
    (hp.mem_iff.mpr (List.mem_of_mem_head? hhead'))
  ext
  · rw [hid, hid', heqid]
  · rw [hcode, hcode', heqcode]
  · exact ((h.numSites.trans (hp.map _).sum_eq).trans h'.numSites.symm)
  · exact (h.calcTime.trans (hp.map _).sum_eq).trans h'.calcTime.symm
  · exact (h.numSplit.trans hp.length_eq).trans h'.numSplit.symm
  · exact ((h.events.trans (hp.map _).sum_eq).trans h'.events.symm)

namespace Assembler

variable {F : Type} [Field F] [Scalar F]

theorem Tables.eq_of_perm {a a' : Assembler F} {rs rs' : List TaskResult}
    (h : Tables SourceInfo.Sums a rs (timings rs) (ruptureCounts rs))
    (h' : Tables SourceInfo.Sums a' rs' (timings rs') (ruptureCounts rs')) (hfree : OrderFree rs)
    (hp : rs.Perm rs') :
    a.transfer = a'.transfer ∧ a.sources = a'.sources ∧ a.effRuptures = a'.effRuptures := by
  have houtputs := outputs_perm hfree hp
  refine ⟨?_, ?_, ?_⟩
  · exact h.transfer.eq_of_perm h'.transfer hp fun k _ _ hv hv' => hv.eq_of_perm hv' (hp.filter _)
  · have htimings : (timings rs).Perm (timings rs') := houtputs.flatMap_right _
    refine h.sources.eq_of_perm h'.sources htimings fun id _ _ hv hv' => ?_
    refine hv.eq_of_perm hv' (htimings.filter _) fun t ht t' ht' => ?_
    obtain ⟨hmem, hid⟩ := List.mem_filter.mp ht
    obtain ⟨hmem', hid'⟩ := List.mem_filter.mp ht'
    have hsame := (of_decide_eq_true hid).trans (of_decide_eq_true hid').symm
    exact ⟨hsame, hfree.kinds t hmem t' hmem' hsame⟩
  · have hcounts : (ruptureCounts rs).Perm (ruptureCounts rs') := houtputs.flatMap_right _
    exact h.effRuptures.eq_of_perm h'.effRuptures hcounts fun k _ _ hv hv' =>
      hv.eq_of_perm hv' (hcounts.filter _)

end Assembler

/-! ## the report -/

theorem TaskId.mergeSort_eq_of_perm {ids ids' : List TaskId} (hp : ids.Perm ids') :
    ids.mergeSort TaskId.le = ids'.mergeSort TaskId.le := by
  have hperm : (ids.mergeSort TaskId.le).Perm (ids'.mergeSort TaskId.le) :=
    ((List.mergeSort_perm _ _).trans hp).trans (List.mergeSort_perm _ _).symm
  refine hperm.eq_of_pairwise (fun t u _ _ htu hut => ?_) (pairwise_mergeSort _)
    (pairwise_mergeSort _)
  exact Std.LawfulEqOrd.eq_of_compare (Std.OrientedCmp.isLE_antisymm htu hut)

variable {F : Type} [Field F] [Scalar F]

theorem Assembler.Follows.report_eq {a a' : Assembler F} {cs cs' : List Call} (h : a.Follows cs)
    (h' : a'.Follows cs') (hfree : OrderFree (results cs)) (hsame : Reordered cs cs')
    (htopK : a.topK = a'.topK) (operations : Table Operation (OperationStats F)) :
    a.report operations = a'.report operations := by
  obtain ⟨htransfer, hsources, hruptures⟩ :=
    h.tallies.tables.eq_of_perm h'.tallies.tables hfree hsame.results
  have hcompleted : a.completed.Perm a'.completed := by
    rw [List.perm_ext_iff_of_nodup h.tallies.completed_once h'.tallies.completed_once]
    intro id
    rw [h.tallies.completed, h'.tallies.completed]
    simp only [hsame.results.mem_iff]
  have hfailed : a.failed.Perm a'.failed := by
    rw [List.perm_ext_iff_of_nodup h.failed_once h'.failed_once]
    intro id
    rw [h.failed, h'.failed, hsame.marked]
  have hexpected : a.expected = a'.expected := by
    rw [h.expected, h'.expected, hsame.announced]
  have hempty : a.failed.isEmpty = a'.failed.isEmpty := by
    rw [Bool.eq_iff_iff, List.isEmpty_iff, List.isEmpty_iff, ← List.length_eq_zero_iff,
      ← List.length_eq_zero_iff, hfailed.length_eq]
  unfold Assembler.report Assembler.isComplete
  rw [htransfer, hsources, hruptures, hexpected, hempty, htopK, hcompleted.length_eq,
    TaskId.mergeSort_eq_of_perm hfailed]

variable [LinearOrder F] [ExactScalar F]

/-- The same results in another order make the same report, figures by operation included. -/
theorem Accounts.report_of_reordered (topK : Nat) {cs cs' : List Call} (hsame : Reordered cs cs')
    (hfree : OrderFree (results cs)) (hfits : ∀ k, volume (results cs) k < Word64.bound) :
    ∃ a a' : Accounts F, (empty topK).performAll cs = .done a ∧
      (empty topK).performAll cs' = .done a' ∧ a.report = a'.report := by
  have hfits' : ∀ k, volume (results cs') k < Word64.bound := by
    rw [← volume_eq_of_perm hfree hsame.results]
    exact hfits
  have hwhole : (Assembler.performAll (.empty topK : Assembler F) cs).2 = none := whole_of_fits hfits
  have hwhole' : (Assembler.performAll (.empty topK : Assembler F) cs').2 = none :=
    whole_of_fits hfits'
  have hmetrics := (Metrics.describes_foldl (F := F) (results cs)).eq_of_perm
    (Metrics.describes_foldl (results cs')) hsame.results
  refine ⟨_, _, performAll_of_whole hwhole, performAll_of_whole hwhole', ?_⟩
  show Assembler.report _ ((results cs).foldl Metrics.record .empty).snapshot
    = Assembler.report _ ((results cs').foldl Metrics.record .empty).snapshot
  rw [hmetrics]
  exact (follows_performAll hwhole).report_eq (follows_performAll hwhole') hfree hsame
    ((topK_performAll topK cs).trans (topK_performAll topK cs').symm) _

def failureFirst : List Call :=
  [.absorb sampleFailure, .absorb sampleSuccess, .markFailed ⟨"t2"⟩]

def successFirst : List Call :=
  [.markFailed ⟨"t2"⟩, .absorb sampleSuccess, .markFailed ⟨"t2"⟩, .absorb sampleFailure]

theorem reordered_failureFirst : Reordered failureFirst successFirst where
  results := .swap _ _ _
  announced := rfl
  marked id := by
    show id ∈ [_] ↔ id ∈ [_, _]
    simp

theorem orderFree_failureFirst : OrderFree (results failureFirst) where
  once := by
    show ([⟨"t1"⟩] : List TaskId).Nodup
    exact List.nodup_singleton _
  kinds := by
    have hfirst : firstSuccesses (results failureFirst) = [sampleSuccess] := rfl
    obtain ⟨time, houtputs⟩ := outputs_of_sampleSuccess hfirst
    intro t ht t' ht' _
    rw [timings, houtputs] at ht ht'
    obtain rfl := List.mem_singleton.mp ht
    obtain rfl := List.mem_singleton.mp ht'
    rfl

theorem volume_failureFirst (k : Counter) : volume (results failureFirst) k < Word64.bound := by
  have hfailure := moves_sampleResult (.failure .timeout) .empty k
  have hsuccess := moves_sampleResult .success (.ofValue sampleOutput.toJson) k
  refine volume_of_sampleSuccess rfl ?_
  show sampleFailure.moves k + (sampleSuccess.moves k + 0) ≤ 60
  rw [sampleFailure, sampleSuccess]
  omega

theorem report_of_reordered_failureFirst :
    Reordered failureFirst successFirst ∧ OrderFree (results failureFirst) ∧
      (∀ k, volume (results failureFirst) k < Word64.bound) ∧
      ∃ a a' : Accounts ℝ, (Accounts.empty 1).performAll failureFirst = .done a ∧
        (Accounts.empty 1).performAll successFirst = .done a' ∧ a.report = a'.report :=
  ⟨reordered_failureFirst, orderFree_failureFirst, volume_failureFirst,
    Accounts.report_of_reordered 1 reordered_failureFirst orderFree_failureFirst
      volume_failureFirst⟩

end HazardDispatch
