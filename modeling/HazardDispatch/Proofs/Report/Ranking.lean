import HazardDispatch.Proofs.Stats.Exact
import HazardDispatch.Report.Assembler
import Mathlib.Data.Prod.Lex
import Mathlib.Data.String.Basic

/-!
# Lists of sources in a report

A report ranks the sources and sums up their time by kind. Both start from a list of all sources that
may come in any order. In exact arithmetic the order does not matter. Sources with different names are
never ranked equal, so there is only one ranking (`mergeSort_eq_of_perm`), and sums do not depend on the
order (`timeByCode_eq_of_perm`).
-/

namespace HazardDispatch

variable {F : Type} [Field F] [LinearOrder F]

/-- `s` took longer, or as long and its name comes first. -/
def SourceInfo.Before (s t : SourceInfo F) : Prop :=
  t.calcTime < s.calcTime ∨ s.calcTime = t.calcTime ∧ s.sourceId < t.sourceId

/-- Where a source is placed. -/
def SourceInfo.rank (s : SourceInfo F) : Fᵒᵈ ×ₗ String :=
  toLex (OrderDual.toDual s.calcTime, s.sourceId)

def TimeOfSources (x : F) (ss : List (SourceInfo F)) : Prop := x = (ss.map (·.calcTime)).sum

namespace Assembler

omit [Field F] in
theorem before_iff {s t : SourceInfo F} : s.Before t ↔ s.rank < t.rank := by
  rw [SourceInfo.rank, SourceInfo.rank, Prod.Lex.toLex_lt_toLex]
  rfl

variable [Scalar F] [ExactScalar F]

theorem ranksBefore_iff {s t : SourceInfo F} : ranksBefore s t ↔ s.rank ≤ t.rank := by
  have hname : (compare s.sourceId t.sourceId).isLE ↔ s.sourceId ≤ t.sourceId :=
    Std.LawfulBCmp.isLE_iff_le
  rw [ranksBefore, ExactScalar.less, ExactScalar.less, Bool.or_eq_true, Bool.and_eq_true,
    Bool.not_eq_true', decide_eq_true_iff, decide_eq_false_iff_not, hname, SourceInfo.rank,
    SourceInfo.rank, Prod.Lex.toLex_le_toLex]
  show _ ↔ t.calcTime < s.calcTime ∨ s.calcTime = t.calcTime ∧ s.sourceId ≤ t.sourceId
  constructor
  · rintro (hlt | ⟨hle, hid⟩)
    · exact .inl hlt
    · rcases lt_or_eq_of_le (not_lt.mp hle) with hlt | heq
      · exact .inl hlt
      · exact .inr ⟨heq.symm, hid⟩
  · rintro (hlt | ⟨heq, hid⟩)
    · exact .inl hlt
    · exact .inr ⟨heq.not_lt, hid⟩

/-- With names that are all different the ranking is strict. -/
theorem pairwise_mergeSort_ranksBefore {ss : List (SourceInfo F)}
    (hids : (ss.map (·.sourceId)).Nodup) : (ss.mergeSort ranksBefore).Pairwise SourceInfo.Before := by
  have htrans : ∀ s t u : SourceInfo F, ranksBefore s t → ranksBefore t u → ranksBefore s u := by
    intro s t u hst htu
    rw [ranksBefore_iff] at hst htu ⊢
    exact hst.trans htu
  have htotal : ∀ s t : SourceInfo F, (ranksBefore s t || ranksBefore t s) = true := by
    intro s t
    rw [Bool.or_eq_true, ranksBefore_iff, ranksBefore_iff]
    exact le_total _ _
  have hsorted := List.pairwise_mergeSort htrans htotal ss
  have hne : (ss.mergeSort ranksBefore).Pairwise fun s t => s.sourceId ≠ t.sourceId := by
    have hperm := (List.mergeSort_perm ss ranksBefore).map (·.sourceId)
    rw [← List.pairwise_map (f := fun s : SourceInfo F => s.sourceId)]
    exact hperm.nodup_iff.mpr hids
  refine (hsorted.and hne).imp ?_
  rintro s t ⟨hle, hid⟩
  rw [before_iff]
  refine lt_of_le_of_ne (ranksBefore_iff.mp hle) fun heq => hid ?_
  exact congrArg (fun r => (ofLex r).2) heq

theorem mergeSort_eq_of_perm {ss ss' : List (SourceInfo F)} (hids : (ss.map (·.sourceId)).Nodup)
    (hp : ss.Perm ss') : ss.mergeSort ranksBefore = ss'.mergeSort ranksBefore := by
  have hids' : (ss'.map (·.sourceId)).Nodup := (hp.map _).nodup_iff.mp hids
  have hranked := pairwise_mergeSort_ranksBefore hids
  have hranked' := pairwise_mergeSort_ranksBefore hids'
  have hperm : (ss.mergeSort ranksBefore).Perm (ss'.mergeSort ranksBefore) :=
    ((List.mergeSort_perm _ _).trans hp).trans (List.mergeSort_perm _ _).symm
  refine hperm.eq_of_pairwise (fun s t _ _ hst hts => ?_) hranked hranked'
  rw [before_iff] at hst hts
  exact absurd hts hst.asymm

theorem gathers_timeByCode (ss : List (SourceInfo F)) :
    (timeByCode ss).Gathers (·.code.toString) TimeOfSources ss := by
  have hzero : TimeOfSources (Scalar.ofNat 0 : F) [] := by
    rw [TimeOfSources, ExactScalar.ofNat, Nat.cast_zero, List.map_nil, List.sum_nil]
  unfold timeByCode
  induction ss using List.reverseRecOn with
  | nil => exact Table.gathers_empty
  | append_singleton ss s ih =>
    rw [List.foldl_append, List.foldl_cons, List.foldl_nil]
    refine ih.put ?_
    have hbefore := ih.getD hzero s.code.toString
    rw [TimeOfSources] at hbefore ⊢
    rw [List.map_append, List.sum_append, ← hbefore, List.map_singleton, List.sum_singleton]

theorem timeByCode_eq_of_perm {ss ss' : List (SourceInfo F)} (hp : ss.Perm ss') :
    timeByCode ss = timeByCode ss' := by
  refine (gathers_timeByCode ss).eq_of_perm (gathers_timeByCode ss') hp fun k x x' hx hx' => ?_
  rw [hx, hx', ((hp.filter _).map _).sum_eq]

end Assembler
end HazardDispatch
