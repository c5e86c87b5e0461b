import HazardDispatch.Proofs.Report.Figures
import HazardDispatch.Proofs.Source.Plan
import HazardDispatch.Proofs.Table.Gathering
import Mathlib.Data.List.Dedup

/-!
# What an account holds of the results

An account keeps three tables: bytes by operation, figures by source, ruptures by group.
`Tables S a rs ts es` says what they hold after the results `rs`, timings `ts` and ruptures by group
`es`, each kept by its own small change (`Tables.addTransfer`, `Tables.addTiming`,
`Tables.addRuptures`). Of a source it says `S`, which is anything that one more timing keeps: that
the timings are counted (`SourceInfo.Counts`), or also their total time, for which arithmetic has to
be exact.

Successes of different tasks are folded in to the end if all counters have room for what they add
together (`absorbAll_adds`), and then the account holds all of them (`Tables.absorbAll`).
-/

namespace HazardDispatch

theorem Halting.total_eq_sum {α κ : Type} (amount : α → κ → Nat) (xs : List α) (k : κ) :
    total amount xs k = (xs.map fun x => amount x k).sum := by
  induction xs with
  | nil => rfl
  | cons x xs ih => rw [total, ih, List.map_cons, List.sum_cons]

theorem Halting.overList_concat {σ α : Type} (f : σ → α → Halting σ) (s : σ) (xs : List α) (x : α) :
    overList f s (xs ++ [x]) = (overList f s xs).andThen fun s => f s x := by
  induction xs generalizing s with
  | nil =>
    show (f s x).andThen (fun s => done s) = f s x
    by_cases hx : (f s x).2 = none
    · rw [andThen_of_whole _ hx]
      exact Prod.ext rfl hx.symm
    · rw [andThen_of_stopped _ hx]
  | cons y xs ih =>
    rw [List.cons_append, overList, overList]
    by_cases hy : (f s y).2 = none
    · rw [andThen_of_whole _ hy, andThen_of_whole _ hy]
      exact ih _
    · rw [andThen_of_stopped _ hy, andThen_of_stopped _ hy, andThen_of_stopped _ hy]

/-- What holds of the items before is kept by every whole change, so by a whole list of changes. -/
theorem Halting.overList_induction {σ α : Type} {f : σ → α → Halting σ} {P : σ → List α → Prop}
    (step : ∀ s before x, P s before → (f s x).2 = none → P (f s x).1 (before ++ [x])) {s : σ}
    {before : List α} (xs : List α) (h : P s before) (hw : (overList f s xs).2 = none) :
    P (overList f s xs).1 (before ++ xs) := by
  induction xs generalizing s before with
  | nil => simpa [overList, Halting.done] using h
  | cons x xs ih =>
    rw [overList] at hw ⊢
    obtain ⟨hx, hxs, heq⟩ := whole_of_andThen hw
    have hnext := ih (step s before x h hx) hxs
    rw [heq]
    simpa using hnext

/-- The figures about sources of a result; none if its payload carries none. -/
def TaskResult.output (r : TaskResult) : TaskOutput :=
  match r.payload.decode TaskOutput.ofJson with
  | .ok o => o
  | .error _ => .empty

/-- All that a success adds to the counters. -/
def TaskResult.brings (r : TaskResult) (k : Counter) : Nat := r.moves k + r.output.adds k

/-! ## sums -/

structure TransferStats.Sums (s : TransferStats) (rs : List TaskResult) : Prop where
  sent : s.sent.toNat = (rs.map (·.bytesSent.toNat)).sum
  received : s.received.toNat = (rs.map (·.bytesReceived.toNat)).sum

def SumsRuptures (n : UInt64) (es : List (UInt32 × UInt64)) : Prop :=
  n.toNat = (es.map (·.2.toNat)).sum

/-- The source with all that is counted of these timings, the first of which gives its kind. -/
structure SourceInfo.Counts {F : Type} (s : SourceInfo F) (ts : List SourceTiming) : Prop where
  first : ∃ t, ts.head? = some t ∧ s.sourceId = t.sourceId ∧ s.code = t.code
  numSites : s.numSites.toNat = (ts.map (·.numSites.toNat)).sum
  numSplit : s.numSplit = ts.length
  events : s.events.toNat = (ts.map (·.events.toNat)).sum

theorem TransferStats.Sums.add {s : TransferStats} {rs : List TaskResult} (h : s.Sums rs)
    {r : TaskResult} (hw : (s.add r.bytesSent r.bytesReceived).2 = none) :
    (s.add r.bytesSent r.bytesReceived).1.Sums (rs ++ [r]) := by
  obtain ⟨hsent, hreceived⟩ := add_whole_iff.mp hw
  rw [add_of_whole hw]
  constructor
  · simp [Word64.toNat_add_of_lt hsent, h.sent]
  · simp [Word64.toNat_add_of_lt hreceived, h.received]

theorem SumsRuptures.add {n : UInt64} {es : List (UInt32 × UInt64)} (h : SumsRuptures n es)
    {e : UInt32 × UInt64} (hlt : n.toNat + e.2.toNat < Word64.bound) :
    SumsRuptures (n + e.2) (es ++ [e]) := by
  rw [SumsRuptures] at h ⊢
  simp [Word64.toNat_add_of_lt hlt, h]

namespace SourceInfo

variable {F : Type} [Add F] [Scalar F]

/-- Once it is true of a source and its timings, one more timing keeps it so. -/
structure Additive (S : SourceInfo F → List SourceTiming → Prop) : Prop where
  first {t : SourceTiming} : ((ofTiming t : SourceInfo F).add t).2 = none →
    S ((ofTiming t).add t).1 [t]
  add {s : SourceInfo F} {ts : List SourceTiming} {t : SourceTiming} : S s ts → (s.add t).2 = none →
    S (s.add t).1 (ts ++ [t])

theorem additive_counts : Additive (F := F) Counts where
  first {t} hw := by
    rw [add_of_whole hw]
    exact ⟨⟨t, rfl, rfl, rfl⟩, by simp [ofTiming], rfl, by simp [ofTiming]⟩
  add {s ts t} h hw := by
    obtain ⟨hsites, hevents⟩ := add_whole_iff.mp hw
    rw [add_of_whole hw]
    constructor
    · obtain ⟨t₀, hhead, hnames⟩ := h.first
      exact ⟨t₀, by rw [List.head?_append, hhead, Option.some_or], hnames⟩
    · simp [Word64.toNat_add_of_lt hsites, h.numSites]
    · simp [h.numSplit]
    · simp [Word64.toNat_add_of_lt hevents, h.events]

omit [Add F] [Scalar F]

/-- Timings of one source are counted under its name. -/
theorem Counts.sourceId {s : SourceInfo F} {ts : List SourceTiming} {id : String}
    (h : s.Counts (ts.filter fun t => t.sourceId = id)) : s.sourceId = id := by
  obtain ⟨t, hhead, hname, -⟩ := h.first
  exact hname.trans (of_decide_eq_true (List.mem_filter.mp (List.mem_of_mem_head? hhead)).2)

theorem map_sourceId {S : SourceInfo F → List SourceTiming → Prop}
    {sources : Table String (SourceInfo F)} {ts : List SourceTiming}
    (h : sources.Gathers (·.sourceId) S ts) (hS : ∀ s ts, S s ts → s.Counts ts) :
    sources.values.map (·.sourceId) = sources.keys := by
  rw [Table.values, Table.keys, List.map_map]
  apply List.map_congr_left
  rintro ⟨id, s⟩ hmem
  exact (hS s _ (h.gathered id s ((Table.mem_entries_iff _).mp hmem))).sourceId

end SourceInfo

namespace Assembler

variable {F : Type}

theorem addRuptures_of_whole {a : Assembler F} {e : UInt32 × UInt64}
    (hw : (a.addRuptures e).2 = none) :
    ((a.effRuptures.get? e.1).getD 0).toNat + e.2.toNat < Word64.bound ∧
      a.addRuptures e = .done { a with
        effRuptures := a.effRuptures.put e.1 ((a.effRuptures.get? e.1).getD 0 + e.2) } := by
  have hlt : ((a.effRuptures.get? e.1).getD 0).toNat + e.2.toNat < Word64.bound := by
    by_contra hge
    have hstop : (a.addRuptures e).2 = some {} := by
      simp only [addRuptures, Word64.add?_of_le (Nat.not_lt.mp hge)]
    rw [hstop] at hw
    cases hw
  refine ⟨hlt, ?_⟩
  simp only [addRuptures, Word64.add?_of_lt hlt]

/-! ## first successes -/

theorem demand_of_first {a : Assembler F} {r : TaskResult} (h : a.isFirstSuccess r) :
    a.demand r = r.brings := by
  funext k
  unfold demand TaskResult.brings TaskResult.output
  rw [if_pos h]
  cases r.payload.decode TaskOutput.ofJson <;> rfl

/-- Successes of different tasks, none of which had one before. -/
structure FirstSuccesses (a : Assembler F) (rs : List TaskResult) : Prop where
  success : ∀ r ∈ rs, r.isSuccess
  nodup : (rs.map (·.taskId)).Nodup
  new : ∀ r ∈ rs, r.taskId ∉ a.completed

theorem FirstSuccesses.head {a : Assembler F} {r : TaskResult} {rs : List TaskResult}
    (h : FirstSuccesses a (r :: rs)) : a.isFirstSuccess r := by
  have hsuccess := h.success r List.mem_cons_self
  have hnew := h.new r List.mem_cons_self
  simp [isFirstSuccess, hsuccess, hnew]

/-! ## the tables -/

structure Tables (S : SourceInfo F → List SourceTiming → Prop) (a : Assembler F)
    (rs : List TaskResult) (ts : List SourceTiming) (es : List (UInt32 × UInt64)) : Prop where
  transfer : a.transfer.Gathers (·.operation) TransferStats.Sums rs
  sources : a.sources.Gathers (·.sourceId) S ts
  effRuptures : a.effRuptures.Gathers (·.1) SumsRuptures es

section
variable {S : SourceInfo F → List SourceTiming → Prop} {a : Assembler F} {rs : List TaskResult}
  {ts : List SourceTiming} {es : List (UInt32 × UInt64)}

theorem tables_empty (topK : Nat) : Tables S (empty topK) [] [] [] :=
  ⟨Table.gathers_empty, Table.gathers_empty, Table.gathers_empty⟩

theorem Tables.of_eq {a' : Assembler F} (h : Tables S a rs ts es)
    (htransfer : a'.transfer = a.transfer) (hsources : a'.sources = a.sources)
    (hruptures : a'.effRuptures = a.effRuptures) : Tables S a' rs ts es :=
  ⟨htransfer ▸ h.transfer, hsources ▸ h.sources, hruptures ▸ h.effRuptures⟩

theorem Tables.addTransfer (h : Tables S a rs ts es) {r : TaskResult}
    (hw : (a.addTransfer r).2 = none) : Tables S (a.addTransfer r).1 (rs ++ [r]) ts es := by
  have hzero : TransferStats.zero.Sums [] := ⟨rfl, rfl⟩
  have hbefore := h.transfer.getD hzero r.operation
  exact ⟨h.transfer.put (hbefore.add hw), h.sources, h.effRuptures⟩

theorem Tables.addRuptures (h : Tables S a rs ts es) {e : UInt32 × UInt64}
    (hw : (a.addRuptures e).2 = none) : Tables S (a.addRuptures e).1 rs ts (es ++ [e]) := by
  have hzero : SumsRuptures 0 [] := rfl
  have hbefore := h.effRuptures.getD hzero e.1
  obtain ⟨hlt, hafter⟩ := addRuptures_of_whole hw
  rw [hafter]
  exact ⟨h.transfer, h.sources, h.effRuptures.put (hbefore.add hlt)⟩

variable [Add F] [Scalar F]

theorem Tables.addTiming (h : Tables S a rs ts es) (hS : SourceInfo.Additive S) {t : SourceTiming}
    (hw : (a.addTiming t).2 = none) : Tables S (a.addTiming t).1 rs (ts ++ [t]) es := by
  let before : SourceInfo F := (a.sources.get? t.sourceId).getD (.ofTiming t)
  have hafter : S (before.add t).1 (ts.filter (fun t' => t'.sourceId = t.sourceId) ++ [t]) := by
    cases hget : a.sources.get? t.sourceId with
    -- the first timing of a source names its kind
    | none =>
      have hbefore : before = .ofTiming t := by simp only [before, hget, Option.getD_none]
      rw [h.sources.filter_eq_nil hget, List.nil_append, hbefore]
      exact hS.first (hbefore ▸ hw)
    | some s =>
      have hbefore : before = s := by simp only [before, hget, Option.getD_some]
      have hsofar : S before _ := hbefore ▸ h.sources.gathered _ s hget
      exact hS.add hsofar hw
  exact ⟨h.transfer, h.sources.put hafter, h.effRuptures⟩

theorem Tables.addOutput (h : Tables S a rs ts es) (hS : SourceInfo.Additive S) {o : TaskOutput}
    (hw : (a.addOutput o).2 = none) :
    Tables S (a.addOutput o).1 rs (ts ++ o.timings) (es ++ o.effRuptures.entries) := by
  unfold Assembler.addOutput at hw ⊢
  obtain ⟨htimings, hgroups, heq⟩ := Halting.whole_of_andThen hw
  have hall : Tables S (Halting.overList Assembler.addTiming a o.timings).1 rs (ts ++ o.timings) es :=
    Halting.overList_induction (P := fun a ts => Tables S a rs ts es)
      (fun _ _ _ hbefore hstep => hbefore.addTiming hS hstep) o.timings h htimings
  rw [heq]
  exact Halting.overList_induction (P := fun a es => Tables S a rs (ts ++ o.timings) es)
    (fun _ _ _ hbefore hstep => hbefore.addRuptures hstep) o.effRuptures.entries hall hgroups

end

variable [Add F] [Scalar F]

/-! ## results -/

theorem absorb_of_first {a : Assembler F} {r : TaskResult} (h : a.isFirstSuccess r) :
    a.absorb r = (a.addTransfer r).andThen fun a =>
      { a with completed := r.taskId :: a.completed }.addOutput r.output := by
  unfold absorb
  by_cases ht : (a.addTransfer r).2 = none
  · rw [Halting.andThen_of_whole _ ht, Halting.andThen_of_whole _ ht, addTransfer_isFirstSuccess,
      if_pos h]
    unfold TaskResult.output
    cases r.payload.decode TaskOutput.ofJson <;> rfl
  · rw [Halting.andThen_of_stopped _ ht, Halting.andThen_of_stopped _ ht]

section
variable {S : SourceInfo F → List SourceTiming → Prop} {a : Assembler F} {rs : List TaskResult}
  {ts : List SourceTiming} {es : List (UInt32 × UInt64)}

theorem Tables.absorb (h : Tables S a rs ts es) (hS : SourceInfo.Additive S) {r : TaskResult}
    (hfirst : a.isFirstSuccess r) (hw : (a.absorb r).2 = none) :
    Tables S (a.absorb r).1 (rs ++ [r]) (ts ++ r.output.timings)
      (es ++ r.output.effRuptures.entries) := by
  rw [absorb_of_first hfirst] at hw ⊢
  obtain ⟨htransfer, houtput, heq⟩ := Halting.whole_of_andThen hw
  have hnoted : Tables S { (a.addTransfer r).1 with
      completed := r.taskId :: (a.addTransfer r).1.completed } (rs ++ [r]) ts es :=
    (h.addTransfer htransfer).of_eq rfl rfl rfl
  rw [heq]
  exact hnoted.addOutput hS houtput

end

theorem FirstSuccesses.tail {a : Assembler F} {r : TaskResult} {rs : List TaskResult}
    (h : FirstSuccesses a (r :: rs)) (hw : (a.absorb r).2 = none) :
    FirstSuccesses (a.absorb r).1 rs := by
  have hcompleted := (absorb_tasks hw).1
  rw [if_pos h.head] at hcompleted
  have hnodup := List.nodup_cons.mp h.nodup
  refine ⟨fun r' hr' => h.success r' (List.mem_cons_of_mem _ hr'), hnodup.2, ?_⟩
  intro r' hr'
  rw [hcompleted, List.mem_cons, not_or]
  refine ⟨?_, h.new r' (List.mem_cons_of_mem _ hr')⟩
  intro heq
  exact hnodup.1 (List.mem_map.mpr ⟨r', hr', heq⟩)

/-- Successes of different tasks add to the counters all that each of them brings. -/
theorem absorbAll_adds {a : Assembler F} {rs : List TaskResult} (h : FirstSuccesses a rs) :
    Halting.Adds count (Halting.overList absorb a rs) a (Halting.total TaskResult.brings rs) := by
  induction rs generalizing a with
  | nil => exact .done a.count_lt fun _ => rfl
  | cons r rs ih =>
    have hr := absorb_adds a r
    rw [demand_of_first h.head] at hr
    exact hr.andThen fun hw => ih (h.tail hw)

theorem Tables.absorbAll {S : SourceInfo F → List SourceTiming → Prop} {a : Assembler F}
    {rs₀ rs : List TaskResult} {ts : List SourceTiming} {es : List (UInt32 × UInt64)}
    (h : Tables S a rs₀ ts es) (hS : SourceInfo.Additive S) (hrs : FirstSuccesses a rs)
    (hw : (Halting.overList Assembler.absorb a rs).2 = none) :
    Tables S (Halting.overList Assembler.absorb a rs).1 (rs₀ ++ rs)
      (ts ++ rs.flatMap (·.output.timings)) (es ++ rs.flatMap (·.output.effRuptures.entries)) := by
  induction rs generalizing a rs₀ ts es with
  | nil => simpa [Halting.overList, Halting.done] using h
  | cons r rs ih =>
    rw [Halting.overList] at hw ⊢
    obtain ⟨hr, hrest, heq⟩ := Halting.whole_of_andThen hw
    have hall := ih (h.absorb hS hrs.head hr) (hrs.tail hr) hrest
    rw [heq]
    simpa using hall

theorem topK_addOutput (a : Assembler F) (o : TaskOutput) : (a.addOutput o).1.topK = a.topK := by
  have htimings : (Halting.overList addTiming a o.timings).1.topK = a.topK :=
    Halting.overList_keeps (P := fun s : Assembler F => s.topK = a.topK) (fun _ _ hs => hs) _ rfl
  refine Halting.andThen_keeps (P := fun s : Assembler F => s.topK = a.topK) htimings fun s hs => ?_
  refine Halting.overList_keeps (P := fun s : Assembler F => s.topK = a.topK) (fun s e hs => ?_) _ hs
  unfold addRuptures
  dsimp only
  split <;> exact hs

theorem topK_absorb (a : Assembler F) (r : TaskResult) : (a.absorb r).1.topK = a.topK := by
  refine Halting.andThen_keeps (P := fun s : Assembler F => s.topK = a.topK) rfl fun s hs => ?_
  split
  · split
    · exact (topK_addOutput _ _).trans hs
    · exact hs
  · exact hs

end Assembler
end HazardDispatch
