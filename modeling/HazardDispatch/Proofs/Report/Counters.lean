import HazardDispatch.Proofs.Table
import HazardDispatch.Report.Assembler

/-!
# The counters of an account

An account of a calculation keeps many 64-bit counters: bytes by operation, sites and events by
source, ruptures by group. `Assembler.count` reads them all, and `Assembler.demand` says what a result
adds to each of them. Folding a result in is a long row of checked sums, and it stops at the first one
that leaves the range. Still it is made to its end exactly if the result fits at once: if every
counter has room for all that the result adds to it (`absorb_whole_iff`).

`Adds count h s amount` is this statement for one change `h` of a state `s`. It is kept when changes
follow each other, so only the three sums themselves have to be looked at.
-/

namespace HazardDispatch

/-! ## checked sums -/

namespace Word64

theorem toNat_lt_bound (a : UInt64) : a.toNat < bound := a.toNat_lt

theorem add?_of_lt {a b : UInt64} (h : a.toNat + b.toNat < bound) : add? a b = .ok (a + b) :=
  if_pos h

theorem add?_of_le {a b : UInt64} (h : bound ≤ a.toNat + b.toNat) : add? a b = .error {} :=
  if_neg (Nat.not_lt.mpr h)

theorem toNat_add_of_lt {a b : UInt64} (h : a.toNat + b.toNat < bound) :
    (a + b).toNat = a.toNat + b.toNat := by
  rw [UInt64.toNat_add]
  exact Nat.mod_eq_of_lt h

end Word64

/-! ## changes that add to counters -/

/-- The change `h` of `s` adds the amounts to the counters. It is made to its end exactly if they all
stay in range. -/
structure Halting.Adds {σ κ : Type} (count : σ → κ → Nat) (h : Halting σ) (s : σ)
    (amount : κ → Nat) : Prop where
  whole_iff : h.2 = none ↔ ∀ k, count s k + amount k < Word64.bound
  counts : h.2 = none → ∀ k, count h.1 k = count s k + amount k

namespace Halting

variable {σ κ α : Type} {count : σ → κ → Nat} {h : Halting σ} {s : σ} {amount amount' : κ → Nat}

theorem andThen_of_whole (f : σ → Halting σ) (hw : h.2 = none) : h.andThen f = f h.1 := by
  obtain ⟨s', _ | e⟩ := h
  · rfl
  · cases hw

theorem andThen_of_stopped (f : σ → Halting σ) (hw : h.2 ≠ none) : h.andThen f = h := by
  obtain ⟨s', _ | e⟩ := h
  · exact absurd rfl hw
  · rfl

/-- Two changes are made to their end together if each of them is. -/
theorem whole_of_andThen {f : σ → Halting σ} (hw : (h.andThen f).2 = none) :
    h.2 = none ∧ (f h.1).2 = none ∧ h.andThen f = f h.1 := by
  by_cases hh : h.2 = none
  · have heq := andThen_of_whole f hh
    rw [heq] at hw
    exact ⟨hh, hw, heq⟩
  · rw [andThen_of_stopped f hh] at hw
    exact absurd hw hh

theorem andThen_keeps {P : σ → Prop} {f : σ → Halting σ} (hh : P h.1)
    (hf : ∀ s, P s → P (f s).1) : P (h.andThen f).1 := by
  by_cases hw : h.2 = none
  · rw [andThen_of_whole f hw]
    exact hf h.1 hh
  · rw [andThen_of_stopped f hw]
    exact hh

theorem overList_keeps {f : σ → α → Halting σ} {P : σ → Prop} (hf : ∀ s x, P s → P (f s x).1)
    {s : σ} (xs : List α) (hs : P s) : P (overList f s xs).1 := by
  induction xs generalizing s with
  | nil => exact hs
  | cons x xs ih => exact andThen_keeps (hf s x hs) fun _ => ih

theorem Adds.done {s' : σ} (hb : ∀ k, count s k < Word64.bound) (hs : ∀ k, count s' k = count s k) :
    Adds count (.done s') s fun _ => 0 where
  whole_iff := ⟨fun _ => hb, fun _ => rfl⟩
  counts _ := hs

theorem Adds.of_count {s' : σ} (ha : Adds count h s' amount) (hs : ∀ k, count s' k = count s k) :
    Adds count h s amount where
  whole_iff := by simpa only [hs] using ha.whole_iff
  counts := by simpa only [hs] using ha.counts

theorem Adds.of_support (hb : ∀ k, count s k < Word64.bound) (ks : List κ)
    (support : ∀ k, k ∉ ks → amount k = 0)
    (whole : h.2 = none ↔ ∀ k ∈ ks, count s k + amount k < Word64.bound)
    (counts : h.2 = none → ∀ k, count h.1 k = count s k + amount k) :
    Adds count h s amount where
  whole_iff := by
    rw [whole]
    refine ⟨fun hk k => ?_, fun hk k _ => hk k⟩
    by_cases hmem : k ∈ ks
    · exact hk k hmem
    · rw [support k hmem]
      exact hb k
  counts := counts

theorem Adds.andThen {f : σ → Halting σ} (ha : Adds count h s amount)
    (hf : h.2 = none → Adds count (f h.1) h.1 amount') :
    Adds count (h.andThen f) s fun k => amount k + amount' k := by
  by_cases hw : h.2 = none
  · rw [andThen_of_whole f hw]
    have hcount := ha.counts hw
    refine ⟨?_, fun hw' k => ?_⟩
    · rw [(hf hw).whole_iff]
      simp only [hcount, Nat.add_assoc]
    · rw [(hf hw).counts hw', hcount, Nat.add_assoc]
  · rw [andThen_of_stopped f hw]
    refine ⟨⟨fun c => absurd c hw, fun c => absurd (ha.whole_iff.mpr fun k => ?_) hw⟩,
      fun c => absurd c hw⟩
    have := c k
    omega

/-- What all items of a list add. -/
def total (amount : α → κ → Nat) : List α → κ → Nat
  | [], _ => 0
  | x :: xs, k => amount x k + total amount xs k

theorem Adds.overList {f : σ → α → Halting σ} {amount : α → κ → Nat}
    (hb : ∀ s k, count s k < Word64.bound) (hf : ∀ s x, Adds count (f s x) s (amount x)) (s : σ)
    (xs : List α) :
    Adds count (Halting.overList f s xs) s (total amount xs) := by
  induction xs generalizing s with
  | nil => exact Adds.done (hb s) fun _ => rfl
  | cons x xs ih => exact (hf s x).andThen fun _ => ih _

end Halting

/-! ## the counters -/

inductive Counter where
  | sent (op : Operation)
  | received (op : Operation)
  | sites (source : String)
  | events (source : String)
  | ruptures (group : UInt32)

def TaskResult.moves (r : TaskResult) : Counter → Nat
  | .sent op => if r.operation = op then r.bytesSent.toNat else 0
  | .received op => if r.operation = op then r.bytesReceived.toNat else 0
  | _ => 0

def SourceTiming.adds (t : SourceTiming) : Counter → Nat
  | .sites s => if t.sourceId = s then t.numSites.toNat else 0
  | .events s => if t.sourceId = s then t.events.toNat else 0
  | _ => 0

def groupAdds (e : UInt32 × UInt64) : Counter → Nat
  | .ruptures g => if e.1 = g then e.2.toNat else 0
  | _ => 0

def TaskOutput.adds (o : TaskOutput) (k : Counter) : Nat :=
  Halting.total SourceTiming.adds o.timings k + Halting.total groupAdds o.effRuptures.entries k

namespace Assembler

variable {F : Type}

def count (a : Assembler F) : Counter → Nat
  | .sent op => (a.transfer.get? op).elim 0 (·.sent.toNat)
  | .received op => (a.transfer.get? op).elim 0 (·.received.toNat)
  | .sites s => (a.sources.get? s).elim 0 (·.numSites.toNat)
  | .events s => (a.sources.get? s).elim 0 (·.events.toNat)
  | .ruptures g => (a.effRuptures.get? g).elim 0 (·.toNat)

/-- What a result adds: its bytes always, its figures about sources if it is the first success of its
task and carries any. -/
def demand (a : Assembler F) (r : TaskResult) (k : Counter) : Nat :=
  r.moves k + if a.isFirstSuccess r then
    match r.payload.decode TaskOutput.ofJson with
    | .ok o => o.adds k
    | .error _ => 0
  else 0

/-- Every counter has room for what the result adds to it. -/
def Fits (a : Assembler F) (r : TaskResult) : Prop := ∀ k, a.count k + a.demand r k < Word64.bound

theorem count_lt (a : Assembler F) (k : Counter) : a.count k < Word64.bound := by
  have hzero : 0 < Word64.bound := by decide
  cases k with
  | sent op => cases h : a.transfer.get? op <;> simp [count, h, Word64.toNat_lt_bound, hzero]
  | received op => cases h : a.transfer.get? op <;> simp [count, h, Word64.toNat_lt_bound, hzero]
  | sites s => cases h : a.sources.get? s <;> simp [count, h, Word64.toNat_lt_bound, hzero]
  | events s => cases h : a.sources.get? s <;> simp [count, h, Word64.toNat_lt_bound, hzero]
  | ruptures g => cases h : a.effRuptures.get? g <;> simp [count, h, Word64.toNat_lt_bound, hzero]

end Assembler

/-! ## the three sums -/

theorem apply_getD {α : Type} {f : α → Nat} {a : α} (h : f a = 0) (o : Option α) :
    f (o.getD a) = o.elim 0 f := by
  cases o with
  | none => exact h
  | some _ => rfl

theorem elim_get?_put {κ α : Type} [Ord κ] [Std.TransOrd κ] [Std.LawfulEqOrd κ] [DecidableEq κ]
    (t : Table κ α) (k k' : κ) (v : α) (f : α → Nat) :
    ((t.put k v).get? k').elim 0 f = if k' = k then f v else (t.get? k').elim 0 f := by
  rw [Table.get?_put]
  split <;> rfl

namespace TransferStats

variable {t : TransferStats} {sent received : UInt64}

theorem add_whole_iff : (t.add sent received).2 = none ↔
    t.sent.toNat + sent.toNat < Word64.bound ∧ t.received.toNat + received.toNat < Word64.bound := by
  by_cases hs : t.sent.toNat + sent.toNat < Word64.bound
  · by_cases hr : t.received.toNat + received.toNat < Word64.bound
    · simp [add, Word64.add?_of_lt hs, Word64.add?_of_lt hr, hs, hr, Halting.done]
    · simp [add, Word64.add?_of_lt hs, Word64.add?_of_le (Nat.not_lt.mp hr), hr]
  · simp [add, Word64.add?_of_le (Nat.not_lt.mp hs), hs]

theorem add_of_whole (h : (t.add sent received).2 = none) :
    (t.add sent received).1 = ⟨t.sent + sent, t.received + received⟩ := by
  obtain ⟨hs, hr⟩ := add_whole_iff.mp h
  simp only [add, Word64.add?_of_lt hs, Word64.add?_of_lt hr, Halting.done]

end TransferStats

namespace SourceInfo

variable {F : Type} [Add F] [Scalar F] {s : SourceInfo F} {t : SourceTiming}

theorem add_whole_iff : (s.add t).2 = none ↔
    s.numSites.toNat + t.numSites.toNat < Word64.bound ∧
      s.events.toNat + t.events.toNat < Word64.bound := by
  by_cases hs : s.numSites.toNat + t.numSites.toNat < Word64.bound
  · by_cases he : s.events.toNat + t.events.toNat < Word64.bound
    · simp [add, Word64.add?_of_lt hs, Word64.add?_of_lt he, hs, he, Halting.done]
    · simp [add, Word64.add?_of_lt hs, Word64.add?_of_le (Nat.not_lt.mp he), he]
  · simp [add, Word64.add?_of_le (Nat.not_lt.mp hs), hs]

theorem add_of_whole (h : (s.add t).2 = none) :
    (s.add t).1 = { s with
      numSites := s.numSites + t.numSites, calcTime := s.calcTime + Scalar.ofFloat t.calcTime
      numSplit := s.numSplit + 1, events := s.events + t.events } := by
  obtain ⟨hs, he⟩ := add_whole_iff.mp h
  simp only [add, Word64.add?_of_lt hs, Word64.add?_of_lt he, Halting.done]

end SourceInfo

namespace Assembler

variable {F : Type}

theorem addTransfer_adds (a : Assembler F) (r : TaskResult) :
    Halting.Adds count (a.addTransfer r) a r.moves := by
  let before := (a.transfer.get? r.operation).getD .zero
  have hsent : before.sent.toNat = a.count (.sent r.operation) :=
    apply_getD (f := fun t : TransferStats => t.sent.toNat) rfl _
  have hreceived : before.received.toNat = a.count (.received r.operation) :=
    apply_getD (f := fun t : TransferStats => t.received.toNat) rfl _
  refine .of_support a.count_lt [.sent r.operation, .received r.operation] (fun k hk => ?_) ?_
    fun hw k => ?_
  · cases k with
    | sent op => exact if_neg fun h => hk (by simp [h])
    | received op => exact if_neg fun h => hk (by simp [h])
    | _ => rfl
  · show (before.add r.bytesSent r.bytesReceived).2 = none ↔ _
    simp [TransferStats.add_whole_iff, hsent, hreceived, TaskResult.moves]
  · obtain ⟨hs, hr⟩ := (TransferStats.add_whole_iff (t := before)).mp hw
    have hafter := TransferStats.add_of_whole (t := before) hw
    cases k with
    | sent op =>
      show ((a.transfer.put r.operation (before.add r.bytesSent r.bytesReceived).1).get? op).elim 0
        (·.sent.toNat) = a.count (.sent op) + r.moves (.sent op)
      rw [hafter, elim_get?_put, Word64.toNat_add_of_lt hs, hsent]
      by_cases hop : op = r.operation <;> simp [hop, TaskResult.moves, count, eq_comm]
    | received op =>
      show ((a.transfer.put r.operation (before.add r.bytesSent r.bytesReceived).1).get? op).elim 0
        (·.received.toNat) = a.count (.received op) + r.moves (.received op)
      rw [hafter, elim_get?_put, Word64.toNat_add_of_lt hr, hreceived]
      by_cases hop : op = r.operation <;> simp [hop, TaskResult.moves, count, eq_comm]
    | _ => rfl

theorem addTransfer_isFirstSuccess (a : Assembler F) (r : TaskResult) :
    (a.addTransfer r).1.isFirstSuccess r = a.isFirstSuccess r := rfl

theorem addRuptures_adds (a : Assembler F) (e : UInt32 × UInt64) :
    Halting.Adds count (a.addRuptures e) a (groupAdds e) := by
  obtain ⟨g, n⟩ := e
  let before := (a.effRuptures.get? g).getD 0
  have hbefore : before.toNat = a.count (.ruptures g) :=
    apply_getD (f := UInt64.toNat) rfl _
  have hsupport : ∀ k, k ∉ [Counter.ruptures g] → groupAdds (g, n) k = 0 := by
    intro k hk
    cases k with
    | ruptures g' => exact if_neg fun h : g = g' => hk (by simp [h])
    | _ => rfl
  by_cases hlt : before.toNat + n.toNat < Word64.bound
  · have hafter : a.addRuptures (g, n) = .done { a with
        effRuptures := a.effRuptures.put g (before + n) } := by
      simp only [addRuptures, before, Word64.add?_of_lt hlt]
    rw [hafter]
    refine .of_support a.count_lt _ hsupport ?_ fun _ k => ?_
    · simp [Halting.done, groupAdds, ← hbefore, hlt]
    · cases k with
      | ruptures g' =>
        show ((a.effRuptures.put g (before + n)).get? g').elim 0 UInt64.toNat =
          a.count (.ruptures g') + groupAdds (g, n) (.ruptures g')
        rw [elim_get?_put, Word64.toNat_add_of_lt hlt, hbefore]
        by_cases h : g' = g <;> simp [h, Ne.symm, groupAdds, count]
      | _ => rfl
  · have hstop : (a.addRuptures (g, n)).2 = some {} := by
      simp only [addRuptures, before, Word64.add?_of_le (Nat.not_lt.mp hlt)]
    refine .of_support a.count_lt _ hsupport ?_ fun hw => ?_
    · simpa [hstop, groupAdds, ← hbefore] using Nat.not_lt.mp hlt
    · rw [hstop] at hw
      cases hw

variable [Add F] [Scalar F]

theorem addTiming_adds (a : Assembler F) (t : SourceTiming) :
    Halting.Adds count (a.addTiming t) a t.adds := by
  let before := (a.sources.get? t.sourceId).getD (.ofTiming t)
  have hsites : before.numSites.toNat = a.count (.sites t.sourceId) :=
    apply_getD (f := fun s : SourceInfo F => s.numSites.toNat) rfl _
  have hevents : before.events.toNat = a.count (.events t.sourceId) :=
    apply_getD (f := fun s : SourceInfo F => s.events.toNat) rfl _
  refine .of_support a.count_lt [.sites t.sourceId, .events t.sourceId] (fun k hk => ?_) ?_
    fun hw k => ?_
  · cases k with
    | sites s => exact if_neg fun h => hk (by simp [h])
    | events s => exact if_neg fun h => hk (by simp [h])
    | _ => rfl
  · show (before.add t).2 = none ↔ _
    simp [SourceInfo.add_whole_iff, hsites, hevents, SourceTiming.adds]
  · obtain ⟨hs, he⟩ := (SourceInfo.add_whole_iff (s := before)).mp hw
    have hafter := SourceInfo.add_of_whole (s := before) hw
    cases k with
    | sites s =>
      show ((a.sources.put t.sourceId (before.add t).1).get? s).elim 0 (·.numSites.toNat) =
        a.count (.sites s) + t.adds (.sites s)
      rw [hafter, elim_get?_put]
      show (if s = t.sourceId then (before.numSites + t.numSites).toNat else _) = _
      rw [Word64.toNat_add_of_lt hs, hsites]
      by_cases h : s = t.sourceId <;> simp [h, SourceTiming.adds, count, eq_comm]
    | events s =>
      show ((a.sources.put t.sourceId (before.add t).1).get? s).elim 0 (·.events.toNat) =
        a.count (.events s) + t.adds (.events s)
      rw [hafter, elim_get?_put, Word64.toNat_add_of_lt he, hevents]
      by_cases h : s = t.sourceId <;> simp [h, SourceTiming.adds, count, eq_comm]
    | _ => rfl

theorem addOutput_adds (a : Assembler F) (o : TaskOutput) :
    Halting.Adds count (a.addOutput o) a o.adds :=
  (Halting.Adds.overList count_lt addTiming_adds a o.timings).andThen fun _ =>
    .overList count_lt addRuptures_adds _ _

/-- A result adds its demand. -/
theorem absorb_adds (a : Assembler F) (r : TaskResult) :
    Halting.Adds count (a.absorb r) a (a.demand r) := by
  refine (addTransfer_adds a r).andThen fun _ => ?_
  have hb := (a.addTransfer r).1.count_lt
  by_cases hfirst : a.isFirstSuccess r
  · simp only [addTransfer_isFirstSuccess, hfirst, if_true]
    cases r.payload.decode TaskOutput.ofJson with
    | ok o => exact (addOutput_adds _ o).of_count fun _ => rfl
    | error _ => exact .done hb fun _ => rfl
  · simp only [addTransfer_isFirstSuccess, hfirst]
    exact .done hb fun _ => rfl

/-- Folding in is stopped exactly by a result that does not fit. -/
theorem absorb_whole_iff (a : Assembler F) (r : TaskResult) :
    (a.absorb r).2 = none ↔ a.Fits r :=
  (absorb_adds a r).whole_iff

end Assembler
end HazardDispatch
