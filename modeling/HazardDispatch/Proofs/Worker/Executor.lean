import HazardDispatch.Proofs.Decimal.Readback
import HazardDispatch.Proofs.Json.Sizes
import HazardDispatch.Proofs.Source.Plan
import HazardDispatch.Worker.Executor

/-!
# What a simulated execution reports

An execution that nobody cancels comes to its end: with one timing for each source of the task, in
their order, and the ruptures of the sources added up under the group of the task (`execute_sources`).
All that is asked of the random draws is that a number of sites is in its range.

The loop over the sources carries the timings and the sum so far (`runSources_done`).
-/

namespace HazardDispatch

/-- The ruptures of some sources, added up. -/
def ruptures (ss : List SourceSpec) : Nat := Word64.natSum (ss.map (·.numRuptures))

theorem ruptures_cons (s : SourceSpec) (ss : List SourceSpec) :
    ruptures (s :: ss) = s.numRuptures.toNat + ruptures ss := by
  simp [ruptures, Word64.natSum]

theorem SourceSpec.numRuptures_le_weight (s : SourceSpec) : s.numRuptures.toNat ≤ s.weight.toNat := by
  have hlt := Word64.toNat_lt_bound s.numRuptures
  have hdists : 1 ≤ (max s.numDists 1).toNat := by
    show 1 ≤ (if s.numDists ≤ 1 then (1 : UInt64) else s.numDists).toNat
    split
    · decide
    · next h =>
      rw [UInt64.le_iff_toNat_le] at h
      have : (1 : UInt64).toNat = 1 := rfl
      omega
  have hprod : s.numRuptures.toNat ≤ s.numRuptures.toNat * (max s.numDists 1).toNat :=
    Nat.le_mul_of_pos_right _ hdists
  rw [weight, Word64.toNat_satMul]
  have : Word64.greatest = Word64.bound - 1 := rfl
  omega

structure SourceTiming.Of (s : SourceSpec) (t : SourceTiming) : Prop where
  sourceId : t.sourceId = s.sourceId
  sites : t.numSites.toNat ≤ 100
  events : t.events.toNat ≤ s.numRuptures.toNat

/-- The figures are those of the sources of the block, and its group. -/
structure TaskOutput.Of (b : UInt32 × List SourceSpec) (o : TaskOutput) : Prop where
  timings : List.Forall₂ SourceTiming.Of b.2 o.timings
  effRuptures : ∃ n, o.effRuptures = Table.empty.put b.1 n ∧ n.toNat = ruptures b.2

/-- The payload reports on the block, and is not too short for it. -/
structure Payload.ReportsOn (b : UInt32 × List SourceSpec) (p : Payload) : Prop where
  output : ∃ o, p.decode TaskOutput.ofJson = .ok o ∧ TaskOutput.Of b o
  size : 50 * b.2.length ≤ p.size

theorem forall₂_trans {α β γ : Type} {R : α → β → Prop} {S : β → γ → Prop} {T : α → γ → Prop}
    (h : ∀ a b c, R a b → S b c → T a c) {as : List α} {bs : List β} {cs : List γ}
    (hR : List.Forall₂ R as bs) (hS : List.Forall₂ S bs cs) : List.Forall₂ T as cs := by
  induction hR generalizing cs with
  | nil =>
    cases hS
    exact .nil
  | cons hhead _ ih =>
    cases hS with
    | cons hhead' hrest => exact .cons (h _ _ _ hhead hhead') (ih hrest)

theorem SourceTiming.of_same {ss : List SourceSpec} {ts ts' : List SourceTiming}
    (h : List.Forall₂ Of ss ts) (hsame : List.Forall₂ SameButTime ts ts') :
    List.Forall₂ Of ss ts' := by
  refine forall₂_trans (fun s t t' hof hsame => ?_) h hsame
  obtain ⟨y, rfl⟩ := hsame
  exact ⟨hof.sourceId, hof.sites, hof.events⟩

namespace Executor

variable {ρ : Type} (x : Executor ρ)

theorem countEvents_le (n : Nat) (r : ρ) : (x.countEvents n r).1 ≤ n := by
  induction n generalizing r with
  | zero => exact Nat.le_refl 0
  | succ n ih =>
    have hrest := ih (x.draws.event r).2
    show (if (x.draws.event r).1 then (x.countEvents n (x.draws.event r).2).1 + 1
      else (x.countEvents n (x.draws.event r).2).1) ≤ n + 1
    split <;> omega

theorem events_le (op : Operation) (s : SourceSpec) (r : ρ) :
    (x.events op s r).1 ≤ s.numRuptures.toNat / 10 := by
  cases op with
  | buildRuptures => exact x.countEvents_le _ r
  | computeGmfs => exact x.countEvents_le _ r
  | _ => exact Nat.zero_le _

theorem timing_of (hx : x.draws.InRange) (op : Operation) (s : SourceSpec) (cost : Duration) (r : ρ) :
    SourceTiming.Of s (x.timing op s cost r).1 := by
  have hevents := x.events_le op s (x.draws.sites r).2
  have hlt := Word64.toNat_lt_bound s.numRuptures
  refine ⟨rfl, (hx r).2, ?_⟩
  show (UInt64.ofNat (x.events op s (x.draws.sites r).2).1).toNat ≤ _
  rw [UInt64.toNat_ofNat_of_lt']
  · omega
  · show _ < Word64.bound
    omega

theorem legible_sourceCost (s : SourceSpec) (jitter : Float) :
    Json.Legible (x.sourceCost s jitter).seconds :=
  Json.float_seconds (Duration.clamped_le ceiling _)

/-- The timing is made for the source, with some draws. -/
def Timed (op : Operation) (s : SourceSpec) (t : SourceTiming) : Prop :=
  ∃ jitter r, t = (x.timing op s (x.sourceCost s jitter) r).1

theorem Timed.of {x : Executor ρ} (hx : x.draws.InRange) {op : Operation} {s : SourceSpec}
    {t : SourceTiming} (h : x.Timed op s t) : SourceTiming.Of s t := by
  obtain ⟨jitter, r, rfl⟩ := h
  exact x.timing_of hx op s _ r

theorem legible_of_timed {op : Operation} {ss : List SourceSpec} {ts : List SourceTiming}
    (h : List.Forall₂ (x.Timed op) ss ts) : ∀ t ∈ ts, Json.Legible t.calcTime := by
  induction h with
  | nil => simp
  | cons hhead _ ih =>
    obtain ⟨jitter, r, rfl⟩ := hhead
    exact List.forall_mem_cons.mpr ⟨x.legible_sourceCost _ jitter, ih⟩

/-- The loop comes to its end. What it adds to the timings and the sum are the timings and the ruptures
of the sources that are left. -/
theorem runSources_done (op : Operation) (group : UInt32)
    (ss : List SourceSpec) (now : Nat) (r : ρ) (timings : List SourceTiming) (total : UInt64)
    (h : total.toNat + ruptures ss < Word64.bound) :
    ∃ ts n fin, x.runSources op group none now r timings total ss
        = (.done (.ofValue (TaskOutput.toJson ⟨timings ++ ts, Table.empty.put group n⟩)), fin) ∧
      List.Forall₂ (x.Timed op) ss ts ∧ n.toNat = total.toNat + ruptures ss := by
  induction ss generalizing now r timings total with
  | nil => exact ⟨[], total, now, by simp [runSources], .nil, by simp [ruptures, Word64.natSum]⟩
  | cons s rest ih =>
    rw [ruptures_cons] at h ⊢
    let cost := x.sourceCost s (x.draws.jitter r).1
    let t := (x.timing op s cost (x.draws.jitter r).2).1
    let r' := (x.timing op s cost (x.draws.jitter r).2).2
    have hstep : total.toNat + s.numRuptures.toNat < Word64.bound := by omega
    have hadd := Word64.toNat_add_of_lt hstep
    obtain ⟨ts, n, fin, hrun, htimed, hn⟩ := ih (now + cost.millisUp) r' (timings ++ [t])
      (total + s.numRuptures) (by omega)
    refine ⟨t :: ts, n, fin, ?_, .cons ⟨_, _, rfl⟩ htimed, by omega⟩
    have hsum := Word64.add?_of_lt hstep
    have hnext : x.runSources op group none now r timings total (s :: rest)
        = x.runSources op group none (now + cost.millisUp) r' (timings ++ [t])
          (total + s.numRuptures) rest := by
      have hgo (fin : Nat) : ¬ cancelledBefore none now fin := Bool.false_ne_true
      simp only [runSources, hgo, hsum]
      rfl
    rw [hnext, hrun]
    simp

/-- An execution that is not cancelled reports on all sources of the task. -/
theorem execute_sources (hx : x.draws.InRange) {req : ExecuteRequest} {ss : List SourceSpec}
    (hop : req.operation ≠ .readSourceModel)
    (hpayload : req.payload = .ofValue (SourceSpec.listToJson ss))
    (h : ruptures ss < Word64.bound) (now : Nat) :
    ∃ p fin, x.execute req none now = (.done p, fin) ∧ p.ReportsOn (req.groupId, ss) := by
  obtain ⟨ts, n, fin, hrun, htimed, hn⟩ := x.runSources_done req.operation req.groupId ss now
    (x.source req.seed) [] 0 (by simpa using h)
  rw [List.nil_append] at hrun
  have hof : List.Forall₂ SourceTiming.Of ss ts := htimed.imp fun _ _ ht => ht.of hx
  have hlegible := x.legible_of_timed htimed
  obtain ⟨ts', hdecode, hsame⟩ := decode_output (o := ⟨ts, Table.empty.put req.groupId n⟩) hlegible
  have hsize := size_output (o := ⟨ts, Table.empty.put req.groupId n⟩) hlegible
  refine ⟨_, fin, ?_, ⟨⟨ts', Table.empty.put req.groupId n⟩, hdecode,
    SourceTiming.of_same hof hsame, n, rfl, by simpa using hn⟩, ?_⟩
  · rw [execute, hpayload, decode_sources]
    dsimp only
    rw [if_neg hop]
    exact hrun
  · rw [hof.length_eq]
    exact hsize

end Executor
end HazardDispatch
