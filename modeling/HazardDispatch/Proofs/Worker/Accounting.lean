import HazardDispatch.Proofs.Decimal.Amount
import HazardDispatch.Proofs.Worker.Executor

/-!
# An execution accounts for every source, or for none

The sources of a task are run one after another, each in a period of its own (`Executor.periods`).
A cancellation that comes before the end of a period ends the execution, and nothing is reported. Any
other is too late, and the execution goes on as if there were none (`Executor.runSources_cut`). Then
the report has a timing for each source, with a time between zero and an hour, also after it is
written and read (`Executor.execute_accounts`).
-/

namespace HazardDispatch

/-- The operation has events. -/
def Operation.HasEvents (op : Operation) : Prop := op = .buildRuptures ∨ op = .computeGmfs

/-- The timing is that of the source. -/
structure SourceTiming.Accounts (op : Operation) (s : SourceSpec) (t : SourceTiming) : Prop where
  sourceId : t.sourceId = s.sourceId
  code : t.code = s.code
  sites : 1 ≤ t.numSites.toNat ∧ t.numSites.toNat ≤ 100
  time : 0 ≤ t.calcTime ∧ t.calcTime ≤ 3600
  events : t.events.toNat ≤ s.numRuptures.toNat / 10
  noEvents : ¬ op.HasEvents → t.events = 0

/-- The figures have one timing for each source, in their order, and all ruptures of the group. -/
structure TaskOutput.Accounts (op : Operation) (group : UInt32) (ss : List SourceSpec)
    (o : TaskOutput) : Prop where
  timings : List.Forall₂ (SourceTiming.Accounts op) ss o.timings
  effRuptures : ∃ n, o.effRuptures = Table.empty.put group n ∧ n.toNat = ruptures ss

theorem AtMost.within_hour {y : Float} (h : AtMost 3600 y) : 0 ≤ y ∧ y ≤ 3600 := by
  have hvalue : (3600 : ℚ) = (3600 * 2 ^ 41 : ℕ) * 2 ^ (-41 : ℤ) := by norm_num
  rw [hvalue] at h
  have hhour : (3600 : Float).toModel.unpack = .finite .positive (3600 * 2 ^ 41) (-41) (by decide) := rfl
  exact ⟨h.zero_le, h.le_finite hhour (by decide) (by decide)⟩

namespace Random

theorem Keystream.firstOf_fst {α : Type} {P : α → Prop} {accept : UInt64 → Option α} {d : α}
    (hd : P d) (haccept : ∀ w a, accept w = some a → P a) (n : Nat) (s : Keystream) :
    P (firstOf accept d n s).1 := by
  induction n generalizing s with
  | zero => exact hd
  | succ n ih =>
    unfold firstOf
    dsimp only
    split
    · next a ha => exact haccept _ a ha
    · exact ih _

/-- The upper half of a product with a hundred is below a hundred. -/
theorem inRange_keystreamDraws : keystreamDraws.InRange := by
  refine Keystream.firstOf_fst (P := fun n : UInt64 => 1 ≤ n.toNat ∧ n.toNat ≤ 100) (by decide) ?_ 400
  intro w n hn
  have hbound : Word64.bound = 18446744073709551616 := rfl
  have hhigh : w.toNat * 100 / Word64.bound < 100 := by
    have hw := Word64.toNat_lt_bound w
    exact Nat.div_lt_of_lt_mul (by omega)
  unfold Keystream.sites? at hn
  dsimp only at hn
  split at hn
  · obtain rfl := Option.some.inj hn
    have hlow : 0 ≤ w.toNat * 100 / Word64.bound := Nat.zero_le _
    rw [UInt64.toNat_ofNat_of_lt']
    · omega
    · show 1 + w.toNat * 100 / Word64.bound < Word64.bound
      omega
  · cases hn

end Random

namespace Executor

variable {ρ : Type} (x : Executor ρ)

/-- The sources run in these periods, if they start at `now`. -/
def periods (op : Operation) : Nat → ρ → List SourceSpec → List (Nat × Nat)
  | _, _, [] => []
  | now, r, s :: rest =>
    let cost := x.sourceCost s (x.draws.jitter r).1
    (now, now + cost.millisUp) ::
      periods op (now + cost.millisUp) (x.timing op s cost (x.draws.jitter r).2).2 rest

/-- Cancelled before the end of some period, the execution has no result; else it has the one that it
has without a cancellation. -/
theorem runSources_cut (op : Operation) (group : UInt32) (cancelAt : Option Nat)
    (ss : List SourceSpec) (now : Nat) (r : ρ) (timings : List SourceTiming) (total : UInt64)
    (h : total.toNat + ruptures ss < Word64.bound) :
    (x.runSources op group cancelAt now r timings total ss).1
      = if (x.periods op now r ss).any fun p => cancelledBefore cancelAt p.1 p.2 then .cancelled
        else (x.runSources op group none now r timings total ss).1 := by
  induction ss generalizing now r timings total with
  | nil => rfl
  | cons s rest ih =>
    rw [ruptures_cons] at h
    let cost := x.sourceCost s (x.draws.jitter r).1
    have hstep : total.toNat + s.numRuptures.toNat < Word64.bound := by omega
    have hadd := Word64.toNat_add_of_lt hstep
    have hsum := Word64.add?_of_lt hstep
    have hnone (fin : Nat) : ¬ cancelledBefore none now fin := Bool.false_ne_true
    rw [periods, List.any_cons]
    by_cases hcut : cancelledBefore cancelAt now (now + cost.millisUp)
    · have hcut' : cancelledBefore cancelAt now
          (now + (x.sourceCost s (x.draws.jitter r).1).millisUp) = true := hcut
      simp only [runSources, hcut', Bool.true_or, if_true]
    · have hcut' : cancelledBefore cancelAt now
          (now + (x.sourceCost s (x.draws.jitter r).1).millisUp) = false := by simpa using hcut
      simp only [runSources, hcut', hnone, hsum, Bool.false_or, if_false, Bool.false_eq_true]
      exact ih _ _ _ _ (by omega)

theorem events_eq_zero {op : Operation} (hop : ¬ op.HasEvents) (s : SourceSpec) (r : ρ) :
    (x.events op s r).1 = 0 := by
  cases op with
  | buildRuptures => exact absurd (.inl rfl) hop
  | computeGmfs => exact absurd (.inr rfl) hop
  | _ => rfl

/-- Whatever time is read for it, the timing is that of the source. -/
theorem Timed.accounts {x : Executor ρ} (hx : x.draws.InRange) {op : Operation} {s : SourceSpec}
    {t : SourceTiming} (h : x.Timed op s t) {y : Float} (hy : AtMost 3600 y) :
    SourceTiming.Accounts op s { t with calcTime := y } := by
  obtain ⟨jitter, r, rfl⟩ := h
  have hevents := x.events_le op s (x.draws.sites r).2
  have hlt := Word64.toNat_lt_bound s.numRuptures
  refine ⟨rfl, rfl, hx r, hy.within_hour, ?_, fun hnone => ?_⟩
  · show (UInt64.ofNat (x.events op s (x.draws.sites r).2).1).toNat ≤ _
    rw [UInt64.toNat_ofNat_of_lt']
    · exact hevents
    · show _ < Word64.bound
      omega
  · show UInt64.ofNat (x.events op s (x.draws.sites r).2).1 = 0
    rw [x.events_eq_zero hnone]
    rfl

theorem times_of_timed {op : Operation} {ss : List SourceSpec} {ts : List SourceTiming}
    (h : List.Forall₂ (x.Timed op) ss ts) :
    ∀ t ∈ ts, ∃ y, (Json.float t.calcTime).Spells Json.asFloat y ∧ AtMost 3600 y := by
  induction h with
  | nil => simp
  | cons hhead _ ih =>
    obtain ⟨jitter, r, rfl⟩ := hhead
    obtain ⟨y, hread, hy⟩ := Json.asFloat_seconds (Duration.clamped_le ceiling _)
    exact List.forall_mem_cons.mpr ⟨⟨y, ⟨Json.written_float _, hread⟩, hy⟩, ih⟩

/-- An execution that nobody cancels accounts for every source. -/
theorem runSources_accounts (hx : x.draws.InRange) (op : Operation) (group : UInt32)
    {ss : List SourceSpec} (h : ruptures ss < Word64.bound) (now : Nat) (r : ρ) :
    ∃ p o, (x.runSources op group none now r [] 0 ss).1 = .done p ∧
      p.decode TaskOutput.ofJson = .ok o ∧ TaskOutput.Accounts op group ss o := by
  obtain ⟨ts, n, fin, hrun, htimed, hn⟩ := x.runSources_done op group ss now r [] 0 (by simpa using h)
  rw [List.nil_append] at hrun
  let Read (t t' : SourceTiming) : Prop := ∃ y, AtMost 3600 y ∧ t' = { t with calcTime := y }
  obtain ⟨ts', hdecode, hread⟩ := decode_times (P := Read) (o := ⟨ts, Table.empty.put group n⟩)
    fun t ht => by
      obtain ⟨y, hspells, hy⟩ := x.times_of_timed htimed t ht
      exact ⟨y, hspells, y, hy, rfl⟩
  refine ⟨_, _, by rw [hrun], hdecode, ?_, n, rfl, by simpa using hn⟩
  refine forall₂_trans (fun s t t' ht hread => ?_) htimed hread
  obtain ⟨y, hy, rfl⟩ := hread
  exact ht.accounts hx hy

/-- An execution either accounts for every source, or it is cancelled before the end of one. -/
theorem execute_accounts (hx : x.draws.InRange) {req : ExecuteRequest} {ss : List SourceSpec}
    (hop : req.operation ≠ .readSourceModel)
    (hpayload : req.payload.decode SourceSpec.listOfJson = .ok ss)
    (h : ruptures ss < Word64.bound) (cancelAt : Option Nat) (now : Nat) :
    let result := (x.execute req cancelAt now).1
    (result = .cancelled ↔ ∃ t, cancelAt = some t ∧
      ∃ p ∈ x.periods req.operation now (x.source req.seed) ss, t ≤ p.1 ∨ t < p.2) ∧
    (result ≠ .cancelled → ∃ p o, result = .done p ∧ p.decode TaskOutput.ofJson = .ok o ∧
      TaskOutput.Accounts req.operation req.groupId ss o) := by
  let ps := x.periods req.operation now (x.source req.seed) ss
  obtain ⟨p, o, hdone, hdecode, haccounts⟩ :=
    x.runSources_accounts hx req.operation req.groupId h now (x.source req.seed)
  have hresult : (x.execute req cancelAt now).1
      = if ps.any fun p => cancelledBefore cancelAt p.1 p.2 then .cancelled else .done p := by
    rw [execute, hpayload]
    dsimp only
    rw [if_neg hop, x.runSources_cut _ _ _ _ _ _ _ _ (by simpa using h), hdone]
  have hcut : ps.any (fun p => cancelledBefore cancelAt p.1 p.2) ↔
      ∃ t, cancelAt = some t ∧ ∃ p ∈ ps, t ≤ p.1 ∨ t < p.2 := by
    cases cancelAt with
    | none => simp [cancelledBefore]
    | some t => simp [cancelledBefore]
  dsimp only
  rw [hresult, ← hcut]
  split
  · next hany => exact ⟨iff_of_true rfl hany, fun hne => absurd rfl hne⟩
  · next hall => exact ⟨iff_of_false (by simp) hall, fun _ => ⟨p, o, rfl, hdecode, haccounts⟩⟩

def twoSources : ExecuteRequest :=
  { taskId := "t", attempt := 1, operation := .computeGmfs, groupId := 3, seed := 42
    payload := .ofValue (SourceSpec.listToJson [⟨"a", 'P', 20, 1⟩, ⟨"b", 'A', 35, 2⟩]) }

theorem execute_accounts_twoSources :
    let ss := [⟨"a", 'P', 20, 1⟩, ⟨"b", 'A', 35, 2⟩]
    Random.keystreamDraws.InRange ∧ twoSources.operation ≠ .readSourceModel ∧
      twoSources.payload.decode SourceSpec.listOfJson = .ok ss ∧ ruptures ss < Word64.bound ∧
      ((simulated 1.0).execute twoSources (some 7) 7).1 = .cancelled ∧
      ∃ p o, ((simulated 1.0).execute twoSources none 7).1 = .done p ∧
        p.decode TaskOutput.ofJson = .ok o ∧ TaskOutput.Accounts .computeGmfs 3 ss o := by
  have hx : (simulated 1.0).draws.InRange := Random.inRange_keystreamDraws
  have hop : twoSources.operation ≠ .readSourceModel := by decide
  have hpayload := decode_sources [⟨"a", 'P', 20, 1⟩, ⟨"b", 'A', 35, 2⟩]
  have hsum : ruptures [⟨"a", 'P', 20, 1⟩, ⟨"b", 'A', 35, 2⟩] < Word64.bound := by decide
  have hcut := execute_accounts (simulated 1.0) hx hop hpayload hsum (some 7) 7
  have hgo := execute_accounts (simulated 1.0) hx hop hpayload hsum none 7
  refine ⟨hx, hop, hpayload, hsum, hcut.1.mpr ⟨7, rfl, _, List.mem_cons_self, .inl (Nat.le_refl 7)⟩,
    hgo.2 fun hcancelled => ?_⟩
  obtain ⟨t, ht, -⟩ := hgo.1.mp hcancelled
  cases ht

end Executor
end HazardDispatch
