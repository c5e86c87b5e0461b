import HazardDispatch.Proofs.Pool.Lease
import Mathlib.Data.List.Induction

/-!
# Whose turn it is

Idle workers take turns. Who was not released since it registered comes first, by name, and the others
follow in the order in which they were released last: `Precedes` reads this off the history of a pool,
and `NextInLine` is the first of the idle workers in it.

The pool does not keep its history. It notes at each release how many releases had been asked for by
then, whether these were granted or not, and a worker that registers starts at zero. `Dated` says that
these notes order the workers as the history does; a call keeps it, for it changes the note of a worker
only when the worker is released, registers or leaves (`lastUsed?_perform`). So the worker that the
pool finds is the next in line (`Dated.nextIdle_iff`).
-/

namespace HazardDispatch

/-! ## histories -/

/-- The calls that can be the step to `w`. -/
def LeaseStep.MadeBy (w : WorkerId) : LeaseStep → PoolCall → Prop
  | handed, c => c = .acquire ∨ ∃ avoid, c = .acquireAvoiding avoid
  | released, c => c = .release w
  | restored, c => c = .restore w
  | marked, c => c = .markUnreachable w
  | removed, c => c = .deregister w ∨ c = .probeFailure w
  | entered, c => ∃ h, c = .register h ∧ h.workerId = w

theorem PoolCall.madeBy_of_leaseStep? {c : PoolCall} {a : PoolAnswer} {w : WorkerId} {x : LeaseStep}
    (h : c.leaseStep? w a = some x) : x.MadeBy w c := by
  unfold leaseStep? at h
  split at h
  case h_9 => cases h
  all_goals
    obtain ⟨hw, hx⟩ := Option.ite_none_right_eq_some.mp h
    obtain rfl := Option.some.inj hx
    simp [LeaseStep.MadeBy, hw]

/-- The calls of a pool with what they answered. -/
abbrev PoolTrace := List (PoolCall × PoolAnswer)

namespace PoolTrace

/-- Where in the history `w` was released last, if it was since it registered. -/
def releasedAt? (w : WorkerId) (trace : PoolTrace) : Option Nat :=
  trace.zipIdx.foldl (fun last (x, i) =>
    match x.1.leaseStep? w x.2 with
    | some .released => some i
    | some .entered => none
    | _ => last) none

/-- Workers that were not released since they registered come first, by name. The others come in the
order in which they were released last. -/
def Precedes (trace : PoolTrace) (u v : WorkerId) : Prop :=
  match trace.releasedAt? u, trace.releasedAt? v with
  | none, none => compare u v = .lt
  | none, some _ => True
  | some _, none => False
  | some i, some j => i < j

theorem releasedAt?_concat (w : WorkerId) (trace : PoolTrace) (c : PoolCall) (a : PoolAnswer) :
    releasedAt? w (trace ++ [(c, a)])
      = match c.leaseStep? w a with
        | some .released => some trace.length
        | some .entered => none
        | _ => trace.releasedAt? w := by
  rw [releasedAt?, List.zipIdx_append, List.foldl_append, Nat.zero_add]
  rfl

theorem releasedAt?_lt {w : WorkerId} {trace : PoolTrace} {i : Nat}
    (h : trace.releasedAt? w = some i) : i < trace.length := by
  induction trace using List.reverseRecOn with
  | nil => cases h
  | append_singleton trace x ih =>
    rw [releasedAt?_concat] at h
    rw [List.length_append, List.length_singleton]
    split at h
    · obtain rfl := Option.some.inj h
      omega
    · cases h
    · have hlt := ih h
      omega

theorem releasedAt?_inj {trace : PoolTrace} {u v : WorkerId} {i : Nat}
    (hu : trace.releasedAt? u = some i) (hv : trace.releasedAt? v = some i) : u = v := by
  induction trace using List.reverseRecOn with
  | nil => cases hu
  | append_singleton trace x ih =>
    rw [releasedAt?_concat] at hu hv
    split at hu
    · next hu' =>
      obtain rfl := Option.some.inj hu
      split at hv
      · next hv' =>
        have hx : x.1 = .release u := PoolCall.madeBy_of_leaseStep? hu'
        have hx' : x.1 = .release v := PoolCall.madeBy_of_leaseStep? hv'
        exact PoolCall.release.inj (hx.symm.trans hx')
      · cases hv
      · exact absurd (releasedAt?_lt hv) (Nat.lt_irrefl _)
    · cases hu
    · split at hv
      · obtain rfl := Option.some.inj hv
        exact absurd (releasedAt?_lt hu) (Nat.lt_irrefl _)
      · cases hv
      · exact ih hu hv

end PoolTrace

namespace Pool

def trace (p : Pool) (calls : List PoolCall) : PoolTrace := calls.zip (p.performAll calls).1

/-! ## the note of the last release -/

/-- What the pool has noted of the last release of `w`. -/
def lastUsed? (p : Pool) (w : WorkerId) : Option Nat := (p.entry? w).map (·.lastUsed)

theorem lastUsed?_of_entry {p : Pool} {w : WorkerId} {e : PoolEntry} (h : p.entry? w = some e) :
    p.lastUsed? w = some e.lastUsed := by
  rw [lastUsed?, h]
  rfl

theorem lastUsed?_setEntry (p : Pool) (w u : WorkerId) (e : PoolEntry) :
    (p.setEntry w e).lastUsed? u = if u = w then some e.lastUsed else p.lastUsed? u := by
  rw [lastUsed?, entry?_setEntry, lastUsed?]
  split <;> rfl

/-- The note on `w` after what a call was to it. -/
def noted (p : Pool) (w : WorkerId) : Option LeaseStep → Option Nat
  | some .released => some (p.clock + 1)
  | some .entered => some 0
  | some .removed => none
  | _ => p.lastUsed? w

variable {p : Pool} {trace : PoolTrace}

theorem noted_setEntry {u : WorkerId} {e : PoolEntry} (x : LeaseStep)
    (hx : p.noted u (some x) = some e.lastUsed) (w : WorkerId) :
    (p.setEntry u e).lastUsed? w = p.noted w (if u = w then some x else none) := by
  rw [lastUsed?_setEntry]
  by_cases hw : u = w
  · rw [if_pos hw, if_pos hw.symm, ← hw, hx]
  · rw [if_neg hw, if_neg (Ne.symm hw)]
    rfl

theorem lastUsed?_setEntry_same {w : WorkerId} {e : PoolEntry}
    (h : p.lastUsed? w = some e.lastUsed) (u : WorkerId) :
    (p.setEntry w e).lastUsed? u = p.lastUsed? u := by
  rw [lastUsed?_setEntry]
  split
  · next hu => rw [hu, h]
  · rfl

theorem noted_erase (p : Pool) (u w : WorkerId) :
    lastUsed? { p with workers := p.workers.erase u } w
      = p.noted w (if u = w then some .removed else none) := by
  rw [lastUsed?, entry?_erase]
  by_cases hw : u = w
  · rw [if_pos hw, if_pos hw.symm]
    rfl
  · rw [if_neg hw, if_neg (Ne.symm hw)]
    rfl

/-- The note on a worker changes only when it is released, registers or leaves. -/
theorem Effect.noted {q : Pool} {c : PoolCall} {a : PoolAnswer} (h : Effect p c a q) (w : WorkerId) :
    q.lastUsed? w = p.noted w (c.leaseStep? w a) := by
  cases h with
  | entered unknown => exact noted_setEntry .entered rfl w
  | refreshed known =>
    exact lastUsed?_setEntry_same (by exact (lastUsed?_of_entry known).trans rfl) w
  | removed known => exact noted_erase p _ w
  | handed hands known idle =>
    rw [PoolCall.leaseStep?_handed hands]
    exact noted_setEntry .handed (by exact (lastUsed?_of_entry known).trans rfl) w
  | nobody hands =>
    rw [PoolCall.leaseStep?_refused (.inr rfl)]
    rfl
  | released known busy => exact noted_setEntry (p := p) .released rfl w
  | unreleased => rfl
  | unrestored => rfl
  | marked known => exact noted_setEntry .marked (by exact (lastUsed?_of_entry known).trans rfl) w
  | markedAgain known out =>
    show _ = p.noted w (if _ then some .marked else none)
    split <;> rfl
  | restored known out =>
    exact noted_setEntry .restored (by exact (lastUsed?_of_entry known).trans rfl) w
  | counted known =>
    exact lastUsed?_setEntry_same (by exact (lastUsed?_of_entry known).trans rfl) w
  | evicted known reached => exact noted_erase p _ w
  | missed unknown about refused =>
    rw [PoolCall.leaseStep?_refused refused]
    rfl

theorem lastUsed?_perform (p : Pool) (c : PoolCall) (w : WorkerId) :
    (p.perform c).pool.lastUsed? w = p.noted w (c.leaseStep? w (p.perform c).value) :=
  (effect_perform p c).noted w

/-! ## notes and history -/

/-- The notes of the pool order the workers as its history does. -/
structure Dated (p : Pool) (trace : PoolTrace) : Prop where
  past : ∀ w n, p.lastUsed? w = some n → n ≤ p.clock
  unused : ∀ w n, p.lastUsed? w = some n → (n = 0 ↔ trace.releasedAt? w = none)
  ordered : ∀ u v n m i j, p.lastUsed? u = some n → p.lastUsed? v = some m →
    trace.releasedAt? u = some i → trace.releasedAt? v = some j → (n < m ↔ i < j)

theorem dated_empty (threshold : Nat) : (empty threshold).Dated [] where
  past _ _ h := nomatch h
  unused _ _ h := nomatch h
  ordered _ _ _ _ _ _ h := nomatch h

/-- A worker that the pool knows after a call was released by it, or registered by it, or its note and
its place in the history are the same as before. -/
theorem note_cases (trace : PoolTrace) {c : PoolCall} {w : WorkerId} {n : Nat}
    (h : (p.perform c).pool.lastUsed? w = some n) :
    (n = (p.perform c).pool.clock ∧ 0 < n ∧ p.clock < n ∧
      PoolTrace.releasedAt? w (trace ++ [(c, (p.perform c).value)]) = some trace.length) ∨
    (n = 0 ∧ PoolTrace.releasedAt? w (trace ++ [(c, (p.perform c).value)]) = none) ∨
    (p.lastUsed? w = some n ∧ PoolTrace.releasedAt? w (trace ++ [(c, (p.perform c).value)])
      = trace.releasedAt? w) := by
  rw [lastUsed?_perform] at h
  rw [PoolTrace.releasedAt?_concat]
  cases hx : c.leaseStep? w (p.perform c).value with
  | none =>
    rw [hx] at h
    exact .inr (.inr ⟨h, rfl⟩)
  | some x =>
    rw [hx] at h
    cases x with
    | released =>
      obtain rfl : c = .release w := PoolCall.madeBy_of_leaseStep? hx
      obtain rfl := Option.some.inj h
      have hclock := (effect_perform p (.release w)).clock
      exact .inl ⟨hclock.symm, by omega, by omega, rfl⟩
    | entered => exact .inr (.inl ⟨(Option.some.inj h).symm, rfl⟩)
    | removed => cases h
    | handed => exact .inr (.inr ⟨h, rfl⟩)
    | restored => exact .inr (.inr ⟨h, rfl⟩)
    | marked => exact .inr (.inr ⟨h, rfl⟩)

theorem clock_le_perform (p : Pool) (c : PoolCall) : p.clock ≤ (p.perform c).pool.clock := by
  rw [(effect_perform p c).clock]
  cases c with
  | release w => exact Nat.le_succ _
  | _ => exact Nat.le_refl _

theorem Dated.perform (h : p.Dated trace) (c : PoolCall) :
    (p.perform c).pool.Dated (trace ++ [(c, (p.perform c).value)]) := by
  have hclock := clock_le_perform p c
  constructor
  · intro w n hn
    rcases note_cases trace hn with ⟨heq, -⟩ | ⟨hzero, -⟩ | ⟨hold, -⟩
    · omega
    · omega
    · have hpast := h.past w n hold
      omega
  · intro w n hn
    rcases note_cases trace hn with ⟨-, hpos, -, hat⟩ | ⟨hzero, hat⟩ | ⟨hold, hat⟩
    · rw [hat]
      exact iff_of_false (Nat.ne_of_gt hpos) (Option.some_ne_none _)
    · rw [hat]
      exact iff_of_true hzero rfl
    · rw [hat]
      exact h.unused w n hold
  · intro u v n m i j hn hm hi hj
    rcases note_cases trace hn with ⟨hu, -, hnew, hat⟩ | ⟨-, hat⟩ | ⟨hold, hat⟩
    all_goals rw [hi] at hat
    · obtain rfl := Option.some.inj hat
      rcases note_cases trace hm with ⟨hv, -, -, hat'⟩ | ⟨-, hat'⟩ | ⟨hold', hat'⟩
      all_goals rw [hj] at hat'
      · obtain rfl := Option.some.inj hat'
        omega
      · cases hat'
      · have hpast := h.past v m hold'
        have hbefore := PoolTrace.releasedAt?_lt hat'.symm
        omega
    · cases hat
    · rcases note_cases trace hm with ⟨hv, -, hnew, hat'⟩ | ⟨-, hat'⟩ | ⟨hold', hat'⟩
      all_goals rw [hj] at hat'
      · obtain rfl := Option.some.inj hat'
        have hpast := h.past u n hold
        have hbefore := PoolTrace.releasedAt?_lt hat.symm
        omega
      · cases hat'
      · exact h.ordered u v n m i j hold hold' hat.symm hat'.symm

/-- After any calls the notes order the workers as all calls so far do. -/
theorem Dated.after (h : p.Dated trace) (calls : List PoolCall) :
    (p.after calls).Dated (trace ++ p.trace calls) := by
  induction calls generalizing p trace with
  | nil =>
    rw [Pool.trace, List.zip_nil_left, List.append_nil]
    exact h
  | cons c cs ih =>
    have hrest := ih (h.perform c)
    rw [List.append_assoc] at hrest
    exact hrest

theorem dated_after (threshold : Nat) (calls : List PoolCall) :
    ((empty threshold).after calls).Dated ((empty threshold).trace calls) :=
  (dated_empty threshold).after calls

/-! ## the next in line -/

/-- `a` was released longer ago than `b`, by the notes; if they say the same, it is first by name. -/
def Sooner (a b : WorkerId × PoolEntry) : Prop :=
  a.2.lastUsed < b.2.lastUsed ∨ a.2.lastUsed = b.2.lastUsed ∧ compare a.1 b.1 = .lt

theorem Sooner.asymm {a b : WorkerId × PoolEntry} (h : Sooner a b) : ¬ Sooner b a := by
  intro h'
  rcases h with hlt | ⟨heq, hname⟩ <;> rcases h' with hlt' | ⟨heq', hname'⟩
  · omega
  · omega
  · omega
  · rw [Std.OrientedCmp.gt_of_lt hname] at hname'
    cases hname'

theorem sooner_of_leastUsed {es : List (WorkerId × PoolEntry)}
    (hs : es.Pairwise fun a b => compare a.1 b.1 = .lt) {x : WorkerId × PoolEntry}
    (h : leastUsed es = some x) : ∀ y ∈ es, y = x ∨ Sooner x y := by
  induction es generalizing x with
  | nil => cases h
  | cons e es ih =>
    obtain ⟨hfirst, hs⟩ := List.pairwise_cons.mp hs
    rw [leastUsed] at h
    cases hl : leastUsed es with
    | none =>
      rw [hl] at h
      obtain rfl := Option.some.inj h
      intro y hy
      rcases List.mem_cons.mp hy with rfl | hy
      · exact .inl rfl
      · exact absurd hl (leastUsed_ne_none (List.ne_nil_of_mem hy))
    | some f =>
      have hrest := ih hs hl
      rw [hl] at h
      simp only [] at h
      split at h
      · next hlt =>
        obtain rfl := Option.some.inj h
        intro y hy
        rcases List.mem_cons.mp hy with rfl | hy
        · exact .inr (.inl hlt)
        · exact hrest y hy
      · next hle =>
        obtain rfl := Option.some.inj h
        intro y hy
        rcases List.mem_cons.mp hy with rfl | hy
        · exact .inl rfl
        · have hname := hfirst y hy
          have hnote : e.2.lastUsed ≤ y.2.lastUsed := by
            rcases hrest y hy with rfl | hlt | ⟨heq, -⟩ <;> omega
          rcases Nat.lt_or_eq_of_le hnote with hlt | heq
          · exact .inr (.inl hlt)
          · exact .inr (.inr ⟨heq, hname⟩)

/-- The worker whose turn it is by the notes. -/
theorem sooner_of_nextIdle {skip : Option WorkerId} {w u : WorkerId} {e f : PoolEntry}
    (h : p.nextIdle skip = some (w, e)) (hf : p.entry? u = some f) (hidle : f.status = .idle)
    (hskip : skip ≠ some u) (hne : u ≠ w) : Sooner (w, e) (u, f) := by
  have hmem : (u, f) ∈ p.candidates skip := by
    rw [candidates, List.mem_filter, hidle]
    exact ⟨(Table.mem_entries_iff _).mpr hf, by simpa [WorkerStatus.acceptsTasks] using hskip.symm⟩
  have hsorted := p.workers.sorted.filter fun e => e.2.status.acceptsTasks && some e.1 != skip
  rcases sooner_of_leastUsed hsorted h (u, f) hmem with heq | hsooner
  · exact absurd (congrArg Prod.fst heq) hne
  · exact hsooner

/-- The first of the idle workers, one that is not wanted left out. -/
structure NextInLine (p : Pool) (trace : PoolTrace) (skip : Option WorkerId) (w : WorkerId) :
    Prop where
  idle : p.status? w = some .idle
  wanted : skip ≠ some w
  first : ∀ u, p.status? u = some .idle → skip ≠ some u → u ≠ w → trace.Precedes w u

/-- By the notes is by the history. -/
theorem Dated.sooner_iff (h : p.Dated trace) {u v : WorkerId} {e f : PoolEntry}
    (he : p.entry? u = some e) (hf : p.entry? v = some f) (hne : u ≠ v) :
    Sooner (u, e) (v, f) ↔ trace.Precedes u v := by
  have hu := h.unused u _ (lastUsed?_of_entry he)
  have hv := h.unused v _ (lastUsed?_of_entry hf)
  unfold Sooner PoolTrace.Precedes
  dsimp only
  cases hi : trace.releasedAt? u with
  | none =>
    have hzero := hu.mpr hi
    cases hj : trace.releasedAt? v with
    | none => simp [hzero, hv.mpr hj]
    | some j =>
      have hpos : f.lastUsed ≠ 0 := by simp [hv, hj]
      exact iff_of_true (.inl (by omega)) trivial
  | some i =>
    have hpos : e.lastUsed ≠ 0 := by simp [hu, hi]
    cases hj : trace.releasedAt? v with
    | none =>
      have hzero := hv.mpr hj
      refine iff_of_false (fun hsooner => ?_) id
      rcases hsooner with hlt | ⟨heq, -⟩ <;> omega
    | some j =>
      have huv := h.ordered u v _ _ i j (lastUsed?_of_entry he) (lastUsed?_of_entry hf) hi hj
      have hvu := h.ordered v u _ _ j i (lastUsed?_of_entry hf) (lastUsed?_of_entry he) hj hi
      have hapart : i ≠ j := fun heq => hne (PoolTrace.releasedAt?_inj hi (heq ▸ hj))
      dsimp only
      constructor
      · rintro (hlt | ⟨heq, -⟩)
        · exact huv.mp hlt
        · omega
      · exact fun hlt => .inl (huv.mpr hlt)

theorem Dated.nextIdle_iff (h : p.Dated trace) {skip : Option WorkerId} {w : WorkerId} :
    (∃ e, p.nextIdle skip = some (w, e)) ↔ p.NextInLine trace skip w := by
  constructor
  · rintro ⟨e, hn⟩
    obtain ⟨he, hidle⟩ := entry?_of_nextIdle hn
    refine ⟨by rw [status?_of_entry he, hidle], ne_of_nextIdle hn, fun u hu hskip hne => ?_⟩
    obtain ⟨f, hf, hidle'⟩ := entry?_of_status? hu
    exact (h.sooner_iff he hf (Ne.symm hne)).mp (sooner_of_nextIdle hn hf hidle' hskip hne)
  · intro hw
    obtain ⟨f, hf, hidle⟩ := entry?_of_status? hw.idle
    obtain ⟨⟨x, e⟩, hn⟩ := Option.ne_none_iff_exists'.mp
      (nextIdle_ne_none hw.idle (Ne.symm hw.wanted))
    by_cases hx : w = x
    · exact ⟨e, hx ▸ hn⟩
    · obtain ⟨he, hidle'⟩ := entry?_of_nextIdle hn
      have hsooner := sooner_of_nextIdle hn hf hidle hw.wanted hx
      have hfirst := hw.first x (by rw [status?_of_entry he, hidle']) (ne_of_nextIdle hn) (Ne.symm hx)
      exact absurd hsooner ((h.sooner_iff hf he hx).mpr hfirst).asymm

/-- A worker that is not avoided is handed out just if it is the next of those that are not. -/
theorem handed_iff_of_ne {avoid : Option WorkerId} {u : WorkerId} (h : avoid ≠ some u) :
    (p.acquireAvoiding avoid).value.map (·.workerId) = some u
      ↔ ∃ e, p.nextIdle avoid = some (u, e) := by
  unfold acquireAvoiding
  cases hn : p.nextIdle avoid with
  | some x =>
    show some x.1 = some u ↔ _
    constructor
    · intro hx
      obtain rfl := Option.some.inj hx
      exact ⟨x.2, rfl⟩
    · rintro ⟨e, he⟩
      rw [Option.some.inj he]
  | none =>
    refine iff_of_false (fun hu => ?_) fun ⟨_, he⟩ => nomatch he
    cases avoid with
    | none => cases hu
    | some w =>
      dsimp only at hu
      split at hu
      · cases hu
      · split at hu
        · exact h hu
        · cases hu

end Pool
end HazardDispatch
