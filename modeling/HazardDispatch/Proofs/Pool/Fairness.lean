import HazardDispatch.Proofs.Pool.Rotation

/-!
# Waiting for one's turn

A worker that waits is overtaken only by workers that are before it in line. Whoever is handed out
meanwhile and comes back was released later than the one that waits (`Served`), and is not handed out
again before it (`Served.not_handed`). So nobody is handed out twice (`count_handed_le`), as long as
workers are only taken and returned. `acquire_in_turn` puts this beside the order in which they are
taken.
-/

namespace HazardDispatch.Pool

variable {p : Pool} {trace : PoolTrace}

/-- The call takes a worker, `w` not being avoided, or returns one, or refreshes a registration; or it
changes nothing. -/
inductive Calm (w : WorkerId) (p : Pool) : PoolCall → Prop where
  | acquire : Calm w p .acquire
  | acquireAvoiding {avoid : Option WorkerId} (h : avoid ≠ some w) : Calm w p (.acquireAvoiding avoid)
  | release (u : WorkerId) : Calm w p (.release u)
  | refresh {h : WorkerHandle} (known : p.status? h.workerId ≠ none) : Calm w p (.register h)
  | unchanged {c : PoolCall} (h : (p.perform c).pool = p) : Calm w p c

/-- All the time during the calls `w` is idle, and the pool is changed by calls of these kinds only. -/
def Waits (w : WorkerId) : Pool → List PoolCall → Prop
  | p, [] => p.status? w = some .idle
  | p, c :: cs => p.status? w = some .idle ∧ Calm w p c ∧ Waits w (p.perform c).pool cs

theorem Waits.idle {w : WorkerId} {cs : List PoolCall} (h : Waits w p cs) :
    p.status? w = some .idle := by
  cases cs with
  | nil => exact h
  | cons c cs => exact h.1

/-- While it waits, `u` was handed out or was released later than `w`. -/
def Served (p : Pool) (w u : WorkerId) : Prop :=
  p.status? u = some .idle →
    ∀ n m, p.lastUsed? w = some n → p.lastUsed? u = some m → n < m

theorem marked_of_unchanged {u : WorkerId} {c : PoolCall} {x : LeaseStep}
    (h : (p.perform c).pool = p) (hx : c.leaseStep? u (p.perform c).value = some x) :
    x = .marked := by
  have htakes := perform_takes p c u
  rw [hx, h] at htakes
  cases x with
  | marked => rfl
  | handed => cases htakes.1.symm.trans htakes.2
  | released => cases htakes.1.symm.trans htakes.2
  | restored => cases htakes.1.symm.trans htakes.2
  | removed => exact absurd htakes.2 htakes.1
  | entered => cases htakes.1.symm.trans htakes.2

/-- Nobody comes back but by being released. -/
theorem Calm.not_back {w u : WorkerId} {c : PoolCall} (h : Calm w p c) :
    c.leaseStep? u (p.perform c).value ≠ some .entered ∧
      c.leaseStep? u (p.perform c).value ≠ some .restored := by
  constructor
  · intro hx
    obtain ⟨h', rfl, rfl⟩ := PoolCall.madeBy_of_leaseStep? hx
    cases h with
    | refresh known =>
      have htakes := perform_takes p (.register h') h'.workerId
      rw [hx] at htakes
      exact known htakes.1
    | unchanged hsame => cases marked_of_unchanged hsame hx
  · intro hx
    obtain rfl : c = .restore u := PoolCall.madeBy_of_leaseStep? hx
    cases h with
    | unchanged hsame => cases marked_of_unchanged hsame hx

/-- Whoever is handed out while `w` waits was the sooner of the two. -/
theorem sooner_of_handed {avoid : Option WorkerId} {w u : WorkerId}
    (hu : (p.acquireAvoiding avoid).value.map (·.workerId) = some u)
    (hw : p.status? w = some .idle) (havoid : avoid ≠ some w) (hne : u ≠ w) :
    ∃ e f, p.entry? u = some e ∧ p.entry? w = some f ∧ Sooner (u, e) (w, f) := by
  have hother : avoid ≠ some u := by
    rintro rfl
    obtain ⟨h, hv, rfl⟩ := Option.map_eq_some_iff.mp hu
    exact hne (idle_of_acquireAvoiding hv rfl hw).symm
  obtain ⟨e, hn⟩ := (handed_iff_of_ne hother).mp hu
  obtain ⟨f, hf, hidle⟩ := entry?_of_status? hw
  exact ⟨e, f, (entry?_of_nextIdle hn).1, hf, sooner_of_nextIdle hn hf hidle havoid (Ne.symm hne)⟩

theorem workerId_of_handed {avoid : Option WorkerId} {u : WorkerId}
    (h : (PoolCall.acquireAvoiding avoid).leaseStep? u (.worker (p.acquireAvoiding avoid).value)
      = some .handed) : (p.acquireAvoiding avoid).value.map (·.workerId) = some u := by
  cases hv : (p.acquireAvoiding avoid).value with
  | none =>
    rw [hv] at h
    cases h
  | some x =>
    rw [hv] at h
    exact congrArg some (Option.ite_none_right_eq_some.mp h).1

theorem Calm.sooner {w u : WorkerId} {c : PoolCall} (h : Calm w p c)
    (hw : p.status? w = some .idle) (hne : u ≠ w)
    (hu : c.leaseStep? u (p.perform c).value = some .handed) :
    ∃ e f, p.entry? u = some e ∧ p.entry? w = some f ∧ Sooner (u, e) (w, f) := by
  cases h with
  | acquire =>
    replace hu : PoolCall.acquire.leaseStep? u (.worker p.acquire.value) = some .handed := hu
    rw [PoolCall.leaseStep?_acquire, acquire_eq] at hu
    exact sooner_of_handed (workerId_of_handed hu) hw (Option.some_ne_none w).symm hne
  | acquireAvoiding havoid => exact sooner_of_handed (workerId_of_handed hu) hw havoid hne
  | release v => rcases PoolCall.madeBy_of_leaseStep? hu with hc | ⟨_, hc⟩ <;> cases hc
  | refresh known => rcases PoolCall.madeBy_of_leaseStep? hu with hc | ⟨_, hc⟩ <;> cases hc
  | unchanged hsame => cases marked_of_unchanged hsame hu

theorem Served.not_handed {w u : WorkerId} {c : PoolCall} (h : p.Served w u) (hc : Calm w p c)
    (hw : p.status? w = some .idle) (hne : u ≠ w) :
    c.leaseStep? u (p.perform c).value ≠ some .handed := by
  intro hu
  have htakes := perform_takes p c u
  rw [hu] at htakes
  obtain ⟨e, f, he, hf, hsooner⟩ := hc.sooner hw hne hu
  have hlt := h htakes.1 _ _ (lastUsed?_of_entry hf) (lastUsed?_of_entry he)
  rcases hsooner with hlt' | ⟨heq, -⟩
  · exact absurd hlt (Nat.lt_asymm hlt')
  · exact absurd heq (Nat.ne_of_gt hlt)

theorem served_of_handed {w u : WorkerId} {c : PoolCall}
    (h : c.leaseStep? u (p.perform c).value = some .handed) : (p.perform c).pool.Served w u := by
  have htakes := perform_takes p c u
  rw [h] at htakes
  intro hidle
  rw [htakes.2] at hidle
  cases hidle

theorem lastUsed?_of_waiting {w : WorkerId} {c : PoolCall} (hc : Calm w p c)
    (hw : p.status? w = some .idle) (hw' : (p.perform c).pool.status? w = some .idle) :
    (p.perform c).pool.lastUsed? w = p.lastUsed? w := by
  have htakes := perform_takes p c w
  rw [lastUsed?_perform]
  cases hx : c.leaseStep? w (p.perform c).value with
  | none => rfl
  | some x =>
    rw [hx, hw, hw'] at htakes
    cases x with
    | released => cases htakes.1
    | removed => cases htakes.2
    | entered => exact absurd hx hc.not_back.1
    | handed => rfl
    | restored => rfl
    | marked => rfl

theorem Served.perform {w u : WorkerId} {c : PoolCall} (h : p.Served w u) (hd : p.Dated trace)
    (hc : Calm w p c) (hw : p.status? w = some .idle)
    (hw' : (p.perform c).pool.status? w = some .idle) : (p.perform c).pool.Served w u := by
  intro hidle n m hn hm
  have htakes := perform_takes p c u
  rw [lastUsed?_of_waiting hc hw hw'] at hn
  rw [lastUsed?_perform] at hm
  cases hx : c.leaseStep? u (p.perform c).value with
  | none =>
    rw [hx] at hm htakes
    exact h (htakes.symm.trans hidle) n m hn hm
  | some x =>
    rw [hx, hidle] at htakes
    rw [hx] at hm
    cases x with
    | released =>
      obtain rfl := Option.some.inj hm
      exact Nat.lt_succ_of_le (hd.past w n hn)
    | handed => cases htakes.2
    | marked => cases htakes.2
    | removed => cases htakes.2
    | entered => exact absurd hx hc.not_back.1
    | restored => exact absurd hx hc.not_back.2

/-- Nobody is handed out twice while a worker waits, and nobody who was served at the start is. -/
theorem count_handed_le {w u : WorkerId} {cs : List PoolCall} (h : Waits w p cs) (hd : p.Dated trace)
    (hne : u ≠ w) : (p.leaseSteps cs u).count .handed ≤ 1 ∧
      (p.Served w u → (p.leaseSteps cs u).count .handed = 0) := by
  induction cs generalizing p trace with
  | nil => exact ⟨Nat.zero_le 1, fun _ => rfl⟩
  | cons c cs ih =>
    obtain ⟨hw, hc, hrest⟩ := h
    obtain ⟨hle, hzero⟩ := ih hrest (hd.perform c)
    rw [leaseSteps_cons, List.count_append]
    by_cases hu : c.leaseStep? u (p.perform c).value = some .handed
    · rw [hu, hzero (served_of_handed hu)]
      exact ⟨Nat.le_refl 1, fun hserved => absurd hu (hserved.not_handed hc hw hne)⟩
    · have hnone : (c.leaseStep? u (p.perform c).value).toList.count .handed = 0 := by
        rw [List.count_eq_zero, Option.mem_toList]
        exact hu
      rw [hnone, Nat.zero_add]
      exact ⟨hle, fun hserved => hzero (hserved.perform hd hc hw hrest.idle)⟩

/-- After any calls, `acquire` finds nobody just if nobody is idle, and otherwise hands out the next in
line. While a worker waits, nobody else is handed out twice. -/
theorem acquire_in_turn (threshold : Nat) (calls : List PoolCall) :
    let p := (empty threshold).after calls
    let trace := (empty threshold).trace calls
    (p.acquire.value = none ↔ ∀ w, p.status? w ≠ some .idle) ∧
      (∀ w, p.acquire.value.map (·.workerId) = some w ↔ p.NextInLine trace none w) ∧
      ∀ w cs, Waits w p cs → ∀ u, u ≠ w → (p.leaseSteps cs u).count .handed ≤ 1 := by
  intro p trace
  have hd : p.Dated trace := dated_after threshold calls
  refine ⟨?_, fun w => ?_, fun w cs hw u hne => (count_handed_le hw hd hne).1⟩
  · rw [acquire_eq, acquireAvoiding_eq_none_iff]
    constructor
    · exact fun h w hw => nomatch (h w hw).1
    · exact fun h w hw => absurd hw (h w)
  · rw [acquire_eq, handed_iff_of_ne (Option.some_ne_none w).symm]
    exact hd.nextIdle_iff

def firstReturned : List PoolCall :=
  [.register (.new ⟨"a"⟩ "http://a" default), .register (.new ⟨"b"⟩ "http://b" default),
    .register (.new ⟨"c"⟩ "http://c" default), .acquire, .release ⟨"a"⟩]

def othersTaken : List PoolCall :=
  [.acquire, .register (.new ⟨"a"⟩ "http://a2" default), .acquire, .release ⟨"c"⟩, .release ⟨"b"⟩]

/-- Then it is the first one's turn, before the one that was released first of the others. -/
theorem acquire_in_turn_firstReturned :
    let p := (empty 3).after firstReturned
    let q := (empty 3).after (firstReturned ++ othersTaken)
    Waits ⟨"a"⟩ p othersTaken ∧ p.leaseSteps othersTaken ⟨"b"⟩ = [.handed, .released] ∧
      q.acquire.value.map (·.workerId) = some ⟨"a"⟩ ∧
      q.NextInLine ((empty 3).trace (firstReturned ++ othersTaken)) none ⟨"a"⟩ ∧
      (p.leaseSteps othersTaken ⟨"b"⟩).count .handed ≤ 1 := by
  intro p q
  have hwaits : Waits ⟨"a"⟩ p othersTaken :=
    ⟨by decide, .acquire, by decide, .refresh (by decide), by decide, .acquire, by decide,
      .release _, by decide, .release _, rfl⟩
  have hhanded : q.acquire.value.map (·.workerId) = some ⟨"a"⟩ := by decide
  obtain ⟨-, -, honce⟩ := acquire_in_turn 3 firstReturned
  obtain ⟨-, hnext, -⟩ := acquire_in_turn 3 (firstReturned ++ othersTaken)
  exact ⟨hwaits, by decide, hhanded, (hnext ⟨"a"⟩).mp hhanded,
    honce ⟨"a"⟩ othersTaken hwaits ⟨"b"⟩ (by decide)⟩

end HazardDispatch.Pool
