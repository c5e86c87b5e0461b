import HazardDispatch.Pool.Call
import HazardDispatch.Proofs.Pool.Status

/-!
# What the calls do

`Effect p c a q` lists all that a call `c` of the pool `p` can do: which entry it writes or removes,
what it answers for it, and the pool `q` after it in full. Every call has one of these effects
(`effect_perform`), so whatever is to be shown of all calls is shown by cases on the effect, and no
other proof has to look into the operations.

An answered probe is one of these calls, or nothing (`pool_afterProbe`).
-/

namespace HazardDispatch

def PoolCall.handsOut : PoolCall → Bool
  | .acquire => true
  | .acquireAvoiding _ => true
  | _ => false

namespace Pool

theorem entry?_setEntry (p : Pool) (w u : WorkerId) (e : PoolEntry) :
    entry? (p.setEntry w e) u = if u = w then some e else p.entry? u :=
  Table.get?_put p.workers w u e

theorem entry?_erase (p : Pool) (w u : WorkerId) :
    entry? { p with workers := p.workers.erase w } u = if u = w then none else p.entry? u :=
  Table.get?_erase p.workers w u

theorem entry?_of_erase {p : Pool} {w u : WorkerId} {e : PoolEntry}
    (h : entry? { p with workers := p.workers.erase w } u = some e) : p.entry? u = some e := by
  rw [entry?_erase] at h
  exact (Option.ite_none_left_eq_some.mp h).2

theorem status?_of_unknown {p : Pool} {w : WorkerId} (h : p.entry? w = none) : p.status? w = none :=
  Option.map_eq_none_iff.mpr h

theorem status?_ne_none {p : Pool} {w : WorkerId} {e : PoolEntry} (h : p.entry? w = some e) :
    p.status? w ≠ none := by
  rw [status?_of_entry h]
  exact Option.some_ne_none _

theorem acquire_eq (p : Pool) : p.acquire = p.acquireAvoiding none := by
  unfold acquire acquireAvoiding
  cases p.nextIdle none <;> rfl

inductive Effect (p : Pool) : PoolCall → PoolAnswer → Pool → Prop where
  | entered {h : WorkerHandle} (unknown : p.entry? h.workerId = none) :
      Effect p (.register h) (.flag true)
        (p.setEntry h.workerId { address := h.address, status := .idle
                                 registeredAt := h.registeredAt
                                 lastUsed := 0, probeFailures := 0 }).wake
  | refreshed {h : WorkerHandle} {e : PoolEntry} (known : p.entry? h.workerId = some e) :
      Effect p (.register h) (.flag false)
        { p.setEntry h.workerId { e with address := h.address, probeFailures := 0 } with
          permit := p.permit || e.status.acceptsTasks }
  | removed {w : WorkerId} {e : PoolEntry} (known : p.entry? w = some e) :
      Effect p (.deregister w) (.worker (some (e.handle w)))
        { p with workers := p.workers.erase w }
  | handed {c : PoolCall} {w : WorkerId} {e : PoolEntry} (hands : c.handsOut = true)
      (known : p.entry? w = some e) (idle : e.status = .idle) :
      Effect p c (.worker (some (PoolEntry.handle { e with status := .busy } w)))
        (p.setEntry w { e with status := .busy })
  | nobody {c : PoolCall} (hands : c.handsOut = true) : Effect p c (.worker none) p
  | released {w : WorkerId} {e : PoolEntry} (known : p.entry? w = some e)
      (busy : e.status = .busy) :
      Effect p (.release w) (.flag true)
        (setEntry { p with clock := p.clock + 1 } w
          { e with status := .idle, lastUsed := p.clock + 1 }).wake
  /-- Only the clock notes it. -/
  | unreleased {w : WorkerId} (unleased : p.status? w ≠ some .busy) :
      Effect p (.release w) (.flag false) { p with clock := p.clock + 1 }
  | marked {w : WorkerId} {e : PoolEntry} (known : p.entry? w = some e)
      (inside : e.status ≠ .unreachable) :
      Effect p (.markUnreachable w) (.flag true)
        (p.setEntry w { e with status := .unreachable, probeFailures := 0 })
  | markedAgain {w : WorkerId} {e : PoolEntry} (known : p.entry? w = some e)
      (out : e.status = .unreachable) : Effect p (.markUnreachable w) (.flag true) p
  | restored {w : WorkerId} {e : PoolEntry} (known : p.entry? w = some e)
      (out : e.status = .unreachable) :
      Effect p (.restore w) (.flag true)
        (p.setEntry w { e with status := .idle, probeFailures := 0 }).wake
  | unrestored {w : WorkerId} {e : PoolEntry} (known : p.entry? w = some e)
      (inside : e.status ≠ .unreachable) : Effect p (.restore w) (.flag false) p
  | counted {w : WorkerId} {e : PoolEntry} (known : p.entry? w = some e)
      (below : e.probeFailures + 1 < p.threshold) :
      Effect p (.probeFailure w) (.flag false)
        (p.setEntry w { e with probeFailures := e.probeFailures + 1 })
  | evicted {w : WorkerId} {e : PoolEntry} (known : p.entry? w = some e)
      (reached : p.threshold ≤ e.probeFailures + 1) :
      Effect p (.probeFailure w) (.flag true) { p with workers := p.workers.erase w }
  /-- The call is about a worker that is not there. -/
  | missed {c : PoolCall} {w : WorkerId} {a : PoolAnswer} (unknown : p.entry? w = none)
      (about : c ∈ [.deregister w, .markUnreachable w, .restore w, .probeFailure w])
      (refused : a = .flag false ∨ a = .worker none) : Effect p c a p

/-! ## every call has an effect -/

theorem effect_register (p : Pool) (h : WorkerHandle) :
    Effect p (.register h) (.flag (p.register h).value) (p.register h).pool := by
  unfold register
  cases he : p.entry? h.workerId with
  | none => exact .entered he
  | some e =>
    have hwake (q : Pool) (b : Bool) :
        (if b then q.wake else q) = { q with permit := q.permit || b } := by
      cases b
      · simp
      · simp [wake]
    dsimp only
    rw [hwake]
    exact .refreshed he

theorem effect_deregister (p : Pool) (w : WorkerId) :
    Effect p (.deregister w) (.worker (p.deregister w).value) (p.deregister w).pool := by
  unfold deregister
  cases he : p.entry? w with
  | none => exact .missed he (by simp) (.inr rfl)
  | some e => exact .removed he

theorem effect_acquireAvoiding (p : Pool) {c : PoolCall} (hc : c.handsOut = true)
    (avoid : Option WorkerId) :
    Effect p c (.worker (p.acquireAvoiding avoid).value) (p.acquireAvoiding avoid).pool := by
  rcases acquireAvoiding_cases p avoid with ⟨w, e, log, he, hidle, heq⟩ | heq
  · rw [heq]
    exact .handed hc he hidle
  · rw [heq]
    exact .nobody hc

theorem effect_release (p : Pool) (w : WorkerId) :
    Effect p (.release w) (.flag (p.release w).value) (p.release w).pool := by
  have he : p.entry? w = entry? { p with clock := p.clock + 1 } w := rfl
  unfold release
  dsimp only
  rw [← he]
  cases he : p.entry? w with
  | none => exact .unreleased (by rw [status?_of_unknown he]; exact nofun)
  | some e =>
    dsimp only
    by_cases hbusy : e.status = .busy
    · rw [if_pos hbusy]
      exact .released he hbusy
    · rw [if_neg hbusy]
      exact .unreleased fun hs => hbusy (Option.some.inj ((status?_of_entry he).symm.trans hs))

theorem effect_markUnreachable (p : Pool) (w : WorkerId) :
    Effect p (.markUnreachable w) (.flag (p.markUnreachable w).value) (p.markUnreachable w).pool := by
  unfold markUnreachable
  cases he : p.entry? w with
  | none => exact .missed he (by simp) (.inl rfl)
  | some e =>
    dsimp only
    by_cases hout : e.status = .unreachable
    · rw [if_pos hout]
      exact .markedAgain he hout
    · rw [if_neg hout]
      exact .marked he hout

theorem effect_restore (p : Pool) (w : WorkerId) :
    Effect p (.restore w) (.flag (p.restore w).value) (p.restore w).pool := by
  unfold restore
  cases he : p.entry? w with
  | none => exact .missed he (by simp) (.inl rfl)
  | some e =>
    dsimp only
    by_cases hout : e.status = .unreachable
    · rw [if_pos hout]
      exact .restored he hout
    · rw [if_neg hout]
      exact .unrestored he hout

theorem effect_recordProbeFailure (p : Pool) (w : WorkerId) :
    Effect p (.probeFailure w) (.flag (p.recordProbeFailure w).value)
      (p.recordProbeFailure w).pool := by
  unfold recordProbeFailure
  cases he : p.entry? w with
  | none => exact .missed he (by simp) (.inl rfl)
  | some e =>
    dsimp only
    by_cases hreached : p.threshold ≤ e.probeFailures + 1
    · rw [if_pos hreached]
      exact .evicted he hreached
    · rw [if_neg hreached]
      exact .counted he (Nat.lt_of_not_le hreached)

theorem effect_perform (p : Pool) (c : PoolCall) :
    Effect p c (p.perform c).value (p.perform c).pool := by
  cases c with
  | register h => exact effect_register p h
  | deregister w => exact effect_deregister p w
  | acquire =>
    show Effect p .acquire (.worker p.acquire.value) p.acquire.pool
    rw [acquire_eq]
    exact effect_acquireAvoiding p rfl none
  | acquireAvoiding avoid => exact effect_acquireAvoiding p rfl avoid
  | release w => exact effect_release p w
  | markUnreachable w => exact effect_markUnreachable p w
  | restore w => exact effect_restore p w
  | probeFailure w => exact effect_recordProbeFailure p w

/-! ## what no call touches -/

variable {p q : Pool} {c : PoolCall} {a : PoolAnswer}

theorem Effect.threshold (h : Effect p c a q) : q.threshold = p.threshold := by
  cases h <;> rfl

theorem Effect.clock (h : Effect p c a q) : q.clock
    = match c with
      | .release _ => p.clock + 1
      | _ => p.clock := by
  cases h with
  | handed hands => cases c <;> first | rfl | cases hands
  | nobody hands => cases c <;> first | rfl | cases hands
  | missed unknown about => cases c <;> first | rfl | simp at about
  | _ => rfl

/-- Whoever a restoration or a failed probe is not about keeps its entry. -/
theorem Effect.entry?_of_ne (h : Effect p c a q) {w u : WorkerId}
    (hc : c = .restore w ∨ c = .probeFailure w) (hu : u ≠ w) : q.entry? u = p.entry? u := by
  rcases hc with rfl | rfl
  · cases h with
    | handed hands => cases hands
    | restored => exact (entry?_setEntry p w u _).trans (if_neg hu)
    | _ => rfl
  · cases h with
    | handed hands => cases hands
    | counted => exact (entry?_setEntry p w u _).trans (if_neg hu)
    | evicted => exact (entry?_erase p w u).trans (if_neg hu)
    | _ => rfl

/-! ## answered probes -/

def probeCall? (w : WorkerId) : ProbeAnswer → Option PoolCall
  | .ok health => if health.isIdle then some (.restore w) else none
  | .error _ => some (.probeFailure w)

theorem probeCall?_about {w : WorkerId} {answer : ProbeAnswer} (h : probeCall? w answer = some c) :
    c = .restore w ∨ c = .probeFailure w := by
  cases answer with
  | ok health => exact .inl (Option.some.inj (Option.ite_none_right_eq_some.mp h).2).symm
  | error x => exact .inr (Option.some.inj h).symm

theorem pool_afterProbe (p : Pool) (w : WorkerId) (answer : ProbeAnswer) :
    (p.afterProbe w answer).pool
      = ((probeCall? w answer).map fun c => (p.perform c).pool).getD p := by
  cases answer with
  | error x => rfl
  | ok health =>
    show (if health.isIdle then _ else _ : Reply Unit).pool
      = Option.getD (Option.map _ (if health.isIdle then _ else _)) p
    cases health.isIdle <;> rfl

end Pool
end HazardDispatch
