import HazardDispatch.Controller.Server
import HazardDispatch.Proofs.Calculation.Moves
import HazardDispatch.Proofs.Pool.Effects

/-!
# Changes that are runs

The server of the controller, the prober and a calculation change a dispatcher in ways of their own:
they log more, and some do several things at once. `d.Undergoes c` says that the change `c` of `d` is
that of some run, log lines apart. All of theirs are (`undergoes_handle`, `undergoes_probeRound`,
`undergoes_submitAll`, `undergoes_step`).
-/

namespace HazardDispatch
namespace Dispatcher

variable {σ : Type} [Sink σ]

def Undergoes (d : Dispatcher σ) (c : Change σ) : Prop :=
  ∃ os, c.next = (d.run os).next ∧ facts c.events = facts (d.run os).events

variable {d : Dispatcher σ} {c c' : Change σ}

theorem undergoes_none (d : Dispatcher σ) : d.Undergoes (.none d) := ⟨[], rfl, rfl⟩

theorem undergoes_occurrence (d : Dispatcher σ) (o : Occurrence) :
    d.Undergoes (d.undergo o).change :=
  ⟨[o], rfl, by rw [run_cons, facts_append]; exact (List.append_nil _).symm⟩

theorem Undergoes.congr (h : d.Undergoes c) (hnext : c'.next = c.next)
    (hfacts : facts c'.events = facts c.events) : d.Undergoes c' := by
  obtain ⟨os, hn, hf⟩ := h
  exact ⟨os, hnext.trans hn, hfacts.trans hf⟩

theorem Undergoes.append (h : d.Undergoes c) (h' : c.next.Undergoes c') :
    d.Undergoes ⟨c'.next, c.events ++ c'.events⟩ := by
  obtain ⟨os, hn, hf⟩ := h
  obtain ⟨os', hn', hf'⟩ := h'
  refine ⟨os ++ os', ?_, ?_⟩
  · rw [run_append, hn', hn]
    rfl
  · rw [run_append, facts_append, hf, hf', hn]
    exact (facts_append _ _).symm

theorem Undergoes.logged (h : d.Undergoes c) (log : List LogLine) :
    d.Undergoes ⟨c.next, c.events ++ log.map .logged⟩ :=
  h.congr rfl (by simp)

/-! ## the pool -/

/-- Only what becomes of the pool counts. -/
theorem undergoes_reply {α : Type} (d : Dispatcher σ) (call : PoolCall) {r : Pool.Reply α}
    (h : r.pool = (d.pool.perform call).pool) : d.Undergoes (d.withReply r) := by
  refine (undergoes_occurrence d (.pool call)).congr ?_ ?_
  · show { d with pool := r.pool } = _
    rw [h]
    rfl
  · exact (facts_logged _).trans (facts_logged _).symm

theorem undergoes_afterProbe (d : Dispatcher σ) (w : WorkerId) (answer : ProbeAnswer) :
    d.Undergoes (d.withReply (d.pool.afterProbe w answer)) := by
  have hpool := d.pool.pool_afterProbe w answer
  cases hcall : Pool.probeCall? w answer with
  | none =>
    rw [hcall] at hpool
    refine (undergoes_none d).congr ?_ (facts_logged _)
    show { d with pool := (d.pool.afterProbe w answer).pool } = d
    rw [hpool]
    rfl
  | some call =>
    rw [hcall] at hpool
    exact undergoes_reply d call hpool

theorem undergoes_probeEach (d : Dispatcher σ) (ask : WorkerHandle → ProbeAnswer)
    (hs : List WorkerHandle) : d.Undergoes (d.withReply (d.pool.probeEach ask hs)) := by
  induction hs generalizing d with
  | nil => exact undergoes_none d
  | cons h hs ih =>
    have hfirst := undergoes_afterProbe d h.workerId (ask h)
    refine (hfirst.append (ih _)).congr rfl ?_
    simp [withReply, Pool.probeEach]

theorem undergoes_probeRound (d : Dispatcher σ) (ask : WorkerHandle → ProbeAnswer) :
    d.Undergoes (d.withReply (d.pool.probeRound ask)) :=
  undergoes_probeEach d ask d.pool.unreachable

/-! ## requests -/

theorem undergoes_submitAll (d : Dispatcher σ) (ts : List Task) :
    d.Undergoes (d.submitAll ts).change := by
  induction ts generalizing d with
  | nil => exact undergoes_none d
  | cons t ts ih =>
    have hfirst : d.Undergoes (d.submit t).change := undergoes_occurrence d (.own (.submit t))
    rw [submitAll]
    cases (d.submit t).value with
    | error e => exact hfirst
    | ok ticket => exact hfirst.append (ih _)

theorem undergoes_handleRegister (d : Dispatcher σ) (now : Instant) (r : Http.Request) :
    d.Undergoes (d.handleRegister now r).2 := by
  unfold handleRegister
  split
  · exact undergoes_none d
  split
  · exact undergoes_none d
  split
  · exact undergoes_none d
  · exact undergoes_none d
  · next req _ =>
    split
    · exact undergoes_none d
    · have hreply := undergoes_reply d (.register (req.handle now))
        (r := d.pool.register (req.handle now)) rfl
      dsimp only
      split
      · exact hreply
      · exact hreply

theorem undergoes_handleDeregister (d : Dispatcher σ) (segment : List Char) :
    d.Undergoes (d.handleDeregister segment).2 := by
  unfold handleDeregister
  split
  · exact undergoes_none d
  · next w _ =>
    have hreply := undergoes_reply d (.deregister ⟨w⟩) (r := d.pool.deregister ⟨w⟩) rfl
    dsimp only
    split
    · exact hreply.logged [_]
    · exact hreply

theorem undergoes_handle (d : Dispatcher (Accounts Float)) (now : Instant) (r : Http.Request) :
    d.Undergoes (d.handle now r).2 := by
  unfold handle
  split
  · exact undergoes_none d
  split
  · exact undergoes_none d
  · exact undergoes_handleRegister d now r
  · exact undergoes_handleDeregister d _
  · exact undergoes_none d

end Dispatcher

/-! ## calculations -/

namespace Calculation

variable {F : Type} [Add F] [Sub F] [Mul F] [Div F] [Scalar F]

theorem undergoes_step {c : Calculation F} {d : Dispatcher (Accounts F)}
    {change : Change (Accounts F)} (h : (c.step d).2 = some change) : d.Undergoes change := by
  let s : Session F := { calculation := c, dispatcher := d, events := [], accepted := [] }
  obtain ⟨os, hmoved⟩ := Session.moved_step (s := s)
  obtain ⟨hnext, hfacts⟩ := hmoved.run
  have hstep : s.step.dispatcher = change.next ∧ s.step.events = change.events := by
    unfold Session.step
    dsimp only
    rw [h]
    exact ⟨rfl, rfl⟩
  rw [hstep.1] at hnext
  rw [hstep.2] at hfacts
  exact ⟨os, hnext, hfacts⟩

end Calculation
end HazardDispatch
