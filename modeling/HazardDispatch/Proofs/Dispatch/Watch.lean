import HazardDispatch.Proofs.Dispatch.Leases
import HazardDispatch.Proofs.Pool.Prober

/-!
# A dispatcher, its pool and a prober

`Watched` is a dispatcher with a prober that is at work on its pool. Meanwhile tasks come and go, and
workers register. A run is a list of moves, and in each move one of the three does something.

After every run the busy workers are those of the attempts in flight. The prober cannot upset this:
until their turn comes the workers on its list stay out of rotation (`Guarded`), for only the prober
brings a worker back, and it asks each one once in a round.
-/

namespace HazardDispatch

structure Watched (σ : Type) where
  dispatcher : Dispatcher σ
  prober : Prober

inductive Move where
  | own (a : Action)
  /-- A worker registers, for the first time or again. -/
  | register (h : WorkerHandle)
  | probe (m : ProberMove)

namespace Watched

variable {σ : Type}

def start (config : ControllerConfig) (sink : σ) : Watched σ :=
  { dispatcher := .start config sink, prober := .resting }

def move [Sink σ] (s : Watched σ) : Move → Watched σ
  | .own a => { s with dispatcher := (s.dispatcher.act a).change.next }
  | .register h =>
    { s with dispatcher := { s.dispatcher with pool := (s.dispatcher.pool.register h).pool } }
  | .probe m =>
    { dispatcher := { s.dispatcher with pool := (s.prober.move s.dispatcher.pool m).1 }
      prober := (s.prober.move s.dispatcher.pool m).2 }

def run [Sink σ] (s : Watched σ) (ms : List Move) : Watched σ := ms.foldl move s

/-! ## the invariant -/

structure Guarded (s : Watched σ) : Prop where
  filed : s.dispatcher.Filed True
  leased : s.dispatcher.Leased
  once : s.prober.due.Nodup
  out : ∀ w ∈ s.prober.due, s.dispatcher.pool.status? w = some .unreachable

theorem guarded_start (config : ControllerConfig) (sink : σ) : (start config sink).Guarded where
  filed := Dispatcher.filed_start config sink
  leased := Dispatcher.leased_start config sink
  once := .nil
  out _ hw := nomatch hw

variable {s : Watched σ}

theorem Guarded.own [Sink σ] (h : s.Guarded) (a : Action) : (s.move (.own a)).Guarded := by
  have hf : Dispatcher.Turns True s.dispatcher _ (s.dispatcher.act a).change.next :=
    Dispatcher.act_turns h.filed fun _ => trivial
  obtain ⟨hfiled, hleased, hout⟩ := hf.keep
    (P := fun d => d.Filed True ∧ d.Leased ∧ ∀ w ∈ s.prober.due, d.pool.status? w = some .unreachable)
    (fun turn ⟨hd, hl, ho⟩ =>
      ⟨turn.filed hd, turn.leased hd hl, fun w hw => turn.unreachable hl (ho w hw)⟩)
    ⟨h.filed, h.leased, h.out⟩
  exact ⟨hfiled, hleased, h.once, hout⟩

theorem Guarded.register [Sink σ] (h : s.Guarded) (w : WorkerHandle) :
    (s.move (.register w)).Guarded := by
  refine ⟨h.filed.withPool _, h.leased.register w, h.once, ?_⟩
  intro u hu
  show ((s.dispatcher.pool.register w).pool).status? u = _
  rw [Pool.status?_register, h.out u hu]
  split <;> rfl

/-- Only the status of the worker that answers may change, and that one was out of rotation. -/
theorem Guarded.heard {d : Dispatcher σ} {x : WorkerHandle} {xs : List WorkerHandle}
    (h : Guarded ⟨d, ⟨xs, some x⟩⟩) (answer : ProbeAnswer) :
    Guarded ⟨{ d with pool := (d.pool.afterProbe x.workerId answer).pool }, ⟨xs, none⟩⟩ := by
  obtain ⟨hx, honce⟩ : x.workerId ∉ xs.map (·.workerId) ∧ (xs.map (·.workerId)).Nodup :=
    List.nodup_cons.mp h.once
  refine ⟨h.filed.withPool _, h.leased.withPool fun w hw => ?_, honce, fun w hw => ?_⟩
  · obtain rfl : w = x.workerId := Classical.byContradiction fun hne =>
      hw (Pool.status?_afterProbe_of_ne _ _ hne)
    have hbusy : d.pool.status? x.workerId ≠ some .busy := by
      rw [h.out _ List.mem_cons_self]
      exact nofun
    exact ⟨hbusy, Pool.status?_afterProbe_ne_busy _ _ hbusy⟩
  · have hne : w ≠ x.workerId := fun he => hx (he ▸ hw)
    exact (Pool.status?_afterProbe_of_ne _ _ hne).trans (h.out w (List.mem_cons_of_mem _ hw))

theorem Guarded.probe [Sink σ] (h : s.Guarded) (m : ProberMove) :
    (s.move (.probe m)).Guarded := by
  have hmoved := s.prober.moved_move s.dispatcher.pool m
  obtain ⟨d, b⟩ := s
  show Guarded ⟨{ d with pool := (b.move d.pool m).1 }, (b.move d.pool m).2⟩
  replace hmoved : Prober.Moved d.pool b m (b.move d.pool m).1 (b.move d.pool m).2 := hmoved
  generalize (b.move d.pool m).1 = q, (b.move d.pool m).2 = b' at hmoved ⊢
  cases hmoved with
  | still => exact h
  | looked horder =>
    exact ⟨h.filed, h.leased, Prober.nodup_of_perm_unreachable horder,
      fun _ => Prober.out_of_perm_unreachable horder⟩
  | asked x xs => exact ⟨h.filed, h.leased, h.once, h.out⟩
  | heard x xs answer => exact h.heard answer

theorem Guarded.move [Sink σ] (h : s.Guarded) (m : Move) : (s.move m).Guarded := by
  cases m with
  | own a => exact h.own a
  | register w => exact h.register w
  | probe m => exact h.probe m

theorem Guarded.run [Sink σ] (h : s.Guarded) (ms : List Move) : (s.run ms).Guarded := by
  induction ms generalizing s with
  | nil => exact h
  | cons m ms ih => exact ih (h.move m)

/-- After every run of a dispatcher, its pool and a prober, in which workers register as they like,
the attempts in flight have distinct workers, and these are just the busy ones. -/
theorem leased_run [Sink σ] (config : ControllerConfig) (sink : σ) (ms : List Move) :
    ((start config sink).run ms).dispatcher.Leased :=
  ((guarded_start config sink).run ms).leased

end Watched
end HazardDispatch
