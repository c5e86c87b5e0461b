import HazardDispatch.Proofs.Pool.Effects

/-!
# A prober at work

A `Prober` works through the workers that were out of rotation when its round began, in whatever order
the pool listed them. Its moves are separate, so that others can use the pool between any two of them,
and its list may be old when a worker's turn comes. `Pool.probeEach` is a round that nothing interrupts
(`run_undisturbed`).

`Prober.Moved` lists what a move can do.
-/

namespace HazardDispatch

structure Prober where
  /-- Whom the round is still to ask. -/
  listed : List WorkerHandle
  /-- Whose answer is awaited. -/
  asked : Option WorkerHandle

inductive ProberMove where
  /-- A round begins: the prober looks up who is out of rotation, and gets them in this order. -/
  | look (order : List WorkerHandle)
  | ask
  /-- It answers, or cannot be reached. -/
  | hear (answer : ProbeAnswer)

namespace Prober

def resting : Prober := ⟨[], none⟩

/-- The pool and the prober after a move. Nothing happens when it is not the time for the move. -/
def move (p : Pool) (b : Prober) : ProberMove → Pool × Prober
  | .look order =>
    match b.asked, b.listed with
    | none, [] => if order.Perm p.unreachable then (p, ⟨order, none⟩) else (p, b)
    | _, _ => (p, b)
  | .ask =>
    match b.asked, b.listed with
    | none, h :: hs => (p, ⟨hs, some h⟩)
    | _, _ => (p, b)
  | .hear answer =>
    match b.asked with
    | some h => ((p.afterProbe h.workerId answer).pool, ⟨b.listed, none⟩)
    | none => (p, b)

def run (p : Pool) (b : Prober) : List ProberMove → Pool × Prober
  | [] => (p, b)
  | m :: ms => run (b.move p m).1 (b.move p m).2 ms

/-- Whom the prober will still act on in this round. -/
def due (b : Prober) : List WorkerId := (b.asked.toList ++ b.listed).map (·.workerId)

/-! ## a round that nothing interrupts -/

def roundOf (answers : WorkerHandle → ProbeAnswer) (hs : List WorkerHandle) : List ProberMove :=
  hs.flatMap fun h => [.ask, .hear (answers h)]

theorem run_roundOf (answers : WorkerHandle → ProbeAnswer) (p : Pool) (hs : List WorkerHandle) :
    run p ⟨hs, none⟩ (roundOf answers hs) = ((p.probeEach answers hs).pool, resting) := by
  induction hs generalizing p with
  | nil => rfl
  | cons h hs ih => exact ih _

/-- Moves that nothing interrupts are a round of the pool's own. -/
theorem run_undisturbed (answers : WorkerHandle → ProbeAnswer) {p : Pool} {order : List WorkerHandle}
    (h : order.Perm p.unreachable) :
    run p resting (.look order :: roundOf answers order)
      = ((p.probeEach answers order).pool, resting) := by
  have hlook : resting.move p (.look order) = (p, ⟨order, none⟩) := if_pos h
  rw [run, hlook]
  exact run_roundOf answers p order

/-! ## what a move does -/

inductive Moved (p : Pool) : Prober → ProberMove → Pool → Prober → Prop where
  /-- It was not the time for the move. -/
  | still (b : Prober) (m : ProberMove) (unheard : ∀ answer, m = .hear answer → b.asked = none) :
      Moved p b m p b
  | looked {order : List WorkerHandle} (h : order.Perm p.unreachable) :
      Moved p resting (.look order) p ⟨order, none⟩
  | asked (h : WorkerHandle) (hs : List WorkerHandle) : Moved p ⟨h :: hs, none⟩ .ask p ⟨hs, some h⟩
  | heard (h : WorkerHandle) (hs : List WorkerHandle) (answer : ProbeAnswer) :
      Moved p ⟨hs, some h⟩ (.hear answer) (p.afterProbe h.workerId answer).pool ⟨hs, none⟩

theorem moved_move (p : Pool) (b : Prober) (m : ProberMove) :
    Moved p b m (b.move p m).1 (b.move p m).2 := by
  obtain ⟨listed, asked⟩ := b
  cases m with
  | look order =>
    cases asked with
    | some h => exact .still _ _ nofun
    | none =>
      cases listed with
      | cons h hs => exact .still _ _ nofun
      | nil =>
        have hlook : resting.move p (.look order)
            = if order.Perm p.unreachable then (p, ⟨order, none⟩) else (p, resting) := rfl
        show Moved p resting _ (resting.move p (.look order)).1 (resting.move p (.look order)).2
        rw [hlook]
        by_cases horder : order.Perm p.unreachable
        · rw [if_pos horder]
          exact .looked horder
        · rw [if_neg horder]
          exact .still _ _ nofun
  | ask =>
    cases asked with
    | some h => exact .still _ _ nofun
    | none =>
      cases listed with
      | nil => exact .still _ _ nofun
      | cons h hs => exact .asked h hs
  | hear answer =>
    cases asked with
    | none => exact .still _ _ fun _ _ => rfl
    | some h => exact .heard h listed answer

variable {p : Pool}

theorem nodup_of_perm_unreachable {order : List WorkerHandle} (h : order.Perm p.unreachable) :
    (order.map (·.workerId)).Nodup :=
  (h.map _).nodup_iff.mpr p.nodup_unreachable

theorem out_of_perm_unreachable {order : List WorkerHandle} (h : order.Perm p.unreachable)
    {w : WorkerId} (hw : w ∈ order.map (·.workerId)) : p.status? w = some .unreachable := by
  obtain ⟨x, hx, rfl⟩ := List.mem_map.mp hw
  exact Pool.status?_of_mem_unreachable (h.mem_iff.mp hx)

end Prober
end HazardDispatch
