import HazardDispatch.Calculation.Basic
import HazardDispatch.Proofs.Dispatch.Unasked

/-!
# Sessions

A session is a calculation with the dispatcher that it uses, on which nobody else submits or cancels.
It moves by the steps of the calculation, by outcomes that reach it, and by whatever else happens to
the dispatcher and its pool, in any order.

* `Move`, `Session.run`   what can happen, and a list of it;
* `Session.Lawful`        only outcomes that were sent arrive, others make no requests, and no sink
                          stops half-way;
* `Session.Possible`      only outcomes that were sent arrive, and others may do anything.
-/

namespace HazardDispatch

/-- A calculation, its dispatcher, and what happened so far. -/
structure Session (F : Type) where
  calculation : Calculation F
  dispatcher : Dispatcher (Accounts F)
  events : List Event
  accepted : List Task

inductive Session.Move where
  /-- The calculation takes a step. -/
  | step
  /-- The next task is accepted; the scheduling cycle of its submission comes later, in parts. -/
  | accept
  /-- An outcome reaches the calculation. -/
  | hear (ticket : Nat) (o : Outcome)
  | others (o : Occurrence)

/-- The calculation gives up, or gave up. -/
def Calculation.Aborted {F : Type} (c : Calculation F) : Prop :=
  match c.stage with
  | .cancelling _ _ => True
  | .finished (.error _) => True
  | _ => False

namespace Session

variable {F : Type} [Add F] [Sub F] [Mul F] [Div F] [Scalar F]

/-- A fresh dispatcher, and the calculation of the tasks. -/
def begin (config : ControllerConfig) (topK : Nat) (tasks : List Task) : Session F :=
  let c : Calculation F := .ofTasks tasks
  { calculation := c, dispatcher := c.begin (.start config (.empty topK)), events := []
    accepted := [] }

/-- What the next step gets accepted: one task or none. -/
def accepting (s : Session F) : List Task :=
  match s.calculation.stage, s.calculation.rest with
  | .submitting, t :: _ =>
    match (s.dispatcher.submit t).value with
    | .ok _ => [t]
    | .error _ => []
  | _, _ => []

def after (s : Session F) (c : Change (Accounts F)) : Session F :=
  { s with dispatcher := c.next, events := s.events ++ c.events }

def step (s : Session F) : Session F :=
  let (c, change) := s.calculation.step s.dispatcher
  let next := { s with calculation := c, accepted := s.accepted ++ s.accepting }
  match change with
  | none => next
  | some change => next.after change

def acceptNext (s : Session F) : Session F :=
  match s.calculation.rest with
  | [] => s
  | t :: ts =>
    { s with
      calculation := { s.calculation with
        rest := ts, queue := s.calculation.queue ++ [⟨s.dispatcher.nextTicket, t.id⟩] }
      dispatcher := s.dispatcher.enqueueNew t, accepted := s.accepted ++ [t] }

def move (s : Session F) : Move → Session F
  | .step => s.step
  | .accept => s.acceptNext
  | .hear ticket o => { s with calculation := s.calculation.notice ticket o }
  | .others o => s.after (s.dispatcher.undergo o).change

/-- The move can happen: the calculation submits a task that is accepted, an outcome that was sent
arrives, others make no request and no sink stops half-way. -/
def Allows (s : Session F) : Move → Prop
  | .step => True
  | .accept => s.calculation.stage matches .submitting ∧ s.dispatcher.stopped = false ∧
      ∀ t ∈ s.calculation.rest.head?, s.dispatcher.tasks.get? t.id = none
  | .hear ticket o => .resolved ticket o ∈ s.events
  | .others o => o.isRequest = false ∧ (s.dispatcher.undergo o).stop = none

def run (s : Session F) (ms : List Move) : Session F := ms.foldl move s

def Lawful (s : Session F) : List Move → Prop
  | [] => True
  | m :: ms => s.Allows m ∧ Lawful (s.move m) ms

/-- The move can happen, whatever others do: the calculation submits a task that is accepted, and
an outcome arrives only if it was sent. -/
def Permits (s : Session F) : Move → Prop
  | .others _ => True
  | m => s.Allows m

def Possible (s : Session F) : List Move → Prop
  | [] => True
  | m :: ms => s.Permits m ∧ Possible (s.move m) ms

/-- The tickets that the calculation gets in a move: one or none. -/
def granted (s : Session F) : Move → List Ticket
  | .step => s.accepting.map fun t => ⟨s.dispatcher.nextTicket, t.id⟩
  | .accept => (s.calculation.rest.take 1).map fun t => ⟨s.dispatcher.nextTicket, t.id⟩
  | .hear _ _ => []
  | .others _ => []

def tickets (s : Session F) : List Move → List Ticket
  | [] => []
  | m :: ms => s.granted m ++ (s.move m).tickets ms

theorem run_moves_append (s : Session F) (ms ms' : List Move) :
    s.run (ms ++ ms') = (s.run ms).run ms' :=
  List.foldl_append

theorem tickets_append (s : Session F) (ms ms' : List Move) :
    s.tickets (ms ++ ms') = s.tickets ms ++ (s.run ms).tickets ms' := by
  induction ms generalizing s with
  | nil => rfl
  | cons m ms ih =>
    rw [List.cons_append, tickets, tickets, ih, List.append_assoc]
    rfl

end Session

variable {F : Type}

/-! ## the calculation's part -/

/-- Of the tickets that are looked through, only one is dropped whose outcome came in. -/
theorem Calculation.takeOutcome_spec (c : Calculation F) (ts : List Ticket) :
    let c' := (c.takeOutcome ts).2
    c'.rest = c.rest ∧ c'.mailbox = c.mailbox ∧ c'.stage = c.stage ∧
      ((c.takeOutcome ts).1 = none → c'.queue = []) ∧
      ∀ t ∈ ts ++ c.waiting, t ∈ c'.queue ++ c'.waiting ∨ ∃ o, (t.number, o) ∈ c.mailbox := by
  induction ts generalizing c with
  | nil => exact ⟨rfl, rfl, rfl, fun _ => rfl, fun t ht => .inl ht⟩
  | cons t ts ih =>
    rw [takeOutcome]
    cases hl : c.mailbox.lookup t.number with
    | some o =>
      refine ⟨rfl, rfl, rfl, fun h => (nomatch h), fun u hu => ?_⟩
      rcases List.mem_cons.mp hu with rfl | hu
      · obtain ⟨xs, ys, heq, -⟩ := List.lookup_eq_some_iff.mp hl
        exact .inr ⟨o, heq ▸ List.mem_append_right _ List.mem_cons_self⟩
      · exact .inl hu
    | none =>
      obtain ⟨hrest, hmailbox, hstage, hqueue, hkept⟩ :=
        ih { c with waiting := c.waiting ++ [t] }
      refine ⟨hrest, hmailbox, hstage, hqueue, fun u hu => hkept u ?_⟩
      show u ∈ ts ++ (c.waiting ++ [t])
      rcases List.mem_cons.mp hu with rfl | hu
      · exact List.mem_append_right _ (List.mem_append_right _ List.mem_cons_self)
      · rcases List.mem_append.mp hu with hu | hu
        · exact List.mem_append_left _ hu
        · exact List.mem_append_right _ (List.mem_append_left _ hu)

theorem Session.accepting_of_stage {s : Session F} (h : ¬ s.calculation.stage matches .submitting) :
    s.accepting = [] := by
  unfold accepting
  split
  · next hstage _ => rw [hstage] at h; exact absurd rfl h
  · rfl

theorem Session.accepting_of_rest {s : Session F} (h : s.calculation.rest = []) :
    s.accepting = [] := by
  unfold accepting
  split
  · next hrest => rw [h] at hrest; cases hrest
  · rfl

end HazardDispatch
