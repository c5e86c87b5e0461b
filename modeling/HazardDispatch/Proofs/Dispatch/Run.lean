import HazardDispatch.Dispatch.Settle
import HazardDispatch.Dispatch.Submit
import HazardDispatch.Pool.Call

/-!
# Runs of a dispatcher

All that can happen to a dispatcher, as data, so that a run is a list.

* `Part`         a part of an operation, from one look at the pool to the next;
* `Action`       what the dispatcher does: an operation from its begin to its end, or a part of one;
* `Occurrence`   an action, or a change that others make to the pool;
* `run`          the occurrences of a list, one after the other;
* `SinksReturn`  no sink stops half-way in any of them.

Results, refusals, deadlines and answers are arbitrary: they may be late, repeated or made up. The
pool has a lock of its own, so others can change it while an operation is under way. Such an
operation is a list of its parts, with the changes of others between them. A part touches the pool
once; what else it does commutes with any change of the pool.
-/

namespace HazardDispatch

/-- A part of an operation, from one look at the pool to the next. -/
inductive Part where
  | accept (t : Task)
  /-- A result is applied. -/
  | receive (r : TaskResult)
  /-- A refusal is applied. -/
  | giveBack (t : TaskId) (number : Nat)
  /-- A deadline is applied. -/
  | expire (t : Timer)
  /-- One assignment of a scheduling cycle. -/
  | assign (t : TaskId)

inductive Action where
  | submit (t : Task)
  | cancel (t : TaskId)
  | deliver (r : TaskResult)
  | refuse (t : TaskId) (number : Nat)
  | deadline (t : Timer)
  | answer (a : Attempt) (reply : Except TransportError ExecuteResponse)
  /-- The scheduling cycle that is due when a worker became idle. -/
  | wake
  | part (p : Part)
  /-- The stored wake-up is used up; its scheduling cycle comes later, in parts. -/
  | takePermit
  | pass (millis : Nat)
  | shutdown

inductive Occurrence where
  | own (a : Action)
  | pool (c : PoolCall)

def Occurrence.submits : Occurrence → Option TaskId
  | .own (.submit t) => some t.id
  | .own (.part (.accept t)) => some t.id
  | _ => none

namespace Dispatcher

variable {σ : Type}

/-- `deliver` without its scheduling cycle. -/
def receive [Sink σ] (d : Dispatcher σ) (r : TaskResult) : Settled σ :=
  match d.take? r.taskId r.attempt.toNat with
  | none => .whole (.none d)
  | some (a, d) => (d.disarm a.launch).settle a r

/-- What becomes of a task whose attempt, taken out of flight, was refused. -/
def giveBackTaken (d : Dispatcher σ) (a : Attempt) (t : TaskId) : Change σ :=
  (d.withReply (d.pool.markUnreachable a.worker.workerId)).andThen fun d =>
    match d.tasks.get? t with
    | none => .none d
    | some e =>
      if e.cancelRequested then d.resolve t e (.cancelled t)
      else .none (d.requeue t { e with attempts := e.attempts - 1 })

/-- `refuse` without its scheduling cycle. -/
def giveBack (d : Dispatcher σ) (t : TaskId) (number : Nat) : Change σ :=
  match d.take? t number with
  | none => .none d
  | some (a, d) => (d.disarm a.launch).giveBackTaken a t

def timeoutOf (d : Dispatcher σ) (a : Attempt) (t : Timer) : TaskResult :=
  .failed t.task (.ofNat t.attempt) a.worker.workerId a.task.operation .timeout (d.elapsed a)

/-- `deadline` without its scheduling cycle. -/
def expire [Sink σ] (d : Dispatcher σ) (t : Timer) : Settled σ :=
  match (d.disarm t.launch).take? t.task t.attempt with
  | none => .whole (.none (d.disarm t.launch))
  | some (a, d) => d.settle a (d.timeoutOf a t)

def doPart [Sink σ] (d : Dispatcher σ) : Part → Settled σ
  | .accept t => .whole (.none (if d.tasks.contains t.id then d else d.enqueueNew t))
  | .receive r => d.receive r
  | .giveBack t number => .whole (d.giveBack t number)
  | .expire t => d.expire t
  | .assign t =>
    if t ∈ d.pending then
      match d.assign? t with
      | none => .whole (.none d)
      | some a => .whole (d.launch a)
    else .whole (.none d)

def act [Sink σ] (d : Dispatcher σ) : Action → Settled σ
  | .submit t => .whole (d.submit t).change
  | .cancel t => .whole (d.cancel t).change
  | .deliver r => d.deliver r
  | .refuse t number => .whole (d.refuse t number)
  | .deadline t => d.deadline t
  | .answer a reply => d.answer a reply
  | .wake => .whole d.wake
  | .part p => d.doPart p
  | .takePermit => .whole (.none { d with pool := d.pool.consume })
  | .pass millis => .whole (.none { d with now := d.now + millis })
  | .shutdown => .whole (.none d.shutdown)

def undergo [Sink σ] (d : Dispatcher σ) : Occurrence → Settled σ
  | .own a => d.act a
  | .pool c => .whole (d.withReply (d.pool.perform c))

def run [Sink σ] (d : Dispatcher σ) : List Occurrence → Change σ
  | [] => .none d
  | o :: os => (d.undergo o).change.andThen fun d => run d os

/-- No sink stops half-way. -/
def SinksReturn [Sink σ] (d : Dispatcher σ) : List Occurrence → Prop
  | [] => True
  | o :: os => (d.undergo o).stop = none ∧ SinksReturn (d.undergo o).change.next os

variable [Sink σ]

theorem run_cons (d : Dispatcher σ) (o : Occurrence) (os : List Occurrence) :
    d.run (o :: os) = ⟨((d.undergo o).change.next.run os).next,
      (d.undergo o).change.events ++ ((d.undergo o).change.next.run os).events⟩ := rfl

theorem run_append (d : Dispatcher σ) (os os' : List Occurrence) :
    d.run (os ++ os') = (d.run os).andThen fun d => d.run os' := by
  induction os generalizing d with
  | nil => rfl
  | cons o os ih =>
    rw [List.cons_append, run_cons, run_cons, ih]
    simp only [Change.andThen, List.append_assoc]

theorem run_concat (d : Dispatcher σ) (os : List Occurrence) (o : Occurrence) :
    d.run (os ++ [o]) = (d.run os).andThen fun d => (d.undergo o).change := by
  rw [run_append]
  simp only [run, Change.andThen, Change.none, List.append_nil]

theorem sinksReturn_append (d : Dispatcher σ) (os os' : List Occurrence) :
    d.SinksReturn (os ++ os') ↔ d.SinksReturn os ∧ (d.run os).next.SinksReturn os' := by
  induction os generalizing d with
  | nil => exact ⟨fun h => ⟨trivial, h⟩, fun h => h.2⟩
  | cons o os ih =>
    show (_ ∧ SinksReturn _ (os ++ os')) ↔ (_ ∧ SinksReturn _ os) ∧ _
    rw [ih, and_assoc]
    rfl

end Dispatcher

end HazardDispatch
