import HazardDispatch.Dispatch.Schedule
import HazardDispatch.Wire.Execute
import HazardDispatch.Wire.TransportError

/-!
# How attempts end

An attempt is taken out of flight by whichever comes first:

* `deliver`   a result. The worker is freed, or removed if the failure is put down to it. The result
              goes to the sinks, unless the task is cancelled. Then the task is done, queued again, or
              given up;
* `refuse`    the worker says that it still runs another task. The task is queued again and the
              attempt is not counted; the worker is out of rotation until a probe finds it idle;
* `deadline`  the deadline. It counts as a failure of the worker.

What does not match the attempt in flight is stale and changes nothing. After each of these a
scheduling cycle follows, unless a sink stopped half-way: then nothing more is done.

`answer` turns what a worker sends back into one of the first two.
-/

namespace HazardDispatch

/-- A change that a sink may have stopped half-way. -/
structure Settled (σ : Type) where
  change : Change σ
  stop : Option Overflow

namespace Settled

variable {σ : Type}

def whole (c : Change σ) : Settled σ := ⟨c, none⟩

/-- The next change, unless this one stopped. -/
def andThen (s : Settled σ) (f : Dispatcher σ → Change σ) : Settled σ :=
  match s.stop with
  | none => whole (s.change.andThen f)
  | some _ => s

def after (c : Change σ) (f : Dispatcher σ → Settled σ) : Settled σ :=
  let s := f c.next
  ⟨⟨s.change.next, c.events ++ s.change.events⟩, s.stop⟩

end Settled

/-- The answer, if it is one to this attempt. -/
def Attempt.check (a : Attempt) (r : ExecuteResponse) :
    Except TransportError ExecuteResponse :=
  if r.taskId = a.task.id.text ∧ r.attempt.toNat = a.number then .ok r
  else .error (.invalidResponse
    s!"response for {r.taskId}#{r.attempt.toNat} while running {a.task.id.text}#{a.number}")

namespace Dispatcher

variable {σ : Type}

/-- Takes the attempt at a task out of flight, if it has that number. -/
def take? (d : Dispatcher σ) (t : TaskId) (number : Nat) : Option (Attempt × Dispatcher σ) :=
  match d.inFlight.get? t with
  | none => none
  | some a =>
    if a.number = number then some (a, { d with inFlight := d.inFlight.erase t }) else none

def disarm (d : Dispatcher σ) (launch : Nat) : Dispatcher σ :=
  { d with timers := d.timers.filter (·.launch != launch) }

/-- The place in the queue: before all later submissions. -/
def insertQueued (tasks : Table TaskId Entry) (ticket : Nat) (t : TaskId) :
    List TaskId → List TaskId
  | [] => [t]
  | u :: us =>
    match tasks.get? u with
    | some e => if ticket < e.ticket then t :: u :: us else u :: insertQueued tasks ticket t us
    | none => u :: insertQueued tasks ticket t us

def requeue (d : Dispatcher σ) (t : TaskId) (e : Entry) : Dispatcher σ :=
  let tasks := d.tasks.put t { e with state := .pending }
  { d with tasks, pending := insertQueued tasks e.ticket t d.pending }

/-! ## results -/

/-- Frees the worker of an attempt that ended. A worker at fault is removed. -/
def freeWorker (d : Dispatcher σ) (w : WorkerId) (r : TaskResult) : Change σ :=
  match r.status with
  | .success => d.withReply (d.pool.release w)
  | .failure reason =>
    if reason.isWorkerFault then
      (d.withReply (d.pool.deregister w)).saying [⟨.warn, "Worker lost - deregistering"⟩]
    else d.withReply (d.pool.release w)

def abandon [Sink σ] (d : Dispatcher σ) (t : TaskId) (e : Entry) (reason : FailureReason) :
    Change σ :=
  let d := { d with sink := Sink.abandon d.sink e.task reason }
  let c := d.resolve t e (.failed t e.attempts reason)
  Change.saying [⟨.warn, "Task failed permanently"⟩]
    ⟨c.next, .abandoned e.ticket e.task reason :: c.events⟩

/-- What becomes of a task after a result that was taken in. -/
def conclude [Sink σ] (d : Dispatcher σ) (e : Entry) (r : TaskResult) : Change σ :=
  match r.status with
  | .success => (d.resolve r.taskId e (.completed r)).saying [⟨.info, "Task completed"⟩]
  | .failure reason =>
    if reason.isRetryable && decide (e.attempts < d.maxAttempts) then
      (Change.none (d.requeue r.taskId e)).saying [⟨.warn, "Task attempt failed - requeueing"⟩]
    else d.abandon r.taskId e reason

/-- Hands a result to the sinks; then the task is concluded. -/
def account [Sink σ] (d : Dispatcher σ) (e : Entry) (r : TaskResult) : Settled σ :=
  let (sink, stop) := Sink.record d.sink r
  let c : Change σ := ⟨{ d with sink }, .forwarded e.ticket r :: (Sink.log d.sink r).map .logged⟩
  match stop with
  | some o => ⟨c, some o⟩
  | none => .whole (c.andThen fun d => d.conclude e r)

/-- Applies the result of an attempt that was taken out of flight. -/
def settle [Sink σ] (d : Dispatcher σ) (a : Attempt) (r : TaskResult) : Settled σ :=
  Settled.after (d.freeWorker a.worker.workerId r) fun d =>
    match d.tasks.get? r.taskId with
    | none => .whole (.none d)
    | some e =>
      if e.cancelRequested then
        .whole ((d.resolve r.taskId e (.cancelled r.taskId)).saying
          [⟨.info, "Cancelled task settled"⟩])
      else d.account e r

def deliver [Sink σ] (d : Dispatcher σ) (r : TaskResult) : Settled σ :=
  match d.take? r.taskId r.attempt.toNat with
  | none => .whole ((Change.none d).saying [⟨.debug, "Discarding stale result"⟩])
  | some (a, d) => ((d.disarm a.launch).settle a r).andThen pump

/-! ## refusals and deadlines -/

def refuse (d : Dispatcher σ) (t : TaskId) (number : Nat) : Change σ :=
  match d.take? t number with
  | none => .none d
  | some (a, d) =>
    let d := d.disarm a.launch
    Change.saying [⟨.warn, "Worker still busy - requeueing task"⟩]
      (((d.withReply (d.pool.markUnreachable a.worker.workerId)).andThen fun d =>
        match d.tasks.get? t with
        | none => .none d
        | some e =>
          if e.cancelRequested then d.resolve t e (.cancelled t)
          else .none (d.requeue t { e with attempts := e.attempts - 1 })).andThen pump)

/-- Seconds since the start of an attempt. -/
def elapsed (d : Dispatcher σ) (a : Attempt) : Float := Float.ofNat (d.now - a.startedAt) / 1000

/-- An armed timer fires. -/
def deadline [Sink σ] (d : Dispatcher σ) (t : Timer) : Settled σ :=
  let d := d.disarm t.launch
  match d.take? t.task t.attempt with
  | none => .whole (.none d)
  | some (a, d) =>
    let r := TaskResult.failed t.task (.ofNat t.attempt) a.worker.workerId a.task.operation .timeout
      (d.elapsed a)
    Settled.after ((Change.none d).saying [⟨.warn, "Task attempt timed out"⟩]) fun d =>
      (d.settle a r).andThen pump

/-! ## answers -/

/-- The worker of an attempt answers, or the call to it fails. -/
def answer [Sink σ] (d : Dispatcher σ) (a : Attempt)
    (reply : Except TransportError ExecuteResponse) : Settled σ :=
  let d := { d with waiting := d.waiting.filter (·.launch != a.launch) }
  match reply.bind a.check with
  | .ok r => d.deliver (r.toResult a.worker.workerId a.task.operation)
  | .error (.busy _) => .whole (d.refuse a.task.id a.number)
  | .error e =>
    d.deliver (.failed a.task.id (.ofNat a.number) a.worker.workerId a.task.operation e.toFailure
      (d.elapsed a))

end Dispatcher
end HazardDispatch
