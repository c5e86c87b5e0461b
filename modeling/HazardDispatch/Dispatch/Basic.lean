import HazardDispatch.Controller.Config
import HazardDispatch.Dispatch.Sink
import HazardDispatch.Pool.Basic
import HazardDispatch.Task.Basic

/-!
# The dispatcher

Tasks are submitted, wait in a queue, and are given to workers as attempts. Every task that has not
come to its end is live and has an `Entry`. It is either queued in `pending` or has one attempt in
`inFlight`. An attempt ends with the result that its worker gives back, with a refusal, or with its
deadline, whichever comes first; what comes later finds no record in flight any more.

Two things outlive the record in flight: the attempt waits for its worker's answer (`waiting`) even
after its deadline, and a timer (`timers`) is armed until it fires or is disarmed.

The operations are in the modules `Schedule`, `Settle` and `Submit`. Each is one step that nothing
interrupts, and gives a `Change`: the dispatcher after it and the events on the way.
-/

namespace HazardDispatch

/-- A task that has not come to its end. -/
structure Entry where
  task : Task
  /-- Pending or running. -/
  state : TaskState
  /-- The number of the submission; earlier submissions have lesser numbers. -/
  ticket : Nat
  /-- Attempts started, those not counted that a worker refused. -/
  attempts : Nat
  /-- The worker of the last attempt. -/
  lastWorker : Option WorkerId
  cancelRequested : Bool
deriving Repr

/-- One attempt to run a task on a worker. -/
structure Attempt where
  /-- The number of this attempt among all attempts at all tasks. -/
  launch : Nat
  task : Task
  worker : WorkerHandle
  /-- The number of this attempt at the task, from 1. -/
  number : Nat
  startedAt : Nat
deriving Repr

structure Timer where
  launch : Nat
  task : TaskId
  attempt : Nat
  due : Nat
deriving DecidableEq, Repr

/-- What the submitter holds. -/
structure Ticket where
  number : Nat
  task : TaskId
deriving DecidableEq, Repr

inductive Outcome where
  | completed (r : TaskResult)
  | failed (task : TaskId) (attempts : Nat) (reason : FailureReason)
  | cancelled (task : TaskId)

namespace Outcome

def taskId : Outcome → TaskId
  | completed r => r.taskId
  | failed t _ _ => t
  | cancelled t => t

def isCompleted : Outcome → Bool
  | completed _ => true
  | _ => false

/-- The outcome of a task whose dispatcher is gone. -/
def orphaned (t : TaskId) : Outcome := failed t 0 (.execution "dispatcher shut down")

end Outcome

/-- What happens outside the dispatcher, in the order in which it does. Events about a submission
carry its number. -/
inductive Event where
  | launched (ticket : Nat) (a : Attempt)
  /-- A result is handed to the sinks. -/
  | forwarded (ticket : Nat) (r : TaskResult)
  | abandoned (ticket : Nat) (task : Task) (reason : FailureReason)
  | resolved (ticket : Nat) (o : Outcome)
  /-- A worker is told to stop a task. -/
  | cancelSignal (worker : WorkerHandle) (task : TaskId)
  | logged (l : LogLine)

/-- Why a task is not accepted, or cannot be cancelled. -/
inductive DispatchError where
  /-- The queue is full and no worker is idle. -/
  | poolExhausted (pending : Nat)
  | duplicateTask (task : TaskId)
  | unknownTask (task : TaskId)
  | shutDown
deriving DecidableEq, Repr

def DispatchError.message : DispatchError → String
  | poolExhausted n => s!"Pool exhausted: {n} tasks pending and no idle worker"
  | duplicateTask t => "Task already submitted: " ++ t.text
  | unknownTask t => "Unknown task: " ++ t.text
  | shutDown => "Dispatcher is shut down"

structure Dispatcher (σ : Type) where
  config : ControllerConfig
  /-- The time in milliseconds. -/
  now : Nat
  /-- The queued tasks, earlier submissions first. -/
  pending : List TaskId
  tasks : Table TaskId Entry
  /-- The running attempt of each running task. -/
  inFlight : Table TaskId Attempt
  /-- How many tasks were accepted. As with a pool's `clock`, the 64 bits that a program has for this
  and for the tickets are not used up. -/
  nextTicket : Nat
  /-- The attempts whose workers have not answered. -/
  waiting : List Attempt
  /-- The armed deadlines, earlier attempts first. -/
  timers : List Timer
  nextLaunch : Nat
  pool : Pool
  /-- Whoever takes in the results. -/
  sink : σ
  /-- No tasks are accepted any more, and idle workers are not noticed. -/
  stopped : Bool

/-- A dispatcher after a change, and what happened. -/
structure Change (σ : Type) where
  next : Dispatcher σ
  events : List Event

namespace Change

variable {σ : Type}

def none (d : Dispatcher σ) : Change σ := ⟨d, []⟩

def andThen (c : Change σ) (f : Dispatcher σ → Change σ) : Change σ :=
  let c' := f c.next
  ⟨c'.next, c.events ++ c'.events⟩

/-- The change with log lines before it. -/
def saying (log : List LogLine) (c : Change σ) : Change σ :=
  ⟨c.next, log.map .logged ++ c.events⟩

end Change

namespace Dispatcher

variable {σ : Type}

def start (config : ControllerConfig) (sink : σ) : Dispatcher σ :=
  { config, now := 0, pending := [], tasks := .empty, inFlight := .empty, nextTicket := 0
    waiting := [], timers := [], nextLaunch := 0
    pool := .empty config.probeFailureThreshold, sink, stopped := false }

/-- Attempts before a task is given up; at least one. -/
def maxAttempts (d : Dispatcher σ) : Nat := max d.config.maxRetries.toNat 1

def pendingCount (d : Dispatcher σ) : Nat := d.pending.length

def runningCount (d : Dispatcher σ) : Nat := d.inFlight.size

/-- Where a live task stands. -/
def state? (d : Dispatcher σ) (t : TaskId) : Option TaskState := (d.tasks.get? t).map (·.state)

def worker? (d : Dispatcher σ) (t : TaskId) : Option WorkerId :=
  (d.inFlight.get? t).map (·.worker.workerId)

/-- A change of the pool. -/
def withReply {α : Type} (d : Dispatcher σ) (r : Pool.Reply α) : Change σ :=
  ⟨{ d with pool := r.pool }, r.log.map .logged⟩

/-- Ends a task: it is live no longer, and the submitter gets the outcome. -/
def resolve (d : Dispatcher σ) (t : TaskId) (e : Entry) (o : Outcome) : Change σ :=
  ⟨{ d with tasks := d.tasks.erase t }, [.resolved e.ticket o]⟩

/-- Takes no tasks any more; running attempts still come to their ends. -/
def shutdown (d : Dispatcher σ) : Dispatcher σ := { d with stopped := true }

end Dispatcher
end HazardDispatch
