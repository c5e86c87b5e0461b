import HazardDispatch.Calculation.Basic
import HazardDispatch.Pool.Call
import HazardDispatch.Pool.Probe
import HazardDispatch.Source.Plan

/-!
# A controller on a simulated clock

A simulation holds a dispatcher with its accounts, the workers' ways to answer, and jobs that run
beside it. Nothing takes time: what is due is done at once, in the order in which it became due, and
the clock moves only when it is told to.

* `Activity`   something that is due;
* `Observed`   what can be seen from outside while it is done;
* `absorb`     takes over a change of the dispatcher, with everything that it makes due.
-/

namespace HazardDispatch

/-- A dispatcher that is gone. The tasks that are left have no outcome of their own. -/
def Dispatcher.discard {σ : Type} (d : Dispatcher σ) : Change σ :=
  ⟨{ d with pending := [], tasks := .empty, inFlight := .empty, timers := [], stopped := true },
    d.tasks.entries.map fun (t, e) => .resolved e.ticket (.orphaned t)⟩

/-- How a worker that answers by itself answers: what it says, when, and what it logs. -/
structure WorkerAnswer where
  reply : Except TransportError ExecuteResponse
  time : Nat
  log : List LogLine

/-- A job that runs beside the dispatcher. -/
inductive Work where
  | calculation (c : Calculation Float)
  /-- Waits for so many workers, but not longer than until `till`. -/
  | gathering (least till : Nat)
  | awaiting (t : Ticket)

inductive JobResult where
  | calculated (r : Except DispatchError (CompositeReport Float))
  | gathered (workers : Nat)
  | awaited (o : Outcome)

structure Job where
  /-- What the job is known by. -/
  name : Nat
  work : Work

inductive Activity where
  /-- An idle worker is noticed. -/
  | notice
  | send (a : Attempt)
  | answer (a : Attempt) (w : WorkerAnswer)
  | deadline (launch : Nat)
  | signal (worker : WorkerHandle) (task : TaskId)
  /-- A round of the prober that was started as the `n`-th. -/
  | probe (n : Nat)
  | resume (name : Nat)

structure Observed where
  /-- Attempts that reached their workers. -/
  sent : List Attempt
  signals : List (WorkerId × TaskId)
  probed : List WorkerId
  forwarded : List TaskResult
  abandoned : List (TaskId × FailureReason)
  /-- Outcomes of tickets that are held, by number. -/
  outcomes : List (Nat × Outcome)
  finished : List (Nat × JobResult)
  log : List LogLine

def Observed.nothing : Observed := ⟨[], [], [], [], [], [], [], []⟩

structure Simulation where
  dispatcher : Dispatcher (Accounts Float)
  /-- Someone holds the dispatcher. -/
  held : Bool
  /-- How workers answer by themselves, given an attempt and the time. -/
  respond : Attempt → Nat → Option WorkerAnswer
  /-- Signals to cancel do not reach the workers. -/
  deafWorkers : Bool
  /-- How workers answer probes, if not as idle. -/
  probeAnswers : Table WorkerId ProbeAnswer
  /-- The number of the prober that runs, and how many were started. -/
  prober : Option Nat
  probers : Nat
  /-- Tickets that are held and have no outcome. -/
  tickets : List Ticket
  jobs : List Job
  /-- What is due, the first to be done first. -/
  queue : List Activity
  /-- What becomes due at a later time. -/
  alarms : List (Nat × Activity)
  seen : Observed

namespace Simulation

def start (config : ControllerConfig) (respond : Attempt → Nat → Option WorkerAnswer)
    (deafWorkers : Bool) : Simulation :=
  { dispatcher := .start config (.empty config.topKSources), held := true, respond, deafWorkers
    probeAnswers := .empty, prober := none, probers := 0, tickets := [], jobs := [], queue := []
    alarms := [], seen := .nothing }

def now (s : Simulation) : Nat := s.dispatcher.now

def see (s : Simulation) (f : Observed → Observed) : Simulation := { s with seen := f s.seen }

def say (s : Simulation) (log : List LogLine) : Simulation :=
  s.see fun o => { o with log := o.log ++ log }

/-- The activity is due now. -/
def enqueue (s : Simulation) (a : Activity) : Simulation := { s with queue := s.queue ++ [a] }

/-- The activity is due at a time. -/
def schedule (s : Simulation) (time : Nat) (a : Activity) : Simulation :=
  if time ≤ s.now then s.enqueue a else { s with alarms := s.alarms ++ [(time, a)] }

/-! ## following events -/

def Work.notice (w : Work) (ticket : Nat) (o : Outcome) : Work :=
  match w with
  | .calculation c => .calculation (c.notice ticket o)
  | w => w

/-- The work waits for the ticket. -/
def Work.waitsFor (w : Work) (ticket : Nat) : Bool :=
  match w with
  | .calculation c => (c.queue ++ c.waiting).any (·.number == ticket)
  | .awaiting t => t.number == ticket
  | .gathering _ _ => false

def putWork (s : Simulation) (name : Nat) (w : Work) : Simulation :=
  { s with jobs := s.jobs.map fun j => if j.name = name then { j with work := w } else j }

def finish (s : Simulation) (name : Nat) (r : JobResult) : Simulation :=
  { s with
    jobs := s.jobs.filter (·.name != name)
    seen := { s.seen with finished := s.seen.finished ++ [(name, r)] } }

/-- An outcome reaches whoever waits for it. -/
def deliverOutcome (s : Simulation) (ticket : Nat) (o : Outcome) : Simulation :=
  let s :=
    if s.tickets.any (·.number == ticket) then
      { s with
        tickets := s.tickets.filter (·.number != ticket)
        seen := { s.seen with outcomes := s.seen.outcomes ++ [(ticket, o)] } }
    else s
  match s.jobs.find? fun j => Work.waitsFor j.work ticket with
  | none => s
  | some j =>
    match j.work with
    | .awaiting _ => s.finish j.name (.awaited o)
    | _ => (s.putWork j.name (Work.notice j.work ticket o)).enqueue (.resume j.name)

/-- What an event makes due, and what is seen of it. -/
def follow (s : Simulation) : Event → Simulation
  | .launched _ a =>
    (s.schedule (a.startedAt + s.dispatcher.config.taskTimeout) (.deadline a.launch)).enqueue
      (.send a)
  | .forwarded _ r => s.see fun o => { o with forwarded := o.forwarded ++ [r] }
  | .abandoned _ t why => s.see fun o => { o with abandoned := o.abandoned ++ [(t.id, why)] }
  | .resolved ticket o => s.deliverOutcome ticket o
  | .cancelSignal w t => s.enqueue (.signal w t)
  | .logged l => s.say [l]

/-- An idle worker is going to be noticed. -/
def willNotice (s : Simulation) : Bool :=
  s.queue.any fun a => match a with
    | .notice => true
    | _ => false

/-- Takes over a change. -/
def absorb (s : Simulation) (c : Change (Accounts Float)) : Simulation :=
  let s := { s with dispatcher := c.next }
  let s := if c.next.pool.permit && !c.next.stopped && !s.willNotice then s.enqueue .notice else s
  c.events.foldl follow s

/-- When nobody holds the dispatcher and no attempt waits for its worker, it is gone. -/
def collect (s : Simulation) : Simulation :=
  if s.held || !s.dispatcher.waiting.isEmpty then s else s.absorb s.dispatcher.discard

end Simulation
end HazardDispatch
