import HazardDispatch.Dispatch.Schedule

/-!
# Submitting and cancelling

A task is accepted unless the dispatcher is shut down, the task is live already, or the queue is full
while no worker is idle. Accepting it runs a scheduling cycle.

A queued task that is cancelled is gone at once. A running one is marked: its worker is told to stop,
and the task comes to its end when the attempt does.
-/

namespace HazardDispatch

structure Answered (σ α : Type) where
  value : Except DispatchError α
  change : Change σ

namespace Dispatcher

variable {σ : Type}

/-- Nothing is changed. -/
def turnDown {α : Type} (d : Dispatcher σ) (e : DispatchError) (log : List LogLine) :
    Answered σ α :=
  ⟨.error e, (Change.none d).saying log⟩

/-- The dispatcher with a new task at the end of its queue. -/
def enqueueNew (d : Dispatcher σ) (t : Task) : Dispatcher σ :=
  let entry : Entry :=
    { task := t, state := .pending, ticket := d.nextTicket, attempts := 0, lastWorker := none
      cancelRequested := false }
  { d with
    tasks := d.tasks.put t.id entry, pending := d.pending ++ [t.id], nextTicket := d.nextTicket + 1 }

def submit (d : Dispatcher σ) (t : Task) : Answered σ Ticket :=
  if d.stopped then d.turnDown .shutDown []
  else if d.tasks.contains t.id then d.turnDown (.duplicateTask t.id) []
  else if d.config.maxQueueDepth ≤ d.pendingCount ∧ d.pool.idleCount = 0 then
    d.turnDown (.poolExhausted d.pendingCount) [⟨.warn, "Rejecting task - pool exhausted"⟩]
  else
    ⟨.ok ⟨d.nextTicket, t.id⟩,
      (d.enqueueNew t).pump.saying [⟨.debug, "Task submitted"⟩]⟩

/-- Submits tasks in order, up to the first that is not accepted. -/
def submitAll (d : Dispatcher σ) : List Task → Answered σ (List Ticket)
  | [] => ⟨.ok [], .none d⟩
  | t :: ts =>
    let first := d.submit t
    match first.value with
    | .error e => ⟨.error e, first.change⟩
    | .ok ticket =>
      let rest := submitAll first.change.next ts
      ⟨rest.value.map (ticket :: ·),
        ⟨rest.change.next, first.change.events ++ rest.change.events⟩⟩

def cancel (d : Dispatcher σ) (t : TaskId) : Answered σ Unit :=
  if d.pending.contains t then
    let d := { d with pending := d.pending.erase t }
    match d.tasks.get? t with
    | none => ⟨.ok (), .none d⟩
    | some e =>
      ⟨.ok (), (d.resolve t e (.cancelled t)).saying [⟨.info, "Pending task cancelled"⟩]⟩
  else
    match d.inFlight.get? t with
    | none => d.turnDown (.unknownTask t) []
    | some a =>
      let tasks := d.tasks.modify t fun e => { e with cancelRequested := true }
      ⟨.ok (), Change.saying [⟨.info, "Cancelling running task"⟩]
        ⟨{ d with tasks }, [.cancelSignal a.worker t]⟩⟩

end Dispatcher
end HazardDispatch
