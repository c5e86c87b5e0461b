import HazardDispatch.Dispatch.Settle
import HazardDispatch.Dispatch.Sink
import HazardDispatch.Dispatch.Submit

/-!
# One calculation from end to end

A calculation submits its tasks in order, waits for every outcome, and ends with the report. Tasks
that failed for good do not end it; they leave the report incomplete.

When the queue is full it waits for the outcome of a task of its own, or a moment if it has none, and
tries again. Any other refusal ends it: what was submitted is cancelled.

`Calculation.step` is one step, on the dispatcher as others left it; without a change there is nothing
to do until an outcome comes in or the pause is over.
-/

namespace HazardDispatch

inductive Stage (F : Type) where
  | submitting
  /-- The queue was full. -/
  | full
  /-- The queue was full and nothing was under way; it is tried again at that time. -/
  | pausing (till : Nat)
  /-- A task was refused. These tasks are still to be cancelled. -/
  | cancelling (left : List Ticket) (why : DispatchError)
  | finished (result : Except DispatchError (CompositeReport F))

structure Calculation (F : Type) where
  rest : List Task
  /-- Tickets to look at next. -/
  queue : List Ticket
  /-- Tickets that were looked at before their outcome came. -/
  waiting : List Ticket
  mailbox : List (Nat × Outcome)
  /-- Outcomes that were taken note of, in that order. -/
  collected : List Outcome
  stage : Stage F

namespace Calculation

variable {F : Type}

/-- Milliseconds until a full queue is tried again. -/
def pause : Nat := 50

def ofTasks (tasks : List Task) : Calculation F :=
  { rest := tasks, queue := [], waiting := [], mailbox := [], collected := []
    stage := .submitting }

def notice (c : Calculation F) (ticket : Nat) (o : Outcome) : Calculation F :=
  let (ready, waiting) := c.waiting.partition (·.number == ticket)
  { c with queue := c.queue ++ ready, waiting, mailbox := c.mailbox ++ [(ticket, o)] }

/-- The tickets whose outcome was not taken note of, the latest submission first. -/
def outstanding (c : Calculation F) : List Ticket :=
  (c.queue ++ c.waiting).mergeSort fun a b => decide (b.number ≤ a.number)

/-- Looks through the tickets for one whose outcome came in. -/
def takeOutcome (c : Calculation F) : List Ticket → Option Outcome × Calculation F
  | [] => (none, { c with queue := [] })
  | t :: ts =>
    match c.mailbox.lookup t.number with
    | some o => (some o, { c with queue := ts, collected := c.collected ++ [o] })
    | none => takeOutcome { c with waiting := c.waiting ++ [t] } ts

def outcomeLog : Outcome → List LogLine
  | .completed _ => []
  | .failed _ _ _ => [⟨.warn, "Task gave up"⟩]
  | .cancelled _ => [⟨.warn, "Task cancelled"⟩]

def finalLog (c : Calculation F) : List LogLine :=
  c.collected.flatMap outcomeLog ++ [⟨.info, "Calculation finished"⟩]

section
variable [Add F] [Sub F] [Mul F] [Div F] [Scalar F]

/-- The calculation announces how many tasks there are. -/
def begin (c : Calculation F) (d : Dispatcher (Accounts F)) : Dispatcher (Accounts F) :=
  { d with sink := d.sink.expect c.rest.length }

def submitNext (c : Calculation F) (d : Dispatcher (Accounts F)) (t : Task) (ts : List Task) :
    Calculation F × Change (Accounts F) :=
  let a := d.submit t
  match a.value with
  | .ok ticket => ({ c with rest := ts, queue := c.queue ++ [ticket] }, a.change)
  | .error (.poolExhausted _) =>
    ({ c with stage := .full },
      ⟨a.change.next,
        a.change.events ++ [.logged ⟨.debug, "Queue full - waiting for a task to settle"⟩]⟩)
  | .error e => ({ c with stage := .cancelling c.outstanding e }, a.change)

/-- One step. There is no change if nothing is to be done now. -/
def step (c : Calculation F) (d : Dispatcher (Accounts F)) :
    Calculation F × Option (Change (Accounts F)) :=
  match c.stage with
  | .submitting =>
    match c.rest with
    | t :: ts =>
      let (c, change) := c.submitNext d t ts
      (c, some change)
    | [] =>
      match c.takeOutcome c.queue with
      | (some _, c) => (c, some (.none d))
      | (none, c) =>
        if c.waiting.isEmpty then
          ({ c with stage := .finished (.ok d.sink.report) },
            some ((Change.none d).saying c.finalLog))
        else (c, none)
  | .full =>
    match c.takeOutcome c.queue with
    | (some _, c) => ({ c with stage := .submitting }, some (.none d))
    | (none, c) =>
      if c.waiting.isEmpty then ({ c with stage := .pausing (d.now + pause) }, none)
      else (c, none)
  | .pausing till =>
    if till ≤ d.now then ({ c with stage := .submitting }, some (.none d)) else (c, none)
  | .cancelling (t :: ts) why =>
    let a := d.cancel t.task
    let log : List LogLine := match a.value with
      | .ok () => []
      | .error _ => [⟨.debug, "Nothing to cancel"⟩]
    ({ c with stage := .cancelling ts why },
      some ⟨a.change.next, a.change.events ++ log.map .logged⟩)
  | .cancelling [] why =>
    ({ c with stage := .finished (.error why) },
      some ((Change.none d).saying
        [⟨.warn, "Calculation aborted - submitted tasks cancelled"⟩]))
  | .finished _ => (c, none)

end
end Calculation
end HazardDispatch
