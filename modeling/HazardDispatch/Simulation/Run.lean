import HazardDispatch.Simulation.Basic

/-!
# Running a simulation

`perform` does what is due, `settle` all of it, and `advance` moves the clock from one time at which
something becomes due to the next.
-/

namespace HazardDispatch.Simulation

/-! ## jobs -/

def calculation? (s : Simulation) (name : Nat) : Option (Calculation Float) :=
  match s.jobs.find? (·.name == name) with
  | some ⟨_, .calculation c⟩ => some c
  | _ => none

/-- Goes on with a calculation until there is nothing to do. The fuel is more than it has steps. -/
def runCalculation (name : Nat) : Nat → Simulation → Simulation
  | 0, s => s
  | n + 1, s =>
    match s.calculation? name with
    | none => s
    | some c =>
      let (c, change) := c.step s.dispatcher
      let s := s.putWork name (.calculation c)
      match change, c.stage with
      | some change, .finished r => (s.absorb change).finish name (.calculated r)
      | some change, _ => runCalculation name n (s.absorb change)
      | none, .pausing till => s.schedule till (.resume name)
      | none, _ => s

/-- A bound for the steps that a calculation has left. -/
def stepBound (c : Calculation Float) : Nat :=
  4 * (c.rest.length + c.queue.length + c.waiting.length + 1)

/-- Milliseconds between two looks at the number of workers. -/
def gatheringInterval : Nat := 200

def resume (s : Simulation) (j : Job) : Simulation :=
  match j.work with
  | .calculation c => runCalculation j.name (stepBound c) s
  | .gathering least till =>
    let n := s.dispatcher.pool.size
    if least ≤ n ∨ till ≤ s.now then s.finish j.name (.gathered n)
    else s.schedule (s.now + gatheringInterval) (.resume j.name)
  | .awaiting _ => s

/-! ## activities -/

def answered (s : Simulation) (a : Attempt) (w : WorkerAnswer) : Simulation :=
  ((s.say w.log).absorb (s.dispatcher.answer a w.reply).change).collect

def probeRound (s : Simulation) : Simulation :=
  let reply := s.dispatcher.pool.probeRound fun h =>
    (s.probeAnswers.get? h.workerId).getD (.ok (.idle h.workerId.text))
  (s.absorb (s.dispatcher.withReply reply)).see fun o =>
    { o with probed := o.probed ++ reply.value }

def perform (s : Simulation) : Activity → Simulation
  | .notice => s.absorb s.dispatcher.wake
  | .send a =>
    let s := s.see fun o => { o with sent := o.sent ++ [a] }
    match s.respond a s.now with
    | none => s
    | some w => if w.time ≤ s.now then s.answered a w else s.schedule w.time (.answer a w)
  | .answer a w => s.answered a w
  | .deadline launch =>
    match s.dispatcher.timers.find? (·.launch == launch) with
    | none => s
    | some t => s.absorb (s.dispatcher.deadline t).change
  | .signal w t =>
    let s := s.see fun o => { o with signals := o.signals ++ [(w.workerId, t)] }
    if s.deafWorkers then s.say [⟨.warn, "Cancel signal not delivered"⟩] else s
  | .probe n =>
    if s.prober = some n then
      let s := s.probeRound
      s.schedule (s.now + s.dispatcher.config.probeInterval) (.probe n)
    else s
  | .resume name =>
    match s.jobs.find? (·.name == name) with
    | none => s
    | some j => s.resume j

/-- Does what is due, at most `n` activities. -/
def settleWithin : Nat → Simulation → Simulation
  | 0, s => s
  | n + 1, s =>
    match s.queue with
    | [] => s
    | a :: rest => settleWithin n ({ s with queue := rest }.perform a)

/-- A bound for the activities of one moment: each attempt makes a few due, and no task has more
attempts in a moment than it may have at all. -/
def activityBound (s : Simulation) : Nat :=
  let waiting := s.jobs.foldl (fun n j => n + match j.work with
    | .calculation c => c.rest.length
    | _ => 1) 0
  16 * (s.queue.length + s.dispatcher.tasks.size + waiting + 4) * (s.dispatcher.maxAttempts + 1)

def settle (s : Simulation) : Simulation := settleWithin s.activityBound s

/-! ## time -/

/-- The time at which something becomes due next. -/
def nextAlarm (s : Simulation) : Option Nat := (s.alarms.map (·.1)).min?

/-- Moves the clock, which never goes back, and does what becomes due then. -/
def moveTo (s : Simulation) (time : Nat) : Simulation :=
  let (due, later) := s.alarms.partition fun a => decide (a.1 ≤ time)
  let s : Simulation := { s with
    dispatcher := { s.dispatcher with now := max s.now time }, alarms := later
    queue := s.queue ++ due.map (·.2) }
  s.settle

/-- Moves the clock to a time, with at most `n` stops on the way. -/
def advanceWithin : Nat → Nat → Simulation → Simulation
  | 0, time, s => s.moveTo time
  | n + 1, time, s =>
    match s.nextAlarm with
    | none => s.moveTo time
    | some t => if t ≤ time then advanceWithin n time (s.moveTo t) else s.moveTo time

/-- Lets time pass. Each stop is at a later millisecond than the one before. -/
def advance (s : Simulation) (millis : Nat) : Simulation :=
  advanceWithin millis (s.now + millis) s

end HazardDispatch.Simulation
