import HazardDispatch.Controller.Server
import HazardDispatch.Simulation.Run

/-!
# Steps of a simulation

What can be done to a simulation from outside. Each step is done to its end before anything that it
makes due.
-/

namespace HazardDispatch

inductive StepAnswer where
  | nothing
  | pool (a : PoolAnswer)
  | worker (h : Option WorkerHandle)
  | ticket (t : Ticket)
  | tickets (n : Nat)
  | done
  | refused (e : DispatchError)
  /-- The call that is answered. -/
  | call (a : Attempt)
  | noSuchCall
  | alreadyAnswered
  | overflow (e : Overflow)
  | stopped
  | noTicket
  | noDispatcher
  | report (r : CompositeReport Float)
  | text (s : String)
  | response (r : Http.Response)
  /-- A calculation of so many tasks is started. -/
  | planned (n : Nat)
  | unreadable (e : DecodeError)

inductive Step where
  | pool (c : PoolCall)
  | get (w : WorkerId)
  | submit (t : Task)
  | submitAll (ts : List Task)
  | cancel (t : TaskId)
  /-- The worker of a call answers; the answer may depend on the attempt. -/
  | respond (call : Nat) (reply : Attempt → Except TransportError ExecuteResponse)
  | deliver (r : TaskResult)
  | advance (millis : Nat)
  | setProbe (w : WorkerId) (a : ProbeAnswer)
  | probeRound
  | startProber
  | stopProber
  | shutdown
  | dropTicket (t : TaskId)
  | wait (t : TaskId)
  | dropDispatcher
  | expect (n : Nat)
  | report
  | metrics
  | http (r : Http.Request)
  | calculate (ts : List Task)
  /-- Source groups are planned, and the plan is calculated. -/
  | planAndCalculate (groups : String) (op : Operation) (tasks : Nat) (seed : UInt64)
  | gather (least timeout : Nat)
  | look

namespace Simulation

def startJob (s : Simulation) (name : Nat) (w : Work) : Simulation :=
  let s : Simulation := { s with jobs := s.jobs ++ [⟨name, w⟩] }
  s.enqueue (.resume name)

def startCalculation (s : Simulation) (name : Nat) (ts : List Task) : Simulation :=
  let c : Calculation Float := .ofTasks ts
  let s : Simulation := { s with dispatcher := c.begin s.dispatcher }
  s.startJob name (.calculation c)

/-- The first ticket of a task that is held. -/
def ticket? (s : Simulation) (t : TaskId) : Option Ticket := s.tickets.find? (·.task == t)

def hold (s : Simulation) (ts : List Ticket) : Simulation := { s with tickets := s.tickets ++ ts }

def release (s : Simulation) (t : Ticket) : Simulation :=
  { s with tickets := s.tickets.filter (·.number != t.number) }

def whenHeld (s : Simulation) (f : Simulation → StepAnswer × Simulation) :
    StepAnswer × Simulation :=
  if s.held then f s else (.noDispatcher, s)

/-- Does a step, without what it makes due. `name` is what a job is known by that the step starts. -/
def begin (s : Simulation) (name : Nat) : Step → StepAnswer × Simulation
  | .pool c =>
    let reply := s.dispatcher.pool.perform c
    (.pool reply.value, s.absorb (s.dispatcher.withReply reply))
  | .get w => (.worker (s.dispatcher.pool.get? w), s)
  | .submit t => s.whenHeld fun s =>
    let a := s.dispatcher.submit t
    match a.value with
    | .ok ticket => (.ticket ticket, (s.hold [ticket]).absorb a.change)
    | .error e => (.refused e, s.absorb a.change)
  | .submitAll ts => s.whenHeld fun s =>
    let a := s.dispatcher.submitAll ts
    match a.value with
    | .ok tickets => (.tickets tickets.length, (s.hold tickets).absorb a.change)
    | .error e => (.refused e, s.absorb a.change)
  | .cancel t => s.whenHeld fun s =>
    let a := s.dispatcher.cancel t
    match a.value with
    | .ok () => (.done, s.absorb a.change)
    | .error e => (.refused e, s.absorb a.change)
  | .respond call reply =>
    match s.dispatcher.waiting.find? (·.launch == call) with
    | some a => (.call a, s.enqueue (.answer a ⟨reply a, s.now, []⟩))
    | none => (if call < s.dispatcher.nextLaunch then .alreadyAnswered else .noSuchCall, s)
  | .deliver r => s.whenHeld fun s =>
    let settled := s.dispatcher.deliver r
    ((settled.stop.map StepAnswer.overflow).getD .nothing, s.absorb settled.change)
  | .advance millis => (.nothing, s.advance millis)
  | .setProbe w a => (.nothing, { s with probeAnswers := s.probeAnswers.put w a })
  | .probeRound => (.nothing, s.probeRound)
  | .startProber =>
    let n := s.probers
    let s : Simulation := { s with prober := some n, probers := n + 1 }
    (.nothing, s.enqueue (.probe n))
  | .stopProber =>
    match s.prober with
    | none => (.nothing, s)
    | some _ =>
      let s : Simulation := { s with prober := none }
      (.stopped, s.say [⟨.debug, "Liveness prober stopped"⟩])
  | .shutdown => (.nothing, { s with dispatcher := s.dispatcher.shutdown })
  | .dropTicket t =>
    match s.ticket? t with
    | none => (.nothing, s)
    | some ticket => (.nothing, s.release ticket)
  | .wait t =>
    match s.ticket? t with
    | none => (.noTicket, s)
    | some ticket => (.nothing, (s.release ticket).startJob name (.awaiting ticket))
  | .dropDispatcher =>
    let s : Simulation := { s with held := false }
    (.nothing, s.collect)
  | .expect n =>
    (.nothing,
      { s with dispatcher := { s.dispatcher with sink := s.dispatcher.sink.expect n } })
  | .report => (.report s.dispatcher.sink.report, s)
  | .metrics => (.text (Exposition.operations s.dispatcher.sink.1), s)
  | .http r =>
    let (response, change) := s.dispatcher.handle default r
    (.response response, s.absorb change)
  | .calculate ts => (.planned ts.length, s.startCalculation name ts)
  | .planAndCalculate groups op tasks seed =>
    match (Document.ofText groups).read SourceGroup.listOfJson with
    | .error e => (.unreadable e, s)
    | .ok groups =>
      match Plan.ofGroups groups op tasks seed default with
      | .error e => (.overflow e, s)
      | .ok plan =>
        (.planned plan.tasks.length, (s.say plan.log).startCalculation name plan.tasks)
  | .gather least timeout => (.nothing, s.startJob name (.gathering least (s.now + timeout)))
  | .look => (.nothing, s)

/-- Does a step and everything that it makes due. What is seen is what was seen since. -/
def step (s : Simulation) (name : Nat) (a : Step) : StepAnswer × Simulation :=
  let s : Simulation := { s with seen := .nothing }
  let (answer, s) := s.begin name a
  (answer, s.settle)

end Simulation
end HazardDispatch
