import HazardDispatch.Worker.Server

/-!
# A worker in time

A worker's server with a clock that counts milliseconds. Since a worker runs one task at a time, at
most one request is `underway`; all others are answered at once. How its execution ends is known when
it begins, unless it is told to stop before that.

A client that goes away takes its request with it: the slot is free again and nothing is answered.
-/

namespace HazardDispatch

structure Underway where
  name : Nat
  begun : Begun
  startedAt : Nat
  /-- How the execution ends if nothing stops it, and when. -/
  execution : Execution
  finish : Nat

/-- What a request comes to: a response, or an overflow half-way. -/
abbrev Served := Except Overflow Http.Response

structure Daemon where
  executor : Executor Random.Keystream
  now : Nat
  slot : Slot
  underway : Option Underway
  /-- What was served since the last step began, by the names of the requests. -/
  served : List (Nat × Served)
  /-- What was logged since then. -/
  log : List LogLine

namespace Daemon

def idle (workerId : WorkerId) (executor : Executor Random.Keystream) : Daemon :=
  { executor, now := 0, slot := .free workerId, underway := none, served := [], log := [] }

def runningTask (d : Daemon) : Option String := d.slot.running.map (·.taskId)

def serve (d : Daemon) (name : Nat) (r : Served) : Daemon :=
  { d with served := d.served ++ [(name, r)] }

def complete (d : Daemon) (u : Underway) (e : Execution) : Daemon :=
  let seconds := Float.ofNat (d.now - u.startedAt) / 1000
  let answer : Served := match e, u.begun.response? e seconds 0 with
    | .stopped o, _ => .error o
    | _, some r => .ok (.json 200 r.toJson)
    | _, none => .ok (.empty 500)
  let d := d.serve u.name answer
  { d with slot := d.slot.release, underway := none, log := d.log ++ u.begun.log e }

/-- The execution in progress is told to stop. -/
def isStopped (d : Daemon) (u : Underway) : Bool := d.slot.stopped.contains u.begun.execution

/-- Ends what is due: an execution that has been told to stop, or has nothing left to do. -/
def settle (d : Daemon) : Daemon :=
  match d.underway with
  | none => d
  | some u =>
    if u.finish ≤ d.now then d.complete u u.execution
    else if d.isStopped u then
      d.complete u (d.executor.execute u.begun.request (some d.now) u.startedAt).1
    else d

/-- Nothing is reported yet. -/
def beginStep (d : Daemon) : Daemon := { d with served := [], log := [] }

def request (d : Daemon) (name : Nat) (r : Http.Request) : Daemon :=
  let d := d.beginStep
  let (handled, slot, log) := d.slot.handle r
  let d : Daemon := { d with slot, log }
  match handled with
  | .answered response => (d.serve name (.ok response)).settle
  | .begun begun =>
    let (execution, finish) := d.executor.execute begun.request none d.now
    let d : Daemon :=
      { d with underway := some { name, begun, startedAt := d.now, execution, finish } }
    d.settle

def advance (d : Daemon) (millis : Nat) : Daemon :=
  let d := d.beginStep
  let target := d.now + millis
  let halfway : Daemon := match d.underway with
    | some u => { d with now := max d.now (min u.finish target) }
    | none => d
  { halfway.settle with now := target }

/-- The client of a request goes away. -/
def abandon (d : Daemon) (name : Nat) : Daemon :=
  let d := d.beginStep
  match d.underway with
  | some u =>
    if u.name = name then { d with slot := d.slot.release, underway := none } else d
  | none => d

end Daemon
end HazardDispatch
