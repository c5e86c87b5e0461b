import HazardDispatch.Wire.Client
import HazardDispatch.Worker.Config

/-!
# Registration of a worker

A worker registers with its controller when it starts and again with every heartbeat, so that it comes
back if the controller dropped it. A heartbeat that fails is not repeated before the next.
-/

namespace HazardDispatch

inductive RegistrationError where
  | unreachable
  | refused (status : Nat)
deriving DecidableEq, Repr

def RegistrationError.message : RegistrationError → String
  | unreachable => "Controller unreachable"
  | refused status => s!"Controller refused registration ({status})"

namespace Registration

def request (controllerUrl : String) (workerId : WorkerId) (address : String) : Http.Request :=
  Client.postJson (WorkerHandle.join controllerUrl Paths.workers)
    (RegisterRequest.toJson ⟨workerId.text, address⟩)

/-- What an answer means: whether the controller saw the worker for the first time. -/
def result : Reply → Except RegistrationError Bool
  | .silence => .error .unreachable
  | .unsent => .error .unreachable
  | .response status _ =>
    if Http.isSuccess status then .ok (status == 201) else .error (.refused status)

def log : Except RegistrationError Bool → List LogLine
  | .ok true => [⟨.info, "Registered with controller"⟩]
  | .ok false => [⟨.debug, "Registration refreshed"⟩]
  | .error _ => [⟨.warn, "Registration failed - retrying next interval"⟩]

/-- What is logged without a controller. -/
def skipLog : List LogLine := [⟨.info, "No controller configured - skipping self-registration"⟩]

/-- How many heartbeats are due at a time, when the first is due at time 0. -/
def beatsBy (interval now : Nat) : Nat := now / interval + 1

end Registration

/-- What comes of a heartbeat. -/
structure Heartbeat where
  /-- The controller got the request. -/
  heard : Bool
  reply : Reply
deriving DecidableEq, Repr

/-- A worker's heartbeats as time goes on. -/
structure Heartbeats where
  controllerUrl : String
  /-- Milliseconds from one to the next. -/
  interval : Nat
  now : Nat
  /-- How many there were. -/
  beats : Nat
  /-- What the controller is going to answer. After the last of these nobody listens. -/
  replies : List Reply

namespace Heartbeats

def start (controllerUrl : String) (interval : Nat) (replies : List Reply) : Heartbeats :=
  { controllerUrl, interval, now := 0, beats := 0, replies }

/-- The heartbeats that are due at the time of the clock; those that were missed are made up for. -/
def catchUp (h : Heartbeats) : List Heartbeat × Heartbeats :=
  let due := Registration.beatsBy h.interval h.now - h.beats
  let next := { h with beats := h.beats + due }
  if Http.Url.isAddress h.controllerUrl then
    let heard := (h.replies.take due).map (Heartbeat.mk true)
    (heard ++ List.replicate (due - heard.length) ⟨false, .silence⟩,
      { next with replies := h.replies.drop due })
  else (List.replicate due ⟨false, .unsent⟩, next)

def advance (h : Heartbeats) (millis : Nat) : List Heartbeat × Heartbeats :=
  let later := { h with now := h.now + millis }
  later.catchUp

end Heartbeats

def Heartbeat.log (beats : List Heartbeat) : List LogLine :=
  beats.flatMap fun b => Registration.log (Registration.result b.reply)

end HazardDispatch
