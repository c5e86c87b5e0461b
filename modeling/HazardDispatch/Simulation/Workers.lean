import HazardDispatch.Simulation.Step
import HazardDispatch.Worker.Registration
import HazardDispatch.Worker.Server

/-!
# Simulated workers

How they answer:

* `answerBySimulation`  workers that run the simulation of a task, and report fixed costs;
* `answerOverNetwork`   workers that are reached at their addresses, with requests and responses in
                        their written form. Nobody answers at an address that no worker listens to.

`register` is how a worker makes itself known to the controller.
-/

namespace HazardDispatch.Simulation

def answerWhenTold (_ : Attempt) (_ : Nat) : Option WorkerAnswer := none

/-- A worker that runs the simulation of a task. -/
def answerBySimulation (costMillis : Float) (a : Attempt) (now : Nat) : Option WorkerAnswer :=
  let request := ExecuteRequest.forAttempt a.task (.ofNat a.number)
  let (e, time) := (Executor.simulated costMillis).execute request none now
  let b : Begun := { execution := 0, request, bytesReceived := a.task.payload.size }
  (b.response? e 0.25 5).map fun r =>
    { reply := .ok r, time, log := Executor.log request e }

/-- A worker that is reached at its address. -/
def answerOverNetwork (listening : List String) (costMillis : Float) (a : Attempt) (now : Nat) :
    Option WorkerAnswer :=
  let request :=
    Client.executeRequest a.worker (ExecuteRequest.forAttempt a.task (.ofNat a.number))
  if !listening.contains a.worker.address then
    some { reply := Client.executeResult .silence, time := now, log := Client.executeLog }
  else
    match (Slot.free a.worker.workerId).handle request with
    | (.begun b, _, log) =>
      let (e, time) := (Executor.simulated costMillis).execute b.request none now
      (b.response? e (Float.ofNat (time - now) / 1000) 0).map fun r =>
        { reply := Client.executeResult (.response 200 (Utf8.bytes r.toJson.compact)), time
          log := Client.executeLog ++ log ++ b.log e }
    | (.answered r, _, log) =>
      let body := match r.content with
        | .json j => Utf8.bytes j.compact
        | _ => []
      some { reply := Client.executeResult (.response r.status body), time := now
             log := Client.executeLog ++ log }

/-- Where the controller of a simulation is reached. -/
def controllerUrl : String := "http://127.0.0.1:9100"

/-- Where the worker is reached that comes as the `n`-th, counted from 0. -/
def workerUrl (n : Nat) : String := "http://127.0.0.1:" ++ toString (9101 + n)

def register (s : Simulation) (w : WorkerId) (address : String) : Simulation :=
  let (answer, s) := s.step 0 (.http (Registration.request controllerUrl w address))
  match answer with
  | .response r => s.say (Registration.log (Registration.result (.response r.status [])))
  | _ => s

end HazardDispatch.Simulation
