import HazardDispatch.CommandLine.Outcome
import HazardDispatch.CommandLine.Values
import HazardDispatch.Net.SocketAddress
import HazardDispatch.Task.Id
import HazardDispatch.Worker.Config

/-!
# The worker's command line

A worker serves until it is told to stop. It takes its name and the address at which it is reached from
the arguments or the environment; without them it makes up a name, and is reached on this machine.
-/

namespace HazardDispatch.CommandLine

structure WorkerCommand where
  /-- Where the worker listens. -/
  bind : Net.SocketAddress := .v4 ⟨[0, 0, 0, 0]⟩ 1909
  workerName : Option String := none
  /-- The host at which it is reached, at the port where it listens. -/
  advertiseHost : Option String := none
  /-- The base address at which it is reached. It counts more than the host. -/
  advertiseAddress : Option String := none
  controllerUrl : Option String := none
  heartbeatSeconds : Nat := 15
  costPerRupture : Float := 0.01

namespace WorkerCommand

def settings : List (Setting WorkerCommand) :=
  [⟨"bind", some "QUAKERUN_WORKER_BIND", fun v c =>
      (Net.SocketAddress.ofText? v).map fun a => { c with bind := a }⟩,
    ⟨"worker-name", some "WORKER_NAME", fun v c => some { c with workerName := some v }⟩,
    ⟨"advertise-host", some "WORKER_IP", fun v c => some { c with advertiseHost := some v }⟩,
    ⟨"advertise-addr", none, fun v c => some { c with advertiseAddress := some v }⟩,
    ⟨"controller-url", some "QUAKERUN_CONTROLLER_URL", fun v c =>
      some { c with controllerUrl := some v }⟩,
    ⟨"heartbeat-interval-secs", none, fun v c =>
      (word64? v).map fun n => { c with heartbeatSeconds := n }⟩,
    ⟨"cost-per-rupture-ms", none, fun v c =>
      (float? v).map fun x => { c with costPerRupture := x }⟩]

def read (environment : String → Option String) (args : List String) : Except Stop WorkerCommand := do
  let r ← readArguments settings [] ⟨{}, [], none⟩ args
  readEnvironment settings environment r

def config (c : WorkerCommand) : WorkerConfig :=
  let host := c.advertiseHost.getD "127.0.0.1"
  { bindAddress := c.bind.text
    advertiseAddress := c.advertiseAddress.getD s!"http://{host}:{c.bind.port.toNat}"
    controllerUrl := c.controllerUrl, heartbeatSeconds := c.heartbeatSeconds
    costPerRupture := c.costPerRupture }

def startLine (c : WorkerCommand) (id : WorkerId) : LogLine :=
  let config := c.config
  ⟨.info, "Starting QuakeRun worker worker_id=" ++ id.text ++ " bind=" ++ config.bindAddress ++
    " advertise=" ++ config.advertiseAddress ++ " controller=" ++ optionText config.controllerUrl⟩

/-- What a call with these arguments comes to, when the worker is told to stop while it serves. It says
its name when it starts, if the name was given. -/
def call (environment : String → Option String) (args : List String) : Outcome :=
  match read environment args with
  | .error e => .silent (.stopped e)
  | .ok c => ⟨(c.workerName.map fun n => c.startLine ⟨n⟩).toList, .done⟩

end WorkerCommand
end HazardDispatch.CommandLine
