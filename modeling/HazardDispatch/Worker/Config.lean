/-!
# Settings of a worker
-/

namespace HazardDispatch

structure WorkerConfig where
  /-- Where the worker listens. -/
  bindAddress : String := "0.0.0.0:1909"
  /-- The base address at which the controller reaches the worker. -/
  advertiseAddress : String := "http://127.0.0.1:1909"
  /-- The controller to register with; without one the worker does not register. -/
  controllerUrl : Option String := none
  /-- Seconds between registrations. -/
  heartbeatSeconds : Nat := 15
  /-- Milliseconds that one rupture at one distance costs. -/
  costPerRupture : Float := 0.01

namespace WorkerConfig

/-- Milliseconds between registrations, at least a second. -/
def heartbeatInterval (c : WorkerConfig) : Nat := max c.heartbeatSeconds 1 * 1000

end WorkerConfig
end HazardDispatch
