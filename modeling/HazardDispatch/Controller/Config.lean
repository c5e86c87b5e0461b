/-!
# Settings of the controller

Times are in milliseconds.
-/

namespace HazardDispatch

structure ControllerConfig where
  bindAddress : String := "0.0.0.0:1908"
  /-- Attempts before a task is given up. -/
  maxRetries : UInt32 := 3
  /-- Time for one attempt. -/
  taskTimeout : Nat := 30000
  /-- Time between probes of workers that are out of rotation. -/
  probeInterval : Nat := 5000
  /-- Failed probes in a row that remove a worker. -/
  probeFailureThreshold : Nat := 3
  /-- Tasks that may wait while no worker is idle. -/
  maxQueueDepth : Nat := 10000
  /-- Sources that the report lists. -/
  topKSources : Nat := 10
  /-- Time for one request to a worker. It is longer than `taskTimeout`, so that the deadline of the
  attempt comes first. -/
  requestTimeout : Nat := 60000
deriving DecidableEq, Repr

end HazardDispatch
