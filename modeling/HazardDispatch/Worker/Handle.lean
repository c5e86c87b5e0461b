import HazardDispatch.Task.Id
import HazardDispatch.Time.Instant

/-!
# Worker handles

What the controller knows of a worker: its name, its address, and whether it may be given a task.
-/

namespace HazardDispatch

inductive WorkerStatus where
  /-- Free to take a task. -/
  | idle
  /-- Running one task. -/
  | busy
  /-- Missed a deadline or a probe; not selected. -/
  | unreachable
deriving DecidableEq, Repr, Inhabited

namespace WorkerStatus

def all : List WorkerStatus := [idle, busy, unreachable]

def name : WorkerStatus → String
  | idle => "IDLE"
  | busy => "BUSY"
  | unreachable => "UNREACHABLE"

/-- The worker can take a task now. -/
def acceptsTasks : WorkerStatus → Bool
  | idle => true
  | _ => false

/-- The worker is believed to be alive. -/
def isLive : WorkerStatus → Bool
  | unreachable => false
  | _ => true

def toJson (s : WorkerStatus) : Json := .text s.name

def ofJson : Reader WorkerStatus := Json.oneOf (all.map fun s => (s.name, s))

end WorkerStatus

structure WorkerHandle where
  workerId : WorkerId
  /-- The base address at which the worker answers. -/
  address : String
  status : WorkerStatus
  registeredAt : Instant
deriving DecidableEq, Repr, Inhabited

namespace WorkerHandle

def new (workerId : WorkerId) (address : String) (now : Instant) : WorkerHandle :=
  { workerId, address, status := .idle, registeredAt := now }

/-- A base address and a path, with one slash between them. -/
def join (base path : String) : String :=
  let head := (base.toList.reverse.dropWhile (· == '/')).reverse
  let tail := path.toList.dropWhile (· == '/')
  String.ofList (head ++ '/' :: tail)

/-- The address of a path at the worker. -/
def endpoint (h : WorkerHandle) (path : String) : String := join h.address path

def toJson (h : WorkerHandle) : Json :=
  .record [("worker_id", h.workerId.toJson), ("address", .text h.address),
    ("status", h.status.toJson), ("registered_at", h.registeredAt.toJson)]

def record : Record WorkerHandle :=
  (Record.build mk).required "worker_id" WorkerId.ofJson
    |>.required "address" Json.asText
    |>.required "status" WorkerStatus.ofJson
    |>.required "registered_at" Instant.ofJson

def ofJson : Reader WorkerHandle := record.read

end WorkerHandle
end HazardDispatch
