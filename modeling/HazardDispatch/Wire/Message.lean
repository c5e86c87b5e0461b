import HazardDispatch.Worker.Handle

/-!
# Messages about workers

Liveness, cancellation and registration, and the form in which errors are told. `Paths` are the
paths that both sides agree on.
-/

namespace HazardDispatch

@[ext] structure HealthResponse where
  workerId : String
  status : String
  runningTask : Option String
deriving DecidableEq, Repr

namespace HealthResponse

def idle (workerId : String) : HealthResponse := ⟨workerId, "idle", none⟩

def busy (workerId taskId : String) : HealthResponse := ⟨workerId, "busy", some taskId⟩

/-- The worker can take a task now. -/
def isIdle (h : HealthResponse) : Bool := h.status == "idle" && h.runningTask.isNone

def toJson (h : HealthResponse) : Json :=
  .record [("worker_id", .text h.workerId), ("status", .text h.status),
    ("running_task", .option .text h.runningTask)]

def record : Record HealthResponse :=
  (Record.build mk).required "worker_id" Json.asText
    |>.required "status" Json.asText
    |>.defaulted "running_task" (Json.asOption Json.asText) none

def ofJson : Reader HealthResponse := record.read

end HealthResponse

@[ext] structure CancelResponse where
  taskId : String
  /-- The task was running and has been told to stop. -/
  cancelled : Bool
deriving DecidableEq, Repr

namespace CancelResponse

def toJson (c : CancelResponse) : Json :=
  .record [("task_id", .text c.taskId), ("cancelled", .bool c.cancelled)]

def record : Record CancelResponse :=
  (Record.build mk).required "task_id" Json.asText
    |>.required "cancelled" Json.asBool

def ofJson : Reader CancelResponse := record.read

end CancelResponse

@[ext] structure RegisterRequest where
  workerId : String
  /-- The base address at which the controller reaches the worker. -/
  address : String
deriving DecidableEq, Repr

namespace RegisterRequest

def toJson (r : RegisterRequest) : Json :=
  .record [("worker_id", .text r.workerId), ("address", .text r.address)]

def record : Record RegisterRequest :=
  (Record.build mk).required "worker_id" Json.asText
    |>.required "address" Json.asText

def ofJson : Reader RegisterRequest := record.read

/-- The handle of the worker, idle. -/
def handle (r : RegisterRequest) (now : Instant) : WorkerHandle := .new ⟨r.workerId⟩ r.address now

end RegisterRequest

/-- A worker as the controller lists it. -/
structure WorkerSummary where
  workerId : String
  address : String
  status : WorkerStatus
  registeredAt : String
deriving DecidableEq, Repr

namespace WorkerSummary

def ofHandle (h : WorkerHandle) : WorkerSummary :=
  { workerId := h.workerId.text, address := h.address, status := h.status
    registeredAt := h.registeredAt.text "+00:00" }

def toJson (s : WorkerSummary) : Json :=
  .record [("worker_id", .text s.workerId), ("address", .text s.address),
    ("status", s.status.toJson), ("registered_at", .text s.registeredAt)]

def record : Record WorkerSummary :=
  (Record.build mk).required "worker_id" Json.asText
    |>.required "address" Json.asText
    |>.required "status" WorkerStatus.ofJson
    |>.required "registered_at" Json.asText

def ofJson : Reader WorkerSummary := record.read

end WorkerSummary

structure WorkerListResponse where
  workers : List WorkerSummary
deriving DecidableEq, Repr

namespace WorkerListResponse

def toJson (l : WorkerListResponse) : Json :=
  .record [("workers", .list (l.workers.map WorkerSummary.toJson))]

def record : Record WorkerListResponse :=
  (Record.build mk).required "workers" (Json.asList WorkerSummary.ofJson)

def ofJson : Reader WorkerListResponse := record.read

end WorkerListResponse

@[ext] structure ErrorResponse where
  error : String
deriving DecidableEq, Repr

namespace ErrorResponse

def toJson (e : ErrorResponse) : Json := .record [("error", .text e.error)]

def record : Record ErrorResponse := (Record.build mk).required "error" Json.asText

def ofJson : Reader ErrorResponse := record.read

end ErrorResponse

namespace Paths

/-- Worker: run one attempt. -/
def execute : String := "/v1/execute"

/-- Worker: liveness. -/
def health : String := "/v1/health"

/-- Controller: registration and list of workers. -/
def workers : String := "/v1/workers"

/-- Worker: cancel the task of that name. -/
def cancel (taskId : String) : String := "/v1/tasks/" ++ taskId ++ "/cancel"

end Paths
end HazardDispatch
