import HazardDispatch.Task.Basic
import HazardDispatch.Task.Result
import HazardDispatch.Worker.Handle

/-!
# The execute exchange

The controller asks a worker to run one attempt of a task; the worker answers with the outcome and
what it cost.

* `ExecuteRequest.forAttempt`   what is asked for an attempt;
* `ExecuteResponse.toResult`    the answer as the result of the attempt. Worker and operation are the
                                controller's own knowledge, not what the worker says.
-/

namespace HazardDispatch

@[ext] structure ExecuteRequest where
  taskId : String
  attempt : UInt32
  operation : Operation
  groupId : UInt32
  seed : UInt64
  payload : Payload
deriving DecidableEq, Repr

namespace ExecuteRequest

def forAttempt (t : Task) (attempt : UInt32) : ExecuteRequest :=
  { taskId := t.id.text, attempt, operation := t.operation, groupId := t.groupId
    seed := t.seed, payload := t.payload }

def toJson (r : ExecuteRequest) : Json :=
  .record [("task_id", .text r.taskId), ("attempt", .nat r.attempt.toNat),
    ("operation", r.operation.toJson), ("group_id", .nat r.groupId.toNat),
    ("seed", .nat r.seed.toNat), ("payload", r.payload.toJson)]

def record : Record ExecuteRequest :=
  (Record.build mk).required "task_id" Json.asText
    |>.required "attempt" Json.asWord32
    |>.required "operation" Operation.ofJson
    |>.required "group_id" Json.asWord32
    |>.required "seed" Json.asWord64
    |>.required "payload" Payload.ofJson

def ofJson : Reader ExecuteRequest := record.read

end ExecuteRequest

inductive WireStatus where
  | success
  | failure
deriving DecidableEq, Repr

namespace WireStatus

def name : WireStatus → String
  | success => "success"
  | failure => "failure"

def toJson (s : WireStatus) : Json := .text s.name

def ofJson : Reader WireStatus := Json.oneOf [("success", success), ("failure", failure)]

end WireStatus

@[ext] structure ExecuteResponse where
  taskId : String
  attempt : UInt32
  status : WireStatus
  /-- What went wrong, if the attempt failed. -/
  error : Option String
  /-- Seconds. -/
  duration : Float
  /-- Megabytes. -/
  peakMemory : Float
  bytesSent : UInt64
  bytesReceived : UInt64
  payload : Payload

namespace ExecuteResponse

/-- The result of the attempt, put down to the worker that was asked. -/
def toResult (r : ExecuteResponse) (workerId : WorkerId) (operation : Operation) : TaskResult :=
  { taskId := ⟨r.taskId⟩, attempt := r.attempt, workerId, operation
    status := match r.status with
      | .success => .success
      | .failure => .failure (.execution (r.error.getD "unspecified worker error"))
    duration := r.duration, peakMemory := r.peakMemory
    bytesSent := r.bytesSent, bytesReceived := r.bytesReceived, payload := r.payload }

/-- A result in the form of an answer. -/
def ofResult (r : TaskResult) : ExecuteResponse :=
  { taskId := r.taskId.text, attempt := r.attempt
    status := if r.isSuccess then .success else .failure
    error := r.failure?.map FailureReason.message
    duration := r.duration, peakMemory := r.peakMemory
    bytesSent := r.bytesSent, bytesReceived := r.bytesReceived, payload := r.payload }

/-- The member `error` is left out when there is none. -/
def toJson (r : ExecuteResponse) : Json :=
  .record ([("task_id", .text r.taskId), ("attempt", .nat r.attempt.toNat),
      ("status", r.status.toJson)] ++
    (match r.error with
      | none => []
      | some e => [("error", .text e)]) ++
    [("duration", .float r.duration), ("peak_memory_mb", .float r.peakMemory),
      ("bytes_sent", .nat r.bytesSent.toNat), ("bytes_received", .nat r.bytesReceived.toNat),
      ("payload", r.payload.toJson)])

def record : Record ExecuteResponse :=
  (Record.build mk).required "task_id" Json.asText
    |>.required "attempt" Json.asWord32
    |>.required "status" WireStatus.ofJson
    |>.defaulted "error" (Json.asOption Json.asText) none
    |>.required "duration" Json.asFloat
    |>.required "peak_memory_mb" Json.asFloat
    |>.required "bytes_sent" Json.asWord64
    |>.required "bytes_received" Json.asWord64
    |>.defaulted "payload" Payload.ofJson .empty

def ofJson : Reader ExecuteResponse := record.read

end ExecuteResponse
end HazardDispatch
