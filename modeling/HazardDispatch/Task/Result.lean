import HazardDispatch.Task.Id
import HazardDispatch.Task.Operation
import HazardDispatch.Task.Payload

/-!
# Results of attempts

Each attempt at a task ends in one result: a success or a failure with its reason, and what the
attempt cost. Failures are told apart by whom they are put down to (`isWorkerFault`) and by whether
another attempt may help (`isRetryable`).
-/

namespace HazardDispatch

/-- Why one attempt failed. -/
inductive FailureReason where
  /-- The worker could not be contacted. -/
  | workerUnreachable (message : String)
  /-- No result came before the deadline. -/
  | timeout
  /-- The worker ran the task and reported an error. -/
  | execution (message : String)
  /-- The submitter cancelled the task. -/
  | cancelled
deriving DecidableEq, Repr

namespace FailureReason

/-- The failure is put down to the worker, not to the task. -/
def isWorkerFault : FailureReason → Bool
  | workerUnreachable _ => true
  | timeout => true
  | _ => false

/-- Another attempt may succeed. -/
def isRetryable : FailureReason → Bool
  | cancelled => false
  | _ => true

def message : FailureReason → String
  | workerUnreachable m => "worker unreachable: " ++ m
  | timeout => "task timed out"
  | execution m => "execution failed: " ++ m
  | cancelled => "cancelled"

def toJson : FailureReason → Json
  | workerUnreachable m => .record [("kind", .text "worker_unreachable"), ("message", .text m)]
  | timeout => .record [("kind", .text "timeout")]
  | execution m => .record [("kind", .text "execution"), ("message", .text m)]
  | cancelled => .record [("kind", .text "cancelled")]

/-! ## reading

The reason is an object with the keys `kind` and `message`, in either order; other keys are skipped.
It may also be a list of the two. -/

inductive Kind where
  | workerUnreachable
  | timeout
  | execution
  | cancelled
deriving DecidableEq, Repr

def Kind.ofJson : Reader Kind :=
  Json.oneOf [("worker_unreachable", .workerUnreachable), ("timeout", .timeout),
    ("execution", .execution), ("cancelled", .cancelled)]

/-- The reason of this kind with a message; a kind without one takes `null`. -/
def Kind.withMessage (j : Json) : Kind → Except DecodeError FailureReason
  | .workerUnreachable => (Json.asText j).map .workerUnreachable
  | .timeout => (Json.asNull j).map fun _ => .timeout
  | .execution => (Json.asText j).map .execution
  | .cancelled => (Json.asNull j).map fun _ => .cancelled

/-- The reason of this kind without a message. -/
def Kind.alone : Kind → Except DecodeError FailureReason
  | .workerUnreachable => .error (.missingField "message")
  | .timeout => .ok .timeout
  | .execution => .error (.missingField "message")
  | .cancelled => .ok .cancelled

/-- The next member that is `kind` or `message`, and the members after it. -/
def nextRelevant (closed : Bool) : List (Body × Json) →
    Except DecodeError (Option (String × Json × List (Body × Json)))
  | [] => (Json.closing closed).map fun _ => none
  | (key, j) :: ms => do
    let name ← Json.spelled key
    if name = "kind" ∨ name = "message" then return some (name, j, ms)
    else do
      j.skip
      nextRelevant closed ms

/-- No relevant member is left. -/
def noneLeft (closed : Bool) (ms : List (Body × Json)) : Except DecodeError Unit := do
  match ← nextRelevant closed ms with
  | none => return ()
  | some (name, _, _) => throw (.duplicateField name)

mutual

/-- A value that can be kept until it is known how to read it: all its texts are spelled and all
its numbers are in range. -/
def keepable : Json → Bool
  | .broken => false
  | .num n => n.float?.isSome
  | .str b => b.text?.isSome
  | .arr items closed => closed && keepableItems items
  | .obj members closed => closed && keepableMembers members
  | _ => true

def keepableItems : List Json → Bool
  | [] => true
  | j :: js => keepable j && keepableItems js

def keepableMembers : List (Body × Json) → Bool
  | [] => true
  | (k, j) :: ms => k.text?.isSome && keepable j && keepableMembers ms

end

/-- The members of an object. The kind may be written after its message, which is kept until then. -/
def ofMembers (closed : Bool) (ms : List (Body × Json)) : Except DecodeError FailureReason := do
  match ← nextRelevant closed ms with
  | none => throw (.missingField "kind")
  | some ("kind", k, ms) =>
    let kind ← Kind.ofJson k
    match ← nextRelevant closed ms with
    | none => kind.alone
    | some ("kind", _, _) => throw (.duplicateField "kind")
    | some (_, m, ms) =>
      let reason ← kind.withMessage m
      noneLeft closed ms
      return reason
  | some (_, m, ms) =>
    Json.closing (keepable m)
    match ← nextRelevant closed ms with
    | none => throw (.missingField "kind")
    | some ("kind", k, ms) =>
      let kind ← Kind.ofJson k
      let reason ← kind.withMessage m
      noneLeft closed ms
      return reason
    | some (name, _, _) => throw (.duplicateField name)

def ofJson : Reader FailureReason
  | .obj members closed => ofMembers closed members
  | .arr items closed =>
    match items with
    | [] => do Json.closing closed; throw .mismatch
    | [k] => do
      let _ ← Kind.ofJson k
      Json.closing closed
      throw .mismatch
    | k :: m :: rest => do
      let kind ← Kind.ofJson k
      let reason ← kind.withMessage m
      Json.closing (closed && rest.isEmpty)
      return reason
  | j => .error j.wrongType

end FailureReason

/-- How an attempt ended. -/
inductive ResultStatus where
  | success
  | failure (reason : FailureReason)
deriving DecidableEq, Repr

namespace ResultStatus

def toJson : ResultStatus → Json
  | success => .text "success"
  | failure r => .record [("failure", r.toJson)]

def ofJson : Reader ResultStatus :=
  Json.variant ["success", "failure"] fun name =>
    if name = "success" then some (Json.bare success)
    else if name = "failure" then
      some fun
        | none => .error .mismatch
        | some j => (FailureReason.ofJson j).map failure
    else none

end ResultStatus

@[ext] structure TaskResult where
  taskId : TaskId
  /-- The number of the attempt, from 1. -/
  attempt : UInt32
  /-- The worker that ran the attempt, or should have. -/
  workerId : WorkerId
  operation : Operation
  status : ResultStatus
  /-- Seconds. -/
  duration : Float
  /-- Megabytes. -/
  peakMemory : Float
  bytesSent : UInt64
  bytesReceived : UInt64
  payload : Payload

namespace TaskResult

/-- A failure that the worker did not report itself: only the elapsed time is known. -/
def failed (taskId : TaskId) (attempt : UInt32) (workerId : WorkerId) (operation : Operation)
    (reason : FailureReason) (duration : Float) : TaskResult :=
  { taskId, attempt, workerId, operation, status := .failure reason, duration
    peakMemory := 0, bytesSent := 0, bytesReceived := 0, payload := .empty }

def isSuccess (r : TaskResult) : Bool := r.status == .success

def failure? (r : TaskResult) : Option FailureReason :=
  match r.status with
  | .success => none
  | .failure reason => some reason

def toJson (r : TaskResult) : Json :=
  .record [("task_id", r.taskId.toJson), ("attempt", .nat r.attempt.toNat),
    ("worker_id", r.workerId.toJson), ("operation", r.operation.toJson),
    ("status", r.status.toJson), ("duration", .float r.duration),
    ("peak_memory_mb", .float r.peakMemory), ("bytes_sent", .nat r.bytesSent.toNat),
    ("bytes_received", .nat r.bytesReceived.toNat), ("payload", r.payload.toJson)]

def record : Record TaskResult :=
  (Record.build mk).required "task_id" TaskId.ofJson
    |>.required "attempt" Json.asWord32
    |>.required "worker_id" WorkerId.ofJson
    |>.required "operation" Operation.ofJson
    |>.required "status" ResultStatus.ofJson
    |>.required "duration" Json.asFloat
    |>.required "peak_memory_mb" Json.asFloat
    |>.required "bytes_sent" Json.asWord64
    |>.required "bytes_received" Json.asWord64
    |>.required "payload" Payload.ofJson

def ofJson : Reader TaskResult := record.read

end TaskResult
end HazardDispatch
