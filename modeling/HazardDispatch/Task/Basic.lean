import HazardDispatch.Task.Id
import HazardDispatch.Task.Operation
import HazardDispatch.Task.Payload
import HazardDispatch.Time.Instant

/-!
# Tasks

A task is a unit of work that can be handed to a worker: what to run, on which input, with which
seed. `TaskState` is where it stands with the dispatcher.
-/

namespace HazardDispatch

structure Task where
  id : TaskId
  operation : Operation
  /-- The group that the sources of the task belong to. -/
  groupId : UInt32
  /-- The seed for all sampling inside the task. -/
  seed : UInt64
  /-- The work that the planner expects. -/
  weight : UInt64
  payload : Payload
  createdAt : Instant
deriving DecidableEq, Repr, Inhabited

namespace Task

def new (id : TaskId) (operation : Operation) (groupId : UInt32) (payload : Payload)
    (now : Instant) : Task :=
  { id, operation, groupId, seed := 0, weight := 1, payload, createdAt := now }

def toJson (t : Task) : Json :=
  .record [("id", t.id.toJson), ("operation", t.operation.toJson),
    ("group_id", .nat t.groupId.toNat), ("seed", .nat t.seed.toNat),
    ("weight", .nat t.weight.toNat), ("payload", t.payload.toJson),
    ("created_at", t.createdAt.toJson)]

def record : Record Task :=
  (Record.build mk).required "id" TaskId.ofJson
    |>.required "operation" Operation.ofJson
    |>.required "group_id" Json.asWord32
    |>.required "seed" Json.asWord64
    |>.required "weight" Json.asWord64
    |>.required "payload" Payload.ofJson
    |>.required "created_at" Instant.ofJson

def ofJson : Reader Task := record.read

end Task

inductive TaskState where
  | pending
  | running
  | completed
  | failed
  | cancelled
deriving DecidableEq, Repr, Inhabited

namespace TaskState

def all : List TaskState := [pending, running, completed, failed, cancelled]

def name : TaskState → String
  | pending => "PENDING"
  | running => "RUNNING"
  | completed => "COMPLETED"
  | failed => "FAILED"
  | cancelled => "CANCELLED"

/-- The task will not change its state again. -/
def isTerminal : TaskState → Bool
  | pending => false
  | running => false
  | _ => true

def toJson (s : TaskState) : Json := .text s.name

def ofJson : Reader TaskState := Json.oneOf (all.map fun s => (s.name, s))

end TaskState
end HazardDispatch
