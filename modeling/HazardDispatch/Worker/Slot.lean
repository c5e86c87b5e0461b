import HazardDispatch.Wire.Message

/-!
# The slot of a worker

A worker runs one task at a time. An execution claims the slot when it begins and frees it when it
ends, in whatever way. While it is claimed, further requests are refused, and a request to cancel
stops the execution if it names its task.
-/

namespace HazardDispatch

structure Running where
  taskId : String
  /-- The number of the execution. -/
  execution : Nat
deriving DecidableEq, Repr

structure Slot where
  workerId : WorkerId
  running : Option Running
  /-- How many executions have begun. -/
  begun : Nat
  /-- The executions that were told to stop, the last one first. -/
  stopped : List Nat
deriving DecidableEq, Repr

namespace Slot

def free (workerId : WorkerId) : Slot := ⟨workerId, none, 0, []⟩

/-- An execution of the task begins, unless another one is in progress. The value is its number, or
the task that is running. -/
def claim (s : Slot) (taskId : String) : Except String Nat × Slot :=
  match s.running with
  | some current => (.error current.taskId, s)
  | none =>
    (.ok s.begun, { s with running := some ⟨taskId, s.begun⟩, begun := s.begun + 1 })

def release (s : Slot) : Slot := { s with running := none }

/-- A request to cancel. The value says whether it stops the execution in progress. -/
def cancel (s : Slot) (taskId : String) : Bool × Slot :=
  match s.running with
  | some current =>
    if current.taskId = taskId then (true, { s with stopped := current.execution :: s.stopped })
    else (false, s)
  | none => (false, s)

def health (s : Slot) : HealthResponse :=
  match s.running with
  | some current => .busy s.workerId.text current.taskId
  | none => .idle s.workerId.text

end Slot
end HazardDispatch
