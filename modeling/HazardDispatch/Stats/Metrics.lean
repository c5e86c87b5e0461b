import HazardDispatch.Stats.Summary
import HazardDispatch.Table
import HazardDispatch.Task.Result

/-!
# Figures by operation

Each result is folded into the figures of its operation: a success adds its duration and memory, a
failure is only counted. `Metrics.snapshot` summarises every operation that occurred.
-/

namespace HazardDispatch

structure OperationFigures (F : Type) where
  durations : RunningStats F
  maxMemory : F
  failures : Nat

structure Metrics (F : Type) where
  operations : Table Operation (OperationFigures F)

section
variable {F : Type} [Add F] [Sub F] [Mul F] [Div F] [Scalar F]

namespace OperationFigures

def empty : OperationFigures F := ⟨.empty, Scalar.ofNat 0, 0⟩

def record (a : OperationFigures F) (r : TaskResult) : OperationFigures F :=
  if r.isSuccess then
    { a with
      durations := a.durations.push (Scalar.ofFloat r.duration)
      maxMemory := Scalar.greater (some a.maxMemory) (Scalar.ofFloat r.peakMemory) }
  else { a with failures := a.failures + 1 }

def summary (a : OperationFigures F) : OperationStats F :=
  .ofRunning a.durations a.maxMemory a.failures

end OperationFigures

namespace Metrics

def empty : Metrics F := ⟨.empty⟩

def record (m : Metrics F) (r : TaskResult) : Metrics F :=
  ⟨m.operations.alter r.operation fun a => (a.getD .empty).record r⟩

def snapshot (m : Metrics F) : Table Operation (OperationStats F) :=
  m.operations.mapValues OperationFigures.summary

end Metrics
end

def Json.operationStats (t : Table Operation (OperationStats Float)) : Json :=
  .record (t.entries.map fun (op, s) => (op.name, s.toJson))

/-- A key that is the name of an operation. -/
def Operation.ofKey (b : Body) : Except DecodeError Operation := Operation.ofJson (.str b)

def Json.asOperationStats : Reader (Table Operation (OperationStats Float)) := fun j =>
  (Json.asMap Operation.ofKey OperationStats.ofJson j).map Table.ofEntries

end HazardDispatch
