import HazardDispatch.Json.Decode
import HazardDispatch.Stats.Running

/-!
# The summary of one operation

Durations of the successful attempts, the greatest memory that one of them needed, and the number of
failed attempts. A figure that there are too few samples for is missing; in JSON it is `null`.
-/

namespace HazardDispatch

@[ext] structure OperationStats (F : Type) where
  /-- Successful attempts. -/
  count : Nat
  mean : Option F
  stddev : Option F
  least : Option F
  greatest : Option F
  /-- Seconds of all successful attempts. -/
  total : F
  /-- Megabytes. -/
  maxMemory : F
  /-- Failed attempts. -/
  failures : Nat

namespace OperationStats

section
variable {F : Type} [Add F] [Sub F] [Mul F] [Div F] [Scalar F]

def ofRunning (s : RunningStats F) (maxMemory : F) (failures : Nat) : OperationStats F :=
  { count := s.count, mean := s.mean?, stddev := s.stddev?, least := s.least
    greatest := s.greatest, total := s.sum, maxMemory, failures }

end

/-- There is a spread that is a number. -/
def hasVariance (s : OperationStats Float) : Bool :=
  match s.stddev with
  | some x => !x.isNaN
  | none => false

def toJson (s : OperationStats Float) : Json :=
  .record [("count", .nat s.count), ("mean", .option .float s.mean),
    ("stddev", .option .float s.stddev), ("min", .option .float s.least),
    ("max", .option .float s.greatest), ("total", .float s.total),
    ("max_memory_mb", .float s.maxMemory), ("failures", .nat s.failures)]

def record : Record (OperationStats Float) :=
  (Record.build mk).required "count" (Json.asNat Word64.bound)
    |>.required "mean" (Json.asOption Json.asFloat)
    |>.required "stddev" (Json.asOption Json.asFloat)
    |>.required "min" (Json.asOption Json.asFloat)
    |>.required "max" (Json.asOption Json.asFloat)
    |>.required "total" Json.asFloat
    |>.required "max_memory_mb" Json.asFloat
    |>.required "failures" (Json.asNat Word64.bound)

def ofJson : Reader (OperationStats Float) := record.read

end OperationStats
end HazardDispatch
