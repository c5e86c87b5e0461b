import HazardDispatch.LogLine
import HazardDispatch.Report.Basic

/-!
# Assembling the report

Results are folded into the account of the calculation one by one. Bytes moved are counted for every
attempt. The figures about sources are taken from the first success of each task only.

Counters are 64-bit words, and what a worker reports may drive one of them over. Folding stops at
such an overflow; what was changed before it stays (`Halting`).
-/

namespace HazardDispatch

/-- The account of a calculation under way. -/
structure Assembler (F : Type) where
  /-- How many sources the report lists. -/
  topK : Nat
  expected : Nat
  /-- The tasks that had a success. -/
  completed : List TaskId
  /-- The tasks that failed for good, in the order in which they did. -/
  failed : List TaskId
  sources : Table String (SourceInfo F)
  transfer : Table Operation TransferStats
  effRuptures : Table UInt32 UInt64

namespace Assembler

variable {F : Type} [Add F] [Sub F] [Mul F] [Div F] [Scalar F]

def empty (topK : Nat) : Assembler F :=
  { topK, expected := 0, completed := [], failed := [], sources := .empty, transfer := .empty
    effRuptures := .empty }

/-- Announces how many tasks the report is to cover. -/
def expect (a : Assembler F) (n : Nat) : Assembler F := { a with expected := n }

/-- Records a task that will never have a success. -/
def markFailed (a : Assembler F) (id : TaskId) : Assembler F :=
  if a.failed.contains id then a else { a with failed := a.failed ++ [id] }

/-! ## folding in a result -/

def addTransfer (a : Assembler F) (r : TaskResult) : Halting (Assembler F) :=
  let before := (a.transfer.get? r.operation).getD .zero
  let (after, stop) := before.add r.bytesSent r.bytesReceived
  ({ a with transfer := a.transfer.put r.operation after }, stop)

def addTiming (a : Assembler F) (t : SourceTiming) : Halting (Assembler F) :=
  let (info, stop) := ((a.sources.get? t.sourceId).getD (.ofTiming t)).add t
  ({ a with sources := a.sources.put t.sourceId info }, stop)

def addRuptures (a : Assembler F) (e : UInt32 × UInt64) : Halting (Assembler F) :=
  let before := (a.effRuptures.get? e.1).getD 0
  match Word64.add? before e.2 with
  | .error stop => ({ a with effRuptures := a.effRuptures.put e.1 before }, some stop)
  | .ok n => .done { a with effRuptures := a.effRuptures.put e.1 n }

def addOutput (a : Assembler F) (o : TaskOutput) : Halting (Assembler F) :=
  (Halting.overList addTiming a o.timings).andThen fun a =>
    Halting.overList addRuptures a o.effRuptures.entries

/-- The result is the first success of its task. -/
def isFirstSuccess (a : Assembler F) (r : TaskResult) : Bool :=
  r.isSuccess && !a.completed.contains r.taskId

/-- Folds in a result. A payload that carries no figures about sources is passed over. -/
def absorb (a : Assembler F) (r : TaskResult) : Halting (Assembler F) :=
  (a.addTransfer r).andThen fun a =>
    if a.isFirstSuccess r then
      let a := { a with completed := r.taskId :: a.completed }
      match r.payload.decode TaskOutput.ofJson with
      | .ok o => a.addOutput o
      | .error _ => .done a
    else .done a

def absorbLog (a : Assembler F) (r : TaskResult) : List LogLine :=
  match a.addTransfer r with
  | (a, none) =>
    if a.isFirstSuccess r then
      match r.payload.decode TaskOutput.ofJson with
      | .ok _ => []
      | .error _ => [⟨.debug, "Payload carries no source timings"⟩]
    else []
  | (_, some _) => []

/-! ## the report -/

/-- `s` is ranked before `t` or with it: it took longer, or as long and its name comes first. -/
def ranksBefore (s t : SourceInfo F) : Bool :=
  Scalar.less t.calcTime s.calcTime ||
    (!Scalar.less s.calcTime t.calcTime && (compare s.sourceId t.sourceId).isLE)

/-- The time of all sources, by kind. -/
def timeByCode (sources : List (SourceInfo F)) : Table String F :=
  sources.foldl
    (fun t s => t.alter s.code.toString fun x => x.getD (Scalar.ofNat 0) + s.calcTime) .empty

/-- No task failed, and as many succeeded as were announced, at least one. -/
def isComplete (a : Assembler F) : Bool :=
  a.failed.isEmpty && decide (0 < a.completed.length) && decide (a.expected ≤ a.completed.length)

/-- The report of everything folded in so far, with the figures by operation. -/
def report (a : Assembler F) (operations : Table Operation (OperationStats F)) :
    CompositeReport F :=
  { complete := a.isComplete
    expectedTasks := a.expected
    completedTasks := a.completed.length
    failedTasks := a.failed.mergeSort TaskId.le
    operations
    slowestSources := (a.sources.values.mergeSort ranksBefore).take a.topK
    calcTimeByCode := timeByCode a.sources.values
    dataTransfer := a.transfer
    effRuptures := a.effRuptures }

end Assembler
end HazardDispatch
