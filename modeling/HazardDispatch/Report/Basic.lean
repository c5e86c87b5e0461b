import HazardDispatch.Halting
import HazardDispatch.Source.Output
import HazardDispatch.Stats.Metrics

/-!
# The composite report

The account of a whole calculation: how many tasks are done, figures by operation, the slowest
sources, time by kind of source, bytes moved, effective ruptures by group.
-/

namespace HazardDispatch

/-- The figures of one source over all tasks that touched it. -/
@[ext] structure SourceInfo (F : Type) where
  sourceId : String
  code : Char
  numSites : UInt64
  calcTime : F
  /-- Timings that contributed. -/
  numSplit : Nat
  events : UInt64

@[ext] structure TransferStats where
  /-- Sent by the workers. -/
  sent : UInt64
  /-- Received by the workers. -/
  received : UInt64
deriving DecidableEq, Repr

@[ext] structure CompositeReport (F : Type) where
  /-- Every expected result is in and no task failed. -/
  complete : Bool
  expectedTasks : Nat
  completedTasks : Nat
  failedTasks : List TaskId
  operations : Table Operation (OperationStats F)
  /-- The sources that took longest, the longest first. -/
  slowestSources : List (SourceInfo F)
  calcTimeByCode : Table String F
  dataTransfer : Table Operation TransferStats
  /-- Effective ruptures by group. -/
  effRuptures : Table UInt32 UInt64

/-- Effective ruptures of all groups. -/
def CompositeReport.totalEffRuptures {F : Type} (r : CompositeReport F) : Except Overflow UInt64 :=
  Word64.sum? r.effRuptures.values

namespace SourceInfo

section
variable {F : Type} [Add F] [Scalar F]

/-- The source of a timing, of which nothing is known yet. -/
def ofTiming (t : SourceTiming) : SourceInfo F :=
  { sourceId := t.sourceId, code := t.code, numSites := 0, calcTime := Scalar.ofNat 0
    numSplit := 0, events := 0 }

/-- The figures of a timing are added: sites, time, number of timings, events, in this order. -/
def add (s : SourceInfo F) (t : SourceTiming) : Halting (SourceInfo F) :=
  match Word64.add? s.numSites t.numSites with
  | .error e => (s, some e)
  | .ok numSites =>
    let s := { s with
      numSites, calcTime := s.calcTime + Scalar.ofFloat t.calcTime, numSplit := s.numSplit + 1 }
    match Word64.add? s.events t.events with
    | .error e => (s, some e)
    | .ok events => .done { s with events }

end

def toJson (s : SourceInfo Float) : Json :=
  .record [("source_id", .text s.sourceId), ("code", .text s.code.toString),
    ("num_sites", .nat s.numSites.toNat), ("calc_time", .float s.calcTime),
    ("num_split", .nat s.numSplit), ("events", .nat s.events.toNat)]

def record : Record (SourceInfo Float) :=
  (Record.build mk).required "source_id" Json.asText
    |>.required "code" Json.asChar
    |>.required "num_sites" Json.asWord64
    |>.required "calc_time" Json.asFloat
    |>.required "num_split" (Json.asNat Word64.bound)
    |>.required "events" Json.asWord64

def ofJson : Reader (SourceInfo Float) := record.read

end SourceInfo

namespace TransferStats

def zero : TransferStats := ⟨0, 0⟩

/-- The bytes of one attempt are added, sent ones first. -/
def add (t : TransferStats) (sent received : UInt64) : Halting TransferStats :=
  match Word64.add? t.sent sent with
  | .error e => (t, some e)
  | .ok sent =>
    match Word64.add? t.received received with
    | .error e => ({ t with sent }, some e)
    | .ok received => .done ⟨sent, received⟩

def toJson (t : TransferStats) : Json :=
  .record [("sent", .nat t.sent.toNat), ("received", .nat t.received.toNat)]

def record : Record TransferStats :=
  (Record.build mk).required "sent" Json.asWord64
    |>.required "received" Json.asWord64

def ofJson : Reader TransferStats := record.read

end TransferStats

namespace CompositeReport

def toJson (r : CompositeReport Float) : Json :=
  .record [("complete", .bool r.complete), ("expected_tasks", .nat r.expectedTasks),
    ("completed_tasks", .nat r.completedTasks),
    ("failed_tasks", .list (r.failedTasks.map TaskId.toJson)),
    ("operations", .operationStats r.operations),
    ("slowest_sources", .list (r.slowestSources.map SourceInfo.toJson)),
    ("calc_time_by_code", .record (r.calcTimeByCode.entries.map fun (c, x) => (c, .float x))),
    ("data_transfer",
      .record (r.dataTransfer.entries.map fun (op, t) => (op.name, t.toJson))),
    ("eff_ruptures", .groupCounts r.effRuptures)]

def record : Record (CompositeReport Float) :=
  (Record.build mk).required "complete" Json.asBool
    |>.required "expected_tasks" (Json.asNat Word64.bound)
    |>.required "completed_tasks" (Json.asNat Word64.bound)
    |>.required "failed_tasks" (Json.asList TaskId.ofJson)
    |>.required "operations" Json.asOperationStats
    |>.required "slowest_sources" (Json.asList SourceInfo.ofJson)
    |>.required "calc_time_by_code"
      (fun j => (Json.asMap Json.spelled Json.asFloat j).map Table.ofEntries)
    |>.required "data_transfer"
      (fun j => (Json.asMap Operation.ofKey TransferStats.ofJson j).map Table.ofEntries)
    |>.required "eff_ruptures" Json.asGroupCounts

def ofJson : Reader (CompositeReport Float) := record.read

end CompositeReport
end HazardDispatch
