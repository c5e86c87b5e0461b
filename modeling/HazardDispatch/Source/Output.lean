import HazardDispatch.Task.Payload
import HazardDispatch.Table

/-!
# What a task reports about its sources

The result payload of a task that processes sources: how long each source took, and how many
ruptures of its group were effective.
-/

namespace HazardDispatch

structure SourceTiming where
  sourceId : String
  code : Char
  numSites : UInt64
  /-- Seconds spent on the source. -/
  calcTime : Float
  /-- Events that the source generated. -/
  events : UInt64

structure TaskOutput where
  timings : List SourceTiming
  /-- Effective ruptures by group. -/
  effRuptures : Table UInt32 UInt64

namespace SourceTiming

def toJson (t : SourceTiming) : Json :=
  .record [("source_id", .text t.sourceId), ("code", .text t.code.toString),
    ("num_sites", .nat t.numSites.toNat), ("calc_time", .float t.calcTime),
    ("events", .nat t.events.toNat)]

def record : Record SourceTiming :=
  (Record.build mk).required "source_id" Json.asText
    |>.required "code" Json.asChar
    |>.required "num_sites" Json.asWord64
    |>.required "calc_time" Json.asFloat
    |>.defaulted "events" Json.asWord64 0

def ofJson : Reader SourceTiming := record.read

end SourceTiming

/-- Counts by group: an object whose keys are the groups' numbers. -/
def Json.groupCounts (t : Table UInt32 UInt64) : Json :=
  .record (t.entries.map fun (g, n) => (Decimal.ofNat g.toNat, .nat n.toNat))

def Json.asGroupCounts : Reader (Table UInt32 UInt64) := fun j =>
  (Json.asMap (fun b => (Json.natKey Word32.bound b).map UInt32.ofNat) Json.asWord64 j).map
    Table.ofEntries

namespace TaskOutput

def empty : TaskOutput := ⟨[], .empty⟩

def toJson (o : TaskOutput) : Json :=
  .record [("source_timings", .list (o.timings.map SourceTiming.toJson)),
    ("eff_ruptures", .groupCounts o.effRuptures)]

def record : Record TaskOutput :=
  (Record.build mk).defaulted "source_timings" (Json.asList SourceTiming.ofJson) []
    |>.defaulted "eff_ruptures" Json.asGroupCounts .empty

def ofJson : Reader TaskOutput := record.read

end TaskOutput
end HazardDispatch
