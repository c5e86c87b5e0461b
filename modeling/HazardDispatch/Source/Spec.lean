import HazardDispatch.Task.Payload
import HazardDispatch.Word64

/-!
# Seismic sources

What a task is told about a source, and the groups that a source model comes in. The weight of a
source, ruptures times distances and at least its ruptures, is a rough measure of the work that it
makes; it saturates. The weight of a group is a checked sum.
-/

namespace HazardDispatch

/-- A source as handed to a task. -/
@[ext] structure SourceSpec where
  sourceId : String
  /-- The kind of source: point, area, fault, … -/
  code : Char
  numRuptures : UInt64
  /-- Distances or sites that the source reaches. -/
  numDists : UInt64
deriving DecidableEq, Repr

@[ext] structure SourceGroup where
  id : UInt32
  /-- The sources exclude one another, so that they are computed together. -/
  mutex : Bool
  sources : List SourceSpec
deriving DecidableEq, Repr

namespace SourceSpec

/-- A measure of the work that the source makes. -/
def weight (s : SourceSpec) : UInt64 :=
  Word64.satMul s.numRuptures (max s.numDists 1)

def toJson (s : SourceSpec) : Json :=
  .record [("source_id", .text s.sourceId), ("code", .text s.code.toString),
    ("num_ruptures", .nat s.numRuptures.toNat), ("num_dists", .nat s.numDists.toNat)]

def record : Record SourceSpec :=
  (Record.build mk).required "source_id" Json.asText
    |>.required "code" Json.asChar
    |>.required "num_ruptures" Json.asWord64
    |>.defaulted "num_dists" Json.asWord64 1

def ofJson : Reader SourceSpec := record.read

/-- A list of sources, as the payload of a task holds it. -/
def listToJson (ss : List SourceSpec) : Json := .list (ss.map toJson)

def listOfJson : Reader (List SourceSpec) := Json.asList ofJson

end SourceSpec

namespace SourceGroup

/-- The work of all sources of the group. -/
def weight (g : SourceGroup) : Except Overflow UInt64 :=
  Word64.sum? (g.sources.map SourceSpec.weight)

def toJson (g : SourceGroup) : Json :=
  .record [("id", .nat g.id.toNat), ("mutex", .bool g.mutex),
    ("sources", SourceSpec.listToJson g.sources)]

def record : Record SourceGroup :=
  (Record.build mk).required "id" Json.asWord32
    |>.defaulted "mutex" Json.asBool false
    |>.required "sources" SourceSpec.listOfJson

def ofJson : Reader SourceGroup := record.read

def listToJson (gs : List SourceGroup) : Json := .list (gs.map toJson)

def listOfJson : Reader (List SourceGroup) := Json.asList ofJson

end SourceGroup
end HazardDispatch
