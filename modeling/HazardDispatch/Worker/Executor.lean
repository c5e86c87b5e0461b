import HazardDispatch.LogLine
import HazardDispatch.Random.Draws
import HazardDispatch.Source.Output
import HazardDispatch.Source.Spec
import HazardDispatch.Time.Duration
import HazardDispatch.Wire.Execute

/-!
# Simulated execution

A task is not computed, it only costs what computing it would: each of its sources takes a time in
proportion to its weight, with a jitter that the seed of the task decides, and leaves a timing.

The clock counts whole milliseconds. A source that starts at `t` and costs `c` is done at the first
millisecond that is not before `t + c`; the timing keeps the exact cost. If the task is cancelled
before a source is done, nothing comes of the whole task.
-/

namespace HazardDispatch

inductive Execution where
  | done (payload : Payload)
  | invalidPayload (e : DecodeError)
  | cancelled
  /-- A sum over the sources left its range; there is no answer. -/
  | stopped (e : Overflow)

namespace Execution

/-- What the error of an execution says. Of a payload's faults only those are spelled out that name
a field or a variant. -/
def errorText : Execution → String
  | done _ => ""
  | invalidPayload e =>
    match e.serializationMessage? with
    | some m => "Invalid payload: " ++ m
    | none => "Invalid payload"
  | cancelled => "Task cancelled"
  | stopped e => e.message

end Execution

/-- What reading a source model tells. -/
structure SourceModelSummary where
  numSources : Nat
  numRuptures : UInt64
  totalWeight : UInt64

namespace SourceModelSummary

def ofSources (ss : List SourceSpec) : Except Overflow SourceModelSummary := do
  let numRuptures ← Word64.sum? (ss.map (·.numRuptures))
  let totalWeight ← Word64.sum? (ss.map SourceSpec.weight)
  return { numSources := ss.length, numRuptures, totalWeight }

def toJson (s : SourceModelSummary) : Json :=
  .record [("num_sources", .nat s.numSources), ("num_ruptures", .nat s.numRuptures.toNat),
    ("total_weight", .nat s.totalWeight.toNat)]

end SourceModelSummary

/-- A worker's way to run tasks: what one rupture at one distance costs, and where the random draws
come from. -/
structure Executor (ρ : Type) where
  cost : Duration
  draws : Random.Draws ρ
  /-- The source of randomness for a seed. -/
  source : UInt64 → ρ

namespace Executor

/-- No source costs more than an hour. -/
def ceiling : Duration := .ofSeconds 3600

/-- The simulation with so many milliseconds for a rupture at one distance. -/
def simulated (costMillis : Float) : Executor Random.Keystream :=
  { cost := .clamped ceiling (costMillis / 1000.0), draws := Random.keystreamDraws
    source := Random.Keystream.ofSeed }

variable {ρ : Type}

def sourceCost (x : Executor ρ) (s : SourceSpec) (jitter : Float) : Duration :=
  .clamped ceiling (x.cost.seconds * Float.ofNat s.weight.toNat * jitter)

def countEvents (x : Executor ρ) : Nat → ρ → Nat × ρ
  | 0, r => (0, r)
  | n + 1, r =>
    let (happens, r) := x.draws.event r
    let (k, r) := countEvents x n r
    (if happens then k + 1 else k, r)

/-- The events of a source: about one for ten ruptures, in operations that have any. -/
def events (x : Executor ρ) (op : Operation) (s : SourceSpec) (r : ρ) : Nat × ρ :=
  match op with
  | .buildRuptures => x.countEvents (s.numRuptures.toNat / 10) r
  | .computeGmfs => x.countEvents (s.numRuptures.toNat / 10) r
  | _ => (0, r)

def timing (x : Executor ρ) (op : Operation) (s : SourceSpec) (cost : Duration) (r : ρ) :
    SourceTiming × ρ :=
  let (numSites, r) := x.draws.sites r
  let (events, r) := x.events op s r
  ({ sourceId := s.sourceId, code := s.code, numSites, calcTime := cost.seconds
     events := .ofNat events }, r)

/-- The cancellation comes before the clock shows `done`. -/
def cancelledBefore (cancelAt : Option Nat) (now done : Nat) : Bool :=
  match cancelAt with
  | none => false
  | some t => t ≤ now || t < done

/-- Runs the sources from `now` on. `timings` and `total` are those of the sources before. Returns
how it ends and when. -/
def runSources (x : Executor ρ) (op : Operation) (group : UInt32) (cancelAt : Option Nat) :
    Nat → ρ → List SourceTiming → UInt64 → List SourceSpec → Execution × Nat
  | now, _, timings, total, [] =>
    (.done (.ofValue (TaskOutput.toJson ⟨timings, Table.empty.put group total⟩)), now)
  | now, r, timings, total, s :: rest =>
    let (jitter, r) := x.draws.jitter r
    let cost := x.sourceCost s jitter
    let fin := now + cost.millisUp
    if cancelledBefore cancelAt now fin then (.cancelled, max now (cancelAt.getD now))
    else
      let (t, r) := x.timing op s cost r
      match Word64.add? total s.numRuptures with
      | .error e => (.stopped e, fin)
      | .ok total => runSources x op group cancelAt fin r (timings ++ [t]) total rest

/-- Runs a request that comes in at `now`, and is cancelled at `cancelAt` if at all. Returns how it
ends and when. -/
def execute (x : Executor ρ) (req : ExecuteRequest) (cancelAt : Option Nat) (now : Nat) :
    Execution × Nat :=
  match req.payload.decode SourceSpec.listOfJson with
  | .error e => (.invalidPayload e, now)
  | .ok sources =>
    if req.operation = .readSourceModel then
      match SourceModelSummary.ofSources sources with
      | .ok s => (.done (.ofValue s.toJson), now)
      | .error e => (.stopped e, now)
    else x.runSources req.operation req.groupId cancelAt now (x.source req.seed) [] 0 sources

def log (req : ExecuteRequest) : Execution → List LogLine
  | .done _ =>
    if req.operation = .readSourceModel then [] else [⟨.debug, "Simulated task finished"⟩]
  | _ => []

end Executor
end HazardDispatch
