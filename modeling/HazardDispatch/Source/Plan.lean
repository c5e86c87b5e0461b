import HazardDispatch.LogLine
import HazardDispatch.Source.Spec
import HazardDispatch.Source.Split
import HazardDispatch.Task.Basic

/-!
# Planning a source model

The sources of each group are cut into tasks of roughly equal weight. Sources that exclude one
another stay together, whatever they weigh. Names and seeds follow from the position of a task in
the plan, so that a second run is the same.
-/

namespace HazardDispatch

/-- What is planned: tasks, and the figures that are logged about them. -/
structure Plan where
  limit : UInt64
  numSources : Nat
  tasks : List Task

namespace Plan

/-- The sources of a group in the blocks that become tasks. -/
def groupBlocks (limit : UInt64) (g : SourceGroup) : List (List SourceSpec) :=
  if g.sources.isEmpty then []
  else if g.mutex then [g.sources]
  else Split.blocks limit SourceSpec.weight g.sources

def blocks (limit : UInt64) (groups : List SourceGroup) : List (UInt32 × List SourceSpec) :=
  groups.flatMap fun g => (groupBlocks limit g).map (g.id, ·)

/-- The name of the task at a position: the operation and at least four digits. -/
def taskId (op : Operation) (index : Nat) : TaskId :=
  ⟨op.name ++ "-" ++ Decimal.padded 4 index⟩

def task (op : Operation) (seed : UInt64) (now : Instant) (index : Nat) (group : UInt32)
    (block : List SourceSpec) : Except Overflow Task := do
  let weight ← Word64.sum? (block.map SourceSpec.weight)
  return { id := taskId op index, operation := op, groupId := group, seed := seed + .ofNat index
           weight, payload := .ofValue (SourceSpec.listToJson block), createdAt := now }

/-- The tasks for the blocks, from a position on. -/
def tasksFrom (op : Operation) (seed : UInt64) (now : Instant) :
    Nat → List (UInt32 × List SourceSpec) → Except Overflow (List Task)
  | _, [] => .ok []
  | index, (group, block) :: rest => do
    let t ← task op seed now index group block
    let ts ← tasksFrom op seed now (index + 1) rest
    return t :: ts

/-- The plan for the groups, cut with the limit for about `tasks` tasks. It fails if the weights of
all sources have no sum. -/
def ofGroups (groups : List SourceGroup) (op : Operation) (tasks : Nat) (seed : UInt64)
    (now : Instant) : Except Overflow Plan := do
  let total ← Word64.sum? (← groups.mapM SourceGroup.weight)
  let limit := Split.limit total tasks
  let blocks := blocks limit groups
  let tasks ← tasksFrom op seed now 0 blocks
  return { limit, tasks, numSources := (blocks.flatMap (·.2)).length }

def log (p : Plan) : List LogLine :=
  [⟨.info, s!"Using maxweight={p.limit.toNat}"⟩,
    ⟨.info, s!"Sent {p.numSources} sources in {p.tasks.length} tasks"⟩]

end Plan
end HazardDispatch
