import HazardDispatch.Json.Decode

/-!
# Operations

The kinds of task, in the order of the pipeline. The operation of a task is the key under which its
figures are grouped, so keys are ordered by `Operation.index`.
-/

namespace HazardDispatch

inductive Operation where
  | readSourceModel
  | preclassical
  | buildRuptures
  | computeGmfs
  | classical
deriving DecidableEq, Repr, Inhabited

namespace Operation

/-- Every operation, in the order of the pipeline. -/
def all : List Operation :=
  [readSourceModel, preclassical, buildRuptures, computeGmfs, classical]

def name : Operation → String
  | readSourceModel => "read_source_model"
  | preclassical => "preclassical"
  | buildRuptures => "build_ruptures"
  | computeGmfs => "compute_gmfs"
  | classical => "classical"

/-- The place in the pipeline. -/
def index : Operation → Nat
  | readSourceModel => 0
  | preclassical => 1
  | buildRuptures => 2
  | computeGmfs => 3
  | classical => 4

theorem index_injective {a b : Operation} (h : a.index = b.index) : a = b := by
  cases a <;> cases b <;> first | rfl | exact absurd h (by decide)

instance : Ord Operation := ⟨compareOn index⟩

instance : Std.TransOrd Operation := inferInstanceAs (Std.TransCmp (compareOn index))

instance : Std.LawfulEqOrd Operation where
  eq_of_compare {a b} h :=
    index_injective (show a.index = b.index from Std.LawfulEqOrd.eq_of_compare h)

def ofName? (s : String) : Option Operation := all.find? (·.name == s)

def toJson (op : Operation) : Json := .text op.name

def ofJson : Reader Operation := Json.oneOf (all.map fun op => (op.name, op))

end Operation

inductive InputError where
  | unknownOperation (name : String)
deriving DecidableEq, Repr

def InputError.message : InputError → String
  | unknownOperation n => s!"Invalid input: unknown operation '{n}'"

/-- The operation of that name, or the reason why there is none. -/
def Operation.ofName (s : String) : Except InputError Operation :=
  match ofName? s with
  | some op => .ok op
  | none => .error (.unknownOperation s)

end HazardDispatch
