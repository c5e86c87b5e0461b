import HazardDispatch.Json.Decode

/-!
# Names of tasks and workers

Two kinds of name that are never mixed up. Names are ordered by their characters, which is the order
of their UTF-8 bytes.
-/

namespace HazardDispatch

@[ext] structure TaskId where
  text : String
deriving DecidableEq, Repr, Inhabited

@[ext] structure WorkerId where
  text : String
deriving DecidableEq, Repr, Inhabited

namespace TaskId

instance : Ord TaskId := ⟨compareOn text⟩

instance : Std.TransOrd TaskId := inferInstanceAs (Std.TransCmp (compareOn text))

instance : Std.LawfulEqOrd TaskId where
  eq_of_compare {a b} h := TaskId.ext (show a.text = b.text from Std.LawfulEqOrd.eq_of_compare h)

/-- `a` stands before `b` or is `b`. -/
def le (a b : TaskId) : Bool := (compare a b).isLE

def toJson (t : TaskId) : Json := .text t.text

def ofJson : Reader TaskId := fun j => (Json.asText j).map .mk

end TaskId

namespace WorkerId

instance : Ord WorkerId := ⟨compareOn text⟩

instance : Std.TransOrd WorkerId := inferInstanceAs (Std.TransCmp (compareOn text))

instance : Std.LawfulEqOrd WorkerId where
  eq_of_compare {a b} h := WorkerId.ext (show a.text = b.text from Std.LawfulEqOrd.eq_of_compare h)

def toJson (w : WorkerId) : Json := .text w.text

def ofJson : Reader WorkerId := fun j => (Json.asText j).map .mk

end WorkerId
end HazardDispatch
