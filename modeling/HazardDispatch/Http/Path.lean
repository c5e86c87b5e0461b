import HazardDispatch.Http.Message
import HazardDispatch.Text.Percent
import HazardDispatch.Text.Pieces

/-!
# Paths and routes

The path of a target ends at a question mark or a number sign. A route is a list of fixed segments
with at most one place that any segment may take. A path is cut at its slashes first; only then is the
segment in that place decoded. An empty segment may stand there, but not at the end of a path.
-/

namespace HazardDispatch.Http

def pathOf (target : List Char) : List Char := target.takeWhile fun c => c != '?' && c != '#'

/-- The segments of a path that starts with a slash. -/
def segments? (path : List Char) : Option (List (List Char)) :=
  match path with
  | '/' :: cs => some (Text.pieces '/' cs)
  | _ => none

inductive Part where
  /-- This segment. -/
  | fixed (s : String)
  /-- Any segment. -/
  | any
deriving DecidableEq, Repr

/-- The segments in the open places, if the path fits the route. -/
def matchParts : List Part → List (List Char) → Option (List (List Char))
  | [], [] => some []
  | .fixed s :: ps, seg :: segs => if s.toList = seg then matchParts ps segs else none
  | .any :: [], seg :: segs => if seg.isEmpty then none else matchParts [] segs |>.map (seg :: ·)
  | .any :: ps, seg :: segs => (matchParts ps segs).map (seg :: ·)
  | _, _ => none

/-- How a target fits a route. -/
def matchRoute (route : List Part) (target : String) : Option (List (List Char)) :=
  (segments? (pathOf target.toList)).bind (matchParts route)

/-- What a server does with a path: for each method, how a request is handled. -/
structure Resource (α : Type) where
  get : Option α
  post : Option α
  delete : Option α

/-- Nothing is allowed. -/
def Resource.none {α : Type} : Resource α := ⟨Option.none, Option.none, Option.none⟩

/-- What is to be done, and whether only the head of the response is wanted. Where reading is allowed,
its head may be asked for alone. -/
def Resource.pick {α : Type} (r : Resource α) (method : String) : Option (α × Bool) :=
  match method with
  | "GET" => r.get.map (·, false)
  | "HEAD" => r.get.map (·, true)
  | "POST" => r.post.map (·, false)
  | "DELETE" => r.delete.map (·, false)
  | _ => Option.none

/-- The decoded segment in an open place. -/
def parameter? (seg : List Char) : Option String := Percent.decode? (String.ofList seg)

end HazardDispatch.Http
