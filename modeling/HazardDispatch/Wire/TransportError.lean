import HazardDispatch.Task.Result

/-!
# Errors of a call to a worker

Only a worker that cannot be reached is at fault for a failed attempt; one that answers, even with
something unusable, is alive.
-/

namespace HazardDispatch

inductive TransportError where
  /-- The worker could not be reached. -/
  | unreachable (message : String)
  /-- The worker still runs another task. -/
  | busy (message : String)
  /-- The worker answered with an error status. -/
  | rejected (status : Nat) (message : String)
  /-- The worker's answer cannot be read. -/
  | invalidResponse (message : String)
deriving DecidableEq, Repr

namespace TransportError

def message : TransportError → String
  | unreachable m => "worker unreachable: " ++ m
  | busy m => "worker busy: " ++ m
  | rejected status m => s!"worker rejected request ({status}): " ++ m
  | invalidResponse m => "invalid response: " ++ m

/-- The error as the reason of a failed attempt. -/
def toFailure : TransportError → FailureReason
  | unreachable m => .workerUnreachable m
  | e => .execution e.message

end TransportError
end HazardDispatch
