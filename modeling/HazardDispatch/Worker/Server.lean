import HazardDispatch.Http.Path
import HazardDispatch.Worker.Executor
import HazardDispatch.Worker.Slot

/-!
# The server of a worker

Three resources: running an attempt, liveness, and cancelling the task that is running. `handle`
answers a request at once or begins an execution; `finish` is the answer when that has come to its
end.
-/

namespace HazardDispatch

inductive WorkerCall where
  | execute
  | health
  | cancel (segment : List Char)
deriving DecidableEq, Repr

structure Begun where
  execution : Nat
  request : ExecuteRequest
  /-- The size of the request. -/
  bytesReceived : Nat

inductive Handled where
  | answered (r : Http.Response)
  | begun (b : Begun)

namespace WorkerCall

/-- The route for cancelling. -/
def cancelRoute : List Http.Part := [.fixed "v1", .fixed "tasks", .any, .fixed "cancel"]

def resource (target : String) : Option (Http.Resource WorkerCall) :=
  if (Http.matchRoute [.fixed "v1", .fixed "execute"] target).isSome then
    some { Http.Resource.none with post := some execute }
  else if (Http.matchRoute [.fixed "v1", .fixed "health"] target).isSome then
    some { Http.Resource.none with get := some health }
  else
    match Http.matchRoute cancelRoute target with
    | some [seg] => some { Http.Resource.none with post := some (cancel seg) }
    | _ => none

end WorkerCall

namespace Slot

/-- Why a request cannot be read. Of its faults only those are spelled out that name a field or a
variant. -/
def refusalText (e : DecodeError) : String :=
  match e.message? with
  | some m => "Invalid request: " ++ m
  | none => "Invalid request"

def handleExecute (s : Slot) (body : List UInt8) : Handled × Slot × List LogLine :=
  match (Document.ofBytes body).read ExecuteRequest.ofJson with
  | .error e => (.answered (.error 400 (refusalText e)), s, [])
  | .ok req =>
    match s.claim req.taskId with
    | (.error current, s) =>
      (.answered (.error 409 ("Worker busy running " ++ current)), s,
        [⟨.warn, "Refusing task - worker busy"⟩])
    | (.ok execution, s) =>
      (.begun ⟨execution, req, body.length⟩, s, [⟨.info, "Executing task"⟩])

def handleCancel (s : Slot) (segment : List Char) : Handled × Slot × List LogLine :=
  match Http.parameter? segment with
  | none => (.answered (.empty 400), s, [])
  | some taskId =>
    let (cancelled, s) := s.cancel taskId
    (.answered (.json 200 (CancelResponse.toJson ⟨taskId, cancelled⟩)), s,
      if cancelled then [⟨.info, "Cancel requested"⟩] else [])

def handle (s : Slot) (r : Http.Request) : Handled × Slot × List LogLine :=
  match WorkerCall.resource r.target with
  | none => (.answered (.empty 404), s, [])
  | some resource =>
    match resource.pick r.method with
    | none => (.answered (.empty 405), s, [])
    | some (.execute, _) =>
      if r.isOversized then (.answered (.empty 413), s, []) else s.handleExecute r.body
    | some (.cancel segment, _) => s.handleCancel segment
    | some (.health, headOnly) =>
      let answer := Http.Response.json 200 s.health.toJson
      (.answered (if headOnly then answer.headOnly else answer), s, [])

end Slot

namespace Begun

/-- The answer to a request whose execution has ended: what it cost, and its payload or what went
wrong. There is none if the execution stopped half-way. -/
def response? (b : Begun) (e : Execution) (duration peakMemory : Float) : Option ExecuteResponse :=
  let answer (status : WireStatus) (error : Option String) (payload : Payload) :
      ExecuteResponse :=
    { taskId := b.request.taskId, attempt := b.request.attempt, status, error, duration, peakMemory
      bytesSent := .ofNat payload.size, bytesReceived := .ofNat b.bytesReceived, payload }
  match e with
  | .done payload => some (answer .success none payload)
  | .invalidPayload _ => some (answer .failure (some e.errorText) .empty)
  | .cancelled => some (answer .failure (some e.errorText) .empty)
  | .stopped _ => none

def log (b : Begun) (e : Execution) : List LogLine :=
  Executor.log b.request e ++
    match e with
    | .done _ => [⟨.info, "Task finished"⟩]
    | .stopped _ => []
    | _ => [⟨.warn, "Task failed"⟩, ⟨.info, "Task finished"⟩]

end Begun
end HazardDispatch
