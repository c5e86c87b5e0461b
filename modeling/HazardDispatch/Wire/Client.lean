import HazardDispatch.Http.Url
import HazardDispatch.LogLine
import HazardDispatch.Wire.Execute
import HazardDispatch.Wire.TransportError

/-!
# Calls to a worker

For each call the request that is sent and what an answer to it means. No answer at all, because
nobody listens, the connection breaks or time is up, makes the worker unreachable. An answer with
another status than success is an error that says why, in the form of an `ErrorResponse` or else by
the standard phrase; a conflict says that the worker is busy. A request that cannot even be sent,
because the worker's address is none, counts as a bad answer.
-/

namespace HazardDispatch

/-- What comes back for a request. -/
inductive Reply where
  | response (status : Nat) (body : List UInt8)
  | silence
  /-- The request was not sent, its address is none. -/
  | unsent
deriving DecidableEq, Repr

namespace Reply

/-- What comes back when a server answers with a status and a body. A server that only announces a
response leaves it at that. -/
def received (status : Nat) (body : List UInt8) : Reply :=
  if Http.isInterim status then .silence
  else .response status (if Http.mayHaveBody status then body else [])

/-- What comes back from an address, when `r` is what the server there would let come back. -/
def atAddress (address : String) (r : Reply) : Reply :=
  if Http.Url.isAddress address then r else .unsent

end Reply

namespace Client

/-- Milliseconds that a probe or a cancel signal may take. -/
def probeTimeout : Nat := 2000

def postJson (address : String) (j : Json) : Http.Request :=
  { method := "POST", target := Http.Url.target address, contentType := some "application/json"
    body := Utf8.bytes j.compact }

def plain (method address : String) : Http.Request :=
  { method, target := Http.Url.target address, contentType := none, body := [] }

def executeRequest (h : WorkerHandle) (r : ExecuteRequest) : Http.Request :=
  postJson (h.endpoint Paths.execute) r.toJson

def probeRequest (h : WorkerHandle) : Http.Request := plain "GET" (h.endpoint Paths.health)

def cancelRequest (h : WorkerHandle) (t : TaskId) : Http.Request :=
  plain "POST" (h.endpoint (Paths.cancel t.text))

def executeLog : List LogLine := [⟨.debug, "POST execute"⟩]

/-- What an answer without success says. -/
def errorText (status : Nat) (body : List UInt8) : String :=
  match (Document.ofBytes body).read ErrorResponse.ofJson with
  | .ok e => e.error
  | .error _ => Http.phrase status

/-- The body of an answer with success. -/
def successBody : Reply → Except TransportError (List UInt8)
  | .silence => .error (.unreachable "error sending request")
  | .unsent => .error (.invalidResponse "builder error")
  | .response status body =>
    if Http.isSuccess status then .ok body
    else if status = 409 then .error (.busy (errorText status body))
    else .error (.rejected status (errorText status body))

def message {α : Type} (read : Reader α) (r : Reply) : Except TransportError α := do
  match (Document.ofBytes (← successBody r)).read read with
  | .ok a => return a
  | .error _ => throw (.invalidResponse "error decoding response body")

def executeResult (r : Reply) : Except TransportError ExecuteResponse :=
  message ExecuteResponse.ofJson r

def probeResult (r : Reply) : Except TransportError HealthResponse := message HealthResponse.ofJson r

def cancelResult (r : Reply) : Except TransportError Unit := (successBody r).map fun _ => ()

end Client
end HazardDispatch
