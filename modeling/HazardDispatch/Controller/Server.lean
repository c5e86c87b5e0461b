import HazardDispatch.Dispatch.Sink
import HazardDispatch.Dispatch.Submit
import HazardDispatch.Http.MediaType
import HazardDispatch.Http.Path
import HazardDispatch.Stats.Exposition
import HazardDispatch.Text.Blank
import HazardDispatch.Wire.Message

/-!
# The server of the controller

Workers register, are listed and are removed; the report and the metrics can be read at any time.

The report is complete only if nothing is queued or in flight. These three things are read one after
the other (`withOutstanding` puts them together).
-/

namespace HazardDispatch

/-- What the controller is asked for. -/
inductive ControllerCall where
  | listWorkers
  | registerWorker
  | deregisterWorker (segment : List Char)
  | report
  | health
  | metrics
deriving DecidableEq, Repr

/-- What may be asked for at a target. -/
def ControllerCall.resource (target : String) : Option (Http.Resource ControllerCall) :=
  let fits (route : List Http.Part) := (Http.matchRoute route target).isSome
  if fits [.fixed "v1", .fixed "workers"] then
    some ⟨some listWorkers, some registerWorker, none⟩
  else if fits [.fixed "v1", .fixed "report"] then some { Http.Resource.none with get := some report }
  else if fits [.fixed "health"] then some { Http.Resource.none with get := some health }
  else if fits [.fixed "metrics"] then some { Http.Resource.none with get := some metrics }
  else
    match Http.matchRoute [.fixed "v1", .fixed "workers", .any] target with
    | some [seg] => some { Http.Resource.none with delete := some (deregisterWorker seg) }
    | _ => none

/-- The report as it is told, given how many tasks are queued and how many are in flight. -/
def CompositeReport.withOutstanding {F : Type} (r : CompositeReport F) (pending running : Nat) :
    CompositeReport F :=
  if 0 < pending + running then { r with complete := false } else r

namespace Exposition

def workers (p : Pool) : Family :=
  { name := "quakerun_workers", help := "Number of registered workers by status", kind := "gauge"
    label := "status"
    samples := [("idle", Decimal.ofNat (p.count .idle)), ("busy", Decimal.ofNat (p.count .busy)),
      ("unreachable", Decimal.ofNat (p.count .unreachable))] }

def tasks (pending running : Nat) : Family :=
  { name := "quakerun_tasks", help := "Number of live tasks by state", kind := "gauge"
    label := "state"
    samples := [("pending", Decimal.ofNat pending), ("running", Decimal.ofNat running)] }

end Exposition

namespace Dispatcher

/-- The report as it is told when nothing happens between the three readings. -/
def currentReport (d : Dispatcher (Accounts Float)) : CompositeReport Float :=
  d.sink.report.withOutstanding d.pendingCount d.runningCount

def metricsText (d : Dispatcher (Accounts Float)) : String :=
  (Exposition.workers d.pool).text ++ (Exposition.tasks d.pendingCount d.runningCount).text ++
    Exposition.operations d.sink.1

/-- How the body of a registration is read. What follows the JSON value does not matter. -/
def readRegistration (body : List UInt8) : Except DecodeError RegisterRequest :=
  RegisterRequest.ofJson (Document.ofBytes body).value

def handleRegister {σ : Type} (d : Dispatcher σ) (now : Instant) (r : Http.Request) :
    Http.Response × Change σ :=
  if !(r.contentType.map Http.MediaType.isJson).getD false then (.empty 415, .none d)
  else if r.isOversized then (.empty 413, .none d)
  else
    match readRegistration r.body with
    | .error .malformed => (.empty 400, .none d)
    | .error _ => (.empty 422, .none d)
    | .ok req =>
      if Text.allBlank req.workerId || Text.allBlank req.address then
        (.error 400 "worker_id and address are required", .none d)
      else
        let h := req.handle now
        let reply := d.pool.register h
        match reply.pool.get? h.workerId with
        | none => (.error 409 "worker removed during registration", d.withReply reply)
        | some current =>
          (.json (if reply.value then 201 else 200) (WorkerSummary.ofHandle current).toJson,
            d.withReply reply)

def handleDeregister {σ : Type} (d : Dispatcher σ) (segment : List Char) :
    Http.Response × Change σ :=
  match Http.parameter? segment with
  | none => (.empty 400, .none d)
  | some w =>
    let reply := d.pool.deregister ⟨w⟩
    let c := d.withReply reply
    match reply.value with
    | some _ =>
      (.empty 204, ⟨c.next, c.events ++ [.logged ⟨.info, "Worker deregistered via API"⟩]⟩)
    | none => (.error 404 ("Unknown worker: " ++ w), c)

def handle (d : Dispatcher (Accounts Float)) (now : Instant) (r : Http.Request) :
    Http.Response × Change (Accounts Float) :=
  match ControllerCall.resource r.target with
  | none => (.empty 404, .none d)
  | some resource =>
    match resource.pick r.method with
    | none => (.empty 405, .none d)
    | some (.registerWorker, _) => d.handleRegister now r
    | some (.deregisterWorker segment, _) => d.handleDeregister segment
    | some (call, headOnly) =>
      let answer : Http.Response := match call with
        | .report => .json 200 d.currentReport.toJson
        | .health => .json 200 (.record [("status", .text "ok")])
        | .metrics => ⟨200, .text d.metricsText⟩
        | _ => .json 200
            (WorkerListResponse.toJson ⟨d.pool.handles.map WorkerSummary.ofHandle⟩)
      (if headOnly then answer.headOnly else answer, .none d)

end Dispatcher
end HazardDispatch
