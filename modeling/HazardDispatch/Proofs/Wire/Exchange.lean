import HazardDispatch.Proofs.Dispatch.Partition
import HazardDispatch.Proofs.Wire.Messages
import HazardDispatch.Wire.Client
import HazardDispatch.Worker.Server

/-!
# Controller and worker agree on an attempt

An attempt goes over the wire as a request, and comes back as an answer. Whatever the task is and
whatever the executor makes of it, a free worker begins just what was asked for, and the controller
reads just what the worker answered, finds that it belongs to the attempt, and delivers
`Attempt.resultOf`: what the executor gave back, put down to the worker that was asked
(`exchange_agrees`). The measured figures have to be exact.

An executor may give back any payload, and any text for its error; `Begun.answer` is what the worker
answers then. The executions that come to an end are such cases (`Begun.response?_eq`).

Before the worker's handler sees a request, its server looks at the size of the body. Up to
`Http.bodyLimit` bytes the exchange is as above; a larger request is turned away, and the attempt fails
(`exchange_at_server`).
-/

namespace HazardDispatch

open Json (Exact)

/-! ## what an executor gives back -/

namespace Execution

inductive Yield where
  | payload (p : Payload)
  | error (text : String)

namespace Yield

/-- An error goes with no payload. -/
def content : Yield → Payload
  | payload p => p
  | error _ => .empty

def wireStatus : Yield → WireStatus
  | payload _ => .success
  | error _ => .failure

def error? : Yield → Option String
  | payload _ => none
  | error text => some text

def status : Yield → ResultStatus
  | payload _ => .success
  | error text => .failure (.execution text)

end Yield

/-- What an execution gives back, if it comes to an end. -/
def yield? : Execution → Option Yield
  | done p => some (.payload p)
  | invalidPayload e => some (.error (invalidPayload e).errorText)
  | cancelled => some (.error cancelled.errorText)
  | stopped _ => none

end Execution

open Execution (Yield)

/-! ## the answer and the result -/

def Begun.answer (b : Begun) (y : Yield) (duration peakMemory : Float) : ExecuteResponse :=
  { taskId := b.request.taskId, attempt := b.request.attempt, status := y.wireStatus
    error := y.error?, duration, peakMemory, bytesSent := .ofNat y.content.size
    bytesReceived := .ofNat b.bytesReceived, payload := y.content }

theorem Begun.response?_eq (b : Begun) (e : Execution) (duration peakMemory : Float) :
    b.response? e duration peakMemory = e.yield?.map fun y => b.answer y duration peakMemory := by
  cases e <;> rfl

namespace Attempt

def request (a : Attempt) : Http.Request :=
  Client.executeRequest a.worker (.forAttempt a.task (.ofNat a.number))

def sent (a : Attempt) : List UInt8 := a.request.body

def resultOf (a : Attempt) (y : Yield) (duration peakMemory : Float) : TaskResult :=
  { taskId := a.task.id, attempt := .ofNat a.number, workerId := a.worker.workerId
    operation := a.task.operation, status := y.status, duration, peakMemory
    bytesSent := .ofNat y.content.size, bytesReceived := .ofNat a.sent.length, payload := y.content }

theorem toNat_number {a : Attempt} (h : a.number < Word32.bound) :
    (UInt32.ofNat a.number).toNat = a.number := UInt32.toNat_ofNat_of_lt' h

/-- What a worker that is free begins when the bytes of the attempt come in. -/
def begun (a : Attempt) (s : Slot) : Begun :=
  ⟨s.begun, .forAttempt a.task (.ofNat a.number), a.sent.length⟩

theorem bytesReceived_begun (a : Attempt) (s : Slot) :
    (a.begun s).bytesReceived = a.sent.length := by
  rw [begun]

theorem decode_sent (a : Attempt) :
    (Document.ofBytes a.sent).read ExecuteRequest.ofJson
      = .ok (.forAttempt a.task (.ofNat a.number)) := by
  have hread := (ExecuteRequest.forAttempt a.task (.ofNat a.number)).spells_toJson.reread
  rw [Json.reread] at hread
  simp only [sent, request, Client.executeRequest, Client.postJson, hread]

theorem handleExecute_sent (a : Attempt) {s : Slot} (hfree : s.running = none) :
    s.handleExecute a.sent = (.begun (a.begun s),
      { s with running := some ⟨a.task.id.text, s.begun⟩, begun := s.begun + 1 },
      [⟨.info, "Executing task"⟩]) := by
  have hclaim : s.claim (ExecuteRequest.forAttempt a.task (.ofNat a.number)).taskId
      = (.ok s.begun, { s with running := some ⟨a.task.id.text, s.begun⟩, begun := s.begun + 1 }) := by
    rw [Slot.claim, hfree]
    rfl
  rw [Slot.handleExecute, a.decode_sent]
  dsimp only
  rw [hclaim]
  rfl

theorem check_answer (a : Attempt) (hnumber : a.number < Word32.bound) (s : Slot) (y : Yield)
    (duration peakMemory : Float) :
    a.check ((a.begun s).answer y duration peakMemory)
      = .ok ((a.begun s).answer y duration peakMemory) :=
  if_pos ⟨rfl, toNat_number hnumber⟩

theorem toResult_answer (a : Attempt) (s : Slot) (y : Yield) (duration peakMemory : Float) :
    ((a.begun s).answer y duration peakMemory).toResult a.worker.workerId a.task.operation
      = a.resultOf y duration peakMemory := by
  cases y <;> simp only [ExecuteResponse.toResult, Begun.answer, begun, ExecuteRequest.forAttempt,
    resultOf, Yield.wireStatus, Yield.status, Yield.error?, Option.getD_some]

end Attempt

theorem executeResult_answer {r : ExecuteResponse} (hduration : Exact r.duration)
    (hmemory : Exact r.peakMemory) :
    Client.executeResult (.response 200 (Utf8.bytes r.toJson.compact)) = .ok r := by
  have hread : (Document.ofBytes (Utf8.bytes r.toJson.compact)).read ExecuteResponse.ofJson = .ok r :=
    (ExecuteResponse.spells_toJson hduration hmemory).reread
  have hbody : Client.successBody (.response 200 (Utf8.bytes r.toJson.compact))
      = .ok (Utf8.bytes r.toJson.compact) := rfl
  simp only [Client.executeResult, Client.message, hbody, bind, Except.bind, hread]
  rfl

theorem Attempt.deliver_answer {σ : Type} [Sink σ] (d : Dispatcher σ) (a : Attempt) (s : Slot)
    (y : Yield) {duration peakMemory : Float} (hnumber : a.number < Word32.bound)
    (hduration : Exact duration) (hmemory : Exact peakMemory) :
    d.answer a (Client.executeResult (.response 200
        (Utf8.bytes ((a.begun s).answer y duration peakMemory).toJson.compact)))
      = (d.heard a).deliver (a.resultOf y duration peakMemory) := by
  rw [executeResult_answer (r := (a.begun s).answer y duration peakMemory) hduration hmemory]
  simp only [Dispatcher.answer, Except.bind, a.check_answer hnumber, a.toResult_answer]
  rfl

/-- From the request to the result, both sides mean the same. -/
theorem exchange_agrees {σ : Type} [Sink σ] (d : Dispatcher σ) (a : Attempt) (s : Slot) (y : Yield)
    (duration peakMemory : Float) (hnumber : a.number < Word32.bound) (hfree : s.running = none)
    (hduration : Exact duration) (hmemory : Exact peakMemory) :
    ∃ (b : Begun) (s' : Slot) (log : List LogLine) (r : ExecuteResponse),
      s.handleExecute a.sent = (.begun b, s', log) ∧
      b.request = .forAttempt a.task (.ofNat a.number) ∧ b.bytesReceived = a.sent.length ∧
      r = b.answer y duration peakMemory ∧
      (∀ e : Execution, e.yield? = some y → b.response? e duration peakMemory = some r) ∧
      Client.executeResult (.response 200 (Utf8.bytes r.toJson.compact)) = .ok r ∧
      a.check r = .ok r ∧
      r.toResult a.worker.workerId a.task.operation = a.resultOf y duration peakMemory ∧
      d.answer a (Client.executeResult (.response 200 (Utf8.bytes r.toJson.compact)))
        = (d.heard a).deliver (a.resultOf y duration peakMemory) ∧
      (y.content.size < Word64.bound → r.bytesSent.toNat = y.content.size) ∧
      (a.sent.length < Word64.bound → r.bytesReceived.toNat = a.sent.length) := by
  obtain ⟨r, hr⟩ : ∃ r, r = (a.begun s).answer y duration peakMemory := ⟨_, rfl⟩
  have hresult : Client.executeResult (.response 200 (Utf8.bytes r.toJson.compact)) = .ok r := by
    rw [hr]
    exact executeResult_answer hduration hmemory
  have hcheck : a.check r = .ok r := hr ▸ a.check_answer hnumber s y duration peakMemory
  have hto : r.toResult a.worker.workerId a.task.operation = a.resultOf y duration peakMemory :=
    hr ▸ a.toResult_answer s y duration peakMemory
  have hword {n : Nat} (h : n < Word64.bound) : (UInt64.ofNat n).toNat = n :=
    UInt64.toNat_ofNat_of_lt' h
  refine ⟨a.begun s, _, _, r, a.handleExecute_sent hfree, rfl, a.bytesReceived_begun s, hr, ?_,
    hresult, hcheck, hto, ?_, ?_, ?_⟩
  · intro e he
    rw [Begun.response?_eq, he, Option.map_some, hr]
  · rw [hr]
    exact a.deliver_answer d s y hnumber hduration hmemory
  · intro hsize
    rw [hr, Begun.answer, hword hsize]
  · intro hsize
    rw [hr, Begun.answer, Attempt.begun, hword hsize]

/-- An attempt at a task whose name is not spelled in ASCII, with bytes that are no text. -/
def strangeCall : Attempt :=
  { launch := 0, worker := { someWorker with status := .busy }, number := 1, startedAt := 0
    task := { someTask with id := ⟨"größe \"ℵ\""⟩, seed := 7, payload := ⟨[0, 255, 34]⟩ } }

theorem exchange_agrees_strangeCall :
    strangeCall.number < Word32.bound ∧ (Slot.free someWorker.workerId).running = none ∧ Exact 8 ∧
      ∃ (b : Begun) (s' : Slot) (log : List LogLine) (r : ExecuteResponse),
        (Slot.free someWorker.workerId).handleExecute strangeCall.sent = (.begun b, s', log) ∧
        b.response? .cancelled 8 8 = some r ∧
        firstDay.answer strangeCall
          (Client.executeResult (.response 200 (Utf8.bytes r.toJson.compact)))
          = (firstDay.heard strangeCall).deliver
            (strangeCall.resultOf (.error "Task cancelled") 8 8) := by
  obtain ⟨b, s', log, r, hbegun, -, -, -, hresponse, -, -, -, hdelivered, -, -⟩ :=
    exchange_agrees firstDay strangeCall (.free someWorker.workerId) (.error "Task cancelled") 8 8
      (by decide) rfl Json.exact_eight Json.exact_eight
  exact ⟨by decide, rfl, Json.exact_eight, b, s', log, r, hbegun, hresponse .cancelled rfl, hdelivered⟩

/-! ## at the server -/

namespace Attempt

theorem handle_request (a : Attempt) (s : Slot)
    (hfound : Http.Url.target (a.worker.endpoint Paths.execute) = Paths.execute) :
    s.handle a.request = if Http.bodyLimit < a.sent.length then (.answered (.empty 413), s, [])
      else s.handleExecute a.sent := by
  have hresource : WorkerCall.resource a.request.target
      = some { Http.Resource.none with post := some .execute } := by
    show WorkerCall.resource (Http.Url.target (a.worker.endpoint Paths.execute)) = _
    rw [hfound]
    rfl
  have hover : a.request.isOversized = true ↔ Http.bodyLimit < a.sent.length := decide_eq_true_iff
  rw [Slot.handle, hresource]
  show (if a.request.isOversized then _ else _) = _
  by_cases hsize : Http.bodyLimit < a.sent.length
  · rw [if_pos hsize, if_pos (hover.mpr hsize)]
  · rw [if_neg hsize, if_neg (hover.not.mpr hsize), sent]

/-- A request that is too large is an attempt that failed. -/
theorem answer_oversized {σ : Type} [Sink σ] (d : Dispatcher σ) (a : Attempt) :
    d.answer a (Client.executeResult (.response 413 []))
      = (d.heard a).deliver (.failed a.task.id (.ofNat a.number) a.worker.workerId a.task.operation
        (.execution "worker rejected request (413): Payload Too Large") ((d.heard a).elapsed a)) := by
  rfl

end Attempt

/-- The exchange with a worker that is found at its address, by the size of the request. -/
theorem exchange_at_server {σ : Type} [Sink σ] (d : Dispatcher σ) (a : Attempt) (s : Slot) (y : Yield)
    (duration peakMemory : Float) (hnumber : a.number < Word32.bound) (hfree : s.running = none)
    (hduration : Exact duration) (hmemory : Exact peakMemory)
    (hfound : Http.Url.target (a.worker.endpoint Paths.execute) = Paths.execute) :
    (a.sent.length ≤ Http.bodyLimit → ∃ b s' log, s.handle a.request = (.begun b, s', log) ∧
      ∀ (e : Execution) (r : ExecuteResponse), e.yield? = some y →
        b.response? e duration peakMemory = some r →
        d.answer a (Client.executeResult (.response 200 (Utf8.bytes r.toJson.compact)))
          = (d.heard a).deliver (a.resultOf y duration peakMemory)) ∧
    (Http.bodyLimit < a.sent.length → s.handle a.request = (.answered (.empty 413), s, []) ∧
      d.answer a (Client.executeResult (.response 413 []))
        = (d.heard a).deliver (.failed a.task.id (.ofNat a.number) a.worker.workerId
          a.task.operation (.execution "worker rejected request (413): Payload Too Large")
          ((d.heard a).elapsed a))) := by
  have hhandle := a.handle_request s hfound
  constructor
  · intro hsize
    rw [if_neg (Nat.not_lt.mpr hsize), a.handleExecute_sent hfree] at hhandle
    refine ⟨a.begun s, _, _, hhandle, fun e r he hr => ?_⟩
    rw [Begun.response?_eq, he, Option.map_some, Option.some.injEq] at hr
    exact hr ▸ a.deliver_answer d s y hnumber hduration hmemory
  · intro hsize
    rw [if_pos hsize] at hhandle
    exact ⟨hhandle, a.answer_oversized d⟩

example : Http.Url.target (someWorker.endpoint Paths.execute) = Paths.execute := by decide

end HazardDispatch
