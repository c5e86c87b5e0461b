import HazardDispatch.Proofs.Json.Codec
import HazardDispatch.Proofs.Text.Base64
import HazardDispatch.Wire.Execute
import HazardDispatch.Wire.Message

/-!
# Messages are read as what was written

Each message of the protocol obeys the law of a codec (`spells_toJson`), whatever its texts and bytes
are. The two that carry measured figures, an answer to an execute request and a result, obey it where
the figures are exact (`Json.Exact`).

Where the reader of a record meets a member that was left out, it takes what the writer left out: the
error of an answer, which is there for a failure only. A failure is read by hand, member by member;
its kind is written first.
-/

namespace HazardDispatch

open Json (Exact spells_text spells_char spells_bool spells_word32 spells_word64 spells_float
  spells_oneOf spells_none spells_some)

/-! ## names and payloads -/

theorem TaskId.spells_toJson (t : TaskId) : t.toJson.Spells ofJson t :=
  (spells_text t.text).map mk

theorem WorkerId.spells_toJson (w : WorkerId) : w.toJson.Spells ofJson w :=
  (spells_text w.text).map mk

theorem Operation.spells_toJson (op : Operation) : op.toJson.Spells ofJson op := by
  apply spells_oneOf
  cases op <;> decide

namespace Payload

theorem ofBase64?_base64 (p : Payload) : ofBase64? p.base64 = some p := by
  rw [ofBase64?, base64, String.toList_ofList, Base64.decode_encode]
  rfl

theorem spells_toJson (p : Payload) : p.toJson.Spells ofJson p where
  written := Json.written_text _
  reads := by
    have htext : p.toJson.asText = .ok p.base64 := Json.asText_text _
    simp only [ofJson, htext, bind, Except.bind, ofBase64?_base64]
    rfl

theorem ofBase64?_eq_some_iff {s : String} {p : Payload} : ofBase64? s = some p ↔ s = p.base64 := by
  constructor
  · intro h
    obtain ⟨bs, hbs, rfl⟩ := Option.map_eq_some_iff.mp h
    rw [base64, Base64.encode_of_decode hbs, String.ofList_toList]
  · rintro rfl
    exact p.ofBase64?_base64

theorem ofJson_of_asText {j : Json} {s : String} (h : j.asText = .ok s) (p : Payload) :
    ofJson j = .ok p ↔ ofBase64? s = some p := by
  have hread : ofJson j = (ofBase64? s).elim (.error .mismatch) .ok := by
    simp only [ofJson, h, bind, Except.bind]
    cases ofBase64? s <;> rfl
  rw [hread]
  cases ofBase64? s with
  | none => exact ⟨nofun, nofun⟩
  | some q => exact ⟨fun heq => congrArg some (Except.ok.inj heq),
      fun heq => congrArg Except.ok (Option.some.inj heq)⟩

/-- A payload has one text: it is read back, no other text is read as the payload, and the texts that
are read at all are the canonical ones. -/
theorem text_unique :
    (∀ p : Payload, p.toJson.reread ofJson = .ok p) ∧
      (∀ (j : Json) (p : Payload), ofJson j = .ok p ↔ j.asText = .ok p.base64) ∧
      ∀ s : String, (∃ p, ofJson (.text s) = .ok p) ↔ Base64.Canonical s.toList := by
  refine ⟨fun p => p.spells_toJson.reread, fun j p => ?_, fun s => ?_⟩
  · cases htext : j.asText with
    | error e =>
      have hread : ofJson j = .error e := by simp only [ofJson, htext, bind, Except.bind]
      rw [hread]
      exact ⟨nofun, nofun⟩
    | ok s =>
      rw [ofJson_of_asText htext, ofBase64?_eq_some_iff]
      exact ⟨congrArg Except.ok, Except.ok.inj⟩
  · rw [← Base64.exists_decode_iff]
    simp only [ofJson_of_asText (Json.asText_text s)]
    constructor
    · rintro ⟨p, hp⟩
      obtain ⟨bs, hbs, -⟩ := Option.map_eq_some_iff.mp hp
      exact ⟨bs, hbs⟩
    · rintro ⟨bs, hbs⟩
      exact ⟨⟨bs⟩, Option.map_eq_some_iff.mpr ⟨bs, hbs, rfl⟩⟩

end Payload

/-! ## the execute exchange -/

theorem ExecuteRequest.spells_toJson (r : ExecuteRequest) : r.toJson.Spells ofJson r :=
  Record.Spells.read (((((((Record.spells_build mk).field (spells_text r.taskId) (by decide)).field
    (spells_word32 r.attempt) (by decide)).field r.operation.spells_toJson (by decide)).field
    (spells_word32 r.groupId) (by decide)).field (spells_word64 r.seed) (by decide)).field
    r.payload.spells_toJson (by decide))

theorem WireStatus.spells_toJson (s : WireStatus) : s.toJson.Spells ofJson s := by
  apply spells_oneOf
  cases s <;> decide

theorem ExecuteResponse.spells_toJson {r : ExecuteResponse} (hduration : Exact r.duration)
    (hmemory : Exact r.peakMemory) : r.toJson.Spells ofJson r := by
  obtain ⟨taskId, attempt, status, error, duration, peakMemory, sent, received, payload⟩ := r
  cases error with
  | none =>
    exact Record.Spells.read ((((((((((Record.spells_build mk).field (spells_text taskId)
      (by decide)).field (spells_word32 attempt) (by decide)).field status.spells_toJson
      (by decide)).absent rfl (by decide)).field (spells_float hduration) (by decide)).field
      (spells_float hmemory) (by decide)).field (spells_word64 sent) (by decide)).field
      (spells_word64 received) (by decide)).field payload.spells_toJson (by decide))
  | some e =>
    have herror := spells_some (spells_text e) (by simp [Json.text])
    exact Record.Spells.read ((((((((((Record.spells_build mk).field (spells_text taskId)
      (by decide)).field (spells_word32 attempt) (by decide)).field status.spells_toJson
      (by decide)).field herror (by decide)).field (spells_float hduration) (by decide)).field
      (spells_float hmemory) (by decide)).field (spells_word64 sent) (by decide)).field
      (spells_word64 received) (by decide)).field payload.spells_toJson (by decide))

/-! ## messages about workers -/

theorem HealthResponse.spells_toJson (h : HealthResponse) : h.toJson.Spells ofJson h := by
  obtain ⟨workerId, status, runningTask⟩ := h
  have htask : (Json.option Json.text runningTask).Spells (Json.asOption Json.asText) runningTask := by
    cases runningTask with
    | none => exact spells_none
    | some t => exact spells_some (spells_text t) (by simp [Json.text])
  exact Record.Spells.read ((((Record.spells_build mk).field (spells_text workerId)
    (by decide)).field (spells_text status) (by decide)).field htask (by decide))

theorem CancelResponse.spells_toJson (c : CancelResponse) : c.toJson.Spells ofJson c :=
  Record.Spells.read (((Record.spells_build mk).field (spells_text c.taskId) (by decide)).field
    (spells_bool c.cancelled) (by decide))

theorem RegisterRequest.spells_toJson (r : RegisterRequest) : r.toJson.Spells ofJson r :=
  Record.Spells.read (((Record.spells_build mk).field (spells_text r.workerId) (by decide)).field
    (spells_text r.address) (by decide))

theorem ErrorResponse.spells_toJson (e : ErrorResponse) : e.toJson.Spells ofJson e :=
  Record.Spells.read ((Record.spells_build mk).field (spells_text e.error) (by decide))

/-! ## results -/

namespace FailureReason

theorem nextRelevant_kind (closed : Bool) (j : Json) (ms : List (Body × Json)) :
    nextRelevant closed ((Body.ofText "kind", j) :: ms) = .ok (some ("kind", j, ms)) := by
  rw [nextRelevant, Json.spelled_ofText]
  rfl

theorem nextRelevant_message (closed : Bool) (j : Json) (ms : List (Body × Json)) :
    nextRelevant closed ((Body.ofText "message", j) :: ms) = .ok (some ("message", j, ms)) := by
  rw [nextRelevant, Json.spelled_ofText]
  rfl

theorem spells_alone {name : String} {kind : Kind} {reason : FailureReason}
    (hkind : (Json.text name).Spells Kind.ofJson kind) (h : kind.alone = .ok reason) :
    (Json.record [("kind", .text name)]).Spells ofJson reason where
  written := Json.written_record (by simp [Json.written_text])
  reads := by
    show ofMembers true [(Body.ofText "kind", .text name)] = .ok reason
    simp only [ofMembers, nextRelevant_kind, bind, Except.bind, hkind.reads]
    exact h

theorem spells_withMessage {name message : String} {kind : Kind} {reason : FailureReason}
    (hkind : (Json.text name).Spells Kind.ofJson kind)
    (h : kind.withMessage (.text message) = .ok reason) :
    (Json.record [("kind", .text name), ("message", .text message)]).Spells ofJson reason where
  written := Json.written_record (by simp [Json.written_text])
  reads := by
    show ofMembers true [(Body.ofText "kind", .text name), (Body.ofText "message", .text message)]
      = .ok reason
    have hrest : noneLeft true [] = .ok () := rfl
    simp [ofMembers, nextRelevant_kind, nextRelevant_message, bind, Except.bind, hkind.reads, h,
      hrest, pure, Except.pure]

theorem spells_toJson (r : FailureReason) : r.toJson.Spells ofJson r := by
  cases r with
  | workerUnreachable m =>
    exact spells_withMessage (spells_oneOf rfl) (by rw [Kind.withMessage, Json.asText_text]; rfl)
  | timeout => exact spells_alone (spells_oneOf rfl) rfl
  | execution m =>
    exact spells_withMessage (spells_oneOf rfl) (by rw [Kind.withMessage, Json.asText_text]; rfl)
  | cancelled => exact spells_alone (spells_oneOf rfl) rfl

end FailureReason

theorem ResultStatus.spells_toJson (s : ResultStatus) : s.toJson.Spells ofJson s := by
  cases s with
  | success =>
    refine ⟨Json.written_text _, ?_⟩
    simp [toJson, ofJson, Json.variant, Json.text, bind, Except.bind, Json.bare]
  | failure reason =>
    have hreason := reason.spells_toJson
    refine ⟨Json.written_record (by simp [hreason.written]), ?_⟩
    simp [toJson, ofJson, Json.variant, Json.record, bind, Except.bind, hreason.reads, Except.map,
      Json.closing, pure, Except.pure]

theorem TaskResult.spells_toJson {r : TaskResult} (hduration : Exact r.duration)
    (hmemory : Exact r.peakMemory) : r.toJson.Spells ofJson r :=
  Record.Spells.read (((((((((((Record.spells_build mk).field r.taskId.spells_toJson
    (by decide)).field (spells_word32 r.attempt) (by decide)).field r.workerId.spells_toJson
    (by decide)).field r.operation.spells_toJson (by decide)).field r.status.spells_toJson
    (by decide)).field (spells_float hduration) (by decide)).field (spells_float hmemory)
    (by decide)).field (spells_word64 r.bytesSent) (by decide)).field
    (spells_word64 r.bytesReceived) (by decide)).field r.payload.spells_toJson (by decide))

end HazardDispatch
