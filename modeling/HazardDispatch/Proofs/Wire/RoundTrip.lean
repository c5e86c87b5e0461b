import HazardDispatch.Proofs.Source.Output
import HazardDispatch.Proofs.Wire.Messages
import HazardDispatch.Report.Basic

/-!
# Everything that is written is read back

What is written for a message, a result, a source, the figures of a task, the summary of an operation
or a whole report is read as the same value (`reread_all`): texts and characters of any kind, words,
bytes, and doubles that are exact.

A figure of a summary may be missing, and it may be no number. Both are written `null`, and `null` is
read as a missing figure; so a summary comes back as it is `known`. The counts of a summary and of a
report are counted in words.
-/

namespace HazardDispatch

open Json (Exact spells_text spells_char spells_bool spells_nat spells_word32 spells_word64
  spells_float spells_none spells_some spells_list_self spells_table spells_table_self)

/-! ## sources and the figures of a task -/

theorem SourceGroup.spells_toJson (g : SourceGroup) : g.toJson.Spells ofJson g :=
  Record.Spells.read ((((Record.spells_build mk).field (spells_word32 g.id)
    (by decide)).field (spells_bool g.mutex) (by decide)).field
    (SourceSpec.spells_listToJson g.sources) (by decide))

theorem TaskOutput.spells_exact {o : TaskOutput} (h : ∀ t ∈ o.timings, Exact t.calcTime) :
    o.toJson.Spells ofJson o := by
  have htimings := spells_list_self fun t ht => SourceTiming.spells_toJson (spells_float (h t ht))
  exact spells_toJson htimings

/-! ## summaries -/

theorem Json.float_of_isNaN {x : Float} (h : x.isNaN = true) : float x = .null := by
  have hnone : Decimal.Numeral.ofFloat? floatFormat x = none := by
    rw [Decimal.Numeral.ofFloat?, Decimal.Binary64.ofFloat?_of_isNaN h]
    rfl
  rw [float, hnone]

/-- A figure that is a number. -/
def knownFigure (x : Option Float) : Option Float := x.filter fun v => !v.isNaN

theorem knownFigure_of_isNaN {v : Float} (h : v.isNaN = true) : knownFigure (some v) = none := by
  show (if (!v.isNaN) = true then some v else none) = none
  rw [h]
  rfl

theorem knownFigure_of_number {v : Float} (h : v.isNaN = false) :
    knownFigure (some v) = some v := by
  show (if (!v.isNaN) = true then some v else none) = some v
  rw [h]
  rfl

/-- A figure that is missing, no number, or exact. -/
def ExactFigure (x : Option Float) : Prop := ∀ v ∈ x, v.isNaN = true ∨ Exact v

theorem spells_figure {x : Option Float} (h : ExactFigure x) :
    (Json.option Json.float x).Spells (Json.asOption Json.asFloat) (knownFigure x) := by
  cases x with
  | none => exact spells_none
  | some v =>
    cases hv : v.isNaN with
    | true =>
      rw [knownFigure_of_isNaN hv, Json.option, Json.float_of_isNaN hv]
      exact ⟨trivial, rfl⟩
    | false =>
      have hexact : Exact v := (h v rfl).resolve_left (Bool.eq_false_iff.mp hv)
      rw [knownFigure_of_number hv]
      refine spells_some (spells_float hexact) fun hnull => ?_
      rw [Exact, hnull] at hexact
      cases hexact

namespace OperationStats

def known (s : OperationStats Float) : OperationStats Float :=
  { s with
    mean := knownFigure s.mean, stddev := knownFigure s.stddev
    least := knownFigure s.least, greatest := knownFigure s.greatest }

/-- The counts are words, and the figures are exact. -/
structure IsExact (s : OperationStats Float) : Prop where
  count : s.count < Word64.bound
  mean : ExactFigure s.mean
  stddev : ExactFigure s.stddev
  least : ExactFigure s.least
  greatest : ExactFigure s.greatest
  total : Exact s.total
  maxMemory : Exact s.maxMemory
  failures : s.failures < Word64.bound

theorem spells_toJson {s : OperationStats Float} (h : s.IsExact) : s.toJson.Spells ofJson s.known :=
  Record.Spells.read (((((((((Record.spells_build mk).field (spells_nat h.count) (by decide)).field
    (spells_figure h.mean) (by decide)).field (spells_figure h.stddev) (by decide)).field
    (spells_figure h.least) (by decide)).field (spells_figure h.greatest) (by decide)).field
    (spells_float h.total) (by decide)).field (spells_float h.maxMemory) (by decide)).field
    (spells_nat h.failures) (by decide))

end OperationStats

/-! ## reports -/

namespace SourceInfo

/-- The count is a word, and the time is exact. -/
structure IsExact (s : SourceInfo Float) : Prop where
  calcTime : Exact s.calcTime
  numSplit : s.numSplit < Word64.bound

theorem spells_toJson {s : SourceInfo Float} (h : s.IsExact) : s.toJson.Spells ofJson s :=
  Record.Spells.read (((((((Record.spells_build mk).field (spells_text s.sourceId)
    (by decide)).field (spells_char s.code) (by decide)).field (spells_word64 s.numSites)
    (by decide)).field (spells_float h.calcTime) (by decide)).field (spells_nat h.numSplit)
    (by decide)).field (spells_word64 s.events) (by decide))

end SourceInfo

theorem TransferStats.spells_toJson (t : TransferStats) : t.toJson.Spells ofJson t :=
  Record.Spells.read (((Record.spells_build mk).field (spells_word64 t.sent) (by decide)).field
    (spells_word64 t.received) (by decide))

theorem Operation.ofKey_name (op : Operation) : ofKey (Body.ofText op.name) = .ok op :=
  op.spells_toJson.reads

namespace CompositeReport

def known (r : CompositeReport Float) : CompositeReport Float :=
  { r with operations := r.operations.mapValues OperationStats.known }

/-- The counts are words, and the figures are exact. -/
structure IsExact (r : CompositeReport Float) : Prop where
  expectedTasks : r.expectedTasks < Word64.bound
  completedTasks : r.completedTasks < Word64.bound
  operations : ∀ e ∈ r.operations.entries, e.2.IsExact
  slowestSources : ∀ s ∈ r.slowestSources, s.IsExact
  calcTimeByCode : ∀ e ∈ r.calcTimeByCode.entries, Exact e.2

theorem spells_toJson {r : CompositeReport Float} (h : r.IsExact) :
    r.toJson.Spells ofJson r.known := by
  have hfailed := spells_list_self fun (t : TaskId) (_ : t ∈ r.failedTasks) => t.spells_toJson
  have hslowest := spells_list_self fun s hs => SourceInfo.spells_toJson (h.slowestSources s hs)
  have hoperations : (Json.operationStats r.operations).Spells Json.asOperationStats
      (r.operations.mapValues OperationStats.known) :=
    spells_table Operation.ofKey_name fun e he => OperationStats.spells_toJson (h.operations e he)
  have hcode (c : String) : Json.spelled (Body.ofText (id c)) = .ok c := Json.spelled_ofText c
  have htimes := spells_table_self hcode fun e he => spells_float (h.calcTimeByCode e he)
  have htransfer := spells_table_self (t := r.dataTransfer) Operation.ofKey_name
    fun e _ => e.2.spells_toJson
  exact Record.Spells.read ((((((((((Record.spells_build mk).field (spells_bool r.complete)
    (by decide)).field (spells_nat h.expectedTasks) (by decide)).field
    (spells_nat h.completedTasks) (by decide)).field hfailed (by decide)).field hoperations
    (by decide)).field hslowest (by decide)).field htimes (by decide)).field htransfer
    (by decide)).field (Json.spells_groupCounts r.effRuptures) (by decide))

end CompositeReport

/-- Whatever is written is read back. -/
theorem reread_all :
    (∀ r : ExecuteRequest, r.toJson.reread ExecuteRequest.ofJson = .ok r) ∧
    (∀ r : ExecuteResponse, Exact r.duration → Exact r.peakMemory →
      r.toJson.reread ExecuteResponse.ofJson = .ok r) ∧
    (∀ h : HealthResponse, h.toJson.reread HealthResponse.ofJson = .ok h) ∧
    (∀ c : CancelResponse, c.toJson.reread CancelResponse.ofJson = .ok c) ∧
    (∀ r : RegisterRequest, r.toJson.reread RegisterRequest.ofJson = .ok r) ∧
    (∀ e : ErrorResponse, e.toJson.reread ErrorResponse.ofJson = .ok e) ∧
    (∀ r : TaskResult, Exact r.duration → Exact r.peakMemory →
      r.toJson.reread TaskResult.ofJson = .ok r) ∧
    (∀ s : SourceSpec, s.toJson.reread SourceSpec.ofJson = .ok s) ∧
    (∀ g : SourceGroup, g.toJson.reread SourceGroup.ofJson = .ok g) ∧
    (∀ o : TaskOutput, (∀ t ∈ o.timings, Exact t.calcTime) →
      o.toJson.reread TaskOutput.ofJson = .ok o) ∧
    (∀ s : OperationStats Float, s.IsExact → s.toJson.reread OperationStats.ofJson = .ok s.known) ∧
    (∀ r : CompositeReport Float, r.IsExact →
      r.toJson.reread CompositeReport.ofJson = .ok r.known) := by
  refine ⟨?_, ?_, ?_, ?_, ?_, ?_, ?_, ?_, ?_, ?_, ?_, ?_⟩
  · exact fun r => r.spells_toJson.reread
  · exact fun r hduration hmemory => (ExecuteResponse.spells_toJson hduration hmemory).reread
  · exact fun h => h.spells_toJson.reread
  · exact fun c => c.spells_toJson.reread
  · exact fun r => r.spells_toJson.reread
  · exact fun e => e.spells_toJson.reread
  · exact fun r hduration hmemory => (TaskResult.spells_toJson hduration hmemory).reread
  · exact fun s => s.spells_toJson.reread
  · exact fun g => g.spells_toJson.reread
  · exact fun o h => (TaskOutput.spells_exact h).reread
  · exact fun s h => (OperationStats.spells_toJson h).reread
  · exact fun r h => (CompositeReport.spells_toJson h).reread

/-- A summary with all kinds of figures: missing, no number, and exact. -/
def sampleSummary : OperationStats Float :=
  { count := 1, mean := some 8, stddev := none, least := some 8, greatest := some (0 / 0)
    total := 8, maxMemory := 8, failures := 3 }

def sampleReport : CompositeReport Float :=
  { complete := false, expectedTasks := 2, completedTasks := 1, failedTasks := [⟨"größe"⟩]
    operations := ⟨[(.classical, sampleSummary)], by simp⟩
    slowestSources := [⟨"fault \"7\"", 'F', 3, 8, 1, 2⟩]
    calcTimeByCode := ⟨[("F", 8)], by simp⟩
    dataTransfer := ⟨[(.classical, ⟨10, 20⟩)], by simp⟩
    effRuptures := ⟨[(0, 5), (7, 1)], by simp; decide⟩ }

theorem isExact_sampleSummary : sampleSummary.IsExact := by
  have height : ExactFigure (some 8) := by
    intro v hv
    obtain rfl := Option.some.inj hv
    exact .inr Json.exact_eight
  have hnan : ExactFigure (some (0 / 0)) := by
    intro v hv
    obtain rfl := Option.some.inj hv
    exact .inl (by decide +kernel)
  exact ⟨by decide, height, by simp [ExactFigure, sampleSummary], height, hnan, Json.exact_eight,
    Json.exact_eight, by decide⟩

theorem isExact_sampleReport : sampleReport.IsExact where
  expectedTasks := by decide
  completedTasks := by decide
  operations := by
    simp only [sampleReport, List.mem_singleton, forall_eq]
    exact isExact_sampleSummary
  slowestSources := by
    simp only [sampleReport, List.mem_singleton, forall_eq]
    exact ⟨Json.exact_eight, by decide⟩
  calcTimeByCode := by
    simp only [sampleReport, List.mem_singleton, forall_eq]
    exact Json.exact_eight

theorem reread_all_sampleReport :
    sampleReport.IsExact ∧
      sampleReport.toJson.reread CompositeReport.ofJson = .ok sampleReport.known ∧
      sampleReport.known.operations.get? .classical = some { sampleSummary with greatest := none } := by
  obtain ⟨-, -, -, -, -, -, -, -, -, -, -, hreport⟩ := reread_all
  refine ⟨isExact_sampleReport, hreport sampleReport isExact_sampleReport, ?_⟩
  have height : knownFigure (some 8) = some 8 := knownFigure_of_number (by decide +kernel)
  have hnan : knownFigure (some (0 / 0)) = none := knownFigure_of_isNaN (by decide +kernel)
  show some sampleSummary.known = _
  rw [OperationStats.known, sampleSummary, height, hnan]
  rfl

end HazardDispatch
