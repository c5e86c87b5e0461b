import HazardDispatch.Proofs.Dispatch.Ledger
import HazardDispatch.Proofs.Dispatch.Stranding
import HazardDispatch.Proofs.Report.Counters

/-!
# Results that the accounts have no room for

A dispatcher with the accounts of a calculation as its sinks can be stopped half-way by a result, and
by its task it is known which: the figures by operation never stop, and the account of the calculation
stops exactly at a result that does not fit.

So a submission has its outcome, or its task is queued or in flight, or the task is wedged, and this
is so exactly if one of its results came to the accounts when some counter had no room for it
(`wedged_iff_overflow`).
-/

namespace HazardDispatch

section
variable {F : Type} [Add F] [Sub F] [Mul F] [Div F] [Scalar F]

/-- The accounts take a result in whole just if the account of the calculation has room for it. -/
theorem Accounts.record_whole_iff (s : Accounts F) (r : TaskResult) :
    (Sink.record s r).2 = none ↔ s.2.Fits r :=
  s.2.absorb_whole_iff r

end

namespace Dispatcher

variable {σ : Type} [Sink σ] {halts : Prop} {u : Option TaskId} {d d' : Dispatcher σ}
  {es es₀ : List Event}

/-! ## every submission -/

/-- Each submission is that of a live task or has its outcome. -/
def Answered (es : List Event) (d : Dispatcher σ) : Prop :=
  ∀ n < d.nextTicket,
    (∃ t e, d.tasks.get? t = some e ∧ e.ticket = n) ∨ ∃ o, Event.resolved n o ∈ es

/-- A task stays live under its number, unless its submitter gets the outcome. -/
theorem Turn.kept_or_resolved (h : Turn halts u d es d') {t : TaskId} {e : Entry}
    (live : d.tasks.get? t = some e) :
    (∃ e', d'.tasks.get? t = some e' ∧ e'.ticket = e.ticket) ∨
      ∃ o, Event.resolved e.ticket o ∈ es := by
  by_cases hu : u = some t
  · subst hu
    have kept {e₁ e₂ : Entry} (live₁ : d.tasks.get? t = some e₁) (h : e₂.ticket = e₁.ticket) :
        e₂.ticket = e.ticket := by
      rw [h, Option.some.inj (live₁.symm.trans live)]
    have told {e₁ : Entry} {o : Outcome} {es : List Event} (live₁ : d.tasks.get? t = some e₁)
        (h : Event.resolved e₁.ticket o ∈ es) : ∃ o, Event.resolved e.ticket o ∈ es := by
      rw [Option.some.inj (live₁.symm.trans live)] at h
      exact ⟨o, h⟩
    cases h with
    | accepted t new =>
      rw [new] at live
      cases live
    | launched _ _ live₁ => exact .inl ⟨_, Table.get?_put_self _ _ _, kept live₁ rfl⟩
    | withdrawn _ live₁ => exact .inr (told live₁ List.mem_cons_self)
    | marked _ live₁ => exact .inl ⟨_, Table.get?_put_self _ _ _, kept live₁ rfl⟩
    | cancelled _ _ _ live₁ => exact .inr (told live₁ List.mem_cons_self)
    | returned _ _ live₁ => exact .inl ⟨_, Table.get?_put_self _ _ _, kept live₁ rfl⟩
    | completed _ _ _ live₁ =>
      exact .inr (told live₁ (List.mem_cons_of_mem _ List.mem_cons_self))
    | retried _ _ _ live₁ => exact .inl ⟨_, Table.get?_put_self _ _ _, kept live₁ rfl⟩
    | abandoned _ _ _ live₁ =>
      exact .inr (told live₁ (List.mem_cons_of_mem _ (List.mem_cons_of_mem _ List.mem_cons_self)))
    | halted => exact .inl ⟨e, live, rfl⟩
  · exact .inl ⟨e, (h.frame hu).2.1.trans live, rfl⟩

theorem Turn.answered (h : Turn halts u d es d') (ha : Answered es₀ d) :
    Answered (es₀ ++ es) d' := by
  have old : ∀ n < d.nextTicket, (∃ t e, d'.tasks.get? t = some e ∧ e.ticket = n) ∨
      ∃ o, Event.resolved n o ∈ es₀ ++ es := by
    intro n hn
    rcases ha n hn with ⟨t, e, live, rfl⟩ | ⟨o, ho⟩
    · rcases h.kept_or_resolved live with ⟨e', live', ht⟩ | ⟨o, ho⟩
      · exact .inl ⟨t, e', live', ht⟩
      · exact .inr ⟨o, List.mem_append_right _ ho⟩
    · exact .inr ⟨o, List.mem_append_left _ ho⟩
  intro n hn
  cases h with
  | accepted t new =>
    by_cases hlt : n < d.nextTicket
    · exact old n hlt
    · have hnext : n < d.nextTicket + 1 := hn
      exact .inl ⟨t.id, _, Table.get?_put_self _ _ _, by show d.nextTicket = n; omega⟩
  | _ => exact old n hn

theorem run_answered (config : ControllerConfig) (sink : σ) (os : List Occurrence) :
    Answered ((start config sink).run os).events ((start config sink).run os).next := by
  have h := run_tell_any (P := Answered) [] os (fun _ h => h)
    (fun _ turn h => turn.answered h) (filed_start config sink)
    (fun n hn => absurd hn (Nat.not_lt_zero n))
  intro n hn
  rcases h n hn with hl | ⟨o, ho⟩
  · exact .inl hl
  · exact .inr ⟨o, (List.mem_filter.mp ho).1⟩

/-! ## the accounts as sinks -/

variable {F : Type} [Add F] [Sub F] [Mul F] [Div F] [Scalar F]

/-- Each submission has its outcome, or its task is queued, in flight or wedged. A task is wedged just
if one of its results was handed to the accounts when a counter had no room for it. -/
theorem wedged_iff_overflow (config : ControllerConfig) (topK : Nat) (os : List Occurrence) :
    let c := (start config (Accounts.empty topK : Accounts F)).run os
    (∀ n < c.next.nextTicket, (∃ o, Event.resolved n o ∈ c.events) ∨
      ∃ t e, c.next.tasks.get? t = some e ∧ e.ticket = n ∧
        (t ∈ c.next.pending ∨ (c.next.inFlight.get? t).isSome ∨ c.next.Wedged t)) ∧
      ∀ t, c.next.Wedged t ↔ ∃ before n r after,
        c.events = before ++ .forwarded n r :: after ∧ r.taskId = t ∧
          ¬ (before.foldl Event.tell (Accounts.empty topK : Accounts F)).2.Fits r := by
  intro c
  have hd : c.next.Filed True := run_filed_any os (filed_start config _)
  refine ⟨fun n hn => ?_, fun t => ?_⟩
  · rcases run_answered config _ os n hn with ⟨t, e, live, ht⟩ | hr
    · refine .inr ⟨t, e, live, ht, ?_⟩
      cases hd.stands t with
      | queued listed => exact .inl listed
      | flying _ _ flying => exact .inr (.inl (by rw [flying]; rfl))
      | gone _ dead =>
        rw [dead] at live
        cases live
      | stranded _ unlisted live landed =>
        exact .inr (.inr ((wedged_iff hd t).mpr ⟨by rw [live]; rfl, unlisted, landed⟩))
    · exact .inl hr
  · rw [wedged_iff hd, run_stranded_iff (filed_start config _) os t, mem_spilled_iff]
    simp only [not_stranded_start, false_or, ne_eq, Accounts.record_whole_iff]
    rfl

end Dispatcher

/-! ## two answers -/

def firstCall (t : Task) (launch : Nat) : Attempt :=
  { launch, task := t, worker := { someWorker with status := .busy }, number := 1, startedAt := 0 }

def doneAfter (t : Task) (sent : UInt64) : ExecuteResponse :=
  { taskId := t.id.text, attempt := 1, status := .success, error := none, duration := 0
    peakMemory := 0, bytesSent := sent, bytesReceived := 0, payload := .empty }

namespace Dispatcher

/-- Two tasks, of which the first one fills the counter of bytes. -/
def filledUp : List Occurrence :=
  [.pool (.register someWorker), .own (.submit someTask), .own (.submit otherTask),
    .own (.answer (firstCall someTask 0) (.ok (doneAfter someTask 18446744073709551615))),
    .own (.answer (firstCall otherTask 1) (.ok (doneAfter otherTask 1)))]

/-- After both answers the second task is live for ever, though its worker said that it is done. -/
theorem wedged_filledUp :
    ((firstDay.run filledUp).next.waiting.map (·.launch)) = [] ∧
      (firstDay.run filledUp).next.Wedged otherTask.id ∧
      otherTask.id ∉ (firstDay.run filledUp).next.pending ∧
      (firstDay.run filledUp).next.inFlight.get? otherTask.id = none ∧
      outcomes (story 1 (firstDay.run filledUp).events) = [] := by
  have hs : (firstDay.run filledUp).next.Stranded otherTask.id :=
    ⟨rfl, List.not_mem_nil, rfl⟩
  have hw := (wedged_iff (run_filed_any filledUp (filed_start {} _)) _).mpr hs
  exact ⟨rfl, hw, hs.unlisted, hs.landed, rfl⟩

end Dispatcher
end HazardDispatch
