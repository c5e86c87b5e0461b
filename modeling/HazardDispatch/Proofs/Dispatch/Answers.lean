import HazardDispatch.Proofs.Dispatch.Calls
import HazardDispatch.Proofs.Dispatch.Overflow

/-!
# An answer settles the attempt of its own call

What the answer to a call does at any time of any run. Either the attempt that the call was made for is
in flight, and then it is the one that is settled, by a result that is put down to its worker; or it is
not, and then the answer is discarded. `OwnOnly` says this, for the answer as a whole operation and for
its first part alone.

It is so just if no other attempt is in flight that the answer fits, by the task and the number
(`Unmistakable`). That is guaranteed where calls are `Timely`. But where a task is submitted again while
an old call for it waits, that call's answer may settle the new attempt (`misdelivered_resubmitted`).
-/

namespace HazardDispatch

theorem Attempt.check_eq_ok {a : Attempt} {r r' : ExecuteResponse} (h : a.check r = .ok r') :
    r' = r ∧ r.taskId = a.task.id.text ∧ r.attempt.toNat = a.number := by
  unfold Attempt.check at h
  split at h
  · next hc =>
    cases h
    exact ⟨rfl, hc⟩
  · cases h

namespace Dispatcher

variable {σ : Type} [Sink σ] {halts : Prop} {d : Dispatcher σ}

/-! ## reading an answer -/

omit [Sink σ] in
theorem reading_some {a : Attempt} {reply : Except TransportError ExecuteResponse} {r : TaskResult}
    (h : d.reading a reply = some r) :
    r.taskId = a.task.id ∧ r.workerId = a.worker.workerId ∧ r.attempt = .ofNat a.number := by
  unfold reading at h
  cases hreply : reply.bind a.check with
  | ok response =>
    rw [hreply] at h
    obtain rfl := Option.some.inj h
    cases reply with
    | error e => cases hreply
    | ok response' =>
      obtain ⟨rfl, hid, hnumber⟩ := Attempt.check_eq_ok hreply
      refine ⟨?_, rfl, ?_⟩
      · show (⟨response.taskId⟩ : TaskId) = a.task.id
        rw [hid]
      · show response.attempt = .ofNat a.number
        rw [← hnumber, UInt32.ofNat_toNat]
  | error e =>
    rw [hreply] at h
    cases e with
    | busy m => cases h
    | _ =>
      obtain rfl := Option.some.inj h
      exact ⟨rfl, rfl, rfl⟩

/-! ## results that are handed on -/

omit [Sink σ] in
theorem mem_launch {a : Assignment} {e : Event} (he : e ∈ (d.launch a).events) :
    (∃ l, e = .logged l) ∨ ∃ n b, e = .launched n b := by
  have of_logged {ls : List LogLine} (he : e ∈ ls.map .logged) : ∃ l, e = .logged l := by
    obtain ⟨l, -, rfl⟩ := List.mem_map.mp he
    exact ⟨l, rfl⟩
  unfold launch at he
  simp only [] at he
  split at he
  · rcases List.mem_append.mp he with he | he
    · exact .inl (of_logged he)
    · exact .inl (of_logged he)
  · rcases List.mem_append.mp he with he | he
    · exact .inl (of_logged he)
    · exact .inr ⟨_, _, List.mem_singleton.mp he⟩

omit [Sink σ] in
/-- In a scheduling cycle there are launches and nothing else. -/
theorem mem_pumpRounds (n : Nat) {d : Dispatcher σ} {e : Event}
    (he : e ∈ (pumpRounds n d).events) : (∃ l, e = .logged l) ∨ ∃ n b, e = .launched n b := by
  induction n generalizing d with
  | zero => cases he
  | succ n ih =>
    rw [pumpRounds] at he
    cases hnext : d.nextAssignment? with
    | none =>
      rw [hnext] at he
      cases he
    | some a =>
      rw [hnext] at he
      rcases List.mem_append.mp he with he | he
      · exact mem_launch he
      · exact ih he

omit [Sink σ] in
theorem forwards_pumpRounds (n : Nat) (d : Dispatcher σ) :
    forwards (pumpRounds n d).events = [] := by
  rw [forwards, List.filterMap_eq_nil_iff]
  intro e he
  obtain ⟨l, rfl⟩ | ⟨n, b, rfl⟩ := mem_pumpRounds n he
  · rfl
  · rfl

theorem forwards_conclude (d : Dispatcher σ) (e : Entry) (r : TaskResult) :
    forwards (d.conclude e r).events = [] := by
  unfold conclude
  split
  · rfl
  · split <;> rfl

/-- A result for a live task is handed on, unless the task is cancelled. -/
theorem forwards_applyResult_of_live {r : TaskResult} {e : Entry}
    (live : d.tasks.get? r.taskId = some e) :
    forwards (d.applyResult r).change.events = if e.cancelRequested then [] else [r] := by
  unfold applyResult
  rw [live]
  simp only []
  split
  · rfl
  · cases hr : (Sink.record d.sink r).2 with
    | some o =>
      rw [account_of_halted hr]
      show r :: forwards ((Sink.log d.sink r).map .logged) = [r]
      rw [forwards_logged]
    | none =>
      rw [account_of_whole hr]
      show r :: forwards ((Sink.log d.sink r).map .logged ++ _) = [r]
      rw [forwards_append, forwards_logged, forwards_conclude]
      rfl

theorem forwards_applyResult (d : Dispatcher σ) (r : TaskResult) :
    forwards (d.applyResult r).change.events ⊆ [r] := by
  cases live : d.tasks.get? r.taskId with
  | none =>
    unfold applyResult
    rw [live]
    exact List.nil_subset _
  | some e =>
    rw [forwards_applyResult_of_live live]
    split
    · exact List.nil_subset _
    · exact List.Subset.refl _

theorem forwards_receive (d : Dispatcher σ) (r : TaskResult) :
    forwards (d.receive r).change.events ⊆ [r] := by
  unfold receive
  split
  · exact List.nil_subset _
  · next a d' _ =>
    obtain ⟨ls, h⟩ := (d'.disarm a.launch).settle_eq a r
    show forwards ((d'.disarm a.launch).settle a r).change.events ⊆ [r]
    rw [h]
    show forwards (ls.map .logged ++ _) ⊆ [r]
    rw [forwards_append, forwards_logged, List.nil_append]
    exact forwards_applyResult _ r

omit [Sink σ] in
theorem forwards_giveBack (d : Dispatcher σ) (t : TaskId) (number : Nat) :
    forwards (d.giveBack t number).events = [] := by
  unfold giveBack
  split
  · rfl
  · next a d' _ =>
    unfold giveBackTaken
    show forwards ((Pool.markUnreachable _ _).log.map .logged ++ _) = []
    rw [forwards_append, forwards_logged, List.nil_append]
    simp only []
    split
    · rfl
    · split <;> rfl

/-! ## attempts that stay in flight -/

theorem inFlight_applyResult (d : Dispatcher σ) (r : TaskResult) :
    (d.applyResult r).change.next.inFlight = d.inFlight := by
  unfold applyResult
  cases d.tasks.get? r.taskId with
  | none => rfl
  | some e =>
    simp only []
    split
    · rfl
    · cases hr : (Sink.record d.sink r).2 with
      | some o =>
        rw [account_of_halted hr]
        rfl
      | none =>
        rw [account_of_whole hr]
        show ((d.recorded r).conclude e r).next.inFlight = d.inFlight
        unfold conclude
        split
        · rfl
        · split <;> rfl

theorem inFlight_receive {r : TaskResult} {x : Attempt × Dispatcher σ}
    (h : d.take? r.taskId r.attempt.toNat = some x) :
    (d.receive r).change.next.inFlight = d.inFlight.erase r.taskId := by
  obtain ⟨a, d'⟩ := x
  unfold receive
  rw [h]
  obtain ⟨-, -, rfl⟩ := take?_eq_some h
  obtain ⟨ls, hs⟩ := (d.without r.taskId a.launch).settle_eq a r
  show ((d.without r.taskId a.launch).settle a r).change.next.inFlight = _
  rw [hs]
  exact inFlight_applyResult _ r

omit [Sink σ] in
theorem giveBack_of_taken {t : TaskId} {number : Nat} {x : Attempt × Dispatcher σ}
    (h : d.take? t number = some x) : (d.giveBack t number).next.inFlight = d.inFlight.erase t ∧
      (d.giveBack t number).next.nextLaunch = d.nextLaunch := by
  obtain ⟨a, d'⟩ := x
  unfold giveBack
  rw [h]
  obtain ⟨-, -, rfl⟩ := take?_eq_some h
  unfold giveBackTaken
  simp only [Change.andThen]
  split
  · exact ⟨rfl, rfl⟩
  · split <;> exact ⟨rfl, rfl⟩

/-- A scheduling cycle does nothing, or it launches an attempt. -/
theorem pumpRounds_same_or_lt (n : Nat) (hd : d.Filed halts) :
    (pumpRounds n d).next = d ∨ d.nextLaunch < (pumpRounds n d).next.nextLaunch := by
  refine pumpRounds_preserves (P := fun d' => d' = d ∨ d.nextLaunch < d'.nextLaunch) ?_ n hd
    (.inl rfl)
  intro d' a e _ _ _ h
  refine .inr (show d.nextLaunch < d'.nextLaunch + 1 from ?_)
  rcases h with rfl | hlt
  · exact Nat.lt_succ_self _
  · exact Nat.lt_succ_of_lt hlt

theorem andThen_pump_idle {s : Settled σ} (hd : s.change.next.Filed halts)
    (h : (s.andThen pump).change.next.nextLaunch = s.change.next.nextLaunch) :
    (s.andThen pump).change.next = s.change.next := by
  unfold Settled.andThen at h ⊢
  split
  · next hstop =>
    rw [hstop] at h
    rcases pumpRounds_same_or_lt s.change.next.pending.length hd with hsame | hlt
    · exact hsame
    · exact absurd h (Nat.ne_of_gt hlt)
  · rfl

/-! ## the settled attempt -/

/-- The answer to the call settles the attempt that the call was made for, or it is discarded. -/
structure OwnOnly (d : Dispatcher σ) (a : Attempt) (c : Change σ) : Prop where
  discarded : d.inFlight.get? a.task.id ≠ some a → c.next = d.heard a ∧ facts c.events = []
  others : ∀ t b, b ≠ a → d.inFlight.get? t = some b → c.next.inFlight.get? t = some b
  handed : ∀ r ∈ forwards c.events, d.inFlight.get? a.task.id = some a ∧ r.taskId = a.task.id ∧
    r.workerId = a.worker.workerId ∧ r.attempt.toNat = a.number

variable {a : Attempt} {c : Change σ}

omit [Sink σ] in
theorem ownOnly_of_discarded (hnext : c.next = d.heard a) (hfacts : facts c.events = []) :
    d.OwnOnly a c where
  discarded _ := ⟨hnext, hfacts⟩
  others t b _ flying := by
    rw [hnext]
    exact flying
  handed r hr := by
    rw [← forwards_facts, hfacts] at hr
    cases hr

omit [Sink σ] in
theorem ownOnly_of_flying (flying : d.inFlight.get? a.task.id = some a)
    (others : ∀ t, t ≠ a.task.id → c.next.inFlight.get? t = d.inFlight.get? t)
    (handed : ∀ r ∈ forwards c.events, r.taskId = a.task.id ∧ r.workerId = a.worker.workerId ∧
      r.attempt.toNat = a.number) : d.OwnOnly a c where
  discarded h := absurd flying h
  others t b hne hb := by
    rw [others t, hb]
    rintro rfl
    exact hne (Option.some.inj (hb.symm.trans flying))
  handed r hr := ⟨flying, handed r hr⟩

omit [Sink σ] in
theorem OwnOnly.saying (h : d.OwnOnly a c) (log : List LogLine) : d.OwnOnly a (c.saying log) where
  discarded hne := by
    obtain ⟨hnext, hfacts⟩ := h.discarded hne
    refine ⟨hnext, ?_⟩
    show facts (log.map .logged ++ c.events) = []
    rw [facts_append, facts_logged, hfacts]
    rfl
  others := h.others
  handed r hr := by
    replace hr : r ∈ forwards (log.map .logged ++ c.events) := hr
    rw [forwards_append, forwards_logged, List.nil_append] at hr
    exact h.handed r hr

theorem OwnOnly.andThen_pump {s : Settled σ} (h : d.OwnOnly a s.change)
    (flying : d.inFlight.get? a.task.id = some a) (hd : s.change.next.Filed halts) :
    d.OwnOnly a (s.andThen Dispatcher.pump).change := by
  unfold Settled.andThen
  split
  · refine ⟨fun hne => absurd flying hne, fun t b hne hb => ?_, fun r hr => ?_⟩
    · exact pumpRounds_keeps _ hd (h.others t b hne hb)
    · replace hr : r ∈ forwards (s.change.events ++ s.change.next.pump.events) := hr
      rw [forwards_append, pump, forwards_pumpRounds, List.append_nil] at hr
      exact h.handed r hr
  · exact h

/-! ## what an answer fits -/

variable {b : Attempt}

omit [Sink σ] in
theorem take?_heard_of_fits (flying : d.inFlight.get? a.task.id = some b)
    (number : b.number = a.number) : ∃ x, (d.heard a).take? a.task.id a.number = some x :=
  ⟨_, take?_of_flying (d := d.heard a) flying number⟩

omit [Sink σ] in
/-- The attempt of the call is not in flight, so nothing is found that the answer fits. -/
theorem Unmistakable.take?_heard (h : d.Unmistakable a)
    (landed : d.inFlight.get? a.task.id ≠ some a) :
    (d.heard a).take? a.task.id a.number = none := by
  cases htake : (d.heard a).take? a.task.id a.number with
  | none => rfl
  | some x =>
    obtain ⟨b, d'⟩ := x
    obtain ⟨flying, number, -⟩ := take?_eq_some htake
    replace flying : d.inFlight.get? a.task.id = some b := flying
    obtain rfl := h b flying number
    exact absurd flying landed

omit [Sink σ] in
/-- The result of an answer looks for the attempt that has the task and the number of the call. -/
theorem Called.take?_reading (h : d.Called) (ha : a ∈ d.waiting)
    {reply : Except TransportError ExecuteResponse} {r : TaskResult}
    (hr : (d.heard a).reading a reply = some r) :
    (d.heard a).take? r.taskId r.attempt.toNat = (d.heard a).take? a.task.id a.number := by
  obtain ⟨hid, -, hnumber⟩ := reading_some hr
  rw [hid, hnumber, h.toNat_number ha]

/-- An answer that fits is applied, and a scheduling cycle follows. -/
theorem Called.answer_of_fits (h : d.Called) (ha : a ∈ d.waiting)
    (flying : d.inFlight.get? a.task.id = some b) (number : b.number = a.number)
    (reply : Except TransportError ExecuteResponse) :
    ∃ log, (d.answer a reply).change = ((d.returned a reply).andThen pump).change.saying log := by
  obtain ⟨x, hx⟩ := take?_heard_of_fits flying number
  unfold Dispatcher.returned
  rw [answer_eq]
  cases hr : (d.heard a).reading a reply with
  | some r =>
    rw [← h.take?_reading ha hr] at hx
    refine ⟨[], ?_⟩
    show ((d.heard a).deliver r).change = _
    rw [deliver_of_taken hx]
    rfl
  | none => exact ⟨_, refuse_of_taken hx⟩

/-- An answer that fits takes the attempt out of flight that it fits, and launches none. -/
theorem Called.returned_of_fits (h : d.Called) (ha : a ∈ d.waiting)
    (flying : d.inFlight.get? a.task.id = some b) (number : b.number = a.number)
    (reply : Except TransportError ExecuteResponse) :
    (d.returned a reply).change.next.inFlight = d.inFlight.erase a.task.id ∧
      (d.returned a reply).change.next.nextLaunch = d.nextLaunch := by
  obtain ⟨x, hx⟩ := take?_heard_of_fits flying number
  unfold Dispatcher.returned
  cases hr : (d.heard a).reading a reply with
  | some r =>
    rw [← h.take?_reading ha hr] at hx
    have hid : r.taskId = a.task.id := (reading_some hr).1
    exact ⟨hid ▸ inFlight_receive hx, (eases_receive (d.heard a) r).next⟩
  | none => exact giveBack_of_taken hx

/-- An answer that does not fit is discarded, with and without a scheduling cycle. -/
theorem Called.discarded (h : d.Called) (ha : a ∈ d.waiting)
    (stale : (d.heard a).take? a.task.id a.number = none)
    (reply : Except TransportError ExecuteResponse) :
    ((d.returned a reply).change.next = d.heard a ∧
        facts (d.returned a reply).change.events = []) ∧
      (d.answer a reply).change.next = d.heard a ∧
        facts (d.answer a reply).change.events = [] := by
  unfold Dispatcher.returned
  rw [answer_eq]
  cases hr : (d.heard a).reading a reply with
  | some r =>
    rw [← h.take?_reading ha hr] at stale
    simp only []
    unfold receive deliver
    rw [stale]
    exact ⟨⟨rfl, rfl⟩, rfl, rfl⟩
  | none =>
    simp only []
    unfold Dispatcher.giveBack Dispatcher.refuse
    rw [stale]
    exact ⟨⟨rfl, rfl⟩, rfl, rfl⟩

/-- What is handed on is put down to the call. -/
theorem Called.handed (h : d.Called) (ha : a ∈ d.waiting)
    (reply : Except TransportError ExecuteResponse) :
    ∀ r ∈ forwards (d.returned a reply).change.events, r.taskId = a.task.id ∧
      r.workerId = a.worker.workerId ∧ r.attempt.toNat = a.number := by
  intro r' hr'
  unfold Dispatcher.returned at hr'
  cases hr : (d.heard a).reading a reply with
  | some r =>
    rw [hr] at hr'
    obtain rfl := List.mem_singleton.mp (forwards_receive _ r hr')
    obtain ⟨hid, hworker, hnumber⟩ := reading_some hr
    exact ⟨hid, hworker, by rw [hnumber, h.toNat_number ha]⟩
  | none =>
    rw [hr] at hr'
    replace hr' : r' ∈ forwards ((d.heard a).giveBack a.task.id a.number).events := hr'
    rw [forwards_giveBack] at hr'
    cases hr'

/-! ## the attempt that is settled -/

/-- Another attempt has the task and the number of the call, and then that one is out of flight. -/
theorem Called.not_ownOnly (h : d.Called) (ha : a ∈ d.waiting) (hne : b ≠ a)
    (flying : d.inFlight.get? a.task.id = some b) (number : b.number = a.number)
    (reply : Except TransportError ExecuteResponse)
    (hc : c.next = d.heard a → c.next = (d.returned a reply).change.next) : ¬ d.OwnOnly a c := by
  intro own
  have landed : d.inFlight.get? a.task.id ≠ some a := fun hf =>
    hne (Option.some.inj (flying.symm.trans hf))
  have hnext : c.next = d.heard a := (own.discarded landed).1
  have hkept : c.next.inFlight.get? a.task.id = some b := hnext ▸ flying
  rw [hc hnext, (h.returned_of_fits ha flying number reply).1, Table.get?_erase_self] at hkept
  cases hkept

theorem Called.ownOnly_returned_iff (h : d.Called) (ha : a ∈ d.waiting)
    (reply : Except TransportError ExecuteResponse) :
    d.OwnOnly a (d.returned a reply).change ↔ d.Unmistakable a := by
  refine ⟨fun own b flying number => ?_, fun fits => ?_⟩
  · refine Classical.byContradiction fun hne => ?_
    exact h.not_ownOnly ha hne flying number reply (fun _ => rfl) own
  · by_cases flying : d.inFlight.get? a.task.id = some a
    · refine ownOnly_of_flying flying (fun t ht => ?_) (h.handed ha reply)
      rw [(h.returned_of_fits ha flying rfl reply).1]
      exact Table.get?_erase_of_ne _ ht
    · obtain ⟨⟨hnext, hfacts⟩, -⟩ := h.discarded ha (fits.take?_heard flying) reply
      exact ownOnly_of_discarded hnext hfacts

theorem Called.ownOnly_answer_iff (h : d.Called) (hd : d.Filed True) (ha : a ∈ d.waiting)
    (reply : Except TransportError ExecuteResponse) :
    d.OwnOnly a (d.answer a reply).change ↔ d.Unmistakable a := by
  have hfiled := filed_returned hd a reply
  refine ⟨fun own b flying number => ?_, fun fits => ?_⟩
  · refine Classical.byContradiction fun hne => ?_
    obtain ⟨log, hanswer⟩ := h.answer_of_fits ha flying number reply
    refine h.not_ownOnly ha hne flying number reply (fun hnext => ?_) own
    -- the cycle that follows launched nothing, so it did nothing
    rw [hanswer] at hnext ⊢
    have hsame : (((d.returned a reply).andThen pump).change.saying log).next.nextLaunch
        = d.nextLaunch := congrArg (·.nextLaunch) hnext
    exact andThen_pump_idle hfiled
      (hsame.trans (h.returned_of_fits ha flying number reply).2.symm)
  · by_cases flying : d.inFlight.get? a.task.id = some a
    · obtain ⟨log, hanswer⟩ := h.answer_of_fits ha flying rfl reply
      rw [hanswer]
      exact (((h.ownOnly_returned_iff ha reply).mpr fits).andThen_pump flying hfiled).saying log
    · obtain ⟨-, hnext, hfacts⟩ := h.discarded ha (fits.take?_heard flying) reply
      exact ownOnly_of_discarded hnext hfacts

/-- In any run, the answer to a call settles the attempt that the call was made for and no other, and
is put down to the worker of that attempt; if the attempt came to its end already, the answer is
discarded. This is so just if no other attempt at the task is in flight with the number of the call;
and there is none as long as no task is accepted while a call for it waits for its answer. -/
theorem answer_settles_own (config : ControllerConfig) (sink : σ) (hs : List Happening) :
    let d := ((start config sink).history hs).next
    (d.waiting.map (·.launch)).Nodup ∧
      (∀ a ∈ d.waiting, ∀ h : Happening, h.Answers a →
        (d.OwnOnly a (d.occur h).change ↔ d.Unmistakable a)) ∧
      ((start config sink).Throughout Genuine hs → (start config sink).Throughout Timely hs →
        ∀ a ∈ d.waiting, d.Unmistakable a) := by
  intro d
  obtain ⟨hd, hcalled⟩ := history_called hs (filed_start config sink) (called_start config sink)
  refine ⟨hcalled.distinct, fun a ha x hx => ?_, fun genuine timely a ha => ?_⟩
  · cases hx with
    | whole reply => exact hcalled.ownOnly_answer_iff hd ha reply
    | part reply => exact hcalled.ownOnly_returned_iff ha reply
  · exact (history_orderly genuine timely (filed_start config sink)
      (orderly_start config sink)).2.unmistakable ha

/-- The first attempt runs into its deadline; the second one is on the other worker. -/
def timedOut : List Happening :=
  [.occurs (.pool (.register someWorker)), .occurs (.pool (.register spareWorker)),
    .occurs (.own (.submit someTask)), .occurs (.own (.deadline ⟨0, someTask.id, 1, 0⟩))]

/-- The late answer of the first worker is discarded. -/
theorem answer_settles_own_timedOut :
    firstDay.Throughout Genuine timedOut ∧ firstDay.Throughout Timely timedOut ∧
      firstCall someTask 0 ∈ (firstDay.history timedOut).next.waiting ∧
      ∀ reply, ((firstDay.history timedOut).next.answer (firstCall someTask 0) reply).change.next
        = (firstDay.history timedOut).next.heard (firstCall someTask 0) := by
  have genuine : firstDay.Throughout Genuine timedOut :=
    ⟨trivial, trivial, trivial, trivial, trivial⟩
  have timely : firstDay.Throughout Timely timedOut := by
    refine ⟨fun _ _ h => (nomatch h), fun _ _ h => (nomatch h), fun _ _ _ a ha => ?_,
      fun _ _ h => (nomatch h), trivial⟩
    exact absurd ha List.not_mem_nil
  have waits : firstCall someTask 0 ∈ (firstDay.history timedOut).next.waiting :=
    List.mem_cons_self
  have landed : (firstDay.history timedOut).next.inFlight.get? someTask.id
      ≠ some (firstCall someTask 0) := by
    have hlaunch : ((firstDay.history timedOut).next.inFlight.get? someTask.id).map (·.launch)
        = some 1 := rfl
    intro h
    rw [h] at hlaunch
    cases hlaunch
  obtain ⟨-, own, told⟩ := answer_settles_own {} (.empty 10 : Accounts Float) timedOut
  exact ⟨genuine, timely, waits, fun reply =>
    (((own _ waits _ (.whole reply)).mpr (told genuine timely _ waits)).discarded landed).1⟩

def strict : Dispatcher (Accounts Float) := .start { maxRetries := 1 } (.empty 10)

/-- The task is given up after its deadline, and submitted again. -/
def resubmitted : List Happening := timedOut ++ [.occurs (.own (.submit someTask))]

/-- The first worker answers now. This completes the second submission, whose attempt is on the other
worker: that one is idle, though it still runs the attempt. -/
theorem misdelivered_resubmitted :
    let d := (strict.history resubmitted).next
    let c := (d.answer (firstCall someTask 0) (.ok (doneAfter someTask 0))).change
    strict.Throughout Genuine resubmitted ∧ firstCall someTask 0 ∈ d.waiting ∧
      (d.inFlight.get? someTask.id).map (·.launch) = some 1 ∧
      d.worker? someTask.id = some spareWorker.workerId ∧
      c.next.inFlight.get? someTask.id = none ∧
      (forwards (story 1 c.events)).map (·.workerId) = [someWorker.workerId] ∧
      (outcomes (story 1 c.events)).map (·.isCompleted) = [true] ∧
      c.next.pool.status? spareWorker.workerId = some .idle ∧
      c.next.waiting.map (·.launch) = [1] := by
  refine ⟨⟨trivial, trivial, trivial, trivial, trivial, trivial⟩, List.mem_cons_self, ?_⟩
  exact ⟨rfl, rfl, rfl, rfl, rfl, rfl, rfl⟩

end Dispatcher
end HazardDispatch
