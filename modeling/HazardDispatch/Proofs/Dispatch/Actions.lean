import HazardDispatch.Proofs.Dispatch.Standing

/-!
# Actions as lists of turns

Each action of a dispatcher whose books are in order is a list of turns (`act_turns`), so what all
turns keep is kept by a whole run (`run_tell`). This is the only place where the operations are taken
apart. What is not a submission accepts no task (`act_follows`), which shows in the numbers of the
submissions: none is used up.

The branches for a task without an entry are never taken: whatever is queued or in flight has one.
-/

namespace HazardDispatch.Dispatcher

variable {σ : Type} [Sink σ] {halts : Prop} {d : Dispatcher σ}

/-- The change is a list of turns, and none of them accepts a task. -/
structure Follows (halts : Prop) (d : Dispatcher σ) (c : Change σ) : Prop where
  turns : Turns halts d (facts c.events) c.next
  nextTicket : c.next.nextTicket = d.nextTicket

theorem Follows.filed {c : Change σ} (h : Follows halts d c) (hd : d.Filed halts) :
    c.next.Filed halts := h.turns.filed hd

theorem follows_none (d : Dispatcher σ) : Follows halts d (.none d) := ⟨.nil d, rfl⟩

theorem Follows.saying {c : Change σ} (h : Follows halts d c) (log : List LogLine) :
    Follows halts d (c.saying log) := by
  refine ⟨?_, h.nextTicket⟩
  show Turns halts d (facts (log.map .logged ++ c.events)) c.next
  rw [facts_append, facts_logged, List.nil_append]
  exact h.turns

theorem Follows.andThen {c : Change σ} {f : Dispatcher σ → Change σ} (h : Follows halts d c)
    (hf : Follows halts c.next (f c.next)) : Follows halts d (c.andThen f) := by
  refine ⟨?_, hf.nextTicket.trans h.nextTicket⟩
  show Turns halts d (facts (c.events ++ (f c.next).events)) (f c.next).next
  rw [facts_append]
  exact h.turns.append hf.turns

theorem Follows.of_turn {t : TaskId} {e : Entry} {c : Change σ} (live : d.tasks.get? t = some e)
    (h : Turn halts (some t) d (facts c.events) c.next) : Follows halts d c :=
  ⟨h.turns, h.nextTicket_of_live live⟩

/-! ## scheduling -/

omit [Sink σ] in
theorem task_of_assign? {t : TaskId} {a : Assignment} (h : d.assign? t = some a) : a.task = t := by
  obtain ⟨w, -, rfl⟩ := Option.map_eq_some_iff.mp h
  rfl

omit [Sink σ] in
theorem launch_eq {a : Assignment} {e : Entry} (live : d.tasks.get? a.task = some e) :
    d.launch a = Change.saying (a.log ++ [⟨.info, "Assigning task to worker"⟩])
      ⟨d.takeOff a e, [.launched e.ticket (d.attemptOf a e)]⟩ := by
  unfold launch
  simp only [live]
  rfl

theorem launch_follows (hd : d.Filed halts) {t : TaskId} {a : Assignment} (ht : t ∈ d.pending)
    (ha : d.assign? t = some a) : Follows halts d (d.launch a) := by
  obtain rfl := task_of_assign? ha
  obtain ⟨e, live, -⟩ := hd.of_queued ht
  rw [launch_eq live]
  exact (Follows.of_turn live (.launched ht ha live)).saying _

theorem pumpRounds_follows (n : Nat) (d : Dispatcher σ) (hd : d.Filed halts) :
    Follows halts d (pumpRounds n d) := by
  induction n generalizing d with
  | zero => exact follows_none d
  | succ n ih =>
    rw [pumpRounds]
    cases h : d.nextAssignment? with
    | none => exact follows_none d
    | some a =>
      obtain ⟨t, ht, ha⟩ := List.exists_of_findSome?_eq_some h
      have hl := launch_follows hd ht ha
      exact hl.andThen (ih _ (hl.filed hd))

theorem pump_follows (hd : d.Filed halts) : Follows halts d d.pump :=
  pumpRounds_follows _ d hd

/-- What all launches keep, a scheduling cycle keeps. -/
theorem pumpRounds_preserves {P : Dispatcher σ → Prop}
    (step : ∀ {d a e}, d.Filed halts → a.task ∈ d.pending → d.tasks.get? a.task = some e →
      P d → P (d.takeOff a e))
    (n : Nat) (hd : d.Filed halts) (h : P d) : P (pumpRounds n d).next := by
  induction n generalizing d with
  | zero => exact h
  | succ n ih =>
    rw [pumpRounds]
    cases hnext : d.nextAssignment? with
    | none => exact h
    | some a =>
      obtain ⟨t, ht, ha⟩ := List.exists_of_findSome?_eq_some hnext
      have hfiled : (d.launch a).next.Filed halts := (launch_follows hd ht ha).filed hd
      obtain rfl := task_of_assign? ha
      obtain ⟨e, live, -⟩ := hd.of_queued ht
      refine ih hfiled ?_
      rw [launch_eq live]
      exact step hd ht live h

/-- A scheduling cycle takes nothing out of flight. -/
theorem pumpRounds_keeps (n : Nat) {t : TaskId} {a : Attempt} (hd : d.Filed halts)
    (ha : d.inFlight.get? t = some a) : (pumpRounds n d).next.inFlight.get? t = some a := by
  refine pumpRounds_preserves (P := fun d => d.inFlight.get? t = some a) ?_ n hd ha
  intro d x e hd hx _ ha
  obtain ⟨-, -, landed, -⟩ := hd.of_queued hx
  have hne : t ≠ x.task := by
    rintro rfl
    rw [landed] at ha
    cases ha
  exact (Table.get?_put_of_ne _ _ hne).trans ha

/-! ## results -/

omit [Sink σ] in
theorem freeWorker_eq (d : Dispatcher σ) (w : WorkerId) (r : TaskResult) :
    ∃ ls : List LogLine, d.freeWorker w r
      = ⟨{ d with pool := d.pool.vacate w (some r.status) }, ls.map .logged⟩ := by
  unfold freeWorker Pool.vacate
  cases r.status with
  | success => exact ⟨_, rfl⟩
  | failure reason =>
    simp only []
    split
    · exact ⟨_ :: (d.pool.deregister w).log, rfl⟩
    · exact ⟨_, rfl⟩

/-- What `settle` does to a dispatcher whose worker is freed already. -/
def applyResult (d : Dispatcher σ) (r : TaskResult) : Settled σ :=
  match d.tasks.get? r.taskId with
  | none => .whole (.none d)
  | some e =>
    if e.cancelRequested then
      .whole ((d.resolve r.taskId e (.cancelled r.taskId)).saying
        [⟨.info, "Cancelled task settled"⟩])
    else d.account e r

theorem settle_eq (d : Dispatcher σ) (a : Attempt) (r : TaskResult) :
    ∃ ls : List LogLine, d.settle a r
      = Settled.after ⟨{ d with pool := d.pool.vacate a.worker.workerId (some r.status) },
          ls.map .logged⟩ fun d => d.applyResult r := by
  obtain ⟨ls, h⟩ := d.freeWorker_eq a.worker.workerId r
  refine ⟨ls, ?_⟩
  rw [settle, h]
  rfl

/-- The dispatcher after its sinks took the result in. -/
def recorded (d : Dispatcher σ) (r : TaskResult) : Dispatcher σ :=
  { d with sink := (Sink.record d.sink r).1 }

theorem account_eq (d : Dispatcher σ) (e : Entry) (r : TaskResult) :
    d.account e r =
      let c : Change σ :=
        ⟨d.recorded r, .forwarded e.ticket r :: (Sink.log d.sink r).map .logged⟩
      match (Sink.record d.sink r).2 with
      | some o => ⟨c, some o⟩
      | none => .whole (c.andThen fun d => d.conclude e r) := rfl

theorem account_of_halted {e : Entry} {r : TaskResult} {o : Overflow}
    (h : (Sink.record d.sink r).2 = some o) :
    d.account e r
      = ⟨⟨d.recorded r, .forwarded e.ticket r :: (Sink.log d.sink r).map .logged⟩, some o⟩ := by
  rw [account_eq, h]

theorem account_of_whole {e : Entry} {r : TaskResult} (h : (Sink.record d.sink r).2 = none) :
    d.account e r = .whole (Change.andThen
      ⟨d.recorded r, .forwarded e.ticket r :: (Sink.log d.sink r).map .logged⟩
      fun d => d.conclude e r) := by
  rw [account_eq, h]

theorem facts_account {e : Entry} {r : TaskResult} (h : (Sink.record d.sink r).2 = none) :
    facts (d.account e r).change.events
      = .forwarded e.ticket r :: facts ((d.recorded r).conclude e r).events := by
  rw [account_of_whole h]
  show facts ((.forwarded e.ticket r :: (Sink.log d.sink r).map .logged) ++ _) = _
  rw [facts_append, facts_cons, facts_logged]
  rfl

theorem conclude_success {e : Entry} {r : TaskResult} (h : r.status = .success) :
    d.conclude e r
      = (d.resolve r.taskId e (.completed r)).saying [⟨.info, "Task completed"⟩] := by
  rw [conclude, h]

theorem conclude_retried {e : Entry} {r : TaskResult} {reason : FailureReason}
    (h : r.status = .failure reason) (retryable : reason.isRetryable = true)
    (left : e.attempts < d.maxAttempts) :
    d.conclude e r = (Change.none (d.requeue r.taskId e)).saying
      [⟨.warn, "Task attempt failed - requeueing"⟩] := by
  rw [conclude, h]
  simp only [retryable, left, decide_true, Bool.and_self, if_true]

theorem conclude_abandoned {e : Entry} {r : TaskResult} {reason : FailureReason}
    (h : r.status = .failure reason)
    (last : ¬ (reason.isRetryable = true ∧ e.attempts < d.maxAttempts)) :
    d.conclude e r = d.abandon r.taskId e reason := by
  rw [conclude, h]
  simp only [Bool.and_eq_true, decide_eq_true_eq, if_neg last]

theorem account_follows {r : TaskResult} {a : Attempt} {e : Entry} (l : Nat)
    (flying : d.inFlight.get? r.taskId = some a) (number : r.attempt.toNat = a.number)
    (live : d.tasks.get? r.taskId = some e) (wanted : e.cancelRequested = false)
    (hs : ((d.land r.taskId a.worker.workerId l (some r.status)).account e r).stop ≠ none →
      halts) :
    Follows halts d
      ((d.land r.taskId a.worker.workerId l (some r.status)).account e r).change := by
  cases hr : (Sink.record d.sink r).2 with
  | some o =>
    rw [account_of_halted (d := d.land _ _ l _) hr] at hs ⊢
    refine .of_turn live ?_
    show Turn halts _ d (facts (.forwarded e.ticket r :: (Sink.log d.sink r).map .logged)) _
    rw [facts_cons, facts_logged]
    exact .halted l (hs (by simp)) flying number live wanted (by simp [hr])
  | none =>
    let d' := (d.land r.taskId a.worker.workerId l (some r.status)).recorded r
    refine .of_turn live ?_
    rw [facts_account (d := d.land _ _ l _) hr, account_of_whole (d := d.land _ _ l _) hr]
    show Turn halts _ d (_ :: facts (d'.conclude e r).events) (d'.conclude e r).next
    rcases hstatus : r.status with _ | reason
    · rw [conclude_success hstatus]
      exact .completed l flying number live wanted hstatus hr
    · by_cases hc : reason.isRetryable = true ∧ e.attempts < d.maxAttempts
      · rw [conclude_retried (d := d') hstatus hc.1 hc.2]
        exact .retried l flying number live wanted hstatus hc.1 hc.2 hr
      · rw [conclude_abandoned (d := d') hstatus hc]
        exact .abandoned l flying number live wanted hstatus hc hr

theorem applyResult_follows {r : TaskResult} {a : Attempt} (l : Nat) (hd : d.Filed halts)
    (flying : d.inFlight.get? r.taskId = some a) (number : r.attempt.toNat = a.number)
    (hs : ((d.land r.taskId a.worker.workerId l (some r.status)).applyResult r).stop ≠ none →
      halts) :
    Follows halts d
      ((d.land r.taskId a.worker.workerId l (some r.status)).applyResult r).change := by
  obtain ⟨e, -, live, -⟩ := hd.of_flying flying
  have hl : (d.land r.taskId a.worker.workerId l (some r.status)).tasks.get? r.taskId = some e :=
    live
  unfold applyResult at hs ⊢
  simp only [hl] at hs ⊢
  split
  · next doomed =>
    exact (Follows.of_turn live (.cancelled l _ flying live doomed)).saying _
  · next wanted =>
    rw [if_neg wanted] at hs
    exact account_follows l flying number live (Bool.not_eq_true _ ▸ wanted) hs

omit [Sink σ] in
theorem take?_eq_some {t : TaskId} {number : Nat} {a : Attempt} {d' : Dispatcher σ}
    (h : d.take? t number = some (a, d')) :
    d.inFlight.get? t = some a ∧ a.number = number ∧
      d' = { d with inFlight := d.inFlight.erase t } := by
  unfold take? at h
  cases ha : d.inFlight.get? t with
  | none => rw [ha] at h; cases h
  | some b =>
    rw [ha] at h
    simp only [] at h
    split at h
    · next hn =>
      cases h
      exact ⟨rfl, hn, rfl⟩
    · cases h

omit [Sink σ] in
theorem take?_of_flying {a : Attempt} {number : Nat} (flying : d.inFlight.get? t = some a)
    (hn : a.number = number) :
    d.take? t number = some (a, { d with inFlight := d.inFlight.erase t }) := by
  unfold take?
  rw [flying]
  exact if_pos hn

/-- The dispatcher without the attempt at `t` and without the timer `l`. -/
def without (d : Dispatcher σ) (t : TaskId) (l : Nat) : Dispatcher σ :=
  { d with inFlight := d.inFlight.erase t, timers := d.timers.filter (·.launch != l) }

theorem settle_follows {r : TaskResult} {a : Attempt} (l : Nat) (hd : d.Filed halts)
    (flying : d.inFlight.get? r.taskId = some a) (number : r.attempt.toNat = a.number)
    (hs : ((d.without r.taskId l).settle a r).stop ≠ none → halts) :
    Follows halts d ((d.without r.taskId l).settle a r).change := by
  obtain ⟨ls, h⟩ := (d.without r.taskId l).settle_eq a r
  rw [h] at hs ⊢
  exact (applyResult_follows l hd flying number hs).saying ls

theorem receive_follows {r : TaskResult} (hd : d.Filed halts)
    (hs : (d.receive r).stop ≠ none → halts) : Follows halts d (d.receive r).change := by
  unfold receive at hs ⊢
  cases h : d.take? r.taskId r.attempt.toNat with
  | none => exact follows_none d
  | some x =>
    obtain ⟨a, d'⟩ := x
    rw [h] at hs
    obtain ⟨flying, number, rfl⟩ := take?_eq_some h
    exact settle_follows a.launch hd flying number.symm hs

/-! ## refusals and deadlines -/

omit [Sink σ] in
theorem giveBackTaken_eq {t : TaskId} {a : Attempt} {e : Entry} (l : Nat)
    (live : d.tasks.get? t = some e) :
    (d.without t l).giveBackTaken a t =
      (if e.cancelRequested then (d.land t a.worker.workerId l none).resolve t e (.cancelled t)
        else .none ((d.land t a.worker.workerId l none).requeue t
          { e with attempts := e.attempts - 1 })).saying
        (d.pool.markUnreachable a.worker.workerId).log := by
  have hl : (d.land t a.worker.workerId l none).tasks.get? t = some e := live
  show Change.saying _ (match (d.land t a.worker.workerId l none).tasks.get? t with
    | none => _
    | some e => _) = _
  rw [hl]
  rfl

theorem giveBackTaken_follows {t : TaskId} {a : Attempt} (l : Nat) (hd : d.Filed halts)
    (flying : d.inFlight.get? t = some a) :
    Follows halts d ((d.without t l).giveBackTaken a t) := by
  obtain ⟨e, -, live, -⟩ := hd.of_flying flying
  rw [giveBackTaken_eq l live]
  refine Follows.saying ?_ _
  split
  · next doomed => exact .of_turn live (.cancelled l none flying live doomed)
  · next wanted =>
    exact .of_turn live (.returned l flying live (Bool.not_eq_true _ ▸ wanted))

theorem giveBack_follows {t : TaskId} {number : Nat} (hd : d.Filed halts) :
    Follows halts d (d.giveBack t number) := by
  unfold giveBack
  cases h : d.take? t number with
  | none => exact follows_none d
  | some x =>
    obtain ⟨a, d'⟩ := x
    obtain ⟨flying, -, rfl⟩ := take?_eq_some h
    exact giveBackTaken_follows a.launch hd flying

theorem quiet_follows (d : Dispatcher σ) (now : Nat) (stopped permit : Bool)
    {waiting : List Attempt} (fewer : waiting.Sublist d.waiting) (timers : List Timer) :
    Follows halts d (.none
      { d with now, stopped, waiting, timers, pool := { d.pool with permit } }) :=
  ⟨(Turn.quiet d now stopped permit fewer timers).turns, rfl⟩

omit [Sink σ] in
theorem toNat_ofNat_of_le {n : Nat} (h : n ≤ d.maxAttempts) : (UInt32.ofNat n).toNat = n := by
  have hle : n ≤ max d.config.maxRetries.toNat 1 := h
  have hlt : d.config.maxRetries.toNat < 2 ^ 32 := d.config.maxRetries.toNat_lt
  rw [UInt32.toNat_ofNat', Nat.mod_eq_of_lt]
  omega

omit [Sink σ] in
theorem Filed.toNat_number (hd : d.Filed halts) {t : TaskId} {a : Attempt}
    (flying : d.inFlight.get? t = some a) : (UInt32.ofNat a.number).toNat = a.number := by
  obtain ⟨e, -, -, runs⟩ := hd.of_flying flying
  exact toNat_ofNat_of_le runs.le

theorem expire_follows {t : Timer} (hd : d.Filed halts)
    (hs : (d.expire t).stop ≠ none → halts) : Follows halts d (d.expire t).change := by
  unfold expire at hs ⊢
  cases h : (d.disarm t.launch).take? t.task t.attempt with
  | none => exact quiet_follows d d.now d.stopped d.pool.permit (.refl _) _
  | some x =>
    obtain ⟨a, d'⟩ := x
    rw [h] at hs
    obtain ⟨flying, number, rfl⟩ := take?_eq_some h
    have hn : (d.timeoutOf a t).attempt.toNat = a.number := by
      show (UInt32.ofNat t.attempt).toNat = _
      rw [← number, hd.toNat_number flying]
    show Follows halts d ((d.without t.task t.launch).settle a (d.timeoutOf a t)).change
    exact settle_follows (r := d.timeoutOf a t) t.launch hd flying hn hs

/-! ## whole operations -/

omit [Sink σ] in
theorem stop_andThen (s : Settled σ) (f : Dispatcher σ → Change σ) :
    (s.andThen f).stop = s.stop := by
  unfold Settled.andThen
  split
  · next h => exact h.symm
  · rfl

/-- A settlement, and the scheduling cycle after it. -/
theorem settled_pump_follows {s : Settled σ} (hd : d.Filed halts)
    (hs : (s.andThen pump).stop ≠ none → halts)
    (h : (s.stop ≠ none → halts) → Follows halts d s.change) :
    Follows halts d (s.andThen pump).change := by
  rw [stop_andThen] at hs
  have hf := h hs
  unfold Settled.andThen
  split
  · exact hf.andThen (pump_follows (hf.filed hd))
  · exact hf

theorem deliver_follows {r : TaskResult} (hd : d.Filed halts)
    (hs : (d.deliver r).stop ≠ none → halts) : Follows halts d (d.deliver r).change := by
  unfold deliver at hs ⊢
  cases h : d.take? r.taskId r.attempt.toNat with
  | none => exact (follows_none d).saying _
  | some x =>
    obtain ⟨a, d'⟩ := x
    rw [h] at hs
    obtain ⟨flying, number, rfl⟩ := take?_eq_some h
    exact settled_pump_follows hd hs (settle_follows a.launch hd flying number.symm)

theorem refuse_follows {t : TaskId} {number : Nat} (hd : d.Filed halts) :
    Follows halts d (d.refuse t number) := by
  unfold refuse
  cases h : d.take? t number with
  | none => exact follows_none d
  | some x =>
    obtain ⟨a, d'⟩ := x
    obtain ⟨flying, -, rfl⟩ := take?_eq_some h
    have hf := giveBackTaken_follows a.launch hd flying
    exact (hf.andThen (pump_follows (hf.filed hd))).saying _

theorem deadline_follows {t : Timer} (hd : d.Filed halts)
    (hs : (d.deadline t).stop ≠ none → halts) : Follows halts d (d.deadline t).change := by
  have he := expire_follows (t := t) hd
  unfold deadline at hs ⊢
  unfold expire at he
  simp only [] at hs ⊢
  cases h : (d.disarm t.launch).take? t.task t.attempt with
  | none => exact quiet_follows d d.now d.stopped d.pool.permit (.refl _) _
  | some x =>
    rw [h] at hs he
    exact (settled_pump_follows hd hs he).saying [⟨.warn, "Task attempt timed out"⟩]

/-- The dispatcher that waits for the answer to the attempt no longer. -/
def heard (d : Dispatcher σ) (a : Attempt) : Dispatcher σ :=
  { d with waiting := d.waiting.filter (·.launch != a.launch) }

theorem heard_follows (d : Dispatcher σ) (a : Attempt) : Follows halts d (.none (d.heard a)) :=
  quiet_follows d d.now d.stopped d.pool.permit List.filter_sublist d.timers

/-- The result that an answer stands for; without one it is a refusal. -/
def reading (d : Dispatcher σ) (a : Attempt) (reply : Except TransportError ExecuteResponse) :
    Option TaskResult :=
  match reply.bind a.check with
  | .ok r => some (r.toResult a.worker.workerId a.task.operation)
  | .error (.busy _) => none
  | .error e => some (.failed a.task.id (.ofNat a.number) a.worker.workerId a.task.operation
      e.toFailure (d.elapsed a))

theorem answer_eq (d : Dispatcher σ) (a : Attempt)
    (reply : Except TransportError ExecuteResponse) :
    d.answer a reply = match (d.heard a).reading a reply with
      | some r => (d.heard a).deliver r
      | none => .whole ((d.heard a).refuse a.task.id a.number) := by
  unfold answer reading
  simp only []
  cases reply.bind a.check with
  | ok r => rfl
  | error e => cases e <;> rfl

/-- An answer is a result or a refusal. -/
theorem answer_cases (d : Dispatcher σ) (a : Attempt)
    (reply : Except TransportError ExecuteResponse) :
    (∃ r, d.answer a reply = (d.heard a).deliver r) ∨
      d.answer a reply = .whole ((d.heard a).refuse a.task.id a.number) := by
  rw [answer_eq]
  cases (d.heard a).reading a reply with
  | some r => exact .inl ⟨r, rfl⟩
  | none => exact .inr rfl

theorem answer_follows {a : Attempt} {reply : Except TransportError ExecuteResponse}
    (hd : d.Filed halts) (hs : (d.answer a reply).stop ≠ none → halts) :
    Follows halts d (d.answer a reply).change := by
  have hq : Follows halts d (.none (d.heard a)) := heard_follows d a
  have hd' : (d.heard a).Filed halts := hq.filed hd
  obtain ⟨r, h⟩ | h := d.answer_cases a reply
  · rw [h] at hs ⊢
    exact hq.andThen (f := fun d => (d.deliver r).change) (deliver_follows hd' hs)
  · rw [h]
    exact hq.andThen (f := fun d => d.refuse a.task.id a.number) (refuse_follows hd')

theorem wake_follows (hd : d.Filed halts) : Follows halts d d.wake := by
  unfold wake
  split
  · have hq : Follows halts d _ := quiet_follows d d.now d.stopped false (.refl _) d.timers
    exact hq.andThen (f := pump) (pump_follows (hq.filed hd))
  · exact follows_none d

omit [Sink σ] in
theorem cancel_of_queued {e : Entry} (ht : t ∈ d.pending) (live : d.tasks.get? t = some e) :
    d.cancel t = ⟨.ok (), Change.saying [⟨.info, "Pending task cancelled"⟩]
      ⟨{ d with pending := d.pending.erase t, tasks := d.tasks.erase t },
        [.resolved e.ticket (.cancelled t)]⟩⟩ := by
  have hc : d.pending.contains t = true := List.contains_iff_mem.mpr ht
  unfold cancel
  rw [if_pos hc]
  simp only [live]
  rfl

omit [Sink σ] in
theorem cancel_of_flying {e : Entry} {a : Attempt} (ht : t ∉ d.pending)
    (flying : d.inFlight.get? t = some a) (live : d.tasks.get? t = some e) :
    d.cancel t = ⟨.ok (), Change.saying [⟨.info, "Cancelling running task"⟩]
      ⟨{ d with tasks := d.tasks.put t { e with cancelRequested := true } },
        [.cancelSignal a.worker t]⟩⟩ := by
  have hc : ¬ d.pending.contains t = true := mt List.contains_iff_mem.mp ht
  unfold cancel
  rw [if_neg hc]
  simp only [flying, Table.modify, live]

omit [Sink σ] in
theorem cancel_of_neither (ht : t ∉ d.pending) (landed : d.inFlight.get? t = none) :
    d.cancel t = d.turnDown (.unknownTask t) [] := by
  have hc : ¬ d.pending.contains t = true := mt List.contains_iff_mem.mp ht
  unfold cancel
  rw [if_neg hc]
  simp only [landed]

omit [Sink σ] in
theorem cancel_frame (hd : d.Filed halts) (t : TaskId) :
    (d.cancel t).change.next = { d with
        pending := d.pending.erase t, tasks := (d.cancel t).change.next.tasks } ∧
      ∀ t' ≠ t, (d.cancel t).change.next.tasks.get? t' = d.tasks.get? t' := by
  cases hd.stands t with
  | queued listed live =>
    rw [cancel_of_queued listed live]
    exact ⟨rfl, fun t' ht => Table.get?_erase_of_ne _ ht⟩
  | flying unlisted live flying =>
    rw [cancel_of_flying unlisted flying live, List.erase_of_not_mem unlisted]
    exact ⟨rfl, fun t' ht => Table.get?_put_of_ne _ _ ht⟩
  | gone unlisted _ landed =>
    rw [cancel_of_neither unlisted landed, List.erase_of_not_mem unlisted]
    exact ⟨rfl, fun _ _ => rfl⟩
  | stranded _ unlisted _ landed =>
    rw [cancel_of_neither unlisted landed, List.erase_of_not_mem unlisted]
    exact ⟨rfl, fun _ _ => rfl⟩

theorem cancel_follows {t : TaskId} (hd : d.Filed halts) :
    Follows halts d (d.cancel t).change := by
  by_cases ht : t ∈ d.pending
  · obtain ⟨e, live, -⟩ := hd.of_queued ht
    rw [cancel_of_queued ht live]
    exact (Follows.of_turn live (.withdrawn ht live)).saying _
  · cases ha : d.inFlight.get? t with
    | none =>
      rw [cancel_of_neither ht ha]
      exact follows_none d
    | some a =>
      obtain ⟨e, -, live, -⟩ := hd.of_flying ha
      rw [cancel_of_flying ht ha live]
      exact (Follows.of_turn live (.marked ha live)).saying _

theorem enqueueNew_turns {t : Task} (ht : d.tasks.contains t.id = false) :
    Turns halts d [] (d.enqueueNew t) :=
  (Turn.accepted t ((Table.contains_eq_false_iff _ _).mp ht)).turns

omit [Sink σ] in
/-- A task is turned down, or it is queued and a scheduling cycle runs. -/
theorem submit_cases (d : Dispatcher σ) (t : Task) :
    (∃ e log, d.submit t = d.turnDown e log) ∨
      d.tasks.contains t.id = false ∧ d.submit t = ⟨.ok ⟨d.nextTicket, t.id⟩,
        (d.enqueueNew t).pump.saying [⟨.debug, "Task submitted"⟩]⟩ := by
  unfold submit
  split
  · exact .inl ⟨_, _, rfl⟩
  · split
    · exact .inl ⟨_, _, rfl⟩
    · next hc =>
      split
      · exact .inl ⟨_, _, rfl⟩
      · exact .inr ⟨Bool.not_eq_true _ ▸ hc, rfl⟩

theorem submit_turns {t : Task} (hd : d.Filed halts) :
    Turns halts d (facts (d.submit t).change.events) (d.submit t).change.next := by
  obtain ⟨e, log, h⟩ | ⟨ht, h⟩ := d.submit_cases t
  · rw [h]
    exact ((follows_none d).saying log).turns
  · rw [h]
    have hq : Turns halts d [] (d.enqueueNew t) := enqueueNew_turns ht
    have hpump := (pump_follows (hq.filed hd)).saying [⟨.debug, "Task submitted"⟩]
    exact hq.append hpump.turns

/-! ## all actions -/

theorem doPart_follows {p : Part} (hp : Occurrence.submits (.own (.part p)) = none)
    (hd : d.Filed halts) (hs : (d.doPart p).stop ≠ none → halts) :
    Follows halts d (d.doPart p).change := by
  cases p with
  | accept t => cases hp
  | receive r => exact receive_follows hd hs
  | giveBack t number => exact giveBack_follows hd
  | expire t => exact expire_follows hd hs
  | assign t =>
    unfold doPart
    simp only []
    split
    · next ht =>
      cases h : d.assign? t with
      | none => exact follows_none d
      | some a => exact launch_follows hd ht h
    · exact follows_none d

theorem act_follows {a : Action} (ha : (Occurrence.own a).submits = none) (hd : d.Filed halts)
    (hs : (d.act a).stop ≠ none → halts) : Follows halts d (d.act a).change := by
  cases a with
  | submit t => cases ha
  | cancel t => exact cancel_follows hd
  | deliver r => exact deliver_follows hd hs
  | refuse t number => exact refuse_follows hd
  | deadline t => exact deadline_follows hd hs
  | answer a reply => exact answer_follows hd hs
  | wake => exact wake_follows hd
  | part p => exact doPart_follows ha hd hs
  | takePermit => exact quiet_follows d d.now d.stopped false (.refl _) d.timers
  | pass millis => exact quiet_follows d _ d.stopped d.pool.permit (.refl _) d.timers
  | shutdown => exact quiet_follows d d.now true d.pool.permit (.refl _) d.timers

theorem accept_turns (d : Dispatcher σ) (t : Task) :
    Turns halts d [] (d.doPart (.accept t)).change.next := by
  show Turns halts d [] (if d.tasks.contains t.id then d else d.enqueueNew t)
  split
  · exact .nil d
  · next ht => exact enqueueNew_turns (Bool.not_eq_true _ ▸ ht)

theorem act_turns {a : Action} (hd : d.Filed halts) (hs : (d.act a).stop ≠ none → halts) :
    Turns halts d (facts (d.act a).change.events) (d.act a).change.next := by
  by_cases ha : (Occurrence.own a).submits = none
  · exact (act_follows ha hd hs).turns
  · cases a with
    | submit t => exact submit_turns hd
    | part p =>
      cases p with
      | accept t => exact accept_turns d t
      | _ => exact absurd rfl ha
    | _ => exact absurd rfl ha

/-! ## runs -/

/-- What turns keep of the books and of the events so far. -/
theorem Turns.tell {P : List Event → Dispatcher σ → Prop} {d' : Dispatcher σ} {es es₀ : List Event}
    (step : ∀ {es₀ u d es d'}, d.Filed halts → Turn halts u d es d' → P es₀ d → P (es₀ ++ es) d')
    (h : Turns halts d es d') (hd : d.Filed halts) (h₀ : P es₀ d) : P (es₀ ++ es) d' := by
  induction h generalizing es₀ with
  | nil d => rwa [List.append_nil]
  | cons turn rest ih =>
    rw [← List.append_assoc]
    exact ih (turn.filed hd) (step hd turn h₀)

omit [Sink σ] in
theorem facts_withReply {α : Type} (d : Dispatcher σ) (r : Pool.Reply α) :
    facts (d.withReply r).events = [] :=
  facts_logged r.log

/-- What a run keeps: a property of the events so far and of the dispatcher that all turns keep and
that does not depend on the pool. Without `halts`, the sinks of the run must return. -/
theorem run_tell_of {P : List Event → Dispatcher σ → Prop} (es₀ : List Event)
    {os : List Occurrence} (pool : ∀ {es d} (p : Pool), P es d → P es { d with pool := p })
    (step : ∀ {es₀ u d es d'}, d.Filed halts → Turn halts u d es d' → P es₀ d → P (es₀ ++ es) d')
    (hs : ¬ halts → d.SinksReturn os) (hd : d.Filed halts) (h₀ : P es₀ d) :
    P (es₀ ++ facts (d.run os).events) (d.run os).next := by
  induction os generalizing d es₀ with
  | nil =>
    show P (es₀ ++ []) d
    rwa [List.append_nil]
  | cons o os ih =>
    rw [run_cons, facts_append, ← List.append_assoc]
    cases o with
    | own a =>
      have hstop : (d.act a).stop ≠ none → halts := fun h =>
        Classical.byContradiction fun hn => h (hs hn).1
      have hf : Turns halts d _ (d.act a).change.next := act_turns hd hstop
      exact ih _ (fun hn => (hs hn).2) (hf.filed hd) (hf.tell step hd h₀)
    | pool c =>
      refine ih _ (fun hn => (hs hn).2) (hd.withPool _) ?_
      show P (es₀ ++ facts (d.withReply (d.pool.perform c)).events) _
      rw [facts_withReply, List.append_nil]
      exact pool _ h₀

theorem run_tell {P : List Event → Dispatcher σ → Prop} (es₀ : List Event) {os : List Occurrence}
    (pool : ∀ {es d} (p : Pool), P es d → P es { d with pool := p })
    (step : ∀ {es₀ u d es d'}, d.Filed False → Turn False u d es d' → P es₀ d → P (es₀ ++ es) d')
    (hs : d.SinksReturn os) (hd : d.Filed False) (h₀ : P es₀ d) :
    P (es₀ ++ facts (d.run os).events) (d.run os).next :=
  run_tell_of es₀ pool step (fun _ => hs) hd h₀

theorem run_tell_any {P : List Event → Dispatcher σ → Prop} (es₀ : List Event)
    (os : List Occurrence) (pool : ∀ {es d} (p : Pool), P es d → P es { d with pool := p })
    (step : ∀ {es₀ u d es d'}, d.Filed True → Turn True u d es d' → P es₀ d → P (es₀ ++ es) d')
    (hd : d.Filed True) (h₀ : P es₀ d) :
    P (es₀ ++ facts (d.run os).events) (d.run os).next :=
  run_tell_of es₀ pool step (fun hn => absurd trivial hn) hd h₀

/-- In any run, what is queued or in flight has an entry that says so. -/
theorem run_filed_any (os : List Occurrence) (hd : d.Filed True) : (d.run os).next.Filed True :=
  run_tell_any (P := fun _ d => d.Filed True) [] os (fun p h => h.withPool p)
    (fun _ turn h => turn.filed h) hd hd

theorem run_filed {os : List Occurrence} (hs : d.SinksReturn os) (hd : d.Filed False) :
    (d.run os).next.Filed False :=
  run_tell (P := fun _ d => d.Filed False) [] (fun p h => h.withPool p)
    (fun _ turn h => turn.filed h) hs hd hd

end HazardDispatch.Dispatcher
