import HazardDispatch.Proofs.Dispatch.Deadlines

/-!
# What comes without a request

Results, refusals, deadlines, scheduling cycles and changes of the pool are no requests: no task is
accepted in them, and while no task was cancelled, none comes to be (`unasked_undergo`). So the
requests of one party alone decide which tasks there are.
-/

namespace HazardDispatch

def Occurrence.isRequest : Occurrence → Bool
  | .own (.submit _) => true
  | .own (.cancel _) => true
  | .own (.part (.accept _)) => true
  | _ => false

namespace Dispatcher

variable {σ : Type}

/-- No live task is cancelled. -/
def Wanted (d : Dispatcher σ) : Prop := ∀ t e, d.tasks.get? t = some e → e.cancelRequested = false

/-- No task is accepted, and none is or comes to be cancelled. -/
structure Unasked (d : Dispatcher σ) (c : Change σ) : Prop where
  wanted : c.next.Wanted
  tickets : c.next.nextTicket = d.nextTicket
  kept : ∀ t, .cancelled t ∉ outcomes c.events

variable {d d' : Dispatcher σ} {c : Change σ}

theorem unasked_of_same (hd : d.Wanted) (ht : c.next.tasks = d.tasks)
    (hn : c.next.nextTicket = d.nextTicket) (ho : outcomes c.events = []) : Unasked d c where
  wanted t e he := hd t e (ht ▸ he)
  tickets := hn
  kept _ h := by rw [ho] at h; cases h

theorem Unasked.andThen {f : Dispatcher σ → Change σ} (h : Unasked d c)
    (hf : Unasked c.next (f c.next)) : Unasked d (c.andThen f) where
  wanted := hf.wanted
  tickets := hf.tickets.trans h.tickets
  kept t ht := by
    replace ht : .cancelled t ∈ outcomes (c.events ++ (f c.next).events) := ht
    rw [outcomes_append] at ht
    rcases List.mem_append.mp ht with ht | ht
    · exact h.kept t ht
    · exact hf.kept t ht

theorem Unasked.since (h : Unasked d' c) (hn : d'.nextTicket = d.nextTicket) : Unasked d c :=
  ⟨h.wanted, h.tickets.trans hn, h.kept⟩

theorem Unasked.saying (h : Unasked d c) (log : List LogLine) : Unasked d (c.saying log) where
  wanted := h.wanted
  tickets := h.tickets
  kept t ht := by
    replace ht : .cancelled t ∈ outcomes (log.map .logged ++ c.events) := ht
    rw [outcomes_append, outcomes_logged] at ht
    exact h.kept t ht

theorem Wanted.put (hd : d.Wanted) {t : TaskId} {e : Entry} (he : e.cancelRequested = false) :
    Wanted { d with tasks := d.tasks.put t e } := by
  intro t' e' he'
  replace he' : (d.tasks.put t e).get? t' = some e' := he'
  rw [Table.get?_put] at he'
  split at he'
  · obtain rfl := Option.some.inj he'
    exact he
  · exact hd t' e' he'

theorem Wanted.erase (hd : d.Wanted) (t : TaskId) :
    Wanted { d with tasks := d.tasks.erase t } := by
  intro t' e' he'
  replace he' : (d.tasks.erase t).get? t' = some e' := he'
  rw [Table.get?_erase] at he'
  split at he'
  · cases he'
  · exact hd t' e' he'

section
variable [Sink σ] {halts : Prop}

/-! ## settling -/

theorem unasked_conclude (hd : d.Wanted) {e : Entry} (he : e.cancelRequested = false)
    (r : TaskResult) : Unasked d (d.conclude e r) := by
  have htickets := (untouched_conclude d e r).nextTicket
  rcases hstatus : r.status with _ | reason
  · rw [conclude_success hstatus] at htickets ⊢
    exact ⟨hd.erase r.taskId, htickets, fun t ht => nomatch List.mem_singleton.mp ht⟩
  · by_cases hc : reason.isRetryable = true ∧ e.attempts < d.maxAttempts
    · rw [conclude_retried hstatus hc.1 hc.2] at htickets ⊢
      exact ⟨hd.put (e := { e with state := .pending }) he, htickets, fun t ht => nomatch ht⟩
    · rw [conclude_abandoned hstatus hc] at htickets ⊢
      exact ⟨hd.erase r.taskId, htickets, fun t ht => nomatch List.mem_singleton.mp ht⟩

theorem unasked_applyResult (hd : d.Wanted) (r : TaskResult) :
    Unasked d (d.applyResult r).change := by
  unfold applyResult
  cases live : d.tasks.get? r.taskId with
  | none => exact unasked_of_same hd rfl rfl rfl
  | some e =>
    have he := hd r.taskId e live
    have hrecorded : Unasked d
        ⟨d.recorded r, .forwarded e.ticket r :: (Sink.log d.sink r).map .logged⟩ :=
      unasked_of_same hd rfl rfl (outcomes_logged _)
    simp only [he, Bool.false_eq_true, if_false]
    cases hr : (Sink.record d.sink r).2 with
    | some o =>
      rw [account_of_halted hr]
      exact hrecorded
    | none =>
      rw [account_of_whole hr]
      exact hrecorded.andThen (f := fun d => d.conclude e r)
        (unasked_conclude hrecorded.wanted he r)

theorem unasked_settle (hd : d.Wanted) (a : Attempt) (r : TaskResult) :
    Unasked d (d.settle a r).change := by
  obtain ⟨ls, h⟩ := d.settle_eq a r
  rw [h]
  have hfreed : Unasked d ⟨{ d with pool := d.pool.vacate a.worker.workerId (some r.status) },
      ls.map .logged⟩ := unasked_of_same hd rfl rfl (outcomes_logged ls)
  exact hfreed.andThen (f := fun d => (d.applyResult r).change)
    (unasked_applyResult hfreed.wanted r)

theorem unasked_receive (hd : d.Wanted) (r : TaskResult) : Unasked d (d.receive r).change := by
  unfold receive
  cases htake : d.take? r.taskId r.attempt.toNat with
  | none => exact unasked_of_same hd rfl rfl rfl
  | some x =>
    obtain ⟨a, d'⟩ := x
    obtain ⟨-, -, rfl⟩ := take?_eq_some htake
    have hwithout : (d.without r.taskId a.launch).Wanted := hd
    exact (unasked_settle hwithout a r).since rfl

omit [Sink σ] in
theorem unasked_giveBack (hd : d.Wanted) (t : TaskId) (number : Nat) :
    Unasked d (d.giveBack t number) := by
  unfold giveBack
  cases htake : d.take? t number with
  | none => exact unasked_of_same hd rfl rfl rfl
  | some x =>
    obtain ⟨a, d'⟩ := x
    obtain ⟨-, -, rfl⟩ := take?_eq_some htake
    show Unasked d ((d.without t a.launch).giveBackTaken a t)
    cases live : d.tasks.get? t with
    | none =>
      have hl : (d.without t a.launch).tasks.get? t = none := live
      unfold giveBackTaken
      simp only [withReply, Change.andThen, hl]
      exact unasked_of_same hd rfl rfl (by rw [outcomes_append, outcomes_logged]; rfl)
    | some e =>
      have he := hd t e live
      rw [giveBackTaken_eq a.launch live, if_neg (by rw [he]; exact Bool.false_ne_true)]
      have hland : (d.land t a.worker.workerId a.launch none).Wanted := hd
      have hback : Unasked d (.none ((d.land t a.worker.workerId a.launch none).requeue t
          { e with attempts := e.attempts - 1 })) := by
        refine ⟨hland.put (e := { e with attempts := e.attempts - 1, state := .pending }) he, rfl, ?_⟩
        intro _ h
        cases h
      exact hback.saying _

theorem unasked_expire (hd : d.Wanted) (t : Timer) : Unasked d (d.expire t).change := by
  unfold expire
  cases htake : (d.disarm t.launch).take? t.task t.attempt with
  | none => exact unasked_of_same hd rfl rfl rfl
  | some x =>
    obtain ⟨a, d'⟩ := x
    obtain ⟨-, -, rfl⟩ := take?_eq_some htake
    have hwithout : (d.without t.task t.launch).Wanted := hd
    exact (unasked_settle hwithout a (d.timeoutOf a t)).since rfl

/-! ## scheduling -/

omit [Sink σ] in
theorem outcomes_launch (d : Dispatcher σ) (a : Assignment) : outcomes (d.launch a).events = [] := by
  rw [outcomes, List.filterMap_eq_nil_iff]
  intro e he
  obtain ⟨l, rfl⟩ | ⟨n, b, rfl⟩ := mem_launch he
  · rfl
  · rfl

omit [Sink σ] in
theorem outcomes_pumpRounds (n : Nat) (d : Dispatcher σ) :
    outcomes (pumpRounds n d).events = [] := by
  rw [outcomes, List.filterMap_eq_nil_iff]
  intro e he
  obtain ⟨l, rfl⟩ | ⟨n, b, rfl⟩ := mem_pumpRounds n he
  · rfl
  · rfl

omit [Sink σ] in
theorem Wanted.takeOff (hd : d.Wanted) {a : Assignment} {e : Entry}
    (live : d.tasks.get? a.task = some e) : (d.takeOff a e).Wanted :=
  hd.put (e := { e with
    attempts := e.attempts + 1, state := .running, lastWorker := some a.worker.workerId })
    (hd a.task e live)

theorem unasked_pump (hd : d.Wanted) (hf : d.Filed halts) : Unasked d d.pump := by
  let P : Dispatcher σ → Prop := fun d' => d'.Wanted ∧ d'.nextTicket = d.nextTicket
  have hp : P d.pump.next :=
    pumpRounds_preserves (P := P) (fun _ _ live h => ⟨h.1.takeOff live, h.2⟩) _ hf ⟨hd, rfl⟩
  refine ⟨hp.1, hp.2, fun t ht => ?_⟩
  rw [pump, outcomes_pumpRounds] at ht
  cases ht

theorem Unasked.andThen_pump {s : Settled σ} (h : Unasked d s.change)
    (hf : s.change.next.Filed halts) : Unasked d (s.andThen Dispatcher.pump).change := by
  unfold Settled.andThen
  split
  · exact h.andThen (unasked_pump h.wanted hf)
  · exact h

/-! ## whole operations -/

theorem unasked_deliver (hd : d.Wanted) (hf : d.Filed True) (r : TaskResult) :
    Unasked d (d.deliver r).change := by
  cases htake : d.take? r.taskId r.attempt.toNat with
  | none =>
    unfold deliver
    rw [htake]
    exact unasked_of_same hd rfl rfl rfl
  | some x =>
    rw [deliver_of_taken htake]
    exact (unasked_receive hd r).andThen_pump ((receive_follows hf fun _ => trivial).filed hf)

theorem unasked_refuse (hd : d.Wanted) (hf : d.Filed halts) (t : TaskId) (number : Nat) :
    Unasked d (d.refuse t number) := by
  cases htake : d.take? t number with
  | none =>
    unfold refuse
    rw [htake]
    exact unasked_of_same hd rfl rfl rfl
  | some x =>
    rw [refuse_of_taken htake]
    have hback := unasked_giveBack hd t number
    exact (hback.andThen (unasked_pump hback.wanted ((giveBack_follows hf).filed hf))).saying _

theorem unasked_deadline (hd : d.Wanted) (hf : d.Filed True) (t : Timer) :
    Unasked d (d.deadline t).change := by
  cases htake : (d.disarm t.launch).take? t.task t.attempt with
  | none =>
    unfold deadline
    simp only []
    rw [htake]
    exact unasked_of_same hd rfl rfl rfl
  | some x =>
    rw [deadline_of_taken htake]
    exact ((unasked_expire hd t).andThen_pump
      ((expire_follows hf fun _ => trivial).filed hf)).saying _

theorem unasked_answer (hd : d.Wanted) (hf : d.Filed True) (a : Attempt)
    (reply : Except TransportError ExecuteResponse) : Unasked d (d.answer a reply).change := by
  have hheard : (d.heard a).Wanted := hd
  obtain ⟨r, h⟩ | h := d.answer_cases a reply
  · rw [h]
    exact (unasked_deliver hheard (filed_heard hf a) r).since rfl
  · rw [h]
    exact (unasked_refuse hheard (filed_heard hf a) a.task.id a.number).since rfl

theorem unasked_wake (hd : d.Wanted) (hf : d.Filed halts) : Unasked d d.wake := by
  unfold wake
  split
  · have hused : Wanted { d with pool := { d.pool with permit := false } } := hd
    exact (unasked_pump hused (hf.withPool _)).since rfl
  · exact unasked_of_same hd rfl rfl rfl

theorem unasked_doPart (hd : d.Wanted) (hf : d.Filed True) {p : Part}
    (ho : Occurrence.isRequest (.own (.part p)) = false) : Unasked d (d.doPart p).change := by
  cases p with
  | accept t => cases ho
  | receive r => exact unasked_receive hd r
  | giveBack t number => exact unasked_giveBack hd t number
  | expire t => exact unasked_expire hd t
  | assign t =>
    show Unasked d (Settled.change (if t ∈ d.pending then _ else _))
    split
    · next ht =>
      cases hat : d.assign? t with
      | none => exact unasked_of_same hd rfl rfl rfl
      | some x =>
        obtain rfl := task_of_assign? hat
        obtain ⟨e, live, -⟩ := hf.of_queued ht
        have hout := outcomes_launch d x
        rw [launch_eq live] at hout
        show Unasked d (d.launch x)
        rw [launch_eq live]
        exact ⟨hd.takeOff live, rfl, fun t ht => by rw [hout] at ht; cases ht⟩
    · exact unasked_of_same hd rfl rfl rfl

theorem unasked_undergo (hd : d.Wanted) (hf : d.Filed True) {o : Occurrence}
    (ho : o.isRequest = false) : Unasked d (d.undergo o).change := by
  cases o with
  | pool c => exact unasked_of_same hd rfl rfl (outcomes_logged _)
  | own a =>
    cases a with
    | submit t => cases ho
    | cancel t => cases ho
    | deliver r => exact unasked_deliver hd hf r
    | refuse t number => exact unasked_refuse hd hf t number
    | deadline t => exact unasked_deadline hd hf t
    | answer a reply => exact unasked_answer hd hf a reply
    | wake => exact unasked_wake hd hf
    | part p => exact unasked_doPart hd hf ho
    | takePermit => exact unasked_of_same hd rfl rfl rfl
    | pass millis => exact unasked_of_same hd rfl rfl rfl
    | shutdown => exact unasked_of_same hd rfl rfl rfl

omit [Sink σ] in
theorem Wanted.enqueueNew (hd : d.Wanted) (t : Task) : (d.enqueueNew t).Wanted :=
  hd.put (e := { task := t, state := .pending, ticket := d.nextTicket, attempts := 0
                 lastWorker := none, cancelRequested := false }) rfl

end
end Dispatcher
end HazardDispatch
