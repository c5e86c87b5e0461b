import HazardDispatch.Proofs.Dispatch.Ledger

/-!
# Answers and the attempts that they settle

Every attempt is a call to its worker, and the call waits for its answer (`waiting`) even after the
attempt came to its end. An answer is told from a stale one by the task and the number of the attempt
only, and both can be used again: a task whose submission came to its end may be submitted again, and
then its attempts are numbered from 1.

* `Happening`, `history`   runs in which results and refusals are answers (`Genuine`);
* `Called`     what holds of the calls that wait in any run: they are made one after the other;
* `Timely`     no task is accepted while a call for it waits for its answer;
* `Orderly`    what holds of them if that is so: they have lesser numbers than the attempt in flight
               at their task, unless they are that attempt's own.

All that happens keeps `Called` (`history_called`), and what is genuine and timely keeps `Orderly`
(`history_orderly`).
-/

namespace HazardDispatch

/-- What can happen where results are the answers of workers. -/
inductive Happening where
  | occurs (o : Occurrence)
  /-- The answer to a call is applied; its scheduling cycle comes later, in parts. -/
  | returns (a : Attempt) (reply : Except TransportError ExecuteResponse)

/-- The happening is the answer to a call. -/
inductive Happening.Answers (a : Attempt) : Happening → Prop where
  | whole (reply : Except TransportError ExecuteResponse) :
      Answers a (.occurs (.own (.answer a reply)))
  | part (reply : Except TransportError ExecuteResponse) : Answers a (.returns a reply)

namespace Dispatcher

variable {σ : Type}

/-- Results and refusals are answers to calls that wait for them. -/
def Genuine (d : Dispatcher σ) : Happening → Prop
  | .occurs (.own (.deliver _)) => False
  | .occurs (.own (.refuse _ _)) => False
  | .occurs (.own (.part (.receive _))) => False
  | .occurs (.own (.part (.giveBack _ _))) => False
  | .occurs (.own (.answer a _)) => a ∈ d.waiting
  | .returns a _ => a ∈ d.waiting
  | _ => True

section
variable [Sink σ]

/-- `answer` without its scheduling cycle. -/
def returned (d : Dispatcher σ) (a : Attempt) (reply : Except TransportError ExecuteResponse) :
    Settled σ :=
  match (d.heard a).reading a reply with
  | some r => (d.heard a).receive r
  | none => .whole ((d.heard a).giveBack a.task.id a.number)

def occur (d : Dispatcher σ) : Happening → Settled σ
  | .occurs o => d.undergo o
  | .returns a reply => d.returned a reply

def history (d : Dispatcher σ) : List Happening → Change σ
  | [] => .none d
  | h :: hs => (d.occur h).change.andThen fun d => history d hs

/-- No task is accepted while a call for it waits for its answer. -/
def Timely (d : Dispatcher σ) : Happening → Prop
  | .occurs o => ∀ task n, Accepts d o task n → ∀ a ∈ d.waiting, a.task.id ≠ task.id
  | .returns _ _ => True

def Throughout (d : Dispatcher σ) (P : Dispatcher σ → Happening → Prop) : List Happening → Prop
  | [] => True
  | h :: hs => P d h ∧ Throughout (d.occur h).change.next P hs

end

/-- The calls that wait are those of different attempts, whose numbers are in the budget. -/
structure Called (d : Dispatcher σ) : Prop where
  distinct : (d.waiting.map (·.launch)).Nodup
  issued : ∀ a ∈ d.waiting, a.launch < d.nextLaunch
  bounded : ∀ a ∈ d.waiting, a.number ≤ d.maxAttempts

/-- The calls that wait are older than the attempt in flight at their task, or its own. -/
structure Orderly (d : Dispatcher σ) : Prop where
  own : ∀ t e, d.tasks.get? t = some e → e.task.id = t
  spent : ∀ a ∈ d.waiting, ∀ e, d.tasks.get? a.task.id = some e → a.number ≤ e.attempts
  older : ∀ a ∈ d.waiting, ∀ b, d.inFlight.get? a.task.id = some b → b = a ∨ a.number < b.number

/-- No attempt but the call's own is in flight with the task and the number of the call. -/
def Unmistakable (d : Dispatcher σ) (a : Attempt) : Prop :=
  ∀ b, d.inFlight.get? a.task.id = some b → b.number = a.number → b = a

variable {d d' d'' : Dispatcher σ}

theorem called_start (config : ControllerConfig) (sink : σ) : (start config sink).Called where
  distinct := .nil
  issued _ ha := nomatch ha
  bounded _ ha := nomatch ha

theorem orderly_start (config : ControllerConfig) (sink : σ) : (start config sink).Orderly where
  own _ _ he := nomatch he
  spent _ ha := nomatch ha
  older _ ha := nomatch ha

/-! ## calls in any run -/

theorem Called.toNat_number (h : d.Called) {a : Attempt} (ha : a ∈ d.waiting) :
    (UInt32.ofNat a.number).toNat = a.number :=
  toNat_ofNat_of_le (h.bounded a ha)

theorem mem_waiting_takeOff {a : Assignment} {e : Entry} {b : Attempt}
    (hb : b ∈ (d.takeOff a e).waiting) : b ∈ d.waiting ∨ b = d.attemptOf a e := by
  simpa [takeOff] using hb

theorem numbered_concat {α : Type} {number : α → Nat} {l : List α} {x : α}
    (distinct : (l.map number).Nodup) (issued : ∀ y ∈ l, number y < number x) :
    ((l ++ [x]).map number).Nodup ∧ ∀ y ∈ l ++ [x], number y < number x + 1 := by
  constructor
  · rw [List.map_append, List.nodup_append]
    refine ⟨distinct, List.nodup_cons.mpr ⟨List.not_mem_nil, .nil⟩, ?_⟩
    intro n hn n' hn' heq
    obtain ⟨y, hy, rfl⟩ := List.mem_map.mp hn
    have hlt := issued y hy
    have hnew : n' = number x := List.mem_singleton.mp hn'
    omega
  · intro y hy
    rcases List.mem_append.mp hy with hy | hy
    · exact Nat.lt_succ_of_lt (issued y hy)
    · rw [List.mem_singleton.mp hy]
      exact Nat.lt_succ_self _

theorem Called.takeOff (h : d.Called) {a : Assignment} {e : Entry}
    (left : e.attempts < d.maxAttempts) : (d.takeOff a e).Called := by
  obtain ⟨distinct, issued⟩ := numbered_concat (x := d.attemptOf a e) h.distinct h.issued
  refine ⟨distinct, issued, fun b hb => ?_⟩
  rcases mem_waiting_takeOff hb with hb | rfl
  · exact h.bounded b hb
  · exact left

section
variable [Sink σ] {halts : Prop} {u : Option TaskId} {es : List Event}

theorem Turn.called (turn : Turn halts u d es d') (hd : d.Filed halts) (h : d.Called) :
    d'.Called := by
  cases turn with
  | quiet _ _ _ _ fewer =>
    exact ⟨h.distinct.sublist (fewer.map _), fun a ha => h.issued a (fewer.subset ha),
      fun a ha => h.bounded a (fewer.subset ha)⟩
  | launched queued assigned live =>
    obtain ⟨e, live', -, waits⟩ := hd.of_queued queued
    obtain rfl := Option.some.inj (live.symm.trans live')
    exact h.takeOff waits.attempts
  | _ => exact ⟨h.distinct, h.issued, h.bounded⟩

theorem returned_follows (hd : d.Filed True) (a : Attempt)
    (reply : Except TransportError ExecuteResponse) :
    Follows True d (d.returned a reply).change := by
  have hq : Follows True d (.none (d.heard a)) := heard_follows d a
  have hd' : (d.heard a).Filed True := hq.filed hd
  unfold returned
  cases (d.heard a).reading a reply with
  | some r =>
    exact hq.andThen (f := fun d => (d.receive r).change) (receive_follows hd' fun _ => trivial)
  | none =>
    exact hq.andThen (f := fun d => d.giveBack a.task.id a.number) (giveBack_follows hd')

theorem filed_returned (hd : d.Filed True) (a : Attempt)
    (reply : Except TransportError ExecuteResponse) :
    (d.returned a reply).change.next.Filed True :=
  (returned_follows hd a reply).filed hd

theorem filed_occur (hd : d.Filed True) (x : Happening) : (d.occur x).change.next.Filed True := by
  cases x with
  | occurs o => exact run_filed_any [o] hd
  | returns a reply => exact filed_returned hd a reply

theorem history_keeps {P : Dispatcher σ → Prop} {Q : Dispatcher σ → Happening → Prop}
    (step : ∀ {d x}, d.Filed True → Q d x → P d → P (d.occur x).change.next) {hs : List Happening}
    (hq : d.Throughout Q hs) (hd : d.Filed True) (h : P d) :
    (d.history hs).next.Filed True ∧ P (d.history hs).next := by
  induction hs generalizing d with
  | nil => exact ⟨hd, h⟩
  | cons x hs ih => exact ih hq.2 (filed_occur hd x) (step hd hq.1 h)

theorem throughout_and {P Q : Dispatcher σ → Happening → Prop} {hs : List Happening}
    (hp : d.Throughout P hs) (hq : d.Throughout Q hs) :
    d.Throughout (fun d x => P d x ∧ Q d x) hs := by
  induction hs generalizing d with
  | nil => trivial
  | cons x hs ih => exact ⟨⟨hp.1, hq.1⟩, ih hp.2 hq.2⟩

theorem throughout_true (d : Dispatcher σ) (hs : List Happening) :
    d.Throughout (fun _ _ => True) hs := by
  induction hs generalizing d with
  | nil => trivial
  | cons x hs ih => exact ⟨trivial, ih _⟩

/-- What any history keeps: a property of the events so far and of the dispatcher that all turns keep
and that does not depend on the pool. -/
theorem history_tell {P : List Event → Dispatcher σ → Prop} (es₀ : List Event)
    (hs : List Happening) (pool : ∀ {es d} (p : Pool), P es d → P es { d with pool := p })
    (step : ∀ {es₀ u d es d'}, d.Filed True → Turn True u d es d' → P es₀ d → P (es₀ ++ es) d')
    (hd : d.Filed True) (h₀ : P es₀ d) :
    P (es₀ ++ facts (d.history hs).events) (d.history hs).next := by
  induction hs generalizing d es₀ with
  | nil =>
    show P (es₀ ++ []) d
    rwa [List.append_nil]
  | cons x hs ih =>
    show P (es₀ ++ facts ((d.occur x).change.events ++ _)) _
    rw [facts_append, ← List.append_assoc]
    refine ih _ (filed_occur hd x) ?_
    cases x with
    | occurs o =>
      have h := run_tell_any es₀ [o] pool step hd h₀
      rw [run_cons] at h
      show P (es₀ ++ facts (d.undergo o).change.events) (d.undergo o).change.next
      simpa only [run, Change.none, List.append_nil] using h
    | returns a reply => exact (returned_follows hd a reply).turns.tell step hd h₀

theorem history_called (hs : List Happening) (hd : d.Filed True) (h : d.Called) :
    (d.history hs).next.Filed True ∧ (d.history hs).next.Called := by
  have hfiled := (history_keeps (P := fun _ => True) (fun _ _ h => h) (throughout_true d hs) hd
    trivial).1
  have hcalled := history_tell (P := fun _ d => d.Called) [] hs
    (fun _ h => ⟨h.distinct, h.issued, h.bounded⟩) (fun hd turn h => turn.called hd h) hd h
  exact ⟨hfiled, hcalled⟩

end

/-! ## changes that start nothing -/

/-- Nothing is started, and no attempt of a live task is counted or taken back. -/
structure Eases (d d' : Dispatcher σ) : Prop where
  calls : d'.waiting.Sublist d.waiting
  next : d'.nextLaunch = d.nextLaunch
  tasks : ∀ t e', d'.tasks.get? t = some e' →
    ∃ e, d.tasks.get? t = some e ∧ e'.task = e.task ∧ e'.attempts = e.attempts
  inFlight : ∀ t b, d'.inFlight.get? t = some b → d.inFlight.get? t = some b

theorem Orderly.eases (h : d.Orderly) (he : d.Eases d') : d'.Orderly where
  own t e' he' := by
    obtain ⟨e, live, task, -⟩ := he.tasks t e' he'
    exact task ▸ h.own t e live
  spent a ha e' he' := by
    obtain ⟨e, live, -, attempts⟩ := he.tasks _ e' he'
    exact attempts ▸ h.spent a (he.calls.subset ha) e live
  older a ha b hb := h.older a (he.calls.subset ha) b (he.inFlight _ b hb)

theorem Eases.same (hw : d'.waiting = d.waiting) (hn : d'.nextLaunch = d.nextLaunch)
    (ht : d'.tasks = d.tasks) (hf : d'.inFlight = d.inFlight) : d.Eases d' :=
  ⟨hw ▸ .refl _, hn, fun _ e he => ⟨e, ht ▸ he, rfl, rfl⟩, fun _ _ h => hf ▸ h⟩

theorem Eases.refl (d : Dispatcher σ) : d.Eases d := .same rfl rfl rfl rfl

theorem Eases.trans (h : d.Eases d') (h' : d'.Eases d'') : d.Eases d'' where
  calls := h'.calls.trans h.calls
  next := h'.next.trans h.next
  tasks t e'' he'' := by
    obtain ⟨e', he', task', attempts'⟩ := h'.tasks t e'' he''
    obtain ⟨e, he, task, attempts⟩ := h.tasks t e' he'
    exact ⟨e, he, task'.trans task, attempts'.trans attempts⟩
  inFlight t b hb := h.inFlight t b (h'.inFlight t b hb)

theorem eases_erase (d : Dispatcher σ) (t : TaskId) :
    d.Eases { d with tasks := d.tasks.erase t } where
  calls := .refl _
  next := rfl
  tasks t' e he := by
    rw [Table.get?_erase] at he
    split at he
    · cases he
    · exact ⟨e, he, rfl, rfl⟩
  inFlight _ _ h := h

theorem eases_put {t : TaskId} {e e' : Entry} (live : d.tasks.get? t = some e)
    (task : e'.task = e.task) (attempts : e'.attempts = e.attempts) :
    d.Eases { d with tasks := d.tasks.put t e' } where
  calls := .refl _
  next := rfl
  tasks t' e₁ he := by
    rw [Table.get?_put] at he
    split at he
    · next ht =>
      obtain rfl := Option.some.inj he
      exact ⟨e, ht ▸ live, task, attempts⟩
    · exact ⟨e₁, he, rfl, rfl⟩
  inFlight _ _ h := h

theorem eases_without (d : Dispatcher σ) (t : TaskId) (l : Nat) : d.Eases (d.without t l) where
  calls := .refl _
  next := rfl
  tasks _ e he := ⟨e, he, rfl, rfl⟩
  inFlight t' b hb := by
    rw [without, Table.get?_erase] at hb
    split at hb
    · cases hb
    · exact hb

theorem eases_heard (d : Dispatcher σ) (a : Attempt) : d.Eases (d.heard a) :=
  ⟨List.filter_sublist, rfl, fun _ e he => ⟨e, he, rfl, rfl⟩, fun _ _ h => h⟩

variable [Sink σ]

theorem eases_conclude {r : TaskResult} {e : Entry} (live : d.tasks.get? r.taskId = some e) :
    d.Eases (d.conclude e r).next := by
  rcases hstatus : r.status with _ | reason
  · rw [conclude_success hstatus]
    exact eases_erase d _
  · by_cases hc : reason.isRetryable = true ∧ e.attempts < d.maxAttempts
    · rw [conclude_retried hstatus hc.1 hc.2]
      have hput : d.Eases { d with tasks := d.tasks.put r.taskId { e with state := .pending } } :=
        eases_put live rfl rfl
      exact hput.trans (.same rfl rfl rfl rfl)
    · rw [conclude_abandoned hstatus hc]
      exact (eases_erase d r.taskId).trans (.same rfl rfl rfl rfl)

theorem eases_applyResult (d : Dispatcher σ) (r : TaskResult) :
    d.Eases (d.applyResult r).change.next := by
  unfold applyResult
  cases live : d.tasks.get? r.taskId with
  | none => exact .refl d
  | some e =>
    simp only []
    split
    · exact eases_erase d _
    · cases hr : (Sink.record d.sink r).2 with
      | some o =>
        rw [account_of_halted hr]
        exact .same rfl rfl rfl rfl
      | none =>
        rw [account_of_whole hr]
        have hrecorded : d.Eases (d.recorded r) := .same rfl rfl rfl rfl
        exact hrecorded.trans (eases_conclude live)

theorem eases_settle (d : Dispatcher σ) (a : Attempt) (r : TaskResult) :
    d.Eases (d.settle a r).change.next := by
  obtain ⟨ls, h⟩ := d.settle_eq a r
  rw [h]
  have hfreed : d.Eases { d with pool := d.pool.vacate a.worker.workerId (some r.status) } :=
    .same rfl rfl rfl rfl
  exact hfreed.trans (eases_applyResult _ r)

theorem eases_receive (d : Dispatcher σ) (r : TaskResult) :
    d.Eases (d.receive r).change.next := by
  unfold receive
  cases h : d.take? r.taskId r.attempt.toNat with
  | none => exact .refl d
  | some x =>
    obtain ⟨a, d'⟩ := x
    obtain ⟨-, -, rfl⟩ := take?_eq_some h
    exact (eases_without d r.taskId a.launch).trans (eases_settle _ _ _)

theorem eases_expire (d : Dispatcher σ) (t : Timer) : d.Eases (d.expire t).change.next := by
  unfold expire
  cases h : (d.disarm t.launch).take? t.task t.attempt with
  | none => exact .same rfl rfl rfl rfl
  | some x =>
    obtain ⟨a, d'⟩ := x
    obtain ⟨-, -, rfl⟩ := take?_eq_some h
    exact (eases_without d t.task t.launch).trans (eases_settle _ _ _)

omit [Sink σ] in
theorem eases_cancel {halts : Prop} (hd : d.Filed halts) (t : TaskId) :
    d.Eases (d.cancel t).change.next := by
  cases hd.stands t with
  | queued listed live =>
    rw [cancel_of_queued listed live]
    exact (eases_erase d t).trans (.same rfl rfl rfl rfl)
  | flying unlisted live flying =>
    rw [cancel_of_flying unlisted flying live]
    exact eases_put live rfl rfl
  | gone unlisted _ landed =>
    rw [cancel_of_neither unlisted landed]
    exact .refl d
  | stranded _ unlisted _ landed =>
    rw [cancel_of_neither unlisted landed]
    exact .refl d

/-! ## what else is done -/

variable {halts : Prop}

omit [Sink σ] in
/-- A task is accepted for which no call waits. -/
theorem Orderly.enqueueNew (h : d.Orderly) {t : Task}
    (untouched : ∀ a ∈ d.waiting, a.task.id ≠ t.id) : (d.enqueueNew t).Orderly where
  own t' e he := by
    replace he : (d.tasks.put t.id _).get? t' = some e := he
    rw [Table.get?_put] at he
    split at he
    · next ht =>
      obtain rfl := Option.some.inj he
      exact ht.symm
    · exact h.own t' e he
  spent a ha e he :=
    h.spent a ha e ((Table.get?_put_of_ne _ _ (untouched a ha)).symm.trans he)
  older := h.older

omit [Sink σ] in
/-- The new attempt has the greatest number that its submission used so far. -/
theorem Orderly.takeOff (h : d.Orderly) {a : Assignment} {e : Entry}
    (live : d.tasks.get? a.task = some e) : (d.takeOff a e).Orderly := by
  have hid : e.task.id = a.task := h.own _ _ live
  constructor
  · intro t e' he'
    replace he' : (d.tasks.put a.task _).get? t = some e' := he'
    rw [Table.get?_put] at he'
    split at he'
    · next ht =>
      obtain rfl := Option.some.inj he'
      exact hid.trans ht.symm
    · exact h.own t e' he'
  · intro b hb e' he'
    replace he' : (d.tasks.put a.task _).get? b.task.id = some e' := he'
    rw [Table.get?_put] at he'
    split at he'
    · next ht =>
      obtain rfl := Option.some.inj he'
      rcases mem_waiting_takeOff hb with hb | rfl
      · exact Nat.le_succ_of_le (h.spent b hb e (ht ▸ live))
      · exact Nat.le_refl _
    · next hne =>
      rcases mem_waiting_takeOff hb with hb | rfl
      · exact h.spent b hb e' he'
      · exact absurd hid hne
  · intro b hb c hc
    replace hc : (d.inFlight.put a.task _).get? b.task.id = some c := hc
    rw [Table.get?_put] at hc
    split at hc
    · next ht =>
      obtain rfl := Option.some.inj hc
      rcases mem_waiting_takeOff hb with hb | rfl
      · exact .inr (Nat.lt_succ_of_le (h.spent b hb e (ht ▸ live)))
      · exact .inl rfl
    · next hne =>
      rcases mem_waiting_takeOff hb with hb | rfl
      · exact h.older b hb c hc
      · exact absurd hid hne

theorem Orderly.pump (h : d.Orderly) (hd : d.Filed halts) : d.pump.next.Orderly :=
  pumpRounds_preserves (fun _ _ live h => h.takeOff live) _ hd h

omit [Sink σ] in
/-- An attempt is taken back whose call does not wait any more. -/
theorem Orderly.giveBack (h : d.Orderly) (hd : d.Filed halts) {t : TaskId} {number : Nat}
    (answered : ∀ b, d.inFlight.get? t = some b → b.number = number → b ∉ d.waiting) :
    (d.giveBack t number).next.Orderly := by
  unfold Dispatcher.giveBack
  cases htake : d.take? t number with
  | none => exact h
  | some x =>
    obtain ⟨b, d'⟩ := x
    obtain ⟨flying, hnumber, rfl⟩ := take?_eq_some htake
    obtain ⟨e, -, live, runs⟩ := hd.of_flying flying
    show ((d.without t b.launch).giveBackTaken b t).next.Orderly
    rw [giveBackTaken_eq b.launch live]
    have hland : d.Eases (d.land t b.worker.workerId b.launch none) :=
      (eases_without d t b.launch).trans (.same rfl rfl rfl rfl)
    split
    · exact h.eases (hland.trans (eases_erase _ t))
    · have hl := h.eases hland
      refine ⟨fun t' e' he' => ?_, fun a ha e' he' => ?_, hl.older⟩
      · replace he' : (d.tasks.put t _).get? t' = some e' := he'
        rw [Table.get?_put] at he'
        split at he'
        · next ht =>
          obtain rfl := Option.some.inj he'
          exact (h.own t e live).trans ht.symm
        · exact h.own t' e' he'
      · replace he' : (d.tasks.put t _).get? a.task.id = some e' := he'
        rw [Table.get?_put] at he'
        split at he'
        · next ht =>
          obtain rfl := Option.some.inj he'
          -- the calls that wait are older than the attempt that is taken back
          rcases h.older a ha b (ht ▸ flying) with rfl | hlt
          · exact absurd ha (answered b flying hnumber)
          · have hcount := runs.attempts
            show a.number ≤ e.attempts - 1
            omega
        · exact h.spent a ha e' he'

/-! ## whole operations -/

theorem Orderly.andThen_pump {s : Settled σ} (h : s.change.next.Orderly)
    (hd : s.change.next.Filed halts) : (s.andThen Dispatcher.pump).change.next.Orderly := by
  unfold Settled.andThen
  split
  · exact h.pump hd
  · exact h

theorem deliver_of_taken {r : TaskResult} {x : Attempt × Dispatcher σ}
    (h : d.take? r.taskId r.attempt.toNat = some x) :
    d.deliver r = (d.receive r).andThen pump := by
  unfold deliver receive
  rw [h]

omit [Sink σ] in
theorem refuse_of_taken {t : TaskId} {number : Nat} {x : Attempt × Dispatcher σ}
    (h : d.take? t number = some x) : d.refuse t number = Change.saying
      [⟨.warn, "Worker still busy - requeueing task"⟩] ((d.giveBack t number).andThen pump) := by
  unfold refuse giveBack
  rw [h]
  rfl

theorem Orderly.deliver (h : d.Orderly) (hd : d.Filed True) (r : TaskResult) :
    (d.deliver r).change.next.Orderly := by
  cases htake : d.take? r.taskId r.attempt.toNat with
  | none =>
    unfold Dispatcher.deliver
    rw [htake]
    exact h
  | some x =>
    rw [deliver_of_taken htake]
    exact (h.eases (eases_receive d r)).andThen_pump
      ((receive_follows hd fun _ => trivial).filed hd)

theorem Orderly.deadline (h : d.Orderly) (hd : d.Filed True) (t : Timer) :
    (d.deadline t).change.next.Orderly := by
  have hexpire := h.eases (eases_expire d t)
  have hfiled := (expire_follows (t := t) hd fun _ => trivial).filed hd
  unfold Dispatcher.deadline
  unfold expire at hexpire hfiled
  simp only []
  cases htake : (d.disarm t.launch).take? t.task t.attempt with
  | none => exact h.eases (.same rfl rfl rfl rfl)
  | some x =>
    rw [htake] at hexpire hfiled
    exact hexpire.andThen_pump hfiled

theorem Orderly.refuse (h : d.Orderly) (hd : d.Filed halts) {t : TaskId} {number : Nat}
    (answered : ∀ b, d.inFlight.get? t = some b → b.number = number → b ∉ d.waiting) :
    (d.refuse t number).next.Orderly := by
  cases htake : d.take? t number with
  | none =>
    unfold Dispatcher.refuse
    rw [htake]
    exact h
  | some x =>
    rw [refuse_of_taken htake]
    exact (h.giveBack hd answered).pump ((giveBack_follows hd).filed hd)

/-! ## answers -/

omit [Sink σ] in
theorem Orderly.unmistakable (h : d.Orderly) {a : Attempt} (ha : a ∈ d.waiting) :
    d.Unmistakable a := by
  intro b flying number
  rcases h.older a ha b flying with heq | hlt
  · exact heq
  · omega

omit [Sink σ] in
theorem Orderly.heard (h : d.Orderly) (a : Attempt) : (d.heard a).Orderly :=
  h.eases (eases_heard d a)

theorem filed_heard (hd : d.Filed halts) (a : Attempt) : (d.heard a).Filed halts :=
  (heard_follows d a).filed hd

omit [Sink σ] in
theorem Orderly.answered (h : d.Orderly) {a : Attempt} (ha : a ∈ d.waiting) :
    ∀ b, (d.heard a).inFlight.get? a.task.id = some b → b.number = a.number →
      b ∉ (d.heard a).waiting := by
  intro b flying number hb
  obtain rfl := h.unmistakable ha b flying number
  simpa using (List.mem_filter.mp hb).2

theorem Orderly.answer (h : d.Orderly) (hd : d.Filed True) {a : Attempt} (ha : a ∈ d.waiting)
    (reply : Except TransportError ExecuteResponse) : (d.answer a reply).change.next.Orderly := by
  rw [answer_eq]
  cases (d.heard a).reading a reply with
  | some r => exact (h.heard a).deliver (filed_heard hd a) r
  | none => exact (h.heard a).refuse (filed_heard hd a) (h.answered ha)

theorem Orderly.returned (h : d.Orderly) (hd : d.Filed True) {a : Attempt} (ha : a ∈ d.waiting)
    (reply : Except TransportError ExecuteResponse) : (d.returned a reply).change.next.Orderly := by
  unfold Dispatcher.returned
  cases (d.heard a).reading a reply with
  | some r => exact (h.heard a).eases (eases_receive _ r)
  | none => exact (h.heard a).giveBack (filed_heard hd a) (h.answered ha)

/-! ## runs -/

theorem Orderly.submit (h : d.Orderly) (hd : d.Filed halts) {t : Task}
    (timely : d.Timely (.occurs (.own (.submit t)))) : (d.submit t).change.next.Orderly := by
  obtain ⟨e, log, hs⟩ | ⟨ht, hs⟩ := d.submit_cases t
  · rw [hs]
    exact h
  · have hnew := timely t _ (.whole (congrArg Answered.value hs))
    rw [hs]
    exact (h.enqueueNew hnew).pump ((enqueueNew_turns ht).filed hd)

theorem Orderly.undergo (h : d.Orderly) (hd : d.Filed True) {o : Occurrence}
    (genuine : d.Genuine (.occurs o)) (timely : d.Timely (.occurs o)) :
    (d.undergo o).change.next.Orderly := by
  cases o with
  | pool c => exact h.eases (.same rfl rfl rfl rfl)
  | own a =>
    cases a with
    | submit t => exact h.submit hd timely
    | cancel t => exact h.eases (eases_cancel hd t)
    | deliver r => exact genuine.elim
    | refuse t number => exact genuine.elim
    | deadline t => exact h.deadline hd t
    | answer a reply => exact h.answer hd genuine reply
    | wake =>
      show (d.wake).next.Orderly
      unfold wake
      split
      · have hused : d.Eases { d with pool := { d.pool with permit := false } } :=
          .same rfl rfl rfl rfl
        exact (h.eases hused).pump (hd.withPool _)
      · exact h
    | takePermit => exact h.eases (.same rfl rfl rfl rfl)
    | pass millis => exact h.eases (.same rfl rfl rfl rfl)
    | shutdown => exact h.eases (.same rfl rfl rfl rfl)
    | part p =>
      cases p with
      | receive r => exact genuine.elim
      | giveBack t number => exact genuine.elim
      | expire t => exact h.eases (eases_expire d t)
      | accept t =>
        show Orderly (if d.tasks.contains t.id then d else d.enqueueNew t)
        split
        · exact h
        · next ht =>
          have new := (Table.contains_eq_false_iff _ _).mp (Bool.not_eq_true _ ▸ ht)
          exact h.enqueueNew (timely t _ (.part new))
      | assign t =>
        show (Settled.change (if t ∈ d.pending then _ else _)).next.Orderly
        split
        · next ht =>
          cases hat : d.assign? t with
          | none => exact h
          | some x =>
            obtain rfl := task_of_assign? hat
            obtain ⟨e, live, -⟩ := hd.of_queued ht
            show (d.launch x).next.Orderly
            rw [launch_eq live]
            exact h.takeOff live
        · exact h

theorem history_orderly {hs : List Happening} (genuine : d.Throughout Genuine hs)
    (timely : d.Throughout Timely hs) (hd : d.Filed True) (h : d.Orderly) :
    (d.history hs).next.Filed True ∧ (d.history hs).next.Orderly := by
  refine history_keeps (P := Orderly) (fun {d x} hd hx h => ?_) (throughout_and genuine timely) hd h
  cases x with
  | occurs o => exact h.undergo hd hx.1 hx.2
  | returns a reply => exact h.returned hd hx.1 reply

end Dispatcher
end HazardDispatch
