import HazardDispatch.Proofs.Dispatch.Cancellation
import HazardDispatch.Proofs.Dispatch.Cycle
import Mathlib.Data.List.Nodup

/-!
# The bound of the queue

A task is turned down for one of three reasons, and then nothing has happened (`Rejection`).
Otherwise the dispatcher holds what it held before and the task in addition (`Admitted`).

A task may be taken in although the queue is full, namely when a worker is idle. The queue does not
get longer by that: the new task has no worker to avoid, so that the scheduling cycle which follows
finds an assignment, be it for this task or for an earlier one (`pump_pending_lt`). Every cycle
after that only takes tasks out of the queue.
-/

namespace HazardDispatch

theorem Pool.idleCount_eq_zero_iff {p : Pool} :
    p.idleCount = 0 ↔ ∀ w, p.status? w ≠ some .idle := by
  constructor
  · intro h w hw
    exact idleCount_ne_zero hw h
  · intro h
    rw [idleCount, count, List.countP_eq_zero]
    intro e he
    obtain ⟨x, hx, rfl⟩ := List.mem_map.mp he
    have hentry : p.entry? x.1 = some x.2 := (Table.mem_entries_iff _).mp hx
    have hbusy : x.2.status ≠ .idle := fun hidle => h x.1 (hidle ▸ status?_of_entry hentry)
    simpa using hbusy

namespace Dispatcher

variable {σ : Type}

/-- The reasons for which a task is turned down, and the error that says so. -/
inductive Rejection (d : Dispatcher σ) (t : Task) : DispatchError → Prop where
  | shutDown (stopped : d.stopped = true) : Rejection d t .shutDown
  | duplicate {e : Entry} (running : d.stopped = false) (live : d.tasks.get? t.id = some e) :
      Rejection d t (.duplicateTask t.id)
  | exhausted (running : d.stopped = false) (new : d.tasks.get? t.id = none)
      (full : d.config.maxQueueDepth ≤ d.pending.length)
      (busy : ∀ w, d.pool.status? w ≠ some .idle) :
      Rejection d t (.poolExhausted d.pending.length)

/-- The task is new, and there is room for it in the queue or a worker for some task. -/
structure Admits (d : Dispatcher σ) (t : Task) : Prop where
  running : d.stopped = false
  new : d.tasks.get? t.id = none
  room : d.pending.length < d.config.maxQueueDepth ∨ ∃ w, d.pool.status? w = some .idle

/-- What was submitted under the name and is live. -/
def submission? (d : Dispatcher σ) (t : TaskId) : Option (Task × Nat) :=
  (d.tasks.get? t).map fun e => (e.task, e.ticket)

/-- `d'` holds the submissions of `d` and the task, as submission `n`. -/
structure Admitted (d : Dispatcher σ) (t : Task) (n : Nat) (d' : Dispatcher σ) : Prop where
  bounded : d'.pending.length ≤ max d.pending.length d.config.maxQueueDepth
  live : ∀ u, d'.submission? u = if u = t.id then some (t, n) else d.submission? u
  alone : ∀ u task, d'.submission? u = some (task, n) → u = t.id
  once : d'.pending.count t.id + d'.aloft t.id = 1

variable {d : Dispatcher σ}

/-! ## the length of the queue -/

theorem pumpRounds_pending_le (n : Nat) (d : Dispatcher σ) :
    (pumpRounds n d).next.pending.length ≤ d.pending.length := by
  induction n generalizing d with
  | zero => exact Nat.le_refl _
  | succ n ih =>
    rw [pumpRounds]
    cases d.nextAssignment? with
    | none => exact Nat.le_refl _
    | some a =>
      have hrest := ih (d.launch a).next
      rw [launch_pending] at hrest
      exact Nat.le_trans hrest List.erase_sublist.length_le

/-- A cycle that finds an assignment takes a task out of the queue. -/
theorem pump_pending_lt (h : d.nextAssignment? ≠ none) :
    d.pump.next.pending.length < d.pending.length := by
  obtain ⟨a, ha⟩ := Option.ne_none_iff_exists'.mp h
  obtain ⟨t, ht, hassign⟩ := List.exists_of_findSome?_eq_some ha
  obtain rfl := task_of_assign? hassign
  obtain ⟨n, hn⟩ := Nat.exists_eq_succ_of_ne_zero
    (Nat.ne_of_gt (List.length_pos_of_mem ht))
  have hfirst : d.pump = (d.launch a).andThen (pumpRounds n) := by
    rw [pump, hn, pumpRounds, ha]
  have hrest := pumpRounds_pending_le n (d.launch a).next
  rw [launch_pending, List.length_erase_of_mem ht] at hrest
  show (d.pump).next.pending.length < _
  rw [hfirst]
  show (pumpRounds n (d.launch a).next).next.pending.length < _
  omega

/-- With an idle worker there is an assignment after a new task was queued. -/
theorem nextAssignment?_enqueueNew {w : WorkerId} (t : Task) (hw : d.pool.status? w = some .idle) :
    (d.enqueueNew t).nextAssignment? ≠ none := by
  intro hnone
  have hqueued : t.id ∈ (d.enqueueNew t).pending := List.mem_append_right _ List.mem_cons_self
  have hrefused := List.findSome?_eq_none_iff.mp hnone t.id hqueued
  rw [assign?_eq_none_iff (Table.get?_put_self _ _ _)] at hrefused
  exact Pool.acquireAvoiding_none_ne_none (p := d.pool) hw hrefused

theorem pump_bounded {t : Task} (h : d.Admits t) :
    (d.enqueueNew t).pump.next.pending.length
      ≤ max d.pending.length d.config.maxQueueDepth := by
  have hone : (d.enqueueNew t).pending.length = d.pending.length + 1 := by
    show (d.pending ++ [t.id]).length = _
    rw [List.length_append]
    rfl
  rcases h.room with hroom | ⟨w, hw⟩
  · have hle : (d.enqueueNew t).pump.next.pending.length ≤ _ := pumpRounds_pending_le _ _
    omega
  · have hlt := pump_pending_lt (nextAssignment?_enqueueNew t hw)
    omega

/-! ## who is live -/

theorem submission?_takeOff {a : Assignment} {e : Entry} (live : d.tasks.get? a.task = some e)
    (u : TaskId) : (d.takeOff a e).submission? u = d.submission? u := by
  unfold submission?
  by_cases hu : u = a.task
  · subst hu
    rw [live]
    show ((d.tasks.put a.task _).get? a.task).map _ = _
    rw [Table.get?_put_self]
    rfl
  · exact congrArg _ (Table.get?_put_of_ne _ _ hu)

theorem submission?_enqueueNew (t : Task) (u : TaskId) :
    (d.enqueueNew t).submission? u
      = if u = t.id then some (t, d.nextTicket) else d.submission? u := by
  show ((d.tasks.put t.id _).get? u).map _ = _
  rw [Table.get?_put]
  split <;> rfl

variable [Sink σ] {halts : Prop}

theorem submission?_pump (hd : d.Filed halts) (u : TaskId) :
    d.pump.next.submission? u = d.submission? u :=
  pumpRounds_preserves (P := fun d' => d'.submission? u = d.submission? u)
    (fun _ _ live h => (submission?_takeOff live u).trans h) _ hd rfl

/-- A cycle moves a task from the queue into flight, if anywhere. -/
theorem pump_placed (hd : d.Filed halts) {t : TaskId} (ht : t ∈ d.pending) :
    t ∈ d.pump.next.pending ∨ ∃ a, d.pump.next.inFlight.get? t = some a := by
  refine pumpRounds_preserves
    (P := fun d => t ∈ d.pending ∨ ∃ a, d.inFlight.get? t = some a) ?_ _ hd (.inl ht)
  intro d x e _ _ _ h
  by_cases hx : t = x.task
  · subst hx
    exact .inr ⟨_, Table.get?_put_self _ _ _⟩
  · exact h.imp (List.mem_erase_of_ne hx).mpr
      fun ⟨a, ha⟩ => ⟨a, (Table.get?_put_of_ne _ _ hx).trans ha⟩

omit [Sink σ] in
theorem Filed.once_of_placed (hd : d.Filed halts) {t : TaskId}
    (h : t ∈ d.pending ∨ ∃ a, d.inFlight.get? t = some a) :
    d.pending.count t + d.aloft t = 1 := by
  rcases h with ht | ⟨a, ha⟩
  · obtain ⟨-, -, landed, -⟩ := hd.of_queued ht
    rw [List.count_eq_one_of_mem hd.once ht, aloft_of_landed landed]
  · obtain ⟨-, unlisted, -⟩ := hd.of_flying ha
    rw [List.count_eq_zero_of_not_mem unlisted, aloft_of_flying ha]

/-! ## submitting -/

omit [Sink σ] in
theorem submit_answer (d : Dispatcher σ) (t : Task) :
    (d.Admits t ∧ d.submit t = ⟨.ok ⟨d.nextTicket, t.id⟩,
        (d.enqueueNew t).pump.saying [⟨.debug, "Task submitted"⟩]⟩) ∨
      ∃ e log, d.Rejection t e ∧ d.submit t = d.turnDown e log := by
  unfold submit
  cases running : d.stopped with
  | true => exact .inr ⟨_, _, .shutDown running, rfl⟩
  | false =>
    cases live : d.tasks.get? t.id with
    | some e =>
      have hc : d.tasks.contains t.id = true := by rw [Table.contains, live]; rfl
      rw [hc]
      exact .inr ⟨_, _, .duplicate running live, rfl⟩
    | none =>
      have hc : d.tasks.contains t.id = false := (Table.contains_eq_false_iff _ _).mpr live
      rw [hc]
      by_cases full : d.config.maxQueueDepth ≤ d.pendingCount ∧ d.pool.idleCount = 0
      · refine .inr ⟨_, _, .exhausted running live full.1 ?_, if_pos full⟩
        exact Pool.idleCount_eq_zero_iff.mp full.2
      · refine .inl ⟨⟨running, live, ?_⟩, if_neg full⟩
        rw [not_and_or, Pool.idleCount_eq_zero_iff, not_forall] at full
        exact full.imp Nat.lt_of_not_le fun h => h.imp fun _ => not_not.mp

/-- A submission that is accepted is live, and the others are as before. -/
theorem submission?_submit {t : Task} {k : Ticket} (hd : d.Filed halts)
    (h : (d.submit t).value = .ok k) :
    k = ⟨d.nextTicket, t.id⟩ ∧ ∀ u, (d.submit t).change.next.submission? u
      = if u = t.id then some (t, d.nextTicket) else d.submission? u := by
  obtain ⟨hadmits, heq⟩ | ⟨e, log, -, heq⟩ := d.submit_answer t
  · have hc : d.tasks.contains t.id = false := (Table.contains_eq_false_iff _ _).mpr hadmits.new
    rw [heq] at h ⊢
    refine ⟨(Except.ok.inj h).symm, fun u => ?_⟩
    exact (submission?_pump ((enqueueNew_turns hc).filed hd) u).trans (submission?_enqueueNew t u)
  · rw [heq] at h
    cases h

theorem admitted_pump {t : Task} (hd : d.Filed halts) (hn : d.Numbered) (h : d.Admits t) :
    d.Admitted t d.nextTicket (d.enqueueNew t).pump.next := by
  have hc : d.tasks.contains t.id = false := (Table.contains_eq_false_iff _ _).mpr h.new
  have hq : (d.enqueueNew t).Filed halts := (enqueueNew_turns hc).filed hd
  have hlive (u : TaskId) := (submission?_pump hq u).trans (submission?_enqueueNew t u)
  refine ⟨pump_bounded h, hlive, fun u task hu => ?_, ?_⟩
  · rw [hlive] at hu
    split at hu
    · assumption
    · obtain ⟨e, live, he⟩ := Option.map_eq_some_iff.mp hu
      have hlt := hn.issued u e live
      rw [(Prod.mk.inj he).2] at hlt
      exact absurd hlt (Nat.lt_irrefl _)
  · have hfiled : (d.enqueueNew t).pump.next.Filed halts := (pump_follows hq).filed hq
    exact hfiled.once_of_placed
      (pump_placed hq (List.mem_append_right _ List.mem_cons_self))

/-- In every state that a run comes to, with any pool, a task is admitted to a queue that is no
longer than before or within its depth, or it is turned down for a reason and nothing has happened.
-/
theorem submit_admits_or_rejects (config : ControllerConfig) (sink : σ) (os : List Occurrence)
    (p : Pool) (t : Task) :
    let d : Dispatcher σ := { ((start config sink).run os).next with pool := p }
    let c := (d.submit t).change
    (∃ n, (d.submit t).value = .ok ⟨n, t.id⟩ ∧ d.Admits t ∧ d.Admitted t n c.next) ∨
      ∃ e, (d.submit t).value = .error e ∧ d.Rejection t e ∧ c.next = d ∧ facts c.events = [] := by
  intro d
  have hd : d.Filed True := (run_filed_any os (filed_start config sink)).withPool p
  have hr := run_numbered config sink os
  have hn : d.Numbered := ⟨hr.issued, hr.distinct⟩
  obtain ⟨h, heq⟩ | ⟨e, log, h, heq⟩ := d.submit_answer t
  · rw [heq]
    exact .inl ⟨d.nextTicket, rfl, h, admitted_pump hd hn h⟩
  · rw [heq]
    refine .inr ⟨e, rfl, h, rfl, ?_⟩
    show facts (log.map .logged ++ []) = []
    rw [List.append_nil, facts_logged]

end Dispatcher
end HazardDispatch
