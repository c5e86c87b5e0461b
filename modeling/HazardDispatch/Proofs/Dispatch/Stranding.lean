import HazardDispatch.Proofs.Dispatch.Hearing

/-!
# Tasks that a halting sink leaves behind

The attempt is out of flight and its worker is free when the sinks are handed the result. If one of
them stops half-way, the task stays live, but nothing is left that could bring it to an end.

* `Stranded d t`      `t` is live, and neither queued nor in flight;
* `Wedged d t`        `t` stays live whatever happens;
* `spilled s es`      the tasks at whose results the sinks stopped half-way, read off the events.

In every run the stranded tasks are the spilled ones (`run_stranded_iff`), and the wedged ones
(`wedged_iff`): every other live task can still be cancelled.
-/

namespace HazardDispatch

/-- The task of a result at which the sinks stop half-way. -/
def Event.spill {σ : Type} [Sink σ] (s : σ) : Event → List TaskId
  | forwarded _ r => if (Sink.record s r).2 = none then [] else [r.taskId]
  | _ => []

def spilled {σ : Type} [Sink σ] (s : σ) : List Event → List TaskId
  | [] => []
  | e :: es => e.spill s ++ spilled (e.tell s) es

section
variable {σ : Type} [Sink σ]

theorem spilled_append (s : σ) (es es' : List Event) :
    spilled s (es ++ es') = spilled s es ++ spilled (es.foldl Event.tell s) es' := by
  induction es generalizing s with
  | nil => rfl
  | cons e es ih =>
    rw [List.cons_append, spilled, spilled, ih, List.append_assoc]
    rfl

theorem spilled_facts (s : σ) (es : List Event) : spilled s (facts es) = spilled s es := by
  induction es generalizing s with
  | nil => rfl
  | cons e es ih =>
    rw [facts_cons, spilled, ← ih]
    cases e <;> rfl

theorem mem_spilled_iff {s : σ} {es : List Event} {t : TaskId} :
    t ∈ spilled s es ↔ ∃ before n r after, es = before ++ .forwarded n r :: after ∧
      r.taskId = t ∧ (Sink.record (before.foldl Event.tell s) r).2 ≠ none := by
  constructor
  · intro h
    induction es generalizing s with
    | nil => cases h
    | cons e es ih =>
      rcases List.mem_append.mp h with h | h
      · cases e with
        | forwarded n r =>
          rw [Event.spill] at h
          split at h
          · cases h
          · next hr => exact ⟨[], n, r, es, rfl, (List.mem_singleton.mp h).symm, hr⟩
        | _ => cases h
      · obtain ⟨before, n, r, after, rfl, ht, hr⟩ := ih h
        exact ⟨e :: before, n, r, after, rfl, ht, hr⟩
  · rintro ⟨before, n, r, after, rfl, rfl, hr⟩
    rw [spilled_append]
    refine List.mem_append_right _ (List.mem_append_left _ ?_)
    rw [Event.spill, if_neg hr]
    exact List.mem_cons_self

end

namespace Dispatcher

variable {σ : Type}

/-- A live task that is neither queued nor in flight. -/
structure Stranded (d : Dispatcher σ) (t : TaskId) : Prop where
  live : (d.tasks.get? t).isSome
  unlisted : t ∉ d.pending
  landed : d.inFlight.get? t = none

/-- The task stays live whatever happens. -/
def Wedged [Sink σ] (d : Dispatcher σ) (t : TaskId) : Prop :=
  ∀ os : List Occurrence, ((d.run os).next.tasks.get? t).isSome

theorem not_stranded_start (config : ControllerConfig) (sink : σ) (t : TaskId) :
    ¬ (start config sink).Stranded t :=
  fun h => absurd h.live Bool.false_ne_true

variable {d d' : Dispatcher σ} {t : TaskId}

theorem not_stranded_of_queued (h : t ∈ d.pending) : ¬ d.Stranded t := fun c => c.unlisted h

theorem not_stranded_of_flying {a : Attempt} (h : d.inFlight.get? t = some a) :
    ¬ d.Stranded t := fun c => by
  rw [c.landed] at h
  cases h

theorem not_stranded_of_dead (h : d.tasks.get? t = none) : ¬ d.Stranded t := fun c => by
  have hl := c.live
  rw [h] at hl
  cases hl

variable [Sink σ] {halts : Prop} {u : Option TaskId} {es : List Event}

/-! ## turns -/

theorem Turn.sink_eq (h : Turn halts u d es d') : d'.sink = es.foldl Event.tell d.sink := by
  cases h <;> rfl

theorem Turn.stranded_other (h : Turn halts u d es d') (hu : u ≠ some t) :
    d'.Stranded t ↔ d.Stranded t := by
  obtain ⟨hp, ht, hf⟩ := h.frame hu
  constructor
  · rintro ⟨live, unlisted, landed⟩
    exact ⟨ht ▸ live, mt hp.mpr unlisted, hf ▸ landed⟩
  · rintro ⟨live, unlisted, landed⟩
    exact ⟨ht ▸ live, mt hp.mp unlisted, hf ▸ landed⟩

omit [Sink σ] in
theorem mem_requeue (d : Dispatcher σ) (t : TaskId) (e : Entry) : t ∈ (d.requeue t e).pending :=
  (insertQueued_perm _ _ _ _).mem_iff.mpr List.mem_cons_self

/-- The task of a turn was not stranded before, and is afterwards just if the sinks stopped half-way
at its result. -/
theorem Turn.stranded_self (h : Turn halts (some t) d es d') (hd : d.Filed halts) :
    ¬ d.Stranded t ∧
      (spilled d.sink es = [] ∧ ¬ d'.Stranded t ∨ spilled d.sink es = [t] ∧ d'.Stranded t) := by
  have dead {t' : TaskId} {tasks : Table TaskId Entry} {d' : Dispatcher σ}
      (h : d'.tasks = tasks.erase t') : ¬ d'.Stranded t' :=
    not_stranded_of_dead (by rw [h]; exact Table.get?_erase_self _ _)
  cases h with
  | accepted task new =>
    refine ⟨not_stranded_of_dead new, .inl ⟨rfl, not_stranded_of_queued ?_⟩⟩
    exact List.mem_append_right _ List.mem_cons_self
  | launched queued =>
    refine ⟨not_stranded_of_queued queued, .inl ⟨rfl, ?_⟩⟩
    exact not_stranded_of_flying (Table.get?_put_self _ _ _)
  | withdrawn queued => exact ⟨not_stranded_of_queued queued, .inl ⟨rfl, dead rfl⟩⟩
  | marked flying =>
    exact ⟨not_stranded_of_flying flying, .inl ⟨rfl, not_stranded_of_flying flying⟩⟩
  | cancelled l how flying => exact ⟨not_stranded_of_flying flying, .inl ⟨rfl, dead rfl⟩⟩
  | returned l flying =>
    exact ⟨not_stranded_of_flying flying, .inl ⟨rfl, not_stranded_of_queued (mem_requeue _ _ _)⟩⟩
  | completed l flying _ _ _ _ whole =>
    refine ⟨not_stranded_of_flying flying, .inl ⟨?_, dead rfl⟩⟩
    simp [spilled, Event.spill, whole]
  | retried l flying _ _ _ _ _ _ whole =>
    refine ⟨not_stranded_of_flying flying, .inl ⟨?_, not_stranded_of_queued (mem_requeue _ _ _)⟩⟩
    simp [spilled, Event.spill, whole]
  | abandoned l flying _ _ _ _ _ whole =>
    refine ⟨not_stranded_of_flying flying, .inl ⟨?_, dead rfl⟩⟩
    simp [spilled, Event.spill, whole]
  | halted l _ flying _ live _ stop =>
    refine ⟨not_stranded_of_flying flying, .inr ⟨?_, ?_, ?_, Table.get?_erase_self _ _⟩⟩
    · simp [spilled, Event.spill, stop]
    · exact Option.isSome_iff_exists.mpr ⟨_, live⟩
    · obtain ⟨-, unlisted, -⟩ := hd.of_flying flying
      exact unlisted

/-- A turn strands the task that it concerns, if the sinks stop half-way, and no other. -/
theorem Turn.stranded_iff (h : Turn halts u d es d') (hd : d.Filed halts) (t : TaskId) :
    d'.Stranded t ↔ d.Stranded t ∨ t ∈ spilled d.sink es := by
  by_cases hu : u = some t
  · subst hu
    obtain ⟨hn, ⟨hs, hn'⟩ | ⟨hs, hy'⟩⟩ := h.stranded_self hd
    · simp [hn, hs, hn']
    · simp [hs, hy']
  · rw [h.stranded_other hu]
    have hs : t ∉ spilled d.sink es := by
      cases u with
      | none =>
        cases h
        exact List.not_mem_nil
      | some v =>
        obtain ⟨-, ⟨hs, -⟩ | ⟨hs, -⟩⟩ := h.stranded_self hd
        · simp [hs]
        · simpa [hs] using fun c => hu (congrArg some c.symm)
    simp [hs]

/-! ## runs -/

/-- What a run strands is what the sinks stopped half-way at. -/
theorem run_stranded_iff (hd : d.Filed True) (os : List Occurrence) (t : TaskId) :
    (d.run os).next.Stranded t ↔ d.Stranded t ∨ t ∈ spilled d.sink (d.run os).events := by
  have h := run_tell_any (P := fun es d' => d'.sink = es.foldl Event.tell d.sink ∧
      (d'.Stranded t ↔ d.Stranded t ∨ t ∈ spilled d.sink es)) [] os
    (fun _ ⟨hs, h⟩ => ⟨hs, ⟨fun c => h.mp ⟨c.1, c.2, c.3⟩, fun c => ⟨(h.mpr c).1, (h.mpr c).2,
      (h.mpr c).3⟩⟩⟩)
    (fun hd turn ⟨hs, h⟩ => by
      refine ⟨?_, ?_⟩
      · rw [turn.sink_eq, hs, List.foldl_append]
      · rw [turn.stranded_iff hd, h, hs, spilled_append, List.mem_append, or_assoc])
    hd ⟨rfl, by simp [spilled]⟩
  rw [List.nil_append, spilled_facts] at h
  exact h.2

/-! ## who can still be brought to an end -/

omit [Sink σ] in
/-- A cycle does not touch a task that is not queued. -/
theorem pumpRounds_tasks_of_unlisted (n : Nat) (ht : t ∉ d.pending) :
    (pumpRounds n d).next.tasks.get? t = d.tasks.get? t := by
  induction n generalizing d with
  | zero => rfl
  | succ n ih =>
    rw [pumpRounds]
    cases h : d.nextAssignment? with
    | none => rfl
    | some a =>
      obtain ⟨v, hv, ha⟩ := List.exists_of_findSome?_eq_some h
      obtain rfl := task_of_assign? ha
      have hne : t ≠ a.task := fun e => ht (e ▸ hv)
      have hlaunch : t ∉ (d.launch a).next.pending ∧
          (d.launch a).next.tasks.get? t = d.tasks.get? t := by
        cases live : d.tasks.get? a.task with
        | none =>
          unfold launch
          simp only [live]
          exact ⟨mt List.mem_of_mem_erase ht, rfl⟩
        | some e =>
          rw [launch_eq live]
          exact ⟨mt List.mem_of_mem_erase ht, Table.get?_put_of_ne _ _ hne⟩
      exact (ih hlaunch.1).trans hlaunch.2

/-- The result of an attempt at a cancelled task ends the task. -/
theorem deliver_doomed {r : TaskResult} {a : Attempt} {e : Entry} (hd : d.Filed halts)
    (flying : d.inFlight.get? r.taskId = some a) (number : a.number = r.attempt.toNat)
    (live : d.tasks.get? r.taskId = some e) (doomed : e.cancelRequested = true) :
    (d.deliver r).change.next.tasks.get? r.taskId = none := by
  obtain ⟨-, unlisted, -⟩ := hd.of_flying flying
  obtain ⟨ls, h⟩ := (d.without r.taskId a.launch).settle_eq a r
  let freed : Dispatcher σ := d.land r.taskId a.worker.workerId a.launch (some r.status)
  have happly : freed.applyResult r = .whole ((freed.resolve r.taskId e
      (.cancelled r.taskId)).saying [⟨.info, "Cancelled task settled"⟩]) := by
    have hl : freed.tasks.get? r.taskId = some e := live
    rw [applyResult, hl]
    exact if_pos doomed
  have hdeliver : d.deliver r = ((d.without r.taskId a.launch).settle a r).andThen pump := by
    unfold deliver
    rw [take?_of_flying flying number]
    rfl
  rw [hdeliver, h]
  show ((Settled.after _ fun _ => freed.applyResult r).andThen pump).change.next.tasks.get? _ = _
  rw [happly]
  refine (pumpRounds_tasks_of_unlisted (t := r.taskId) _ ?_).trans (Table.get?_erase_self _ _)
  exact unlisted

/-- Just the stranded tasks cannot be brought to an end: a queued one can be cancelled, and a running
one can be cancelled and then have its result. -/
theorem wedged_iff (hd : d.Filed True) (t : TaskId) : d.Wedged t ↔ d.Stranded t := by
  constructor
  · intro hw
    cases hd.stands t with
    | queued listed live =>
      have h : ((d.cancel t).change.next.tasks.get? t).isSome := hw [.own (.cancel t)]
      rw [cancel_of_queued listed live] at h
      exact absurd h (by simp [Change.saying])
    | @flying e a unlisted live flying runs =>
      let d' : Dispatcher σ :=
        { d with tasks := d.tasks.put t { e with cancelRequested := true } }
      let r : TaskResult := .failed t (.ofNat a.number) a.worker.workerId a.task.operation .cancelled 0
      have hd' : d'.Filed True := (Turn.marked flying live).filed hd
      have h : (((d.cancel t).change.next.deliver r).change.next.tasks.get? t).isSome :=
        hw [.own (.cancel t), .own (.deliver r)]
      rw [cancel_of_flying unlisted flying live] at h
      have hend : (d'.deliver r).change.next.tasks.get? t = none :=
        deliver_doomed hd' flying (hd.toNat_number flying).symm (Table.get?_put_self _ _ _) rfl
      have h' : ((d'.deliver r).change.next.tasks.get? t).isSome := h
      rw [hend] at h'
      cases h'
    | gone _ dead =>
      have h : (d.tasks.get? t).isSome := hw []
      rw [dead] at h
      cases h
    | stranded _ unlisted live landed =>
      exact ⟨Option.isSome_iff_exists.mpr ⟨_, live⟩, unlisted, landed⟩
  · intro hs os
    exact ((run_stranded_iff hd os t).mpr (.inl hs)).live

end Dispatcher
end HazardDispatch
