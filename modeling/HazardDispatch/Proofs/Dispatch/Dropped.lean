import HazardDispatch.Proofs.Dispatch.Backpressure
import HazardDispatch.Proofs.Dispatch.Deadlines

/-!
# Tasks that are worked on no longer

A task is dropped when it is not live, or in flight with its cancellation requested, or stranded.
After it was cancelled it is one of the three, whatever the answer of the call was
(`cancel_dropped`). It stays dropped until it is submitted again: no attempt at it is sent to a
worker, and the sinks hear nothing of it (`run_dropped`).

Whether a task is submitted is a matter of the occurrences, not of the turns: a list of turns may
accept anything. But each acceptance uses up a number (`Turns.tell_omitting`), and what is not a
submission uses up none (`act_follows`). So a run without a submission of the task has only turns that
leave it out.
-/

namespace HazardDispatch

/-- The task of an attempt that is sent to a worker, or of what the sinks are told. -/
def Event.work? : Event → Option TaskId
  | launched _ a => some a.task.id
  | forwarded _ r => some r.taskId
  | abandoned _ t _ => some t.id
  | _ => none

namespace Dispatcher

variable {σ : Type}

/-- The tasks are entered under their names. -/
def Keyed (d : Dispatcher σ) : Prop := ∀ t e, d.tasks.get? t = some e → e.task.id = t

/-- The task is not accepted between the two. -/
def Omits (t : TaskId) (d d' : Dispatcher σ) : Prop :=
  ∀ e', d'.tasks.get? t = some e' → ∃ e, d.tasks.get? t = some e ∧ e'.ticket = e.ticket

inductive Dropped (t : TaskId) (d : Dispatcher σ) : Prop where
  | dead (h : d.tasks.get? t = none)
  | doomed {e : Entry} {a : Attempt} (live : d.tasks.get? t = some e)
      (flying : d.inFlight.get? t = some a) (doomed : e.cancelRequested = true)
  | stranded (h : d.Stranded t)

/-- The submission of the ticket is live, or its outcome was sent. -/
def Known (k : Ticket) (es : List Event) (d : Dispatcher σ) : Prop :=
  (∃ e, d.tasks.get? k.task = some e ∧ e.ticket = k.number) ∨ ∃ o, .resolved k.number o ∈ es

/-- The submissions whose outcomes were sent are not live. -/
def Bygone (es : List Event) (d : Dispatcher σ) : Prop :=
  ∀ n o, .resolved n o ∈ es → n < d.nextTicket ∧ ∀ t e, d.tasks.get? t = some e → e.ticket ≠ n

variable {d d' : Dispatcher σ} {t : TaskId} {n : Nat} {halts : Prop} {u : Option TaskId}
  {es es₀ : List Event}

theorem Omits.dead (h : Omits t d d') (dead : d.tasks.get? t = none) : d'.tasks.get? t = none := by
  cases live : d'.tasks.get? t with
  | none => rfl
  | some e' =>
    obtain ⟨e, he, -⟩ := h e' live
    rw [dead] at he
    cases he

theorem omits_enqueueNew {x : Task} (hx : x.id ≠ t) : Omits t d (d.enqueueNew x) := by
  intro e' he'
  have hne : t ≠ x.id := fun h => hx h.symm
  exact ⟨e', (Table.get?_put_of_ne _ _ hne).symm.trans he', rfl⟩

variable [Sink σ]

/-! ## runs that leave a task out -/

/-- A submission changes nothing, or it begins with an acceptance and accepts nothing else. -/
theorem undergo_submits {o : Occurrence} (hd : d.Filed True) (ho : o.submits = some t) :
    (facts (d.undergo o).change.events = [] ∧ (d.undergo o).change.next = d) ∨
      ∃ x, x.id = t ∧ d.tasks.get? x.id = none ∧
        Turns True (d.enqueueNew x) (facts (d.undergo o).change.events) (d.undergo o).change.next ∧
        (d.undergo o).change.next.nextTicket = (d.enqueueNew x).nextTicket := by
  have submit (x : Task) : (facts (d.submit x).change.events = [] ∧ (d.submit x).change.next = d) ∨
      d.tasks.get? x.id = none ∧
        Turns True (d.enqueueNew x) (facts (d.submit x).change.events) (d.submit x).change.next ∧
        (d.submit x).change.next.nextTicket = (d.enqueueNew x).nextTicket := by
    obtain ⟨e, log, h⟩ | ⟨hnew, h⟩ := d.submit_cases x
    · rw [h]
      refine .inl ⟨?_, rfl⟩
      show facts (log.map .logged ++ []) = []
      rw [List.append_nil, facts_logged]
    · have hq : (d.enqueueNew x).Filed True := (enqueueNew_turns hnew).filed hd
      have hpump := (pump_follows hq).saying [⟨.debug, "Task submitted"⟩]
      rw [h]
      exact .inr ⟨(Table.contains_eq_false_iff _ _).mp hnew, hpump.turns, hpump.nextTicket⟩
  have accept (x : Task) : (d.undergo (.own (.part (.accept x)))).change
      = .none (if d.tasks.contains x.id then d else d.enqueueNew x) := rfl
  cases o with
  | pool c => cases ho
  | own a =>
    cases a with
    | submit x => exact (submit x).imp_right fun h => ⟨x, Option.some.inj ho, h⟩
    | part p =>
      cases p with
      | accept x =>
        rw [accept]
        split
        · exact .inl ⟨rfl, rfl⟩
        · next hnew =>
          have hdead := (Table.contains_eq_false_iff _ _).mp (Bool.not_eq_true _ ▸ hnew)
          exact .inr ⟨x, Option.some.inj ho, hdead, .nil _, rfl⟩
      | _ => cases ho
    | _ => cases ho

/-- Where no number is used up, no turn accepts a task. -/
theorem Turns.tell_omitting {P : List Event → Dispatcher σ → Prop}
    (step : ∀ {es₀ u d es d'}, d.Filed halts → Turn halts u d es d' → Omits t d d' → P es₀ d →
      P (es₀ ++ es) d')
    (h : Turns halts d es d') (same : d'.nextTicket = d.nextTicket) (hd : d.Filed halts)
    (h₀ : P es₀ d) : P (es₀ ++ es) d' := by
  induction h generalizing es₀ with
  | nil d => rwa [List.append_nil]
  | @cons u d d' d'' es es' turn rest ih =>
    have hfirst := turn.nextTicket_le
    have hrest : d'.nextTicket ≤ d''.nextTicket :=
      rest.keep (P := fun x => d'.nextTicket ≤ x.nextTicket)
        (fun turn h => Nat.le_trans h turn.nextTicket_le) (Nat.le_refl _)
    have omits : Omits t d d' := by
      intro e' he'
      rcases turn.origin he' with hold | ⟨-, hnext⟩
      · exact hold
      · omega
    rw [← List.append_assoc]
    exact ih (by omega) (turn.filed hd) (step hd turn omits h₀)

theorem run_tell_omitting {P : List Event → Dispatcher σ → Prop} (es₀ : List Event)
    (os : List Occurrence) (hos : ∀ o ∈ os, o.submits ≠ some t)
    (pool : ∀ {es d} (p : Pool), P es d → P es { d with pool := p })
    (step : ∀ {es₀ u d es d'}, d.Filed True → Turn True u d es d' → Omits t d d' → P es₀ d →
      P (es₀ ++ es) d')
    (hd : d.Filed True) (h₀ : P es₀ d) :
    P (es₀ ++ facts (d.run os).events) (d.run os).next := by
  induction os generalizing d es₀ with
  | nil =>
    show P (es₀ ++ []) d
    rwa [List.append_nil]
  | cons o os ih =>
    have hfiled : (d.undergo o).change.next.Filed True := run_filed_any [o] hd
    have hfirst : P (es₀ ++ facts (d.undergo o).change.events) (d.undergo o).change.next := by
      cases ho : o.submits with
      | none =>
        cases o with
        | own a =>
          have hfollows := act_follows ho hd fun _ => trivial
          exact hfollows.turns.tell_omitting step hfollows.nextTicket hd h₀
        | pool c =>
          show P (es₀ ++ facts (d.withReply (d.pool.perform c)).events) _
          rw [facts_withReply, List.append_nil]
          exact pool _ h₀
      | some v =>
        have hv : v ≠ t := fun h => hos o List.mem_cons_self (h ▸ ho)
        obtain ⟨hfacts, hnext⟩ | ⟨x, rfl, hdead, hturns, hsame⟩ := undergo_submits hd ho
        · rw [hfacts, hnext, List.append_nil]
          exact h₀
        · have haccepted := step hd (.accepted x hdead) (omits_enqueueNew hv) h₀
          rw [List.append_nil] at haccepted
          exact hturns.tell_omitting step hsame ((Turn.accepted x hdead).filed hd) haccepted
    rw [run_cons, facts_append, ← List.append_assoc]
    exact ih _ (fun o' ho' => hos o' (List.mem_cons_of_mem _ ho')) hfiled hfirst

/-! ## dropped tasks -/

theorem Turn.keyed (h : Turn halts u d es d') (hk : d.Keyed) : d'.Keyed := by
  have put {t : TaskId} {e : Entry} (ht : d'.tasks = d.tasks.put t e) (own : e.task.id = t) :
      d'.Keyed := by
    intro v e' he'
    rw [ht, Table.get?_put] at he'
    split at he'
    · next hv =>
      obtain rfl := Option.some.inj he'
      exact own.trans hv.symm
    · exact hk v e' he'
  have erase {t : TaskId} (ht : d'.tasks = d.tasks.erase t) : d'.Keyed := by
    intro v e' he'
    rw [ht, Table.get?_erase] at he'
    split at he'
    · cases he'
    · exact hk v e' he'
  cases h with
  | quiet => exact hk
  | accepted t new => exact put rfl rfl
  | launched _ _ live =>
    have own := hk _ _ live
    exact put rfl own
  | withdrawn => exact erase rfl
  | marked _ live =>
    have own := hk _ _ live
    exact put rfl own
  | cancelled => exact erase rfl
  | returned _ _ live =>
    have own := hk _ _ live
    exact put rfl own
  | completed => exact erase rfl
  | retried _ _ _ live =>
    have own := hk _ _ live
    exact put rfl own
  | abandoned => exact erase rfl
  | halted => exact hk

/-- Work is done in a turn on its own task only. -/
theorem Turn.work (h : Turn halts u d es d') (hk : d.Keyed) {ev : Event} (hev : ev ∈ es)
    (hw : ev.work? = some t) : u = some t := by
  cases h with
  | quiet => cases hev
  | accepted => cases hev
  | launched _ _ live =>
    obtain rfl := List.mem_singleton.mp hev
    rw [← hw]
    exact congrArg some (hk _ _ live).symm
  | withdrawn =>
    obtain rfl := List.mem_singleton.mp hev
    cases hw
  | marked =>
    obtain rfl := List.mem_singleton.mp hev
    cases hw
  | cancelled =>
    obtain rfl := List.mem_singleton.mp hev
    cases hw
  | returned => cases hev
  | completed =>
    rcases List.mem_cons.mp hev with rfl | hev
    · exact hw
    · obtain rfl := List.mem_singleton.mp hev
      cases hw
  | retried =>
    obtain rfl := List.mem_singleton.mp hev
    exact hw
  | abandoned _ _ _ live =>
    rcases List.mem_cons.mp hev with rfl | hev
    · exact hw
    · rcases List.mem_cons.mp hev with rfl | hev
      · rw [← hw]
        exact congrArg some (hk _ _ live).symm
      · obtain rfl := List.mem_singleton.mp hev
        cases hw
  | halted =>
    obtain rfl := List.mem_singleton.mp hev
    exact hw

omit [Sink σ] in
theorem Dropped.withPool (h : d.Dropped t) (p : Pool) : Dropped t { d with pool := p } := by
  cases h with
  | dead h => exact .dead h
  | doomed live flying doomed => exact .doomed live flying doomed
  | stranded h => exact .stranded ⟨h.live, h.unlisted, h.landed⟩

theorem Turn.dropped (h : Turn halts u d es d') (hd : d.Filed halts) (hk : d.Keyed)
    (omits : Omits t d d') (hdrop : d.Dropped t) :
    d'.Dropped t ∧ ∀ ev ∈ es, ev.work? ≠ some t := by
  have turn := h
  by_cases hu : u = some t
  · subst hu
    cases hdrop with
    | dead dead =>
      refine ⟨.dead (omits.dead dead), fun ev hev hw => ?_⟩
      cases h with
      | accepted => cases hev
      | launched _ _ live => rw [dead] at live; cases live
      | withdrawn _ live => rw [dead] at live; cases live
      | marked _ live => rw [dead] at live; cases live
      | cancelled _ _ _ live => rw [dead] at live; cases live
      | returned _ _ live => rw [dead] at live; cases live
      | completed _ _ _ live => rw [dead] at live; cases live
      | retried _ _ _ live => rw [dead] at live; cases live
      | abandoned _ _ _ live => rw [dead] at live; cases live
      | halted _ _ _ _ live => rw [dead] at live; cases live
    | @doomed e a live flying doomed =>
      obtain ⟨-, unlisted, -⟩ := hd.of_flying flying
      have clash {e' : Entry} (live' : d.tasks.get? t = some e')
          (wanted : e'.cancelRequested = false) : False := by
        rw [Option.some.inj (live'.symm.trans live), doomed] at wanted
        cases wanted
      cases h with
      | accepted t new => rw [new] at live; cases live
      | launched queued => exact absurd queued unlisted
      | withdrawn queued => exact absurd queued unlisted
      | marked _ live' =>
        exact ⟨.doomed (Table.get?_put_self _ _ _) flying rfl, by simp [Event.work?]⟩
      | cancelled => exact ⟨.dead (Table.get?_erase_self _ _), by simp [Event.work?]⟩
      | returned _ _ live' wanted => exact (clash live' wanted).elim
      | completed _ _ _ live' wanted => exact (clash live' wanted).elim
      | retried _ _ _ live' wanted => exact (clash live' wanted).elim
      | abandoned _ _ _ live' wanted => exact (clash live' wanted).elim
      | halted _ _ _ _ live' wanted => exact (clash live' wanted).elim
    | stranded h => exact absurd h (turn.stranded_self hd).1
  · refine ⟨?_, fun ev hev hw => hu (h.work hk hev hw)⟩
    obtain ⟨-, ht, hf⟩ := h.frame hu
    cases hdrop with
    | dead dead => exact .dead (ht.trans dead)
    | doomed live flying doomed => exact .doomed (ht.trans live) (hf.trans flying) doomed
    | stranded stranded => exact .stranded ((h.stranded_other hu).mpr stranded)

/-- A dropped task stays dropped until it is submitted again, and there is no work on it. -/
theorem run_dropped (hd : d.Filed True) (hk : d.Keyed) (hdrop : d.Dropped t)
    {os : List Occurrence} (hos : ∀ o ∈ os, o.submits ≠ some t) :
    (d.run os).next.Dropped t ∧ ∀ ev ∈ (d.run os).events, ev.work? ≠ some t := by
  have h := run_tell_omitting
    (P := fun es d => d.Keyed ∧ d.Dropped t ∧ ∀ ev ∈ es, ev.work? ≠ some t) [] os hos
    (fun p h => ⟨h.1, h.2.1.withPool p, h.2.2⟩)
    (fun hd turn omits h => by
      obtain ⟨hdrop, hquiet⟩ := turn.dropped hd h.1 omits h.2.1
      refine ⟨turn.keyed h.1, hdrop, fun ev hev => ?_⟩
      exact (List.mem_append.mp hev).elim (h.2.2 ev) (hquiet ev))
    hd ⟨hk, hdrop, fun _ hev => (nomatch hev)⟩
  refine ⟨h.2.1, fun ev hev hw => ?_⟩
  have hfact : ev ∈ facts (d.run os).events := by
    refine List.mem_filter.mpr ⟨hev, ?_⟩
    cases ev with
    | logged => cases hw
    | _ => rfl
  exact h.2.2 ev hfact hw

omit [Sink σ] in
theorem cancel_dropped (hd : d.Filed halts) (t : TaskId) : (d.cancel t).change.next.Dropped t := by
  cases hd.stands t with
  | queued listed live =>
    rw [cancel_of_queued listed live]
    exact .dead (Table.get?_erase_self _ _)
  | flying unlisted live flying =>
    rw [cancel_of_flying unlisted flying live]
    exact .doomed (Table.get?_put_self _ _ _) flying rfl
  | gone unlisted dead landed =>
    rw [cancel_of_neither unlisted landed]
    exact .dead dead
  | stranded _ unlisted live landed =>
    rw [cancel_of_neither unlisted landed]
    exact .stranded ⟨Option.isSome_iff_exists.mpr ⟨_, live⟩, unlisted, landed⟩

/-! ## tickets -/

theorem Turn.known {k : Ticket} (h : Turn halts u d es d') (hk : Known k es₀ d) :
    Known k (es₀ ++ es) d' := by
  rcases hk with ⟨e, live, hticket⟩ | ⟨o, ho⟩
  · rcases h.kept_or_resolved live with ⟨e', live', hsame⟩ | ⟨o, ho⟩
    · exact .inl ⟨e', live', hsame.trans hticket⟩
    · exact .inr ⟨o, List.mem_append_right _ (hticket ▸ ho)⟩
  · exact .inr ⟨o, List.mem_append_left _ ho⟩

theorem run_known {k : Ticket} (hd : d.Filed True) (hk : Known k es₀ d) (os : List Occurrence) :
    Known k (es₀ ++ facts (d.run os).events) (d.run os).next :=
  run_tell_any es₀ os (fun _ h => h) (fun _ turn h => turn.known h) hd hk

/-- The task of a submission whose outcome is sent is not live afterwards. -/
theorem Turn.resolved_dead {o : Outcome} (h : Turn halts u d es d') (ho : .resolved n o ∈ es) :
    ∃ t e, d.tasks.get? t = some e ∧ e.ticket = n ∧ d'.tasks.get? t = none := by
  have erased {t : TaskId} {e : Entry} (live : d.tasks.get? t = some e) (ht : e.ticket = n)
      (hd' : d'.tasks = d.tasks.erase t) :
      ∃ t e, d.tasks.get? t = some e ∧ e.ticket = n ∧ d'.tasks.get? t = none :=
    ⟨t, e, live, ht, by rw [hd', Table.get?_erase_self]⟩
  cases h with
  | withdrawn _ live =>
    obtain ⟨rfl, -⟩ : n = _ ∧ o = _ := by simpa using ho
    exact erased live rfl rfl
  | cancelled _ _ _ live =>
    obtain ⟨rfl, -⟩ : n = _ ∧ o = _ := by simpa using ho
    exact erased live rfl rfl
  | completed _ _ _ live =>
    obtain ⟨rfl, -⟩ : n = _ ∧ o = _ := by simpa using ho
    exact erased live rfl rfl
  | abandoned _ _ _ live =>
    obtain ⟨rfl, -⟩ : n = _ ∧ o = _ := by simpa using ho
    exact erased live rfl rfl
  | _ => simp at ho

theorem Turn.bygone (h : Turn halts u d es d') (hn : d.Numbered) (hb : Bygone es₀ d) :
    Bygone (es₀ ++ es) d' := by
  intro n o ho
  rcases List.mem_append.mp ho with ho | ho
  · obtain ⟨issued, gone⟩ := hb n o ho
    exact ⟨Nat.lt_of_lt_of_le issued h.nextTicket_le, (h.gone issued gone).2⟩
  · obtain ⟨t, e, live, rfl, dead⟩ := h.resolved_dead ho
    have issued := hn.issued t e live
    refine ⟨Nat.lt_of_lt_of_le issued h.nextTicket_le, fun v e' live' hticket => ?_⟩
    have hv : v = t := h.alone issued (fun v e' live' => hn.distinct t v e e' live live') v e' live'
      hticket
    rw [hv, dead] at live'
    cases live'

theorem run_bygone (config : ControllerConfig) (sink : σ) (os : List Occurrence) :
    Bygone (facts ((start config sink).run os).events) ((start config sink).run os).next := by
  have h := run_tell_any (P := fun es d => d.Numbered ∧ Bygone es d) [] os
    (fun _ h => ⟨⟨h.1.issued, h.1.distinct⟩, h.2⟩)
    (fun _ turn h => ⟨turn.numbered h.1, turn.bygone h.1 h.2⟩) (filed_start config sink)
    ⟨run_numbered config sink [], fun _ _ ho => (nomatch ho)⟩
  exact h.2

theorem run_keyed (config : ControllerConfig) (sink : σ) (os : List Occurrence) :
    ((start config sink).run os).next.Keyed :=
  run_tell_any (P := fun _ d => d.Keyed) [] os (fun _ h => h) (fun _ turn h => turn.keyed h)
    (filed_start config sink) (fun _ _ he => nomatch he)

end Dispatcher
end HazardDispatch
