import HazardDispatch.Proofs.Calculation.Moves
import HazardDispatch.Proofs.Dispatch.Dropped
import HazardDispatch.Proofs.Dispatch.Overflow

/-!
# What a calculation leaves behind that fails

A calculation that gives up cancels what it submitted, ticket by ticket, while its tasks go on:
they are done, fail and are queued again. Others may do anything meanwhile, also cancel and submit;
all that is asked for a task is that they do not submit it themselves (`Unshared`).

* `Traced`     the dispatcher's part of the invariant, for one task: it is live under a ticket of the
               calculation only;
* `Followed`   the whole of it: until the calculation gives up it holds every ticket whose outcome it did
               not get; after that the task is still to be cancelled, or dropped.

In the end the task is dropped, so no work is done on it any more. It has its outcome then or is in
flight with its cancellation requested, except when a result of it was too great for the accounts,
which stranded it before (`failed_releases`).
-/

namespace HazardDispatch

open Dispatcher

/-- The submission has its outcome, or it is in flight and its cancellation is requested. -/
def Ticket.Released {σ : Type} (k : Ticket) (es : List Event) (d : Dispatcher σ) : Prop :=
  (∃ o, .resolved k.number o ∈ es) ∨
    ∃ e a, d.tasks.get? k.task = some e ∧ e.ticket = k.number ∧
      d.inFlight.get? k.task = some a ∧ e.cancelRequested = true

namespace Session

/-- Others do not submit the task. -/
def Unshared (t : TaskId) (ms : List Move) : Prop := ∀ o, .others o ∈ ms → o.submits ≠ some t

variable {F : Type} [Add F] [Sub F] [Mul F] [Div F] [Scalar F]

/-! ## the dispatcher's part -/

/-- The task is live under one of the tickets only, and these are the tickets of submissions. -/
structure Traced (d₀ : Dispatcher (Accounts F)) (t : TaskId) (ks : List Ticket) (es : List Event)
    (d : Dispatcher (Accounts F)) : Prop where
  ran : ∃ os, d = (d₀.run os).next ∧ facts es = facts (d₀.run os).events
  known : ∀ k ∈ ks, Known k (facts es) d
  owner : ∀ e, d.tasks.get? t = some e → ⟨e.ticket, t⟩ ∈ ks

variable {d₀ d d' : Dispatcher (Accounts F)} {t : TaskId} {es es' : List Event}

theorem Traced.more (h : Traced d₀ t ks es d) (os : List Occurrence)
    (hes : facts es' = facts es ++ facts (d.run os).events) :
    ∃ os', (d.run os).next = (d₀.run os').next ∧ facts es' = facts (d₀.run os').events := by
  obtain ⟨os₀, rfl, hfacts⟩ := h.ran
  refine ⟨os₀ ++ os, ?_, ?_⟩
  · rw [run_append]
    rfl
  · rw [hes, hfacts, run_append, ← facts_append]
    rfl

theorem Traced.spared (h : Traced d₀ t ks es d) (hd : d.Filed True) {os : List Occurrence}
    (hos : ∀ o ∈ os, o.submits ≠ some t)
    (hes : facts es' = facts es ++ facts (d.run os).events) :
    Traced d₀ t ks es' (d.run os).next where
  ran := h.more os hes
  known k hk := hes ▸ run_known hd (h.known k hk) os
  owner := run_tell_omitting (P := fun _ d => ∀ e, d.tasks.get? t = some e → ⟨e.ticket, t⟩ ∈ ks)
    [] os hos (fun _ h => h)
    (fun _ _ omits h e he => by
      obtain ⟨e₀, he₀, hticket⟩ := omits e he
      rw [hticket]
      exact h e₀ he₀)
    hd h.owner

theorem Traced.granted (h : Traced d₀ t ks es d) (hd : d.Filed True) {os : List Occurrence}
    (hes : facts es' = facts es ++ facts (d.run os).events) {x : Task}
    (live : ∀ u, (d.run os).next.submission? u
      = if u = x.id then some (x, d.nextTicket) else d.submission? u) :
    Traced d₀ t (ks ++ [⟨d.nextTicket, x.id⟩]) es' (d.run os).next where
  ran := h.more os hes
  known k hk := by
    rcases List.mem_append.mp hk with hk | hk
    · exact hes ▸ run_known hd (h.known k hk) os
    · obtain rfl := List.mem_singleton.mp hk
      have hlive := live x.id
      rw [if_pos rfl] at hlive
      obtain ⟨e, he, hticket⟩ := Option.map_eq_some_iff.mp hlive
      exact .inl ⟨e, he, (Prod.mk.inj hticket).2⟩
  owner e he := by
    have hlive := live t
    rw [submission?, he] at hlive
    by_cases ht : t = x.id
    · rw [if_pos ht] at hlive
      have hticket : e.ticket = d.nextTicket := (Prod.mk.inj (Option.some.inj hlive)).2
      rw [hticket, ht]
      exact List.mem_append_right _ List.mem_cons_self
    · rw [if_neg ht] at hlive
      obtain ⟨e₀, he₀, hticket⟩ := Option.map_eq_some_iff.mp hlive.symm
      have hold := h.owner e₀ he₀
      rw [(Prod.mk.inj hticket).2] at hold
      exact List.mem_append_left _ hold

/-! ## the invariant -/

/-- Whose turn it is to see to the task: the calculation holds the tickets whose outcomes it did
not get, or it cancels the task, or the task is dropped. -/
structure Followed (config : ControllerConfig) (sink : Accounts F) (t : TaskId) (ks : List Ticket)
    (s : Session F) : Prop where
  traced : Traced (start config sink) t ks s.events s.dispatcher
  mailbox : ∀ x ∈ s.calculation.mailbox, .resolved x.1 x.2 ∈ facts s.events
  held : ¬ s.calculation.Aborted → ∀ k ∈ ks,
    k ∈ s.calculation.queue ++ s.calculation.waiting ∨ ∃ o, .resolved k.number o ∈ facts s.events
  cancelling : ∀ left why, s.calculation.stage = .cancelling left why →
    (∃ k ∈ left, k.task = t) ∨ s.dispatcher.Dropped t
  failed : ∀ why, s.calculation.stage = .finished (.error why) → s.dispatcher.Dropped t

variable {config : ControllerConfig} {sink : Accounts F} {s s' : Session F} {ks new : List Ticket}
  {m : Move} {os : List Occurrence}

omit [Add F] [Sub F] [Mul F] [Div F] [Scalar F] in
theorem mem_notice {c : Calculation F} {k : Ticket} (ticket : Nat) (o : Outcome)
    (h : k ∈ c.queue ++ c.waiting) :
    k ∈ (c.notice ticket o).queue ++ (c.notice ticket o).waiting := by
  show k ∈ (c.queue ++ (c.waiting.partition _).1) ++ (c.waiting.partition _).2
  rw [List.partition_eq_filter_filter, List.mem_append, List.mem_append, List.mem_filter,
    List.mem_filter]
  rcases List.mem_append.mp h with h | h
  · exact .inl (.inl h)
  · cases hb : k.number == ticket
    · exact .inr ⟨h, by simp [hb]⟩
    · exact .inl (.inr ⟨h, rfl⟩)

namespace Followed

theorem filed (h : Followed config sink t ks s) : s.dispatcher.Filed True := by
  obtain ⟨os, hd, -⟩ := h.traced.ran
  rw [hd]
  exact run_filed_any os (filed_start config sink)

theorem keyed (h : Followed config sink t ks s) : s.dispatcher.Keyed := by
  obtain ⟨os, hd, -⟩ := h.traced.ran
  rw [hd]
  exact run_keyed config sink os

theorem bygone (h : Followed config sink t ks s) : Bygone (facts s.events) s.dispatcher := by
  obtain ⟨os, hd, hes⟩ := h.traced.ran
  rw [hd, hes]
  exact run_bygone config sink os

/-- When the calculation gives up, it holds a ticket of the task or the task is not live. -/
theorem outstanding (h : Followed config sink t ks s) (going : ¬ s.calculation.Aborted) :
    (∃ k ∈ s.calculation.outstanding, k.task = t) ∨ s.dispatcher.Dropped t := by
  cases live : s.dispatcher.tasks.get? t with
  | none => exact .inr (.dead live)
  | some e =>
    rcases h.held going _ (h.traced.owner e live) with hk | ⟨o, ho⟩
    · exact .inl ⟨_, List.mem_mergeSort.mpr hk, rfl⟩
    · exact absurd rfl ((h.bygone _ o ho).2 t e live)

theorem submit (h : Followed config sink t ks s) {k : Ticket} {ts : List Task}
    (calculation : s'.calculation
      = { s.calculation with rest := ts, queue := s.calculation.queue ++ [k] })
    (going : ¬ s.calculation.Aborted)
    (traced : Traced (start config sink) t (ks ++ [k]) s'.events s'.dispatcher)
    (sent : ∀ {e}, e ∈ facts s.events → e ∈ facts s'.events) :
    Followed config sink t (ks ++ [k]) s' where
  traced := traced
  mailbox x hx := sent (h.mailbox x (by rwa [calculation] at hx))
  held _ k' hk' := by
    rw [calculation]
    show k' ∈ (s.calculation.queue ++ [k]) ++ s.calculation.waiting ∨ _
    rcases List.mem_append.mp hk' with hk' | hk'
    · refine (h.held going k' hk').imp (fun hk' => ?_) fun ⟨o, ho⟩ => ⟨o, sent ho⟩
      rcases List.mem_append.mp hk' with hk' | hk'
      · exact List.mem_append_left _ (List.mem_append_left _ hk')
      · exact List.mem_append_right _ hk'
    · exact .inl (List.mem_append_left _ (List.mem_append_right _ hk'))
  cancelling left why hstage := by
    rw [calculation] at hstage
    exact absurd (aborted_of_cancelling hstage) going
  failed why hstage := by
    rw [calculation] at hstage
    exact absurd (aborted_of_failed hstage) going

/-! What a move keeps that is no submission of the task. -/

section
variable (h : Followed config sink t ks s) (hm : Moved s m new os s')
  (hos : ∀ o ∈ os, o.submits ≠ some t)
include h hm hos

theorem spared : Traced (start config sink) t ks s'.events s'.dispatcher :=
  hm.run.1 ▸ h.traced.spared h.filed hos hm.run.2

theorem drops (hdrop : s.dispatcher.Dropped t) : s'.dispatcher.Dropped t :=
  hm.run.1 ▸ (run_dropped h.filed h.keyed hdrop hos).1

theorem gaveUp {stage : Stage F} (calculation : s'.calculation = { s.calculation with stage })
    (aborted : s'.calculation.Aborted)
    (cancelling : ∀ left why, stage = .cancelling left why →
      (∃ k ∈ left, k.task = t) ∨ s'.dispatcher.Dropped t)
    (failed : ∀ why, stage = .finished (.error why) → s'.dispatcher.Dropped t) :
    Followed config sink t ks s' where
  traced := h.spared hm hos
  mailbox x hx := hm.sent (h.mailbox x (by rwa [calculation] at hx))
  held going := absurd aborted going
  cancelling left why hstage := cancelling left why (by rwa [calculation] at hstage)
  failed why hstage := failed why (by rwa [calculation] at hstage)

end

theorem looked (h : Followed config sink t ks s) {c : Calculation F} {events : List Event}
    (hm : Moved s m [] [] { s with calculation := c, events })
    (mailbox : c.mailbox = s.calculation.mailbox)
    (kept : ∀ k ∈ s.calculation.queue ++ s.calculation.waiting,
      k ∈ c.queue ++ c.waiting ∨ ∃ o, (k.number, o) ∈ s.calculation.mailbox)
    (going : ¬ s.calculation.Aborted) (goes : ¬ c.Aborted) :
    Followed config sink t ks { s with calculation := c, events } where
  traced := h.spared hm (List.forall_mem_nil _)
  mailbox x hx := hm.sent (h.mailbox x (mailbox ▸ hx))
  held _ k hk := by
    rcases h.held going k hk with hk | ⟨o, ho⟩
    · exact (kept k hk).imp_right fun ⟨o, ho⟩ => ⟨o, hm.sent (h.mailbox _ ho)⟩
    · exact .inr ⟨o, hm.sent ho⟩
  cancelling left why hstage := absurd (aborted_of_cancelling hstage) goes
  failed why hstage := absurd (aborted_of_failed hstage) goes

theorem cancelled (h : Followed config sink t ks s) {k : Ticket} {left : List Ticket}
    {why : DispatchError} (stage : s.calculation.stage = .cancelling (k :: left) why)
    (hm : Moved s m [] [.own (.cancel k.task)] s')
    (calculation : s'.calculation = { s.calculation with stage := .cancelling left why })
    (next : s'.dispatcher = (s.dispatcher.cancel k.task).change.next) :
    Followed config sink t ks s' := by
  have hos : ∀ o ∈ [Occurrence.own (.cancel k.task)], o.submits ≠ some t := by
    intro o ho
    rw [List.mem_singleton.mp ho]
    exact nofun
  refine h.gaveUp hm hos calculation (by rw [calculation]; trivial) (fun left' why' hstage => ?_) nofun
  obtain ⟨rfl, -⟩ := Stage.cancelling.inj hstage
  by_cases hk : k.task = t
  · rw [next, hk]
    exact .inr (cancel_dropped h.filed t)
  · rcases h.cancelling _ _ stage with ⟨k', hk', htask⟩ | hdrop
    · rcases List.mem_cons.mp hk' with rfl | hk'
      · exact absurd htask hk
      · exact .inl ⟨k', hk', htask⟩
    · exact .inr (h.drops hm hos hdrop)

theorem heard (h : Followed config sink t ks s) {ticket : Nat} {o : Outcome}
    (sent : .resolved ticket o ∈ s.events) :
    Followed config sink t ks { s with calculation := s.calculation.notice ticket o } where
  traced := h.traced
  mailbox x hx := by
    replace hx : x ∈ s.calculation.mailbox ++ [(ticket, o)] := hx
    rcases List.mem_append.mp hx with hx | hx
    · exact h.mailbox x hx
    · rw [List.mem_singleton.mp hx]
      exact (mem_facts rfl).mpr sent
  held going k hk := (h.held going k hk).imp_left (mem_notice ticket o)
  cancelling := h.cancelling
  failed := h.failed

theorem others (h : Followed config sink t ks s) {o : Occurrence} (ho : o.submits ≠ some t) :
    Followed config sink t ks (s.after (s.dispatcher.undergo o).change) := by
  have hm : Moved s (.others o) [] [o] _ := .others o
  have hos : ∀ o' ∈ [o], o'.submits ≠ some t := fun o' ho' => List.mem_singleton.mp ho' ▸ ho
  exact {
    traced := h.spared hm hos
    mailbox := fun x hx => hm.sent (h.mailbox x hx)
    held := fun going k hk => (h.held going k hk).imp_right fun ⟨o, ho⟩ => ⟨o, hm.sent ho⟩
    cancelling := fun left why hstage => (h.cancelling left why hstage).imp_right (h.drops hm hos)
    failed := fun why hstage => h.drops hm hos (h.failed why hstage) }

theorem move (h : Followed config sink t ks s) (hm : Moved s m new os s')
    (unshared : ∀ o, m = .others o → o.submits ≠ some t) :
    Followed config sink t (ks ++ new) s' := by
  have turn := hm
  cases hm with
  | @submitted x ts k stage rest ok =>
    obtain ⟨rfl, hlive⟩ := submission?_submit h.filed ok
    exact h.submit rfl (not_aborted stage id) (h.traced.granted h.filed turn.run.2 hlive) turn.sent
  | @accepted x ts stage rest hnew =>
    have going : ¬ s.calculation.Aborted := by
      split at stage
      · next hstage => exact not_aborted hstage id
      · cases stage
    refine h.submit rfl going (turn.run.1 ▸ h.traced.granted h.filed turn.run.2 fun u => ?_) turn.sent
    rw [← turn.run.1]
    exact submission?_enqueueNew x u
  | still => rwa [List.append_nil]
  | looked log rest mailbox kept going goes =>
    rw [List.append_nil]
    exact h.looked turn mailbox kept going goes
  | refused log why going =>
    rw [List.append_nil]
    refine h.gaveUp turn (List.forall_mem_nil _) rfl trivial
      (fun left why hstage => ?_) fun why hstage => ?_
    · obtain ⟨rfl, -⟩ := Stage.cancelling.inj hstage
      exact h.outstanding going
    · cases hstage
  | cancelled log stage =>
    rw [List.append_nil]
    exact h.cancelled stage turn rfl rfl
  | ended log stage =>
    rw [List.append_nil]
    refine h.gaveUp turn (List.forall_mem_nil _) rfl trivial (fun left why hstage => ?_) fun _ _ => ?_
    · cases hstage
    · exact (h.cancelling _ _ stage).resolve_left fun ⟨k, hk, _⟩ => nomatch hk
  | heard sent =>
    rw [List.append_nil]
    exact h.heard sent
  | others o =>
    rw [List.append_nil]
    exact h.others (unshared o rfl)

end Followed

/-! ## runs -/

theorem followed_begin (config : ControllerConfig) (topK : Nat) (tasks : List Task) (t : TaskId) :
    Followed config ((Accounts.empty topK).expect tasks.length) t []
      (begin config topK tasks : Session F) where
  traced := ⟨⟨[], rfl, rfl⟩, fun _ hk => (nomatch hk), fun _ live => (nomatch live)⟩
  mailbox _ hx := nomatch hx
  held _ _ hk := nomatch hk
  cancelling _ _ hstage := nomatch hstage
  failed _ hstage := nomatch hstage

theorem Followed.run (h : Followed config sink t ks s) {ms : List Move} (possible : s.Possible ms)
    (unshared : Unshared t ms) : Followed config sink t (ks ++ s.tickets ms) (s.run ms) := by
  induction ms generalizing s ks with
  | nil =>
    show Followed config sink t (ks ++ []) s
    rwa [List.append_nil]
  | cons m ms ih =>
    obtain ⟨os, hm⟩ := moved possible.1
    have hmoved := h.move hm fun o ho => unshared o (ho ▸ List.mem_cons_self)
    rw [tickets, ← List.append_assoc]
    exact ih hmoved possible.2 fun o ho => unshared o (List.mem_cons_of_mem _ ho)

/-- A dropped submission is released, unless its task is stranded. -/
theorem Traced.released_iff (h : Traced d₀ t ks es d) (hdrop : d.Dropped t) {k : Ticket}
    (hk : k ∈ ks) (ht : k.task = t) :
    k.Released es d ↔ (∃ o, .resolved k.number o ∈ es) ∨ ¬ d.Stranded t := by
  subst ht
  constructor
  · rintro (ho | ⟨e, a, -, -, flying, -⟩)
    · exact .inl ho
    · exact .inr (not_stranded_of_flying flying)
  · rintro (ho | hfree)
    · exact .inl ho
    · rcases h.known k hk with ⟨e, live, hticket⟩ | ⟨o, ho⟩
      · cases hdrop with
        | dead dead =>
          rw [dead] at live
          cases live
        | doomed live' flying doomed =>
          obtain rfl := Option.some.inj (live.symm.trans live')
          exact .inr ⟨e, _, live, hticket, flying, doomed⟩
        | stranded stranded => exact absurd stranded hfree
      · exact .inl ⟨o, (mem_facts rfl).mp ho⟩

/-- A task is stranded just if a result of it was too great for the accounts. -/
theorem Traced.stranded_iff (h : Traced (start config sink) t ks es d) :
    d.Stranded t ↔ ∃ before n r after, es = before ++ .forwarded n r :: after ∧ r.taskId = t ∧
      ¬ (before.foldl Event.tell sink).2.Fits r := by
  obtain ⟨os, rfl, hfacts⟩ := h.ran
  have hspilled : spilled sink ((start config sink).run os).events = spilled sink es := by
    rw [← spilled_facts, ← hfacts, spilled_facts]
  rw [run_stranded_iff (filed_start config sink) os t,
    or_iff_right (not_stranded_start config sink t)]
  show t ∈ spilled sink _ ↔ _
  rw [hspilled, mem_spilled_iff]
  simp only [ne_eq, Accounts.record_whole_iff]

/-- The sinks hear what the events tell. -/
theorem run_sink (d : Dispatcher (Accounts F)) (hd : d.Filed True) (os : List Occurrence) :
    (d.run os).next.sink = (d.run os).events.foldl Event.tell d.sink := by
  have h := run_tell_any (P := fun es d' => d'.sink = es.foldl Event.tell d.sink) [] os
    (fun _ h => h) (fun _ turn h => by rw [turn.sink_eq, h, List.foldl_append]) hd rfl
  rw [List.nil_append, foldl_tell_facts] at h
  exact h

/-- When a calculation fails, each task that it got accepted and that others did not submit has its
outcome, or is in flight and its cancellation is requested, unless a result of it was too great for
the accounts. From then on no attempt at the task is sent, and the accounts hear nothing of it. -/
theorem failed_releases (config : ControllerConfig) (topK : Nat) (tasks : List Task)
    {ms : List Move} {why : DispatchError}
    (possible : (begin config topK tasks : Session F).Possible ms)
    (failed : ((begin config topK tasks : Session F).run ms).calculation.stage
      = .finished (.error why)) :
    let s₀ : Session F := begin config topK tasks
    let s := s₀.run ms
    (s₀.tickets ms).map (·.task) = s.accepted.map (·.id) ∧
      tasks = s.accepted ++ s.calculation.rest ∧
      ∀ k ∈ s₀.tickets ms, Unshared k.task ms →
        (k.Released s.events s.dispatcher ↔ (∃ o, .resolved k.number o ∈ s.events) ∨
          ∀ before n r after, s.events = before ++ .forwarded n r :: after → r.taskId = k.task →
            (before.foldl Event.tell s₀.dispatcher.sink).2.Fits r) ∧
        ∀ os : List Occurrence, (∀ o ∈ os, o.submits ≠ some k.task) →
          let c := s.dispatcher.run os
          (∀ ev ∈ c.events, ev.work? ≠ some k.task) ∧
            c.next.sink = c.events.foldl Event.tell s.dispatcher.sink := by
  intro s₀ s
  obtain ⟨hids, htasks⟩ := run_split possible
  refine ⟨hids.symm, htasks.symm, fun k hk unshared => ?_⟩
  have h : Followed config ((Accounts.empty topK).expect tasks.length) k.task (s₀.tickets ms) s :=
    (followed_begin config topK tasks k.task).run possible unshared
  have hdrop : s.dispatcher.Dropped k.task := h.failed why failed
  refine ⟨?_, fun os hos => ⟨(run_dropped h.filed h.keyed hdrop hos).2, run_sink _ h.filed os⟩⟩
  rw [h.traced.released_iff hdrop hk rfl, h.traced.stranded_iff]
  refine or_congr_right ⟨fun hfits before n r after hes ht => ?_, fun hfits => ?_⟩
  · exact Classical.byContradiction fun hno => hfits ⟨before, n, r, after, hes, ht, hno⟩
  · rintro ⟨before, n, r, after, hes, ht, hno⟩
    exact hno (hfits before n r after hes ht)

def oneTwice : Session Float := begin {} 10 [someTask, otherTask, someTask]

/-- On one worker: both are submitted, and the first one is to be submitted again. -/
def bothSubmitted : List Move := [.others (.pool (.register someWorker)), .step, .step]

/-- The third submission is refused while the first task runs. -/
theorem failed_releases_bothSubmitted :
    let ms := bothSubmitted ++ List.replicate 4 .step
    let s := oneTwice.run ms
    oneTwice.Possible ms ∧
      s.calculation.stage = .finished (.error (.duplicateTask someTask.id)) ∧
      (∀ t, Unshared t ms) ∧
      ∀ k ∈ [⟨0, someTask.id⟩, ⟨1, otherTask.id⟩], k ∈ oneTwice.tickets ms ∧
        k.Released s.events s.dispatcher ∧
        ∀ ev ∈ (s.dispatcher.run [.own (.deliver firstResult)]).events,
          ev.work? ≠ some k.task := by
  intro ms s
  have possible : oneTwice.Possible ms :=
    ⟨trivial, trivial, trivial, trivial, trivial, trivial, trivial, trivial⟩
  have unshared : ∀ t, Unshared t ms := by
    intro t o ho hsome
    simp only [ms, bothSubmitted, List.replicate, List.cons_append, List.nil_append, List.mem_cons,
      Move.others.injEq, reduceCtorEq, List.not_mem_nil, or_false] at ho
    rw [ho] at hsome
    cases hsome
  have held : (oneTwice.run bothSubmitted).calculation.outstanding
      = [⟨1, otherTask.id⟩, ⟨0, someTask.id⟩] :=
    outstanding_eq (by decide) (List.Perm.swap _ _ _)
  obtain ⟨failed, -, told⟩ := run_duplicate (s := oneTwice.run bothSubmitted) (t := someTask)
    rfl rfl rfl rfl held
  have hrun : s = (oneTwice.run bothSubmitted).run (List.replicate 4 .step) :=
    run_moves_append _ _ _
  replace failed : s.calculation.stage = .finished (.error (.duplicateTask someTask.id)) :=
    hrun ▸ failed
  have silent : forwards s.events = [] := by
    rw [← forwards_facts, hrun]
    exact congrArg forwards told
  obtain ⟨-, -, released⟩ := failed_releases {} 10 [someTask, otherTask, someTask] possible failed
  refine ⟨possible, failed, unshared, fun k hk => ?_⟩
  have hticket : k ∈ oneTwice.tickets ms := by
    rw [tickets_append]
    exact List.mem_append_left _ hk
  obtain ⟨hreleased, quiet⟩ := released k hticket (unshared k.task)
  refine ⟨hticket, hreleased.mpr (.inr fun before n r after hes _ => ?_), ?_⟩
  · have hmem : r ∈ forwards s.events :=
      List.mem_filterMap.mpr ⟨_, hes ▸ List.mem_append_right _ List.mem_cons_self, rfl⟩
    rw [silent] at hmem
    cases hmem
  · refine (quiet [.own (.deliver firstResult)] fun o ho hsome => ?_).1
    rw [List.mem_singleton.mp ho] at hsome
    cases hsome

def thirdTask : Task := { (default : Task) with id := ⟨"t3"⟩ }

def fourthTask : Task := { (default : Task) with id := ⟨"t4"⟩ }

def fourTasks : Session Float :=
  begin { maxQueueDepth := 1 } 10 [someTask, otherTask, thirdTask, fourthTask, otherTask]

def answered (t : Task) (launch : Nat) (sent : UInt64) : Occurrence :=
  .own (.answer (firstCall t launch) (.ok (doneAfter t sent)))

def completion (t : Task) (sent : UInt64) : Outcome :=
  .completed ((doneAfter t sent).toResult someWorker.workerId t.operation)

/-- On one worker: the first task fills the counter of bytes, and the result of the second one,
that comes while the fourth is kept waiting, strands it. The second task is to be submitted again
then. -/
def overfilled : List Move :=
  [.others (.pool (.register someWorker)), .step, .step, .step,
    .others (answered someTask 0 18446744073709551615),
    .hear 0 (completion someTask 18446744073709551615), .step, .step, .step,
    .others (answered otherTask 1 1), .others (.own .wake), .others (answered thirdTask 2 0),
    .hear 2 (completion thirdTask 0), .step, .step]

/-- After four more steps the calculation has failed, but its second task has no outcome and is not
in flight. -/
theorem not_released_overfilled :
    let ms := overfilled ++ List.replicate 4 .step
    let s := fourTasks.run ms
    fourTasks.Possible ms ∧
      s.calculation.stage = .finished (.error (.duplicateTask otherTask.id)) ∧
      ⟨1, otherTask.id⟩ ∈ fourTasks.tickets ms ∧ (∀ t, Unshared t ms) ∧
      ¬ Ticket.Released ⟨1, otherTask.id⟩ s.events s.dispatcher := by
  intro ms s
  have possible : fourTasks.Possible ms :=
    ⟨trivial, trivial, trivial, trivial, trivial, List.mem_of_getElem? (i := 10) rfl, trivial,
      trivial, trivial, trivial, trivial, trivial, List.mem_of_getElem? (i := 22) rfl, trivial,
      trivial, trivial, trivial, trivial, trivial, trivial⟩
  have unshared : ∀ t, Unshared t ms := by
    intro t o ho hsome
    simp only [ms, overfilled, answered, List.replicate, List.cons_append, List.nil_append,
      List.mem_cons, Move.others.injEq, reduceCtorEq, List.not_mem_nil, or_false, false_or] at ho
    rcases ho with rfl | rfl | rfl | rfl | rfl <;> cases hsome
  have held : (fourTasks.run overfilled).calculation.outstanding
      = [⟨3, fourthTask.id⟩, ⟨1, otherTask.id⟩] :=
    outstanding_eq (by decide) (List.Perm.refl _)
  obtain ⟨failed, next, told⟩ := run_duplicate (s := fourTasks.run overfilled) (t := otherTask)
    rfl rfl rfl rfl held
  have hrun : s = (fourTasks.run overfilled).run (List.replicate 4 .step) :=
    run_moves_append _ _ _
  refine ⟨possible, hrun ▸ failed, ?_, unshared, ?_⟩
  · rw [tickets_append]
    exact List.mem_append_left _ (List.mem_of_getElem? (i := 1) rfl)
  · rw [hrun]
    rintro (⟨o, ho⟩ | ⟨e, a, -, -, flying, -⟩)
    · have hout : o ∈ HazardDispatch.outcomes (story 1 (facts (fourTasks.run overfilled).events
          ++ facts ((fourTasks.run overfilled).dispatcher.run
            [.own (.cancel fourthTask.id), .own (.cancel otherTask.id)]).events)) :=
        reads_outcome.mem_story_iff.mpr (told ▸ (mem_facts rfl).mpr ho)
      cases hout
    · have hflying := (congrArg (·.inFlight.get? otherTask.id) next).symm.trans flying
      cases hflying

end Session
end HazardDispatch
