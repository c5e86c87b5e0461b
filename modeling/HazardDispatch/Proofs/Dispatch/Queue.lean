import HazardDispatch.Proofs.Dispatch.Ledger

/-!
# The queue is in the order of submission

A new task is put at the end of the queue, one that comes back is put before all later submissions, and
a task may be taken out at any place. So the numbers of the queued submissions grow from the first to
the last, in every state of every run (`run_ranked`): retries and refusals do not lose a task its place.

The numbers tell live tasks apart (`Ranked.apart`), since none is issued twice.
-/

namespace HazardDispatch.Dispatcher

/-- Both tasks are live, and `t` was submitted before `u`. -/
def Earlier (tasks : Table TaskId Entry) (t u : TaskId) : Prop :=
  ∃ e f, tasks.get? t = some e ∧ tasks.get? u = some f ∧ e.ticket < f.ticket

theorem Earlier.trans {tasks : Table TaskId Entry} {t u v : TaskId} (h : Earlier tasks t u)
    (h' : Earlier tasks u v) : Earlier tasks t v := by
  obtain ⟨e, f, he, hf, hlt⟩ := h
  obtain ⟨f', g, hf', hg, hlt'⟩ := h'
  obtain rfl := Option.some.inj (hf.symm.trans hf')
  exact ⟨e, g, he, hg, Nat.lt_trans hlt hlt'⟩

variable {σ : Type}

structure Ranked (d : Dispatcher σ) : Prop where
  issued : ∀ t e, d.tasks.get? t = some e → e.ticket < d.nextTicket
  apart : ∀ t u e f, d.tasks.get? t = some e → d.tasks.get? u = some f → e.ticket = f.ticket → t = u
  sorted : d.pending.Pairwise (Earlier d.tasks)

theorem ranked_start (config : ControllerConfig) (sink : σ) : (start config sink).Ranked :=
  ⟨fun _ _ he => (nomatch he), fun _ _ _ _ he => (nomatch he), .nil⟩

/-! ## changes of the queue -/

theorem pairwise_earlier_of_same {tasks tasks' : Table TaskId Entry} {us : List TaskId}
    (same : ∀ u ∈ us, ∀ e, tasks.get? u = some e → ∃ e', tasks'.get? u = some e' ∧ e'.ticket = e.ticket)
    (h : us.Pairwise (Earlier tasks)) : us.Pairwise (Earlier tasks') := by
  refine h.imp_of_mem ?_
  rintro t u ht hu ⟨e, f, he, hf, hlt⟩
  obtain ⟨e', he', hticket⟩ := same t ht e he
  obtain ⟨f', hf', hticket'⟩ := same u hu f hf
  exact ⟨e', f', he', hf', by omega⟩

theorem pairwise_insertQueued {tasks : Table TaskId Entry} {t : TaskId} {e : Entry}
    {us : List TaskId} (live : tasks.get? t = some e)
    (others : ∀ u ∈ us, ∃ f, tasks.get? u = some f ∧ f.ticket ≠ e.ticket)
    (h : us.Pairwise (Earlier tasks)) :
    (insertQueued tasks e.ticket t us).Pairwise (Earlier tasks) := by
  induction us with
  | nil => exact List.pairwise_singleton _ t
  | cons u us ih =>
    obtain ⟨f, hf, hne⟩ := others u List.mem_cons_self
    obtain ⟨hfirst, hrest⟩ := List.pairwise_cons.mp h
    rw [insertQueued, hf]
    dsimp only
    by_cases hlt : e.ticket < f.ticket
    · rw [if_pos hlt]
      have hhead : Earlier tasks t u := ⟨e, f, live, hf, hlt⟩
      refine .cons (fun v hv => ?_) h
      rcases List.mem_cons.mp hv with rfl | hv
      · exact hhead
      · exact hhead.trans (hfirst v hv)
    · rw [if_neg hlt]
      have hback : Earlier tasks u t := ⟨f, e, hf, live, by omega⟩
      refine .cons (fun v hv => ?_) (ih (fun v hv => others v (List.mem_cons_of_mem _ hv)) hrest)
      rcases List.mem_cons.mp ((insertQueued_perm tasks e.ticket t us).mem_iff.mp hv) with rfl | hv
      · exact hback
      · exact hfirst v hv

theorem Ranked.withPool {d : Dispatcher σ} (h : d.Ranked) (p : Pool) :
    Ranked { d with pool := p } := ⟨h.issued, h.apart, h.sorted⟩

variable [Sink σ] {halts : Prop} {u : Option TaskId} {d d' : Dispatcher σ} {es : List Event}

theorem Turn.issued (h : Turn halts u d es d') (hr : d.Ranked) {t : TaskId} {e : Entry}
    (he : d'.tasks.get? t = some e) : e.ticket < d'.nextTicket := by
  have hle := h.nextTicket_le
  obtain ⟨e', he', heq⟩ | ⟨heq, hnext⟩ := h.origin he
  · have := hr.issued t e' he'
    omega
  · omega

theorem Turn.apart (h : Turn halts u d es d') (hr : d.Ranked) {t v : TaskId} {e f : Entry}
    (he : d'.tasks.get? t = some e) (hf : d'.tasks.get? v = some f) (heq : e.ticket = f.ticket) :
    t = v := by
  have concerned {w : TaskId} {g : Entry} (hg : d'.tasks.get? w = some g)
      (hnew : g.ticket = d.nextTicket) : u = some w := by
    refine Classical.byContradiction fun hu => ?_
    rw [(h.frame hu).2.1] at hg
    have := hr.issued w g hg
    omega
  obtain ⟨e', he', heq'⟩ | ⟨hnew, -⟩ := h.origin he
  · have hlt := hr.issued t e' he'
    refine (h.alone (n := e.ticket) (by omega) (fun w g hg hn => ?_) v f hf heq.symm).symm
    exact hr.apart w t g e' hg he' (hn.trans heq')
  · exact Option.some.inj ((concerned he hnew).symm.trans (concerned hf (heq ▸ hnew)))

theorem Turn.keeps_ticket (h : Turn halts u d es d') {v : TaskId} (hv : u ≠ some v) {e : Entry}
    (he : d.tasks.get? v = some e) : ∃ e', d'.tasks.get? v = some e' ∧ e'.ticket = e.ticket :=
  ⟨e, (h.frame hv).2.1.trans he, rfl⟩

theorem Turn.sorted (h : Turn halts u d es d') (hd : d.Filed halts) (hr : d.Ranked) :
    d'.pending.Pairwise (Earlier d'.tasks) := by
  have turn := h
  -- the queue lost tasks at most, the concerned one among them if it was queued
  have fewer (hsub : d'.pending.Sublist d.pending)
      (hself : ∀ v ∈ d'.pending, u ≠ some v) : d'.pending.Pairwise (Earlier d'.tasks) :=
    pairwise_earlier_of_same (fun v hv e he => turn.keeps_ticket (hself v hv) he)
      (hr.sorted.sublist hsub)
  have unlisted {t : TaskId} {a : Attempt} (flying : d.inFlight.get? t = some a) : t ∉ d.pending := by
    obtain ⟨-, unlisted, -⟩ := hd.of_flying flying
    exact unlisted
  have back {t : TaskId} {a : Attempt} {e : Entry} (flying : d.inFlight.get? t = some a)
      (live : d.tasks.get? t = some e) {e' : Entry} (hticket : e'.ticket = e.ticket) :
      (insertQueued (d.tasks.put t e') e'.ticket t d.pending).Pairwise (Earlier (d.tasks.put t e')) := by
    have hother {v : TaskId} (hv : v ∈ d.pending) : v ≠ t := fun heq => unlisted flying (heq ▸ hv)
    refine pairwise_insertQueued (Table.get?_put_self _ _ _) (fun v hv => ?_)
      (pairwise_earlier_of_same (fun v hv f hf => ?_) hr.sorted)
    · obtain ⟨f, hf, -⟩ := hd.of_queued hv
      refine ⟨f, (Table.get?_put_of_ne _ _ (hother hv)).trans hf, fun hsame => ?_⟩
      exact hother hv (hr.apart v t f e hf live (hsame.trans hticket))
    · exact ⟨f, (Table.get?_put_of_ne _ _ (hother hv)).trans hf, rfl⟩
  have erased {t : TaskId} : ∀ v ∈ d.pending.erase t, some t ≠ some v := by
    rintro v hv heq
    obtain rfl := Option.some.inj heq
    exact hd.once.not_mem_erase hv
  have stays {t : TaskId} {a : Attempt} (flying : d.inFlight.get? t = some a) :
      ∀ v ∈ d.pending, some t ≠ some v := by
    rintro v hv heq
    obtain rfl := Option.some.inj heq
    exact unlisted flying hv
  cases h with
  | quiet => exact fewer (.refl _) fun _ _ heq => nomatch heq
  | accepted t new =>
    have hne {v : TaskId} (hv : v ∈ d.pending) : v ≠ t.id := by
      rintro rfl
      obtain ⟨e, he, -⟩ := hd.of_queued hv
      rw [new] at he
      cases he
    have kept {v : TaskId} (hv : v ∈ d.pending) :
        (d.enqueueNew t).tasks.get? v = d.tasks.get? v := Table.get?_put_of_ne _ _ (hne hv)
    refine List.pairwise_append.mpr ⟨?_, List.pairwise_singleton _ _, ?_⟩
    · exact pairwise_earlier_of_same (fun v hv e he => ⟨e, (kept hv).trans he, rfl⟩) hr.sorted
    · intro v hv w hw
      obtain rfl := List.mem_singleton.mp hw
      obtain ⟨e, he, -⟩ := hd.of_queued hv
      exact ⟨e, _, (kept hv).trans he, Table.get?_put_self _ _ _, hr.issued v e he⟩
  | launched => exact fewer List.erase_sublist erased
  | withdrawn => exact fewer List.erase_sublist erased
  | marked flying => exact fewer (.refl _) (stays flying)
  | cancelled _ _ flying => exact fewer (.refl _) (stays flying)
  | returned _ flying live => exact back flying live rfl
  | completed _ flying => exact fewer (.refl _) (stays flying)
  | retried _ flying _ live => exact back flying live rfl
  | abandoned _ flying => exact fewer (.refl _) (stays flying)
  | halted _ _ flying => exact fewer (.refl _) (stays flying)

theorem Turn.ranked (h : Turn halts u d es d') (hd : d.Filed halts) (hr : d.Ranked) : d'.Ranked :=
  ⟨fun _ _ he => h.issued hr he, fun _ _ _ _ he hf => h.apart hr he hf, h.sorted hd hr⟩

theorem run_ranked (config : ControllerConfig) (sink : σ) (os : List Occurrence) :
    ((start config sink).run os).next.Ranked :=
  run_tell_any (P := fun _ d => d.Ranked) [] os (fun p h => h.withPool p)
    (fun hd turn h => turn.ranked hd h) (filed_start config sink)
    (ranked_start config sink)

end HazardDispatch.Dispatcher
