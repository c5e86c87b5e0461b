import HazardDispatch.Proofs.Dispatch.Overflow

/-!
# Cancellation is final

A cancelled submission is over at once if its task was queued. If an attempt was in flight it is
marked, and the end of that attempt, whatever it is, is the end of the submission. `Doomed` is this
for one submission and kept by all turns: all that can still be seen of it is that its submitter is
told that it is cancelled.
-/

namespace HazardDispatch.Dispatcher

variable {σ : Type}

/-- The numbers of the live tasks are issued and distinct. -/
structure Numbered (d : Dispatcher σ) : Prop where
  issued : ∀ t e, d.tasks.get? t = some e → e.ticket < d.nextTicket
  distinct : ∀ t t' e e', d.tasks.get? t = some e → d.tasks.get? t' = some e' →
    e'.ticket = e.ticket → t' = t

/-- The submission `n` of the task `t` is cancelled, and `es` is what happened to it since. -/
inductive Doomed (t : TaskId) (n : Nat) (es : List Event) (d : Dispatcher σ) : Prop where
  | marked {e : Entry} {a : Attempt} (issued : n < d.nextTicket)
      (live : d.tasks.get? t = some e) (ticket : e.ticket = n)
      (alone : ∀ t' e', d.tasks.get? t' = some e' → e'.ticket = n → t' = t)
      (flying : d.inFlight.get? t = some a) (doomed : e.cancelRequested = true) (silent : es = [])
  | ended (issued : n < d.nextTicket) (gone : ∀ t e, d.tasks.get? t = some e → e.ticket ≠ n)
      (told : es = [.resolved n (.cancelled t)])

variable [Sink σ] {halts : Prop} {u : Option TaskId} {d d' : Dispatcher σ} {es es₀ : List Event}
  {t : TaskId} {n : Nat}

/-! ## numbers -/

theorem Turn.numbered (h : Turn halts u d es d') (hn : d.Numbered) : d'.Numbered where
  issued t e' he' := by
    have hle := h.nextTicket_le
    obtain ⟨e, he, heq⟩ | ⟨heq, hnext⟩ := h.origin he'
    · have := hn.issued t e he
      omega
    · omega
  distinct t t' e e' he he' heq := by
    have new {v : TaskId} {e : Entry} (he : d'.tasks.get? v = some e)
        (hnew : e.ticket = d.nextTicket) : u = some v := by
      refine Classical.byContradiction fun hu => ?_
      rw [(h.frame hu).2.1] at he
      have := hn.issued v e he
      omega
    obtain ⟨e₁, he₁, h₁⟩ | ⟨h₁, -⟩ := h.origin he <;>
      obtain ⟨e₂, he₂, h₂⟩ | ⟨h₂, -⟩ := h.origin he'
    · exact hn.distinct t t' e₁ e₂ he₁ he₂ (by omega)
    · have := hn.issued t e₁ he₁
      omega
    · have := hn.issued t' e₂ he₂
      omega
    · exact Option.some.inj ((new he' h₂).symm.trans (new he h₁))

theorem run_numbered (config : ControllerConfig) (sink : σ) (os : List Occurrence) :
    ((start config sink).run os).next.Numbered :=
  run_tell_any (P := fun _ d => d.Numbered) [] os (fun _ h => ⟨h.issued, h.distinct⟩)
    (fun _ turn h => turn.numbered h) (filed_start config sink)
    ⟨fun _ _ h => (nomatch h), fun _ _ _ _ h => (nomatch h)⟩

/-! ## turns -/

theorem Turn.doomed (h : Turn halts u d es d') (hd : d.Filed halts)
    (hdoom : Doomed t n (story n es₀) d) : Doomed t n (story n (es₀ ++ es)) d' := by
  rw [story_append]
  cases hdoom with
  | ended issued gone told =>
    obtain ⟨hs, gone'⟩ := h.gone issued gone
    rw [hs, List.append_nil]
    exact .ended (Nat.lt_of_lt_of_le issued h.nextTicket_le) gone' told
  | @marked e a issued live ticket alone flying doomed silent =>
    have issued' : n < d'.nextTicket := Nat.lt_of_lt_of_le issued h.nextTicket_le
    have alone' := h.alone issued alone
    rw [silent, List.nil_append]
    by_cases hu : u = some t
    · subst hu
      obtain ⟨e', unlisted, -⟩ := hd.of_flying flying
      have same {e' : Entry} (live' : d.tasks.get? t = some e') : e' = e :=
        Option.some.inj (live'.symm.trans live)
      -- a marked task is not queued, and its attempt is not applied
      have clash {e' : Entry} (live' : d.tasks.get? t = some e')
          (wanted : e'.cancelRequested = false) : False := by
        rw [same live', doomed] at wanted
        cases wanted
      cases h with
      | accepted t new =>
        rw [new] at live
        cases live
      | launched queued => exact absurd queued unlisted
      | withdrawn queued => exact absurd queued unlisted
      | marked _ live' =>
        refine .marked issued' (Table.get?_put_self _ _ _) ?_ alone' flying rfl ?_
        · exact (congrArg Entry.ticket (same live')).trans ticket
        · exact story_of_other (by simp [Event.ticket?])
      | cancelled l how _ live' =>
        obtain rfl := same live'
        subst ticket
        refine .ended issued' (fun t' e' he' hn => ?_) (story_of_own (by simp [Event.ticket?]))
        obtain rfl := alone' t' e' he' hn
        rw [Table.get?_erase_self] at he'
        cases he'
      | returned _ _ live' wanted => exact (clash live' wanted).elim
      | completed _ _ _ live' wanted => exact (clash live' wanted).elim
      | retried _ _ _ live' wanted => exact (clash live' wanted).elim
      | abandoned _ _ _ live' wanted => exact (clash live' wanted).elim
      | halted _ _ _ _ live' wanted => exact (clash live' wanted).elim
    · obtain ⟨-, ht, hf⟩ := h.frame hu
      exact .marked issued' (ht.trans live) ticket alone' (hf.trans flying) doomed
        (h.silent hu alone)

omit [Sink σ] in
theorem Doomed.withPool (h : Doomed t n es d) (p : Pool) : Doomed t n es { d with pool := p } := by
  cases h with
  | marked issued live ticket alone flying doomed silent =>
    exact .marked issued live ticket alone flying doomed silent
  | ended issued gone told => exact .ended issued gone told

omit [Sink σ] in
/-- At most the end of a doomed submission is seen. -/
theorem Doomed.story_eq (h : Doomed t n es d) :
    es = [] ∨ es = [.resolved n (.cancelled t)] := by
  cases h with
  | marked _ _ _ _ _ _ silent => exact .inl silent
  | ended _ _ told => exact .inr told

/-! ## the call -/

omit [Sink σ] in
theorem cancel_doomed (hd : d.Filed halts) (hn : d.Numbered) {e : Entry}
    (live : d.tasks.get? t = some e) (ok : (d.cancel t).value = .ok ()) :
    Doomed t e.ticket (story e.ticket (d.cancel t).change.events) (d.cancel t).change.next := by
  have issued := hn.issued t e live
  have alone : ∀ t' e', d.tasks.get? t' = some e' → e'.ticket = e.ticket → t' = t :=
    fun t' e' live' => hn.distinct t t' e e' live live'
  cases hd.stands t with
  | queued listed =>
    rw [cancel_of_queued listed live]
    refine .ended issued (fun t' e' live' ht => ?_) ?_
    · replace live' : (d.tasks.erase t).get? t' = some e' := live'
      rw [Table.get?_erase] at live'
      split at live'
      · cases live'
      · next hne => exact hne (alone t' e' live' ht)
    · show story e.ticket ([_] ++ [_]) = _
      rw [story_append, story_of_other (by simp [Event.ticket?]), List.nil_append]
      exact story_of_own (by simp [Event.ticket?])
  | flying unlisted _ flying =>
    rw [cancel_of_flying unlisted flying live]
    refine .marked issued (Table.get?_put_self _ _ _) rfl (fun t' e' live' ht => ?_) flying rfl
      (story_of_other (by simp [Change.saying, Event.ticket?]))
    by_cases hne : t' = t
    · exact hne
    · exact alone t' e' ((Table.get?_put_of_ne _ _ hne).symm.trans live') ht
  | gone _ dead =>
    rw [dead] at live
    cases live
  | stranded _ unlisted _ landed =>
    rw [cancel_of_neither unlisted landed] at ok
    cases ok

omit [Sink σ] in
/-- A task is cancelled, or it is unknown and nothing changes; unknown are the tasks that are not
live and the stranded ones. -/
theorem cancel_value (hd : d.Filed halts) (t : TaskId) :
    (d.cancel t).value = .ok () ∧ ¬ (d.tasks.get? t = none ∨ d.Stranded t) ∨
      d.cancel t = ⟨.error (.unknownTask t), .none d⟩ ∧
        (d.tasks.get? t = none ∨ d.Stranded t) := by
  cases hd.stands t with
  | queued listed live =>
    rw [cancel_of_queued listed live, live]
    exact .inl ⟨rfl, by simp [not_stranded_of_queued listed]⟩
  | flying unlisted live flying =>
    rw [cancel_of_flying unlisted flying live, live]
    exact .inl ⟨rfl, by simp [not_stranded_of_flying flying]⟩
  | gone unlisted dead landed =>
    exact .inr ⟨cancel_of_neither unlisted landed, .inl dead⟩
  | stranded _ unlisted live landed =>
    exact .inr ⟨cancel_of_neither unlisted landed, .inr ⟨by rw [live]; rfl, unlisted, landed⟩⟩

/-- Once a live task is cancelled, all that follows of its submission is that it is cancelled, in any
continuation. The call touches nothing else. It knows the live tasks, except those at one of whose
results the sinks stopped half-way before. -/
theorem cancel_final (config : ControllerConfig) (sink : σ) (before : List Occurrence)
    (t : TaskId) :
    let c := (start config sink).run before
    (∀ e, c.next.tasks.get? t = some e → (c.next.cancel t).value = .ok () → ∀ after,
        let es := (c.next.run (.own (.cancel t) :: after)).events
        story e.ticket es = [] ∨ story e.ticket es = [.resolved e.ticket (.cancelled t)]) ∧
      ((c.next.cancel t).change.next = { c.next with
          pending := c.next.pending.erase t, tasks := (c.next.cancel t).change.next.tasks } ∧
        ∀ t' ≠ t, (c.next.cancel t).change.next.tasks.get? t' = c.next.tasks.get? t') ∧
      ((c.next.cancel t).value = .ok () ∧
          ¬ (c.next.tasks.get? t = none ∨ t ∈ spilled sink c.events) ∨
        c.next.cancel t = ⟨.error (.unknownTask t), .none c.next⟩ ∧
          (c.next.tasks.get? t = none ∨ t ∈ spilled sink c.events)) := by
  intro c
  have hd : c.next.Filed True := run_filed_any before (filed_start config sink)
  have hn : c.next.Numbered := run_numbered config sink before
  refine ⟨fun e live ok after => ?_, cancel_frame hd t, ?_⟩
  · have h := run_tell_any (P := fun es d => Doomed t e.ticket (story e.ticket es) d)
      (facts (c.next.cancel t).change.events) after (fun p h => h.withPool p)
      (fun hd turn h => turn.doomed hd h)
      ((cancel_follows hd).filed hd)
      (by rw [story_facts]; exact cancel_doomed hd hn live ok)
    have hs := h.story_eq
    rwa [← facts_append, story_facts] at hs
  · have hs : c.next.Stranded t ↔ t ∈ spilled sink c.events :=
      (run_stranded_iff (filed_start config sink) before t).trans
        (or_iff_right (not_stranded_start config sink t))
    rw [← hs]
    exact cancel_value hd t

/-- The task is cancelled while it runs; when its attempt fails it is over. -/
theorem cancel_final_atWork :
    ((firstDay.run (secondTry.take 2)).next.cancel someTask.id).value = .ok () ∧
      let es := ((firstDay.run (secondTry.take 2)).next.run
        [.own (.cancel someTask.id), .own (.deliver firstResult)]).events
      (story 0 es = [] ∨ story 0 es = [.resolved 0 (.cancelled someTask.id)]) ∧
        story 0 es ≠ [] := by
  have ok : ((firstDay.run (secondTry.take 2)).next.cancel someTask.id).value = .ok () := rfl
  obtain ⟨final, -, -⟩ := cancel_final {} (.empty 10 : Accounts Float) (secondTry.take 2) someTask.id
  exact ⟨ok, final _ rfl ok [.own (.deliver firstResult)], List.cons_ne_nil _ _⟩

/-- The task whose result the accounts had no room for is running and cannot be submitted again, but it
is unknown to `cancel`. -/
theorem cancel_unknown_filledUp :
    (firstDay.run filledUp).next.state? otherTask.id = some .running ∧
      ((firstDay.run filledUp).next.submit otherTask).value
        = .error (.duplicateTask otherTask.id) ∧
      ((firstDay.run filledUp).next.cancel otherTask.id).value
        = .error (.unknownTask otherTask.id) :=
  ⟨rfl, rfl, rfl⟩

end HazardDispatch.Dispatcher
