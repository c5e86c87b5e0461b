import HazardDispatch.Proofs.Calculation.Moves
import HazardDispatch.Proofs.Report.Figures

/-!
# Sessions that go through

Nobody else submits or cancels, and no sink stops half-way.

* `Recorded`   the dispatcher's part of the invariant: every accepted task has its tally, and the
               accounts fit the events. It is kept by every turn;
* `Sound`      the invariant of a session that was not aborted (`run_sound`).
-/

namespace HazardDispatch

variable {F : Type}

/-! ## the dispatcher's part -/

open Dispatcher

/-- The accepted tasks have their tallies, by the numbers of their submissions, and the accounts of `n`
tasks fit the events. -/
structure Recorded (n : Nat) (done : List Task) (es : List Event) (d : Dispatcher (Accounts F)) :
    Prop where
  fresh : Fresh es d
  tallies : ∀ i (h : i < done.length), Tally done[i] i (story i es) d
  figures : Figures n es d.sink
  ends : ∀ i t reason, .abandoned i t reason ∈ es → ∃ u k, .resolved i (.failed u k reason) ∈ es

namespace Recorded

variable {n : Nat} {done : List Task} {es es₀ : List Event} {d d' : Dispatcher (Accounts F)}
  {u : Option TaskId}

theorem withPool (h : Recorded n done es d) (p : Pool) :
    Recorded n done es { d with pool := p } :=
  ⟨⟨h.fresh.entries, h.fresh.events⟩, fun i hi => (h.tallies i hi).withPool p, h.figures, h.ends⟩

theorem closed (h : Recorded n done es d) {i : Nat} (hi : i < done.length)
    (resolved : ∃ o, .resolved i o ∈ es) : Closed done[i] i (story i es) d := by
  obtain ⟨o, ho⟩ := resolved
  cases h.tallies i hi with
  | going g =>
    have hmem : o ∈ outcomes (story i es) := reads_outcome.mem_story_iff.mpr ho
    rw [g.failing.silent] at hmem
    cases hmem
  | closed c => exact c

/-- When all outcomes are out, no task is live. -/
theorem dead (h : Recorded n done es d) (issued : d.nextTicket = done.length)
    (resolved : ∀ i < done.length, ∃ o, .resolved i o ∈ es) (t : TaskId) :
    d.tasks.get? t = none := by
  cases live : d.tasks.get? t with
  | none => rfl
  | some e =>
    have hlt : e.ticket < done.length := issued ▸ h.fresh.entries t e live
    exact absurd rfl ((h.closed hlt (resolved _ hlt)).gone t e live)

variable [Add F] [Sub F] [Mul F] [Div F] [Scalar F]

theorem turn (h : Recorded n done es₀ d) (ht : Turn False u d es d') (hd : d.Filed False) :
    Recorded n done (es₀ ++ es) d' where
  fresh := ht.fresh h.fresh
  tallies i hi := ht.tally hd (h.tallies i hi)
  figures := ht.figures h.figures
  ends i t reason hmem := by
    rcases List.mem_append.mp hmem with hmem | hmem
    · obtain ⟨v, k, hv⟩ := h.ends i t reason hmem
      exact ⟨v, k, List.mem_append_left _ hv⟩
    · cases ht with
      | abandoned =>
        rcases List.mem_cons.mp hmem with heq | hmem
        · cases heq
        · rcases List.mem_cons.mp hmem with heq | hmem
          · cases heq
            exact ⟨_, _, List.mem_append_right _
              (List.mem_cons_of_mem _ (List.mem_cons_of_mem _ List.mem_cons_self))⟩
          · cases List.mem_singleton.mp hmem
      | _ => simp at hmem

theorem turns (h : Recorded n done es₀ d) (ht : Turns False d es d') (hd : d.Filed False) :
    Recorded n done (es₀ ++ es) d' :=
  ht.tell (P := Recorded n done) (fun hd turn h => h.turn turn hd) hd h

theorem accept (h : Recorded n done es d) {t : Task} (new : d.tasks.get? t.id = none)
    (issued : d.nextTicket = done.length) (hd : d.Filed False) :
    Recorded n (done ++ [t]) es (d.enqueueNew t) := by
  have ht : Turn False (some t.id) d [] (d.enqueueNew t) := .accepted t new
  have hold := h.turn ht hd
  rw [List.append_nil] at hold
  refine ⟨hold.fresh, fun i hi => ?_, hold.figures, hold.ends⟩
  by_cases hlt : i < done.length
  · rw [List.getElem_append_left hlt]
    exact hold.tallies i hlt
  · rw [List.length_append, List.length_singleton] at hi
    obtain rfl : i = done.length := by omega
    have hnew := h.fresh.tally (ht.filed hd)
    rw [issued] at hnew
    rw [List.getElem_concat_length rfl]
    exact hnew

end Recorded

variable [Add F] [Sub F] [Mul F] [Div F] [Scalar F]

theorem Turns.nextTicket_le {halts : Prop} {d d' : Dispatcher (Accounts F)} {es : List Event}
    (h : Turns halts d es d') : d.nextTicket ≤ d'.nextTicket :=
  h.keep (P := fun d' => d.nextTicket ≤ d'.nextTicket)
    (fun turn hle => Nat.le_trans hle turn.nextTicket_le) (Nat.le_refl _)

/-- Where no task is live and none is accepted, nothing reaches the sinks. -/
theorem Turns.idle {halts : Prop} {d d' : Dispatcher (Accounts F)} {es : List Event}
    (h : Turns halts d es d') (dead : ∀ t, d.tasks.get? t = none)
    (same : d'.nextTicket = d.nextTicket) : d'.sink = d.sink := by
  induction h with
  | nil d => rfl
  | cons turn rest ih =>
    have hle := nextTicket_le rest
    cases turn with
    | quiet => exact ih dead same
    | accepted t new => exact absurd (same ▸ hle) (Nat.not_succ_le_self _)
    | launched _ _ live => rw [dead] at live; cases live
    | withdrawn _ live => rw [dead] at live; cases live
    | marked _ live => rw [dead] at live; cases live
    | cancelled _ _ _ live => rw [dead] at live; cases live
    | returned _ _ live => rw [dead] at live; cases live
    | completed _ _ _ live => rw [dead] at live; cases live
    | retried _ _ _ live => rw [dead] at live; cases live
    | abandoned _ _ _ live => rw [dead] at live; cases live
    | halted _ _ _ _ live => rw [dead] at live; cases live

namespace Session

/-- The invariant of a session of these tasks. -/
structure Sound (tasks : List Task) (s : Session F) : Prop where
  filed : s.dispatcher.Filed False
  recorded : Recorded tasks.length s.accepted (facts s.events) s.dispatcher
  split : tasks = s.accepted ++ s.calculation.rest
  issued : s.dispatcher.nextTicket = s.accepted.length
  wanted : s.dispatcher.Wanted
  kept : ∀ t, .cancelled t ∉ outcomes s.events
  tickets : ∀ i < s.accepted.length,
    (∃ t ∈ s.calculation.queue ++ s.calculation.waiting, t.number = i) ∨
      ∃ o, .resolved i o ∈ s.events
  mailbox : ∀ x ∈ s.calculation.mailbox, .resolved x.1 x.2 ∈ s.events
  finished : ∀ report, s.calculation.stage = .finished (.ok report) →
    report = s.dispatcher.sink.report ∧ s.calculation.rest = [] ∧
      ∀ i < s.accepted.length, ∃ o, .resolved i o ∈ s.events

variable {tasks : List Task} {s s' : Session F}

omit [Sub F] [Mul F] in
theorem sound_begin (config : ControllerConfig) (topK : Nat) (tasks : List Task) :
    Sound tasks (begin config topK tasks : Session F) where
  filed := filed_start config _
  recorded := {
    fresh := ⟨fun _ _ he => (nomatch he), fun _ _ => rfl⟩
    tallies := fun _ hi => absurd hi (Nat.not_lt_zero _)
    figures := .start tasks.length topK
    ends := fun _ _ _ h => (nomatch h) }
  split := rfl
  issued := rfl
  wanted _ _ he := nomatch he
  kept _ h := nomatch h
  tickets _ hi := absurd hi (Nat.not_lt_zero _)
  mailbox _ hx := nomatch hx
  finished _ h := nomatch h

namespace Sound

theorem others (h : Sound tasks s) {o : Occurrence} (ho : o.isRequest = false)
    (hs : (s.dispatcher.undergo o).stop = none) :
    Sound tasks (s.after (s.dispatcher.undergo o).change) := by
  let d := s.dispatcher
  let c := (d.undergo o).change
  have hasked : Unasked d c := unasked_undergo h.wanted (h.filed.mono fun h => h.elim) ho
  have hturns : Turns False d (facts c.events) c.next ∨
      facts c.events = [] ∧ ∃ p, c.next = { d with pool := p } := by
    cases o with
    | own a => exact .inl (act_turns h.filed fun hne => absurd hs hne)
    | pool call => exact .inr ⟨facts_logged _, _, rfl⟩
  have hrecorded : Recorded tasks.length s.accepted (facts s.events ++ facts c.events) c.next := by
    rcases hturns with hturns | ⟨hfacts, p, hp⟩
    · exact h.recorded.turns hturns h.filed
    · rw [hfacts, List.append_nil, hp]
      exact h.recorded.withPool p
  have hfiled : c.next.Filed False := by
    rcases hturns with hturns | ⟨-, p, hp⟩
    · exact hturns.filed h.filed
    · rw [hp]
      exact h.filed.withPool p
  have hmore {i : Nat} (ho : ∃ o, Event.resolved i o ∈ s.events) :
      ∃ o, .resolved i o ∈ s.events ++ c.events := by
    obtain ⟨o, ho⟩ := ho
    exact ⟨o, List.mem_append_left _ ho⟩
  refine ⟨hfiled, ?_, h.split, hasked.tickets.trans h.issued, hasked.wanted, fun t ht => ?_,
    fun i hi => (h.tickets i hi).imp_right hmore, fun x hx => List.mem_append_left _ (h.mailbox x hx),
    fun report hr => ?_⟩
  · show Recorded _ _ (facts (s.events ++ c.events)) c.next
    rw [facts_append]
    exact hrecorded
  · replace ht : .cancelled t ∈ outcomes (s.events ++ c.events) := ht
    rw [outcomes_append] at ht
    exact (List.mem_append.mp ht).elim (h.kept t) (hasked.kept t)
  · obtain ⟨hreport, hrest, hall⟩ := h.finished report hr
    refine ⟨hreport.trans ?_, hrest, fun i hi => hmore (hall i hi)⟩
    have hsink : c.next.sink = d.sink := by
      rcases hturns with hturns | ⟨-, p, hp⟩
      · refine Turns.idle hturns (h.recorded.dead h.issued fun i hi => ?_) hasked.tickets
        obtain ⟨o, ho⟩ := hall i hi
        exact ⟨o, (mem_facts rfl).mpr ho⟩
      · rw [hp]
    exact congrArg Accounts.report hsink.symm

omit [Sub F] [Mul F] in
theorem hear (h : Sound tasks s) {ticket : Nat} {o : Outcome}
    (sent : .resolved ticket o ∈ s.events) :
    Sound tasks { s with calculation := s.calculation.notice ticket o } where
  filed := h.filed
  recorded := h.recorded
  split := h.split
  issued := h.issued
  wanted := h.wanted
  kept := h.kept
  tickets i hi := by
    refine (h.tickets i hi).imp_left fun ⟨t, ht, hnumber⟩ => ⟨t, ?_, hnumber⟩
    show t ∈ (s.calculation.queue ++ (s.calculation.waiting.partition _).1)
      ++ (s.calculation.waiting.partition _).2
    rw [List.partition_eq_filter_filter, List.mem_append, List.mem_append, List.mem_filter,
      List.mem_filter]
    rcases List.mem_append.mp ht with ht | ht
    · exact .inl (.inl ht)
    · cases hb : t.number == ticket
      · exact .inr ⟨ht, by simp [hb]⟩
      · exact .inl (.inr ⟨ht, rfl⟩)
  mailbox x hx := by
    replace hx : x ∈ s.calculation.mailbox ++ [(ticket, o)] := hx
    rcases List.mem_append.mp hx with hx | hx
    · exact h.mailbox x hx
    · rw [List.mem_singleton.mp hx]
      exact sent
  finished := h.finished

/-- The next task is accepted; what follows in the same move are turns without a request. -/
theorem accepted (h : Sound tasks s) {t : Task} {ts : List Task} {c : Change (Accounts F)}
    (hrest : s.calculation.rest = t :: ts) (hstage : s.calculation.stage matches .submitting)
    (new : s.dispatcher.tasks.get? t.id = none)
    (hturns : Turns False (s.dispatcher.enqueueNew t) (facts c.events) c.next)
    (hasked : Unasked (s.dispatcher.enqueueNew t) c) :
    Sound tasks (after { s with
      calculation := { s.calculation with
        rest := ts, queue := s.calculation.queue ++ [⟨s.dispatcher.nextTicket, t.id⟩] }
      accepted := s.accepted ++ [t] } c) := by
  have hfiled : (s.dispatcher.enqueueNew t).Filed False :=
    (Turn.accepted t new).filed h.filed
  have hrecorded := (h.recorded.accept new h.issued h.filed).turns hturns hfiled
  refine ⟨hturns.filed hfiled, ?_, ?_, ?_, hasked.wanted, fun u hu => ?_, fun i hi => ?_,
    fun x hx => List.mem_append_left _ (h.mailbox x hx), fun report hr => ?_⟩
  · show Recorded _ _ (facts (s.events ++ c.events)) c.next
    rw [facts_append]
    exact hrecorded
  · show tasks = (s.accepted ++ [t]) ++ ts
    rw [List.append_assoc, h.split, hrest]
    rfl
  · show c.next.nextTicket = (s.accepted ++ [t]).length
    rw [hasked.tickets, List.length_append]
    exact congrArg (· + 1) h.issued
  · replace hu : .cancelled u ∈ outcomes (s.events ++ c.events) := hu
    rw [outcomes_append] at hu
    exact (List.mem_append.mp hu).elim (h.kept u) (hasked.kept u)
  · show (∃ u ∈ (s.calculation.queue ++ [⟨s.dispatcher.nextTicket, t.id⟩]) ++ s.calculation.waiting,
      u.number = i) ∨ ∃ o, .resolved i o ∈ s.events ++ c.events
    replace hi : i < (s.accepted ++ [t]).length := hi
    rw [List.length_append, List.length_singleton] at hi
    by_cases hlt : i < s.accepted.length
    · rcases h.tickets i hlt with ⟨u, hu, hnumber⟩ | ⟨o, ho⟩
      · refine .inl ⟨u, ?_, hnumber⟩
        rcases List.mem_append.mp hu with hu | hu
        · exact List.mem_append_left _ (List.mem_append_left _ hu)
        · exact List.mem_append_right _ hu
      · exact .inr ⟨o, List.mem_append_left _ ho⟩
    · refine .inl ⟨⟨s.dispatcher.nextTicket, t.id⟩, List.mem_append_left _
        (List.mem_append_right _ List.mem_cons_self), ?_⟩
      show s.dispatcher.nextTicket = i
      rw [h.issued]
      omega
  · replace hr : s.calculation.stage = .finished (.ok report) := hr
    rw [hr] at hstage
    cases hstage

omit [Sub F] [Mul F] in
/-- The calculation looks through its tickets, and nothing but log lines comes of it. -/
theorem looked (h : Sound tasks s) {c : Calculation F} (log : List LogLine)
    (hrest : c.rest = s.calculation.rest) (hmailbox : c.mailbox = s.calculation.mailbox)
    (hkept : ∀ k ∈ s.calculation.queue ++ s.calculation.waiting,
      k ∈ c.queue ++ c.waiting ∨ ∃ o, (k.number, o) ∈ s.calculation.mailbox)
    (hfinishes : ∀ report, c.stage = .finished (.ok report) →
      report = s.dispatcher.sink.report ∧ c.rest = [] ∧ c.queue ++ c.waiting = []) :
    Sound tasks { s with calculation := c, events := s.events ++ log.map .logged } := by
  have tickets (i : Nat) (hi : i < s.accepted.length) :
      (∃ k ∈ c.queue ++ c.waiting, k.number = i) ∨
        ∃ o, .resolved i o ∈ s.events ++ log.map .logged := by
    rcases h.tickets i hi with ⟨k, hk, hnumber⟩ | ⟨o, ho⟩
    · rcases hkept k hk with hk | ⟨o, ho⟩
      · exact .inl ⟨k, hk, hnumber⟩
      · exact .inr ⟨o, List.mem_append_left _ (hnumber ▸ h.mailbox _ ho)⟩
    · exact .inr ⟨o, List.mem_append_left _ ho⟩
  refine ⟨h.filed, ?_, ?_, h.issued, h.wanted, fun t => ?_, tickets,
    fun x hx => List.mem_append_left _ (h.mailbox x (hmailbox ▸ hx)), fun report hr => ?_⟩
  · show Recorded _ _ (facts (s.events ++ log.map .logged)) _
    rw [facts_append, facts_logged, List.append_nil]
    exact h.recorded
  · rw [hrest]
    exact h.split
  · show _ ∉ outcomes (s.events ++ log.map .logged)
    rw [outcomes_append, outcomes_logged, List.append_nil]
    exact h.kept t
  · obtain ⟨hreport, hnone, hempty⟩ := hfinishes report hr
    refine ⟨hreport, hnone, fun i hi => (tickets i hi).resolve_left fun ⟨k, hk, _⟩ => ?_⟩
    rw [hempty] at hk
    cases hk

theorem submitted (h : Sound tasks s) {t : Task} {ts : List Task} {k : Ticket}
    (hstage : s.calculation.stage = .submitting) (hrest : s.calculation.rest = t :: ts)
    (hok : (s.dispatcher.submit t).value = .ok k) :
    Sound tasks (after { s with
      calculation := { s.calculation with rest := ts, queue := s.calculation.queue ++ [k] }
      accepted := s.accepted ++ [t] } (s.dispatcher.submit t).change) := by
  obtain ⟨e, log, hs⟩ | ⟨hnew, hs⟩ := s.dispatcher.submit_cases t
  · rw [hs] at hok
    cases hok
  · rw [hs] at hok ⊢
    obtain rfl := Except.ok.inj hok
    have hq : (s.dispatcher.enqueueNew t).Filed False := (enqueueNew_turns hnew).filed h.filed
    exact h.accepted hrest (by rw [hstage]) ((Table.contains_eq_false_iff _ _).mp hnew)
      ((pump_follows hq).saying _).turns
      ((unasked_pump (h.wanted.enqueueNew t) hq).saying [⟨.debug, "Task submitted"⟩])

/-- What a move keeps, unless the calculation gives up. -/
theorem move (h : Sound tasks s) {m : Move} {new : List Ticket} {os : List Occurrence}
    (hm : Moved s m new os s') (lawful : s.Allows m) :
    s'.calculation.Aborted ∨ Sound tasks s' := by
  cases hm with
  | still => exact .inr h
  | looked log rest mailbox kept going goes finishes =>
    exact .inr (h.looked log rest mailbox kept finishes)
  | submitted stage rest ok => exact .inr (h.submitted stage rest ok)
  | refused => exact .inl trivial
  | cancelled => exact .inl trivial
  | ended => exact .inl trivial
  | @accepted t ts stage rest new =>
    have hsound := h.accepted (c := .none (s.dispatcher.enqueueNew t)) rest stage new (.nil _)
      (unasked_of_same (h.wanted.enqueueNew t) rfl rfl rfl)
    have hevents : s.events ++ (Change.none (s.dispatcher.enqueueNew t)).events = s.events :=
      List.append_nil _
    unfold after at hsound
    rw [hevents] at hsound
    exact .inr hsound
  | heard sent => exact .inr (h.hear sent)
  | others o => exact .inr (h.others lawful.1 lawful.2)

end Sound

/-! ## runs -/

theorem sound_move (h : s.calculation.Aborted ∨ Sound tasks s) {m : Move} (hm : s.Allows m) :
    (s.move m).calculation.Aborted ∨ Sound tasks (s.move m) := by
  obtain ⟨os, hmoved⟩ := moved (permits_of_allows hm)
  exact h.elim (fun ha => .inl (hmoved.aborted ha)) fun hs => hs.move hmoved hm

theorem run_sound {ms : List Move} (h : s.calculation.Aborted ∨ Sound tasks s)
    (lawful : s.Lawful ms) : (s.run ms).calculation.Aborted ∨ Sound tasks (s.run ms) := by
  induction ms generalizing s with
  | nil => exact h
  | cons m ms ih => exact ih (sound_move h lawful.1) lawful.2

end Session
end HazardDispatch
