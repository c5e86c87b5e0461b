import HazardDispatch.Proofs.Calculation.Session

/-!
# The moves of a session

Each possible move is one of a few (`Moved`), told by the tickets that the calculation gets and by
what it asks of the dispatcher. So a fact about all sessions needs one case for each of them, and what
the dispatcher goes through in a session is a run of it (`Moved.run`).

A calculation that gives up is through after one step for each of its tickets and one more, if
nobody interferes (`run_cancelling`).
-/

namespace HazardDispatch.Session

open Dispatcher

variable {F : Type} [Add F] [Sub F] [Mul F] [Div F] [Scalar F]

/-! ## what a move does -/

/-- A move gives these tickets, and the dispatcher goes through these occurrences. -/
inductive Moved (s : Session F) : Move → List Ticket → List Occurrence → Session F → Prop where
  /-- Nothing is left to do. -/
  | still (m : Move) : Moved s m [] [] s
  /-- The calculation looks through its tickets or waits. -/
  | looked {c : Calculation F} (log : List LogLine) (rest : c.rest = s.calculation.rest)
      (mailbox : c.mailbox = s.calculation.mailbox)
      (kept : ∀ k ∈ s.calculation.queue ++ s.calculation.waiting,
        k ∈ c.queue ++ c.waiting ∨ ∃ o, (k.number, o) ∈ s.calculation.mailbox)
      (going : ¬ s.calculation.Aborted) (goes : ¬ c.Aborted)
      (finishes : ∀ report, c.stage = .finished (.ok report) →
        report = s.dispatcher.sink.report ∧ c.rest = [] ∧ c.queue ++ c.waiting = []) :
      Moved s .step [] [] { s with calculation := c, events := s.events ++ log.map .logged }
  | submitted {t : Task} {ts : List Task} {k : Ticket} (stage : s.calculation.stage = .submitting)
      (rest : s.calculation.rest = t :: ts) (ok : (s.dispatcher.submit t).value = .ok k) :
      Moved s .step [k] [.own (.submit t)] (after { s with
        calculation := { s.calculation with rest := ts, queue := s.calculation.queue ++ [k] }
        accepted := s.accepted ++ [t] } (s.dispatcher.submit t).change)
  /-- A task is refused, and the calculation gives up. -/
  | refused (log : List LogLine) (why : DispatchError) (going : ¬ s.calculation.Aborted) :
      Moved s .step [] [] { s with
        calculation := { s.calculation with stage := .cancelling s.calculation.outstanding why }
        events := s.events ++ log.map .logged }
  | cancelled {k : Ticket} {left : List Ticket} {why : DispatchError} (log : List LogLine)
      (stage : s.calculation.stage = .cancelling (k :: left) why) :
      Moved s .step [] [.own (.cancel k.task)] (after { s with
        calculation := { s.calculation with stage := .cancelling left why } }
        ⟨(s.dispatcher.cancel k.task).change.next,
          (s.dispatcher.cancel k.task).change.events ++ log.map .logged⟩)
  | ended {why : DispatchError} (log : List LogLine)
      (stage : s.calculation.stage = .cancelling [] why) :
      Moved s .step [] [] { s with
        calculation := { s.calculation with stage := .finished (.error why) }
        events := s.events ++ log.map .logged }
  | accepted {t : Task} {ts : List Task} (stage : s.calculation.stage matches .submitting)
      (rest : s.calculation.rest = t :: ts) (new : s.dispatcher.tasks.get? t.id = none) :
      Moved s .accept [⟨s.dispatcher.nextTicket, t.id⟩] [.own (.part (.accept t))] { s with
        calculation := { s.calculation with
          rest := ts, queue := s.calculation.queue ++ [⟨s.dispatcher.nextTicket, t.id⟩] }
        dispatcher := s.dispatcher.enqueueNew t, accepted := s.accepted ++ [t] }
  | heard {ticket : Nat} {o : Outcome} (sent : .resolved ticket o ∈ s.events) :
      Moved s (.hear ticket o) [] [] { s with calculation := s.calculation.notice ticket o }
  | others (o : Occurrence) : Moved s (.others o) [] [o] (s.after (s.dispatcher.undergo o).change)

variable {s s' : Session F} {m : Move} {ks new : List Ticket} {os : List Occurrence}

omit [Add F] [Sub F] [Mul F] [Div F] [Scalar F] in
theorem not_aborted {c : Calculation F} {stage : Stage F} (h : c.stage = stage)
    (hstage : ¬ Calculation.Aborted { c with stage }) : ¬ c.Aborted := by
  unfold Calculation.Aborted
  rw [h]
  exact hstage

omit [Sub F] [Mul F] in
theorem step_of_change {c : Calculation F} {change : Change (Accounts F)}
    (h : s.calculation.step s.dispatcher = (c, some change)) (ha : s.accepting = []) :
    s.step = after { s with calculation := c } change := by
  unfold step
  rw [h, ha, List.append_nil]

omit [Sub F] [Mul F] in
theorem step_of_log {c : Calculation F} (log : List LogLine)
    (h : s.calculation.step s.dispatcher = (c, some ((Change.none s.dispatcher).saying log)))
    (ha : s.accepting = []) :
    s.step = { s with calculation := c, events := s.events ++ log.map .logged } := by
  have hevents : ((Change.none s.dispatcher).saying log).events = log.map .logged :=
    List.append_nil _
  rw [step_of_change h ha, after, hevents]
  rfl

omit [Sub F] [Mul F] in
theorem step_of_none {c : Calculation F} (h : s.calculation.step s.dispatcher = (c, none))
    (ha : s.accepting = []) :
    s.step = { s with calculation := c, events := s.events ++ ([] : List LogLine).map .logged } := by
  unfold step
  rw [h, ha, List.append_nil, List.map_nil, List.append_nil]

theorem moved_submit {t : Task} {ts : List Task} (hstage : s.calculation.stage = .submitting)
    (hrest : s.calculation.rest = t :: ts) : ∃ os, Moved s .step (s.granted .step) os s.step := by
  have hgoing : ¬ s.calculation.Aborted := not_aborted hstage id
  have hstep : s.calculation.step s.dispatcher
      = ((s.calculation.submitNext s.dispatcher t ts).1,
        some (s.calculation.submitNext s.dispatcher t ts).2) := by
    unfold Calculation.step
    rw [hstage, hrest]
  obtain ⟨e, log, hs⟩ | ⟨-, hs⟩ := s.dispatcher.submit_cases t
  · have haccepting : s.accepting = [] := by
      simp only [accepting, hstage, hrest, hs, turnDown]
    have hgranted : s.granted .step = [] := by rw [granted, haccepting, List.map_nil]
    rw [step_of_change hstep haccepting, hgranted]
    have hevents : (Change.saying log (Change.none s.dispatcher)).events = log.map .logged :=
      List.append_nil _
    have hrefused := Moved.refused (s := s) log e hgoing
    rw [← hevents] at hrefused
    unfold Calculation.submitNext
    simp only [hs, turnDown]
    cases e with
    | poolExhausted n =>
      have hlooked := Moved.looked (s := s) (c := { s.calculation with stage := .full })
        (log ++ [⟨.debug, "Queue full - waiting for a task to settle"⟩]) rfl rfl
        (fun _ h => .inl h) hgoing id (by simp)
      rw [List.map_append, ← hevents] at hlooked
      exact ⟨[], hlooked⟩
    | duplicateTask u => exact ⟨[], hrefused⟩
    | unknownTask u => exact ⟨[], hrefused⟩
    | shutDown => exact ⟨[], hrefused⟩
  · have hok : (s.dispatcher.submit t).value = .ok ⟨s.dispatcher.nextTicket, t.id⟩ := by rw [hs]
    have hsubmit : s.calculation.submitNext s.dispatcher t ts
        = ({ s.calculation with
              rest := ts, queue := s.calculation.queue ++ [⟨s.dispatcher.nextTicket, t.id⟩] },
          (s.dispatcher.submit t).change) := by
      simp only [Calculation.submitNext, hok]
    have haccepting : s.accepting = [t] := by
      simp only [accepting, hstage, hrest, hok]
    have hgranted : s.granted .step = [⟨s.dispatcher.nextTicket, t.id⟩] := by
      rw [granted, haccepting]
      rfl
    have heq : s.step = after { s with
        calculation := { s.calculation with
          rest := ts, queue := s.calculation.queue ++ [⟨s.dispatcher.nextTicket, t.id⟩] }
        accepted := s.accepted ++ [t] } (s.dispatcher.submit t).change := by
      unfold step
      rw [hstep, hsubmit, haccepting]
    rw [heq, hgranted]
    exact ⟨_, .submitted hstage hrest hok⟩

/-- The calculation looks through its tickets and goes on in some stage. -/
theorem moved_looked {c : Calculation F} {found : Option Outcome} {stage : Stage F}
    (htake : s.calculation.takeOutcome s.calculation.queue = (found, c)) (log : List LogLine)
    (going : ¬ s.calculation.Aborted) (goes : ¬ Calculation.Aborted { c with stage })
    (finishes : ∀ report, stage = .finished (.ok report) →
      report = s.dispatcher.sink.report ∧ c.rest = [] ∧ c.queue ++ c.waiting = []) :
    Moved s .step [] [] { s with
      calculation := { c with stage }, events := s.events ++ log.map .logged } := by
  obtain ⟨hrest, hmailbox, -, -, hkept⟩ := s.calculation.takeOutcome_spec s.calculation.queue
  rw [htake] at hrest hmailbox hkept
  exact .looked log hrest hmailbox hkept going goes finishes

omit [Sub F] [Mul F] in
theorem step_cancelled {k : Ticket} {left : List Ticket} {why : DispatchError}
    (h : s.calculation.stage = .cancelling (k :: left) why) :
    ∃ log : List LogLine, s.step = after { s with
      calculation := { s.calculation with stage := .cancelling left why } }
      ⟨(s.dispatcher.cancel k.task).change.next,
        (s.dispatcher.cancel k.task).change.events ++ log.map .logged⟩ := by
  have haccepting : s.accepting = [] := accepting_of_stage (by rw [h]; simp)
  cases hcancel : (s.dispatcher.cancel k.task).value with
  | ok =>
    refine ⟨[], step_of_change ?_ haccepting⟩
    unfold Calculation.step
    simp only [h, hcancel]
  | error e =>
    refine ⟨[⟨.debug, "Nothing to cancel"⟩], step_of_change ?_ haccepting⟩
    unfold Calculation.step
    simp only [h, hcancel]

omit [Sub F] [Mul F] in
theorem step_ended {why : DispatchError} (h : s.calculation.stage = .cancelling [] why) :
    ∃ log : List LogLine, s.step = { s with
      calculation := { s.calculation with stage := .finished (.error why) }
      events := s.events ++ log.map .logged } := by
  have hstep : s.calculation.step s.dispatcher
      = ({ s.calculation with stage := .finished (.error why) },
        some ((Change.none s.dispatcher).saying
          [⟨.warn, "Calculation aborted - submitted tasks cancelled"⟩])) := by
    unfold Calculation.step
    simp only [h]
  exact ⟨_, step_of_log _ hstep (accepting_of_stage (by rw [h]; simp))⟩

omit [Add F] [Sub F] [Mul F] [Div F] [Scalar F] in
theorem stage_of_takeOutcome {c c' : Calculation F} {found : Option Outcome}
    (h : c.takeOutcome c.queue = (found, c')) : c'.stage = c.stage := by
  obtain ⟨-, -, hstage, -, -⟩ := c.takeOutcome_spec c.queue
  rw [h] at hstage
  exact hstage

/-- All tasks are submitted: outcomes are waited for. -/
theorem moved_collect (hstage : s.calculation.stage = .submitting)
    (hrest : s.calculation.rest = []) : Moved s .step [] [] s.step := by
  have hgoing : ¬ s.calculation.Aborted := not_aborted hstage id
  have h : s.accepting = [] := accepting_of_rest hrest
  cases htake : s.calculation.takeOutcome s.calculation.queue with
  | mk found c =>
    have hc : { c with stage := .submitting } = c := by
      rw [← hstage, ← stage_of_takeOutcome htake]
    cases found with
    | some o =>
      have hstep : s.calculation.step s.dispatcher = (c, some (.none s.dispatcher)) := by
        unfold Calculation.step
        rw [hstage, hrest, htake]
      rw [step_of_log [] hstep h]
      exact hc ▸ moved_looked htake [] hgoing id (by simp)
    | none =>
      by_cases hw : c.waiting.isEmpty
      · have hstep : s.calculation.step s.dispatcher
            = ({ c with stage := .finished (.ok s.dispatcher.sink.report) },
              some ((Change.none s.dispatcher).saying c.finalLog)) := by
          unfold Calculation.step
          rw [hstage, hrest, htake]
          simp only [hw, if_true]
        rw [step_of_log _ hstep h]
        obtain ⟨hr, -, -, hqueue, -⟩ := s.calculation.takeOutcome_spec s.calculation.queue
        rw [htake] at hr hqueue
        have hnone : c.queue ++ c.waiting = [] := by
          rw [hqueue rfl, List.isEmpty_iff.mp hw]
          rfl
        refine moved_looked htake c.finalLog hgoing id fun report hreport => ?_
        cases hreport
        exact ⟨rfl, hr.trans hrest, hnone⟩
      · have hstep : s.calculation.step s.dispatcher = (c, none) := by
          unfold Calculation.step
          rw [hstage, hrest, htake]
          simp only [hw, Bool.false_eq_true, if_false]
        rw [step_of_none hstep h]
        exact hc ▸ moved_looked htake [] hgoing id (by simp)

/-- The queue was full: an outcome is waited for, or a moment. -/
theorem moved_full (hstage : s.calculation.stage = .full) : Moved s .step [] [] s.step := by
  have hgoing : ¬ s.calculation.Aborted := not_aborted hstage id
  have h : s.accepting = [] := accepting_of_stage (by rw [hstage]; simp)
  cases htake : s.calculation.takeOutcome s.calculation.queue with
  | mk found c =>
    have hc : { c with stage := .full } = c := by
      rw [← hstage, ← stage_of_takeOutcome htake]
    cases found with
    | some o =>
      have hstep : s.calculation.step s.dispatcher
          = ({ c with stage := .submitting }, some (.none s.dispatcher)) := by
        unfold Calculation.step
        rw [hstage, htake]
      rw [step_of_log [] hstep h]
      exact moved_looked htake [] hgoing id (by simp)
    | none =>
      by_cases hw : c.waiting.isEmpty
      · have hstep : s.calculation.step s.dispatcher
            = ({ c with stage := .pausing (s.dispatcher.now + Calculation.pause) }, none) := by
          unfold Calculation.step
          rw [hstage, htake]
          simp only [hw, if_true]
        rw [step_of_none hstep h]
        exact moved_looked htake [] hgoing id (by simp)
      · have hstep : s.calculation.step s.dispatcher = (c, none) := by
          unfold Calculation.step
          rw [hstage, htake]
          simp only [hw, Bool.false_eq_true, if_false]
        rw [step_of_none hstep h]
        exact hc ▸ moved_looked htake [] hgoing id (by simp)

theorem moved_pausing {till : Nat} (hstage : s.calculation.stage = .pausing till) :
    Moved s .step [] [] s.step := by
  have h : s.accepting = [] := accepting_of_stage (by rw [hstage]; simp)
  by_cases htill : till ≤ s.dispatcher.now
  · have hstep : s.calculation.step s.dispatcher
        = ({ s.calculation with stage := .submitting }, some (.none s.dispatcher)) := by
      unfold Calculation.step
      simp only [hstage, if_pos htill]
    rw [step_of_log [] hstep h]
    exact .looked [] rfl rfl (fun _ h => .inl h) (not_aborted hstage id) id (by simp)
  · have hstep : s.calculation.step s.dispatcher = (s.calculation, none) := by
      unfold Calculation.step
      simp only [hstage, if_neg htill]
    rw [step_of_none hstep h, List.map_nil, List.append_nil]
    exact .still .step

theorem moved_step : ∃ os, Moved s .step (s.granted .step) os s.step := by
  have none_granted (h : ¬ s.calculation.stage matches .submitting) : s.granted .step = [] := by
    rw [granted, accepting_of_stage h, List.map_nil]
  cases hstage : s.calculation.stage with
  | submitting =>
    cases hrest : s.calculation.rest with
    | cons t ts => exact moved_submit hstage hrest
    | nil =>
      rw [granted, accepting_of_rest hrest, List.map_nil]
      exact ⟨[], moved_collect hstage hrest⟩
  | full =>
    rw [none_granted (by rw [hstage]; simp)]
    exact ⟨[], moved_full hstage⟩
  | pausing till =>
    rw [none_granted (by rw [hstage]; simp)]
    exact ⟨[], moved_pausing hstage⟩
  | cancelling left why =>
    rw [none_granted (by rw [hstage]; simp)]
    cases left with
    | nil =>
      obtain ⟨log, hs⟩ := step_ended hstage
      rw [hs]
      exact ⟨[], .ended log hstage⟩
    | cons k left =>
      obtain ⟨log, hs⟩ := step_cancelled hstage
      rw [hs]
      exact ⟨_, .cancelled log hstage⟩
  | finished result =>
    have hstep : s.calculation.step s.dispatcher = (s.calculation, none) := by
      unfold Calculation.step
      simp only [hstage]
    rw [none_granted (by rw [hstage]; simp),
      step_of_none hstep (accepting_of_stage (by rw [hstage]; simp)), List.map_nil, List.append_nil]
    exact ⟨[], .still .step⟩

theorem permits_of_allows (h : s.Allows m) : s.Permits m := by
  cases m with
  | others o => trivial
  | _ => exact h

theorem moved (h : s.Permits m) : ∃ os, Moved s m (s.granted m) os (s.move m) := by
  cases m with
  | step => exact moved_step
  | accept =>
    show ∃ os, Moved s .accept (s.granted .accept) os s.acceptNext
    obtain ⟨hstage, -, hnew⟩ := h
    unfold acceptNext granted
    cases hrest : s.calculation.rest with
    | nil => exact ⟨[], .still .accept⟩
    | cons t ts =>
      rw [hrest] at hnew
      exact ⟨_, .accepted hstage hrest (hnew t rfl)⟩
  | hear ticket o => exact ⟨[], .heard h⟩
  | others o => exact ⟨[o], .others o⟩

/-- The dispatcher goes through the occurrences of a move; besides there are log lines. -/
theorem Moved.run (h : Moved s m new os s') :
    s'.dispatcher = (s.dispatcher.run os).next ∧
      facts s'.events = facts s.events ++ facts (s.dispatcher.run os).events := by
  have said (log : List LogLine) : facts (s.events ++ log.map .logged) = facts s.events ++ [] := by
    rw [facts_append, facts_logged]
  have one (o : Occurrence) : facts (s.dispatcher.run [o]).events
      = facts (s.dispatcher.undergo o).change.events := by
    rw [run_cons, facts_append]
    exact List.append_nil _
  cases h with
  | still => exact ⟨rfl, (List.append_nil _).symm⟩
  | looked log => exact ⟨rfl, said log⟩
  | submitted => exact ⟨rfl, by rw [one, ← facts_append]; rfl⟩
  | refused log => exact ⟨rfl, said log⟩
  | @cancelled k left why log stage =>
    refine ⟨rfl, ?_⟩
    rw [one]
    show facts (s.events ++ (_ ++ log.map .logged)) = _
    rw [facts_append, facts_append, facts_logged, List.append_nil]
    rfl
  | ended log => exact ⟨rfl, said log⟩
  | @accepted t ts stage rest new =>
    have hpart : s.dispatcher.undergo (.own (.part (.accept t)))
        = .whole (.none (s.dispatcher.enqueueNew t)) := by
      show Settled.whole (.none (if s.dispatcher.tasks.contains t.id then _ else _)) = _
      rw [(Table.contains_eq_false_iff _ _).mpr new]
      rfl
    rw [one, run_cons, hpart]
    exact ⟨rfl, (List.append_nil _).symm⟩
  | heard => exact ⟨rfl, (List.append_nil _).symm⟩
  | others o => exact ⟨rfl, by rw [one, ← facts_append]; rfl⟩

theorem Moved.sent (h : Moved s m new os s') {e : Event} (he : e ∈ facts s.events) :
    e ∈ facts s'.events := by
  rw [h.run.2]
  exact List.mem_append_left _ he

theorem Moved.split (h : Moved s m new os s') :
    s'.accepted.map (·.id) = s.accepted.map (·.id) ++ new.map (·.task) ∧
      s'.accepted ++ s'.calculation.rest = s.accepted ++ s.calculation.rest := by
  cases h with
  | looked log rest => exact ⟨(List.append_nil _).symm, congrArg (s.accepted ++ ·) rest⟩
  | @submitted t ts k stage rest ok =>
    have hk : k.task = t.id := by
      obtain ⟨e, log, hs⟩ | ⟨-, hs⟩ := s.dispatcher.submit_cases t
      · rw [hs] at ok
        cases ok
      · rw [hs] at ok
        exact congrArg Ticket.task (Except.ok.inj ok).symm
    refine ⟨?_, ?_⟩
    · show (s.accepted ++ [t]).map (·.id) = _
      rw [List.map_append, List.map_singleton, List.map_singleton, hk]
    · rw [rest]
      exact List.append_assoc _ _ _
  | @accepted t ts stage rest =>
    refine ⟨List.map_append, ?_⟩
    rw [rest]
    exact List.append_assoc _ _ _
  | _ => exact ⟨(List.append_nil _).symm, rfl⟩

theorem run_split {ms : List Move} (possible : s.Possible ms) :
    (s.run ms).accepted.map (·.id) = s.accepted.map (·.id) ++ (s.tickets ms).map (·.task) ∧
      (s.run ms).accepted ++ (s.run ms).calculation.rest = s.accepted ++ s.calculation.rest := by
  induction ms generalizing s with
  | nil => exact ⟨(List.append_nil _).symm, rfl⟩
  | cons m ms ih =>
    obtain ⟨os, hm⟩ := moved possible.1
    obtain ⟨hids, htasks⟩ := hm.split
    obtain ⟨hids', htasks'⟩ := ih possible.2
    refine ⟨hids'.trans ?_, htasks'.trans htasks⟩
    rw [hids, tickets, List.map_append, List.append_assoc]

/-! ## giving up -/

omit [Add F] [Sub F] [Mul F] [Div F] [Scalar F] in
theorem aborted_of_cancelling {c : Calculation F} {left : List Ticket} {why : DispatchError}
    (h : c.stage = .cancelling left why) : c.Aborted := by
  unfold Calculation.Aborted
  rw [h]
  trivial

omit [Add F] [Sub F] [Mul F] [Div F] [Scalar F] in
theorem aborted_of_failed {c : Calculation F} {why : DispatchError}
    (h : c.stage = .finished (.error why)) : c.Aborted := by
  unfold Calculation.Aborted
  rw [h]
  trivial

/-- Whoever gave up does not take it back. -/
theorem Moved.aborted (h : Moved s m new os s') (ha : s.calculation.Aborted) :
    s'.calculation.Aborted := by
  cases h with
  | looked _ _ _ _ going => exact absurd ha going
  | submitted stage => exact absurd ha (not_aborted stage id)
  | refused _ _ going => exact absurd ha going
  | cancelled => trivial
  | ended => trivial
  | _ => exact ha

omit [Sub F] [Mul F] in
/-- A task that is live is refused, and the calculation gives up. -/
theorem step_duplicate {t : Task} {ts : List Task} (hstage : s.calculation.stage = .submitting)
    (hrest : s.calculation.rest = t :: ts) (going : s.dispatcher.stopped = false)
    (live : s.dispatcher.tasks.contains t.id = true) :
    s.step = { s with calculation := { s.calculation with
      stage := .cancelling s.calculation.outstanding (.duplicateTask t.id) } } := by
  have hsubmit : s.dispatcher.submit t = s.dispatcher.turnDown (.duplicateTask t.id) [] := by
    unfold Dispatcher.submit
    rw [going, live]
    rfl
  have hstep : s.calculation.step s.dispatcher
      = ({ s.calculation with
            stage := .cancelling s.calculation.outstanding (.duplicateTask t.id) },
        some (.none s.dispatcher)) := by
    unfold Calculation.step
    rw [hstage, hrest]
    simp only [Calculation.submitNext, hsubmit, turnDown]
    rfl
  have haccepting : s.accepting = [] := by
    simp only [accepting, hstage, hrest, hsubmit, turnDown]
  rw [step_of_log [] hstep haccepting, List.map_nil, List.append_nil]

omit [Add F] [Sub F] [Mul F] [Div F] [Scalar F] in
/-- The tickets are cancelled by their numbers, the greatest first. -/
theorem outstanding_eq {c : Calculation F} {ks : List Ticket}
    (order : ks.Pairwise fun a b => b.number < a.number) (same : ks.Perm (c.queue ++ c.waiting)) :
    c.outstanding = ks := by
  have hperm : c.outstanding.Perm ks := (List.mergeSort_perm _ _).trans same.symm
  have hsorted : c.outstanding.Pairwise fun a b => b.number ≤ a.number := by
    have h : c.outstanding.Pairwise fun a b => decide (b.number ≤ a.number) = true := by
      refine List.pairwise_mergeSort (fun a b c hab hbc => ?_) (fun a b => ?_) _
      · rw [decide_eq_true_iff] at hab hbc ⊢
        exact Nat.le_trans hbc hab
      · rw [Bool.or_eq_true, decide_eq_true_iff, decide_eq_true_iff]
        exact Nat.le_total b.number a.number
    exact h.imp of_decide_eq_true
  have hnumbers : (ks.map (·.number)).Nodup :=
    List.pairwise_map.mpr (order.imp fun h => Nat.ne_of_gt h)
  refine hperm.eq_of_pairwise (fun a b ha hb hab hba => ?_) hsorted (order.imp Nat.le_of_lt)
  exact List.inj_on_of_nodup_map hnumbers (hperm.mem_iff.mp ha) hb (Nat.le_antisymm hba hab)

/-- A calculation that gives up cancels its tickets one after the other, and fails. -/
theorem run_cancelling {left : List Ticket} {why : DispatchError}
    (h : s.calculation.stage = .cancelling left why) :
    let c := s.dispatcher.run (left.map fun k => .own (.cancel k.task))
    let s' := s.run (List.replicate (left.length + 1) .step)
    s'.calculation.stage = .finished (.error why) ∧ s'.dispatcher = c.next ∧
      facts s'.events = facts s.events ++ facts c.events := by
  induction left generalizing s with
  | nil =>
    obtain ⟨log, hs⟩ := step_ended h
    show s.step.calculation.stage = _ ∧ s.step.dispatcher = s.dispatcher ∧
      facts s.step.events = facts s.events ++ []
    rw [hs]
    exact ⟨rfl, rfl, by rw [facts_append, facts_logged]⟩
  | cons k left ih =>
    obtain ⟨log, hs⟩ := step_cancelled h
    have hstage : s.step.calculation.stage = .cancelling left why := by
      rw [hs]
      rfl
    have hnext : s.step.dispatcher = (s.dispatcher.cancel k.task).change.next := by
      rw [hs]
      rfl
    have hevents : facts s.step.events
        = facts s.events ++ facts (s.dispatcher.cancel k.task).change.events := by
      rw [hs]
      show facts (s.events ++ (_ ++ log.map .logged)) = _
      rw [facts_append, facts_append, facts_logged, List.append_nil]
    obtain ⟨hfailed, hrun, htold⟩ := ih hstage
    refine ⟨hfailed, hrun.trans ?_, htold.trans ?_⟩
    · rw [hnext]
      rfl
    · rw [hnext, hevents, List.append_assoc, ← facts_append]
      rfl

/-- A calculation fails that is to submit a task that is live. -/
theorem run_duplicate {t : Task} {ts : List Task} {left : List Ticket}
    (hstage : s.calculation.stage = .submitting) (hrest : s.calculation.rest = t :: ts)
    (going : s.dispatcher.stopped = false) (live : s.dispatcher.tasks.contains t.id = true)
    (held : s.calculation.outstanding = left) :
    let c := s.dispatcher.run (left.map fun k => .own (.cancel k.task))
    let s' := s.run (List.replicate (left.length + 2) .step)
    s'.calculation.stage = .finished (.error (.duplicateTask t.id)) ∧ s'.dispatcher = c.next ∧
      facts s'.events = facts s.events ++ facts c.events := by
  subst held
  have hfails := run_cancelling (s := { s with calculation := { s.calculation with
    stage := .cancelling s.calculation.outstanding (.duplicateTask t.id) } }) rfl
  have hrun : s.run (List.replicate (s.calculation.outstanding.length + 2) .step)
      = s.step.run (List.replicate (s.calculation.outstanding.length + 1) .step) := rfl
  rw [hrun, step_duplicate hstage hrest going live]
  exact hfails

end HazardDispatch.Session
