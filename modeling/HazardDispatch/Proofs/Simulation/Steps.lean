import HazardDispatch.Proofs.Dispatch.Account
import HazardDispatch.Proofs.Dispatch.Actions
import HazardDispatch.Proofs.Simulation.Changes
import HazardDispatch.Simulation.Step

/-!
# What a simulation does to its dispatcher

A simulation comes by the state of its dispatcher in many places: where workers answer, where alarms
go off, where calculations go on, where somebody asks for something. `s.GoesOn meddles s'` follows
the dispatcher, and what is seen of it, from `s` to `s'`; everything that a simulation does is of that
kind (`goesOn_perform`, `goesOn_step`). With `meddles`, tasks may be announced to the accounts from
outside, and the dispatcher may be let go of.

Without that, a dispatcher which somebody holds goes through a run, and the results and tasks given up
that are seen are those of its events (`GoesOn.run`). So what holds after all runs holds of all that a
simulation shows (`dispatcher_play`).
-/

namespace HazardDispatch

/-- What is seen since of results and of tasks given up is that of the events. -/
structure Observed.Shows (o o' : Observed) (es : List Event) : Prop where
  forwarded : o'.forwarded = o.forwarded ++ forwards es
  abandoned : o'.abandoned = o.abandoned ++ (abandons es).map fun x => (x.1.id, x.2)

namespace Observed

theorem shows_nil (o : Observed) : o.Shows o [] :=
  ⟨(List.append_nil _).symm, (List.append_nil _).symm⟩

theorem Shows.append {o o' o'' : Observed} {es es' : List Event} (h : o.Shows o' es)
    (h' : o'.Shows o'' es') : o.Shows o'' (es ++ es') := by
  constructor
  · rw [h'.forwarded, h.forwarded, forwards_append, List.append_assoc]
  · rw [h'.abandoned, h.abandoned, abandons_append, List.map_append, List.append_assoc]

theorem Shows.of_facts {o o' : Observed} {es es' : List Event} (h : o.Shows o' es)
    (hes : facts es = facts es') : o.Shows o' es' := by
  constructor
  · rw [h.forwarded, ← forwards_facts, hes, forwards_facts]
  · rw [h.abandoned, ← abandons_facts, hes, abandons_facts]

end Observed

/-- The step goes past the dispatcher to its accounts, or lets go of it. -/
def Step.meddles : Step → Bool
  | expect _ => true
  | calculate _ => true
  | planAndCalculate _ _ _ _ => true
  | dropDispatcher => true
  | _ => false

namespace Simulation

/-! ## changes -/

/-- The dispatcher is taken over from a change. -/
structure Takes (s : Simulation) (c : Change (Accounts Float)) (s' : Simulation) : Prop where
  held : s'.held = s.held
  dispatcher : s'.dispatcher = c.next
  shows : s.seen.Shows s'.seen c.events

inductive GoesOn (meddles : Prop) : Simulation → Simulation → Prop where
  | undergoes {s s' : Simulation} {c : Change (Accounts Float)} (change : s.dispatcher.Undergoes c)
      (takes : s.Takes c s') : GoesOn meddles s s'
  /-- Nobody holds the dispatcher any more, and it is gone. -/
  | ends {s s' : Simulation} (free : s.held = false) (takes : s.Takes s.dispatcher.discard s') :
      GoesOn meddles s s'
  | announces {s s' : Simulation} (h : meddles) (n : Nat)
      (takes : s.Takes (.none { s.dispatcher with sink := s.dispatcher.sink.expect n }) s') :
      GoesOn meddles s s'
  | releases (h : meddles) (s : Simulation) : GoesOn meddles s { s with held := false }
  | trans {s s' s'' : Simulation} (first : GoesOn meddles s s') (rest : GoesOn meddles s' s'') :
      GoesOn meddles s s''

/-- The dispatcher is left alone, and nothing of it is seen. -/
def Beside (s s' : Simulation) : Prop := s.Takes (.none s.dispatcher) s'

variable {meddles : Prop} {s s' s'' : Simulation} {c : Change (Accounts Float)}

theorem beside_of_eq (held : s'.held = s.held) (dispatcher : s'.dispatcher = s.dispatcher)
    (forwarded : s'.seen.forwarded = s.seen.forwarded)
    (abandoned : s'.seen.abandoned = s.seen.abandoned) : s.Beside s' :=
  ⟨held, dispatcher, by rw [forwarded]; exact (List.append_nil _).symm,
    by rw [abandoned]; exact (List.append_nil _).symm⟩

theorem Beside.goesOn (h : s.Beside s') : GoesOn meddles s s' :=
  .undergoes (Dispatcher.undergoes_none _) h

theorem goesOn_of_eq (held : s'.held = s.held) (dispatcher : s'.dispatcher = s.dispatcher)
    (forwarded : s'.seen.forwarded = s.seen.forwarded)
    (abandoned : s'.seen.abandoned = s.seen.abandoned) : GoesOn meddles s s' :=
  (beside_of_eq held dispatcher forwarded abandoned).goesOn

theorem GoesOn.refl (s : Simulation) : GoesOn meddles s s := goesOn_of_eq rfl rfl rfl rfl

theorem GoesOn.mono {meddles' : Prop} (h : GoesOn meddles s s') (hm : meddles → meddles') :
    GoesOn meddles' s s' := by
  induction h with
  | undergoes change takes => exact .undergoes change takes
  | ends free takes => exact .ends free takes
  | announces h n takes => exact .announces (hm h) n takes
  | releases h s => exact .releases (hm h) s
  | trans _ _ ih ih' => exact ih.trans ih'

theorem beside_enqueue (s : Simulation) (a : Activity) : s.Beside (s.enqueue a) :=
  beside_of_eq rfl rfl rfl rfl

theorem beside_say (s : Simulation) (log : List LogLine) : s.Beside (s.say log) :=
  beside_of_eq rfl rfl rfl rfl

theorem beside_schedule (s : Simulation) (time : Nat) (a : Activity) :
    s.Beside (s.schedule time a) := by
  unfold schedule
  split
  · exact s.beside_enqueue a
  · exact beside_of_eq rfl rfl rfl rfl

theorem beside_putWork (s : Simulation) (name : Nat) (w : Work) : s.Beside (s.putWork name w) :=
  beside_of_eq rfl rfl rfl rfl

theorem beside_finish (s : Simulation) (name : Nat) (r : JobResult) : s.Beside (s.finish name r) :=
  beside_of_eq rfl rfl rfl rfl

theorem Takes.beside (h : s.Takes c s') (h' : s'.Beside s'') : s.Takes c s'' := by
  refine ⟨h'.held.trans h.held, h'.dispatcher.trans h.dispatcher, ?_⟩
  have hshows := h.shows.append h'.shows
  rwa [show (Change.none s'.dispatcher).events = [] from rfl, List.append_nil] at hshows

theorem beside_deliverOutcome (s : Simulation) (ticket : Nat) (o : Outcome) :
    s.Beside (s.deliverOutcome ticket o) := by
  unfold deliverOutcome
  dsimp only
  generalize hleft : (if s.tickets.any (·.number == ticket) then _ else s) = s'
  have h : s.Beside s' := by
    rw [← hleft]
    split
    · exact beside_of_eq rfl rfl rfl rfl
    · exact beside_of_eq rfl rfl rfl rfl
  split
  · exact h
  · split
    · exact h.beside (beside_finish _ _ _)
    · exact (h.beside (beside_putWork _ _ _)).beside (beside_enqueue _ _)

/-! ## taking over -/

theorem takes_follow (s : Simulation) (e : Event) :
    s.Takes ⟨s.dispatcher, [e]⟩ (s.follow e) := by
  cases e with
  | launched n a =>
    have h : s.Beside (s.follow (.launched n a)) :=
      (s.beside_schedule _ _).beside (beside_enqueue _ _)
    exact ⟨h.held, h.dispatcher, h.shows.forwarded, h.shows.abandoned⟩
  | resolved n o =>
    have h := s.beside_deliverOutcome n o
    exact ⟨h.held, h.dispatcher, h.shows.forwarded, h.shows.abandoned⟩
  | forwarded n r => exact ⟨rfl, rfl, rfl, (List.append_nil _).symm⟩
  | abandoned n t why => exact ⟨rfl, rfl, (List.append_nil _).symm, rfl⟩
  | cancelSignal w t => exact ⟨rfl, rfl, (List.append_nil _).symm, (List.append_nil _).symm⟩
  | logged l => exact ⟨rfl, rfl, (List.append_nil _).symm, (List.append_nil _).symm⟩

theorem takes_foldl_follow (s : Simulation) (es : List Event) :
    s.Takes ⟨s.dispatcher, es⟩ (es.foldl follow s) := by
  induction es generalizing s with
  | nil => exact ⟨rfl, rfl, s.seen.shows_nil⟩
  | cons e es ih =>
    have hfirst := s.takes_follow e
    have hrest := ih (s.follow e)
    exact ⟨hrest.held.trans hfirst.held, hrest.dispatcher.trans hfirst.dispatcher,
      hfirst.shows.append hrest.shows⟩

theorem takes_absorb (s : Simulation) (c : Change (Accounts Float)) : s.Takes c (s.absorb c) := by
  have hall : ∀ s' : Simulation, s'.held = s.held → s'.dispatcher = c.next → s'.seen = s.seen →
      s.Takes c (c.events.foldl follow s') := by
    intro s' held dispatcher seen
    have h := s'.takes_foldl_follow c.events
    exact ⟨h.held.trans held, h.dispatcher.trans dispatcher, seen ▸ h.shows⟩
  unfold absorb
  dsimp only
  split
  · exact hall _ rfl rfl rfl
  · exact hall _ rfl rfl rfl

theorem goesOn_absorb (h : s.dispatcher.Undergoes c) : GoesOn meddles s (s.absorb c) :=
  .undergoes h (s.takes_absorb c)

theorem goesOn_collect (s : Simulation) : GoesOn meddles s s.collect := by
  unfold collect
  split
  · exact .refl s
  · next h =>
    have hfree : s.held = false := by
      cases hheld : s.held with
      | false => rfl
      | true => simp [hheld] at h
    exact .ends hfree (s.takes_absorb _)

/-! ## activities -/

theorem goesOn_answered (s : Simulation) (a : Attempt) (w : WorkerAnswer) :
    GoesOn meddles s (s.answered a w) :=
  ((s.beside_say w.log).goesOn.trans
    (goesOn_absorb (s.dispatcher.undergoes_occurrence (.own (.answer a w.reply))))).trans
    (goesOn_collect _)

theorem goesOn_probeRound (s : Simulation) : GoesOn meddles s s.probeRound := by
  let ask (h : WorkerHandle) : ProbeAnswer :=
    (s.probeAnswers.get? h.workerId).getD (.ok (.idle h.workerId.text))
  have htakes := s.takes_absorb (s.dispatcher.withReply (s.dispatcher.pool.probeRound ask))
  exact .undergoes (s.dispatcher.undergoes_probeRound ask)
    ⟨htakes.held, htakes.dispatcher, htakes.shows.forwarded, htakes.shows.abandoned⟩

theorem goesOn_runCalculation (name n : Nat) (s : Simulation) :
    GoesOn meddles s (runCalculation name n s) := by
  induction n generalizing s with
  | zero => exact .refl s
  | succ n ih =>
    unfold runCalculation
    split
    · exact .refl s
    · next c _ =>
      have hput := s.beside_putWork name (.calculation (c.step s.dispatcher).1)
      have habsorb {change : Change (Accounts Float)} (h : (c.step s.dispatcher).2 = some change) :
          GoesOn meddles s
            ((s.putWork name (.calculation (c.step s.dispatcher).1)).absorb change) :=
        hput.goesOn.trans (goesOn_absorb (Calculation.undergoes_step h))
      dsimp only
      split
      · next h _ => exact (habsorb h).trans (beside_finish _ _ _).goesOn
      · next h _ => exact (habsorb h).trans (ih _)
      · exact hput.goesOn.trans (beside_schedule _ _ _).goesOn
      · exact hput.goesOn

theorem goesOn_resume (s : Simulation) (j : Job) : GoesOn meddles s (s.resume j) := by
  unfold resume
  split
  · exact goesOn_runCalculation _ _ s
  · dsimp only
    split
    · exact (s.beside_finish _ _).goesOn
    · exact (s.beside_schedule _ _).goesOn
  · exact .refl s

/-- Whatever is due, doing it is one of these. -/
theorem goesOn_perform (s : Simulation) (a : Activity) : GoesOn meddles s (s.perform a) := by
  cases a with
  | notice => exact goesOn_absorb (s.dispatcher.undergoes_occurrence (.own .wake))
  | send a =>
    have hsent : s.Beside (s.see fun o => { o with sent := o.sent ++ [a] }) :=
      beside_of_eq rfl rfl rfl rfl
    refine hsent.goesOn.trans ?_
    unfold perform
    dsimp only
    split
    · exact .refl _
    · split
      · exact goesOn_answered _ _ _
      · exact (beside_schedule _ _ _).goesOn
  | answer a w => exact s.goesOn_answered a w
  | deadline launch =>
    unfold perform
    dsimp only
    split
    · exact .refl s
    · next t _ => exact goesOn_absorb (s.dispatcher.undergoes_occurrence (.own (.deadline t)))
  | signal w t =>
    have hseen : s.Beside (s.see fun o => { o with signals := o.signals ++ [(w.workerId, t)] }) :=
      beside_of_eq rfl rfl rfl rfl
    refine hseen.goesOn.trans ?_
    unfold perform
    dsimp only
    split
    · exact (beside_say _ _).goesOn
    · exact .refl _
  | probe n =>
    unfold perform
    dsimp only
    split
    · exact s.goesOn_probeRound.trans (beside_schedule _ _ _).goesOn
    · exact .refl s
  | resume name =>
    unfold perform
    dsimp only
    split
    · exact .refl s
    · exact s.goesOn_resume _

theorem goesOn_settleWithin (n : Nat) (s : Simulation) : GoesOn meddles s (settleWithin n s) := by
  induction n generalizing s with
  | zero => exact .refl s
  | succ n ih =>
    unfold settleWithin
    split
    · exact .refl s
    · next a rest _ =>
      have htaken : s.Beside { s with queue := rest } := beside_of_eq rfl rfl rfl rfl
      exact (htaken.goesOn.trans (goesOn_perform _ a)).trans (ih _)

theorem goesOn_settle (s : Simulation) : GoesOn meddles s s.settle := goesOn_settleWithin _ s

/-! ## time -/

/-- Time passes as far as the clock goes forward. -/
theorem goesOn_moveTo (s : Simulation) (time : Nat) : GoesOn meddles s (s.moveTo time) := by
  have hnow : s.now + (time - s.now) = max s.now time := by omega
  have hpass := s.dispatcher.undergoes_occurrence (.own (.pass (time - s.now)))
  have htakes : s.Takes (s.dispatcher.undergo (.own (.pass (time - s.now)))).change { s with
      dispatcher := { s.dispatcher with now := max s.now time }
      alarms := (s.alarms.partition fun a => decide (a.1 ≤ time)).2
      queue := s.queue ++ (s.alarms.partition fun a => decide (a.1 ≤ time)).1.map (·.2) } := by
    refine ⟨rfl, ?_, s.seen.shows_nil⟩
    rw [← hnow]
    rfl
  exact (GoesOn.undergoes hpass htakes).trans (goesOn_settle _)

theorem goesOn_advanceWithin (n time : Nat) (s : Simulation) :
    GoesOn meddles s (advanceWithin n time s) := by
  induction n generalizing s with
  | zero => exact s.goesOn_moveTo time
  | succ n ih =>
    unfold advanceWithin
    split
    · exact s.goesOn_moveTo time
    · split
      · exact (s.goesOn_moveTo _).trans (ih _)
      · exact s.goesOn_moveTo time

/-! ## steps -/

theorem beside_startJob (s : Simulation) (name : Nat) (w : Work) : s.Beside (s.startJob name w) :=
  beside_of_eq rfl rfl rfl rfl

theorem goesOn_startCalculation (s : Simulation) (name : Nat) (ts : List Task) :
    GoesOn True s (s.startCalculation name ts) := by
  have htakes : s.Takes
      (.none { s.dispatcher with sink := s.dispatcher.sink.expect ts.length })
      { s with dispatcher := (Calculation.ofTasks ts).begin s.dispatcher } :=
    ⟨rfl, rfl, s.seen.shows_nil⟩
  exact (GoesOn.announces trivial ts.length htakes).trans (beside_startJob _ _ _).goesOn

theorem goesOn_whenHeld (s : Simulation) {f : Simulation → StepAnswer × Simulation}
    (h : GoesOn meddles s (f s).2) : GoesOn meddles s (s.whenHeld f).2 := by
  unfold whenHeld
  split
  · exact h
  · exact .refl s

theorem beside_hold (s : Simulation) (ts : List Ticket) : s.Beside (s.hold ts) :=
  beside_of_eq rfl rfl rfl rfl

theorem goesOn_submit (s : Simulation) (name : Nat) (t : Task) :
    GoesOn meddles s (s.begin name (.submit t)).2 := by
  refine s.goesOn_whenHeld ?_
  have h := s.dispatcher.undergoes_occurrence (.own (.submit t))
  dsimp only
  split
  · next ticket _ => exact (s.beside_hold [ticket]).goesOn.trans (goesOn_absorb h)
  · exact goesOn_absorb h

theorem goesOn_submitAll (s : Simulation) (name : Nat) (ts : List Task) :
    GoesOn meddles s (s.begin name (.submitAll ts)).2 := by
  refine s.goesOn_whenHeld ?_
  have h := s.dispatcher.undergoes_submitAll ts
  dsimp only
  split
  · next tickets _ => exact (s.beside_hold tickets).goesOn.trans (goesOn_absorb h)
  · exact goesOn_absorb h

theorem goesOn_cancel (s : Simulation) (name : Nat) (t : TaskId) :
    GoesOn meddles s (s.begin name (.cancel t)).2 := by
  refine s.goesOn_whenHeld ?_
  have h := s.dispatcher.undergoes_occurrence (.own (.cancel t))
  dsimp only
  split
  · exact goesOn_absorb h
  · exact goesOn_absorb h

theorem beside_respond (s : Simulation) (name call : Nat)
    (reply : Attempt → Except TransportError ExecuteResponse) :
    s.Beside (s.begin name (.respond call reply)).2 := by
  unfold begin
  dsimp only
  split
  · exact beside_enqueue _ _
  · exact beside_of_eq rfl rfl rfl rfl

theorem beside_stopProber (s : Simulation) (name : Nat) :
    s.Beside (s.begin name .stopProber).2 := by
  unfold begin
  dsimp only
  split
  · exact beside_of_eq rfl rfl rfl rfl
  · exact beside_of_eq rfl rfl rfl rfl

theorem beside_dropTicket (s : Simulation) (name : Nat) (t : TaskId) :
    s.Beside (s.begin name (.dropTicket t)).2 := by
  unfold begin
  dsimp only
  split
  · exact beside_of_eq rfl rfl rfl rfl
  · exact beside_of_eq rfl rfl rfl rfl

theorem beside_wait (s : Simulation) (name : Nat) (t : TaskId) :
    s.Beside (s.begin name (.wait t)).2 := by
  unfold begin
  dsimp only
  split
  · exact beside_of_eq rfl rfl rfl rfl
  · exact beside_of_eq rfl rfl rfl rfl

theorem goesOn_planAndCalculate (s : Simulation) (name : Nat) (groups : String)
    (op : Operation) (tasks : Nat) (seed : UInt64) :
    GoesOn True s (s.begin name (.planAndCalculate groups op tasks seed)).2 := by
  unfold begin
  dsimp only
  split
  · exact .refl s
  · split
    · exact .refl s
    · exact (beside_say _ _).goesOn.trans (goesOn_startCalculation _ _ _)

/-- Whatever somebody asks for, it is one of these. -/
theorem goesOn_begin (s : Simulation) (name : Nat) (a : Step) :
    GoesOn (a.meddles = true) s (s.begin name a).2 := by
  cases a with
  | pool c => exact goesOn_absorb (s.dispatcher.undergoes_reply c rfl)
  | get w => exact .refl s
  | submit t => exact s.goesOn_submit name t
  | submitAll ts => exact s.goesOn_submitAll name ts
  | cancel t => exact s.goesOn_cancel name t
  | respond call reply => exact (s.beside_respond name call reply).goesOn
  | deliver r =>
    exact s.goesOn_whenHeld (goesOn_absorb (s.dispatcher.undergoes_occurrence (.own (.deliver r))))
  | advance millis => exact goesOn_advanceWithin _ _ s
  | setProbe w answer => exact goesOn_of_eq rfl rfl rfl rfl
  | probeRound => exact s.goesOn_probeRound
  | startProber => exact goesOn_of_eq rfl rfl rfl rfl
  | stopProber => exact (s.beside_stopProber name).goesOn
  | shutdown =>
    exact .undergoes (s.dispatcher.undergoes_occurrence (.own .shutdown)) ⟨rfl, rfl, s.seen.shows_nil⟩
  | dropTicket t => exact (s.beside_dropTicket name t).goesOn
  | wait t => exact (s.beside_wait name t).goesOn
  | dropDispatcher => exact (GoesOn.releases rfl s).trans (goesOn_collect _)
  | expect n => exact .announces rfl n ⟨rfl, rfl, s.seen.shows_nil⟩
  | report => exact .refl s
  | metrics => exact .refl s
  | http r => exact goesOn_absorb (s.dispatcher.undergoes_handle default r)
  | calculate ts => exact (s.goesOn_startCalculation name ts).mono fun _ => rfl
  | planAndCalculate groups op tasks seed =>
    exact (s.goesOn_planAndCalculate name groups op tasks seed).mono fun _ => rfl
  | gather least timeout => exact (s.beside_startJob _ _).goesOn
  | look => exact .refl s

theorem goesOn_step (s : Simulation) (name : Nat) (a : Step) :
    GoesOn (a.meddles = true) { s with seen := .nothing } (s.step name a).2 :=
  (goesOn_begin _ name a).trans (goesOn_settle _)

/-! ## runs -/

/-- A dispatcher that somebody holds, and leaves to itself, goes through a run. -/
theorem GoesOn.run (h : GoesOn False s s') (held : s.held = true) :
    s'.held = true ∧ ∃ os, s'.dispatcher = (s.dispatcher.run os).next ∧
      s.seen.Shows s'.seen (s.dispatcher.run os).events := by
  induction h with
  | undergoes change takes =>
    obtain ⟨os, hnext, hfacts⟩ := change
    exact ⟨takes.held.trans held, os, takes.dispatcher.trans hnext, takes.shows.of_facts hfacts⟩
  | ends free =>
    rw [held] at free
    cases free
  | announces h => exact h.elim
  | releases h => exact h.elim
  | trans _ _ ih ih' =>
    obtain ⟨held', os, hnext, hshows⟩ := ih held
    obtain ⟨held'', os', hnext', hshows'⟩ := ih' held'
    rw [hnext] at hnext' hshows'
    refine ⟨held'', os ++ os', ?_, ?_⟩
    · rw [Dispatcher.run_append]
      exact hnext'
    · rw [Dispatcher.run_append]
      exact hshows.append hshows'

/-- All steps of a list, each with the name of the job that it may start. -/
def play (s : Simulation) (as : List (Nat × Step)) : Simulation :=
  as.foldl (fun s a => (s.step a.1 a.2).2) s

/-- What is seen of a step is what its part of the run brings. -/
theorem step_run (held : s.held = true) {a : Step} (ha : a.meddles = false) (name : Nat) :
    (s.step name a).2.held = true ∧
      ∃ os, (s.step name a).2.dispatcher = (s.dispatcher.run os).next ∧
        (s.step name a).2.seen.forwarded = forwards (s.dispatcher.run os).events ∧
        (s.step name a).2.seen.abandoned
          = (abandons (s.dispatcher.run os).events).map fun x => (x.1.id, x.2) := by
  have hgoes : GoesOn False { s with seen := .nothing } (s.step name a).2 :=
    (s.goesOn_step name a).mono fun h => absurd (ha.symm.trans h) Bool.false_ne_true
  obtain ⟨held', os, hnext, hshows⟩ := hgoes.run held
  exact ⟨held', os, hnext, hshows.forwarded, hshows.abandoned⟩

/-- A simulated dispatcher has gone through a run. -/
theorem dispatcher_play (config : ControllerConfig) (respond : Attempt → Nat → Option WorkerAnswer)
    (deafWorkers : Bool) {as : List (Nat × Step)} (h : ∀ a ∈ as, a.2.meddles = false) :
    ∃ os, ((start config respond deafWorkers).play as).dispatcher
      = ((Dispatcher.start config (.empty config.topKSources)).run os).next := by
  have hall : ∀ s : Simulation, s.held = true →
      ∃ os, (s.play as).dispatcher = (s.dispatcher.run os).next := by
    induction as with
    | nil => exact fun s _ => ⟨[], rfl⟩
    | cons a as ih =>
      intro s held
      obtain ⟨held', os, hnext, -⟩ := step_run held (h a List.mem_cons_self) a.1
      obtain ⟨os', hrest⟩ := ih (fun a' ha' => h a' (List.mem_cons_of_mem _ ha')) _ held'
      refine ⟨os ++ os', ?_⟩
      rw [Dispatcher.run_append, Change.andThen, ← hnext]
      exact hrest
  exact hall _ rfl

/-! ## books -/

/-- The books are in order whatever is done to a simulation. -/
theorem GoesOn.filed (h : GoesOn meddles s s') (hd : s.dispatcher.Filed True) :
    s'.dispatcher.Filed True := by
  induction h with
  | undergoes change takes =>
    obtain ⟨os, hnext, -⟩ := change
    rw [takes.dispatcher, hnext]
    exact Dispatcher.run_filed_any os hd
  | ends _ takes =>
    rw [takes.dispatcher]
    exact ⟨.nil, fun _ => .gone List.not_mem_nil rfl rfl⟩
  | announces _ n takes =>
    rw [takes.dispatcher]
    exact hd.congr rfl rfl rfl rfl
  | releases => exact hd
  | trans _ _ ih ih' => exact ih' (ih hd)

theorem filed_play (config : ControllerConfig) (respond : Attempt → Nat → Option WorkerAnswer)
    (deafWorkers : Bool) (as : List (Nat × Step)) :
    ((start config respond deafWorkers).play as).dispatcher.Filed True := by
  have hall : ∀ s : Simulation, s.dispatcher.Filed True → (s.play as).dispatcher.Filed True := by
    induction as with
    | nil => exact fun s h => h
    | cons a as ih => exact fun s h => ih _ ((s.goesOn_step a.1 a.2).filed h)
  exact hall _ (Dispatcher.filed_start _ _)

end Simulation
end HazardDispatch
