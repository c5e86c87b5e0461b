import HazardDispatch.Proofs.Dispatch.Answers
import Mathlib.Data.List.Nodup

/-!
# Deadlines match attempts

A timer names its attempt by the task and the number, and neither is unique over a run: a refusal
gives the number back, and a task may be submitted again. What keeps a timer from an attempt that is
not its own is that whoever takes an attempt out of flight disarms its timer, and no other.

* `Untouched`   changes that neither start nor end an attempt;
* `Punctual`    only armed timers fire; they may do so at any time;
* `Clocked`     the armed timers are the deadlines of the attempts in flight, and are told apart by
                the number of the launch; all that happens keeps this (`history_clocked`);
* `TimesOut`    what it means for a timer to time out its own attempt.
-/

namespace HazardDispatch

def Event.launch? : Event → Option Attempt
  | .launched _ a => some a
  | _ => none

/-- The attempts that were started, in order. -/
def launches (es : List Event) : List Attempt := es.filterMap Event.launch?

@[simp] theorem launches_append (es es' : List Event) :
    launches (es ++ es') = launches es ++ launches es' := List.filterMap_append

theorem launches_facts (es : List Event) : launches (facts es) = launches es :=
  filterMap_facts (fun _ => rfl) es

namespace Dispatcher

variable {σ : Type}

/-- Only armed timers fire. -/
def Punctual (d : Dispatcher σ) : Happening → Prop
  | .occurs (.own (.deadline t)) => t ∈ d.timers
  | .occurs (.own (.part (.expire t))) => t ∈ d.timers
  | _ => True

def deadlineOf (d : Dispatcher σ) (t : TaskId) (a : Attempt) : Timer :=
  { launch := a.launch, task := t, attempt := a.number
    due := a.startedAt + d.config.taskTimeout }

/-- The armed timers are the deadlines of the attempts in flight. -/
structure Clocked (d : Dispatcher σ) : Prop where
  distinct : (d.timers.map (·.launch)).Nodup
  issued : ∀ t ∈ d.timers, t.launch < d.nextLaunch
  armed : ∀ t, t ∈ d.timers ↔ ∃ a, d.inFlight.get? t.task = some a ∧ t = d.deadlineOf t.task a

theorem clocked_start (config : ControllerConfig) (sink : σ) : (start config sink).Clocked where
  distinct := .nil
  issued _ ht := nomatch ht
  armed _ := ⟨fun ht => (nomatch ht), fun ⟨_, ha, _⟩ => (nomatch ha)⟩

/-! ## changes that neither start nor end an attempt -/

structure Untouched (d d' : Dispatcher σ) : Prop where
  config : d'.config = d.config
  inFlight : d'.inFlight = d.inFlight
  timers : d'.timers = d.timers
  nextLaunch : d'.nextLaunch = d.nextLaunch
  nextTicket : d'.nextTicket = d.nextTicket

variable {d d' d'' : Dispatcher σ} {halts : Prop}

theorem Untouched.refl (d : Dispatcher σ) : d.Untouched d := ⟨rfl, rfl, rfl, rfl, rfl⟩

theorem Untouched.trans (h : d.Untouched d') (h' : d'.Untouched d'') : d.Untouched d'' :=
  ⟨h'.config.trans h.config, h'.inFlight.trans h.inFlight, h'.timers.trans h.timers,
    h'.nextLaunch.trans h.nextLaunch, h'.nextTicket.trans h.nextTicket⟩

theorem untouched_cancel (hd : d.Filed halts) (t : TaskId) :
    d.Untouched (d.cancel t).change.next := by
  rw [(cancel_frame hd t).1]
  exact ⟨rfl, rfl, rfl, rfl, rfl⟩

theorem untouched_giveBackTaken (d : Dispatcher σ) (a : Attempt) (t : TaskId) :
    d.Untouched (d.giveBackTaken a t).next := by
  unfold giveBackTaken
  simp only [Change.andThen]
  split
  · exact ⟨rfl, rfl, rfl, rfl, rfl⟩
  · split <;> exact ⟨rfl, rfl, rfl, rfl, rfl⟩

section
variable [Sink σ]

theorem untouched_conclude (d : Dispatcher σ) (e : Entry) (r : TaskResult) :
    d.Untouched (d.conclude e r).next := by
  unfold conclude
  split
  · exact ⟨rfl, rfl, rfl, rfl, rfl⟩
  · split <;> exact ⟨rfl, rfl, rfl, rfl, rfl⟩

theorem untouched_applyResult (d : Dispatcher σ) (r : TaskResult) :
    d.Untouched (d.applyResult r).change.next := by
  unfold applyResult
  cases d.tasks.get? r.taskId with
  | none => exact .refl d
  | some e =>
    simp only []
    split
    · exact ⟨rfl, rfl, rfl, rfl, rfl⟩
    · have hrecorded : d.Untouched (d.recorded r) := ⟨rfl, rfl, rfl, rfl, rfl⟩
      cases hr : (Sink.record d.sink r).2 with
      | some o =>
        rw [account_of_halted hr]
        exact hrecorded
      | none =>
        rw [account_of_whole hr]
        exact hrecorded.trans (untouched_conclude _ e r)

theorem untouched_settle (d : Dispatcher σ) (a : Attempt) (r : TaskResult) :
    d.Untouched (d.settle a r).change.next := by
  obtain ⟨ls, h⟩ := d.settle_eq a r
  rw [h]
  have hfreed : d.Untouched { d with pool := d.pool.vacate a.worker.workerId (some r.status) } :=
    ⟨rfl, rfl, rfl, rfl, rfl⟩
  exact hfreed.trans (untouched_applyResult _ r)

end

/-! ## attempts that start and end -/

theorem Clocked.untouched (h : d.Clocked) (hu : d.Untouched d') : d'.Clocked where
  distinct := hu.timers ▸ h.distinct
  issued t ht := hu.nextLaunch ▸ h.issued t (hu.timers ▸ ht)
  armed t := by
    unfold deadlineOf
    rw [hu.timers, hu.inFlight, hu.config]
    exact h.armed t

/-- Timers are told apart by the launch. -/
theorem Clocked.unique (h : d.Clocked) {t t' : Timer} (ht : t ∈ d.timers) (ht' : t' ∈ d.timers)
    (hl : t.launch = t'.launch) : t = t' :=
  List.inj_on_of_nodup_map h.distinct ht ht' hl

theorem Clocked.deadline_mem (h : d.Clocked) {k : TaskId} {a : Attempt}
    (flying : d.inFlight.get? k = some a) : d.deadlineOf k a ∈ d.timers :=
  (h.armed (d.deadlineOf k a)).mpr ⟨a, flying, rfl⟩

/-- An attempt is taken out of flight, and its timer is disarmed. -/
theorem Clocked.without (h : d.Clocked) {k : TaskId} {a : Attempt}
    (flying : d.inFlight.get? k = some a) : (d.without k a.launch).Clocked where
  distinct := h.distinct.sublist (List.filter_sublist.map _)
  issued t ht := h.issued t (List.mem_filter.mp ht).1
  armed t := by
    show t ∈ d.timers.filter _ ↔ ∃ b, (d.inFlight.erase k).get? t.task = some b ∧ _
    rw [List.mem_filter, bne_iff_ne, h.armed, Table.get?_erase]
    constructor
    · rintro ⟨⟨b, hb, ht⟩, hne⟩
      have hk : t.task ≠ k := by
        intro hk
        rw [hk, flying] at hb
        obtain rfl := Option.some.inj hb
        exact hne (congrArg Timer.launch ht)
      rw [if_neg hk]
      exact ⟨b, hb, ht⟩
    · rintro ⟨b, hb, ht⟩
      split at hb
      · cases hb
      · next hk =>
        refine ⟨⟨b, hb, ht⟩, fun hl => hk ?_⟩
        have hmem : t ∈ d.timers := (h.armed t).mpr ⟨b, hb, ht⟩
        exact congrArg Timer.task (h.unique hmem (h.deadline_mem flying) hl)

/-- An attempt is started, and its timer is armed. -/
theorem Clocked.takeOff (h : d.Clocked) {a : Assignment} {e : Entry}
    (landed : d.inFlight.get? a.task = none) : (d.takeOff a e).Clocked where
  distinct := (numbered_concat (x := d.deadlineOf a.task (d.attemptOf a e)) h.distinct h.issued).1
  issued := (numbered_concat (x := d.deadlineOf a.task (d.attemptOf a e)) h.distinct h.issued).2
  armed t := by
    show t ∈ d.timers ++ [d.deadlineOf a.task (d.attemptOf a e)] ↔
      ∃ b, (d.inFlight.put a.task (d.attemptOf a e)).get? t.task = some b ∧ t = d.deadlineOf t.task b
    rw [List.mem_append, List.mem_singleton, h.armed, Table.get?_put]
    constructor
    · rintro (⟨b, hb, ht⟩ | rfl)
      · have hk : t.task ≠ a.task := by
          intro hk
          rw [hk, landed] at hb
          cases hb
        rw [if_neg hk]
        exact ⟨b, hb, ht⟩
      · exact ⟨d.attemptOf a e, if_pos rfl, rfl⟩
    · rintro ⟨b, hb, ht⟩
      split at hb
      · next hk =>
        obtain rfl := Option.some.inj hb
        exact .inr (hk ▸ ht)
      · exact .inl ⟨b, hb, ht⟩

section
variable [Sink σ]

theorem Clocked.pump (h : d.Clocked) (hd : d.Filed halts) : d.pump.next.Clocked :=
  pumpRounds_preserves (fun hd queued _ h => h.takeOff (hd.of_queued queued).choose_spec.2.1) _ hd h

theorem Clocked.andThen_pump {s : Settled σ} (h : s.change.next.Clocked)
    (hd : s.change.next.Filed halts) : (s.andThen Dispatcher.pump).change.next.Clocked := by
  unfold Settled.andThen
  split
  · exact h.pump hd
  · exact h

/-! ## each way for an attempt to end -/

theorem Clocked.receive (h : d.Clocked) (r : TaskResult) :
    (d.receive r).change.next.Clocked := by
  unfold Dispatcher.receive
  cases htake : d.take? r.taskId r.attempt.toNat with
  | none => exact h
  | some x =>
    obtain ⟨a, d'⟩ := x
    obtain ⟨flying, -, rfl⟩ := take?_eq_some htake
    exact (h.without flying).untouched (untouched_settle _ a r)

omit [Sink σ] in
theorem Clocked.giveBack (h : d.Clocked) (t : TaskId) (number : Nat) :
    (d.giveBack t number).next.Clocked := by
  unfold Dispatcher.giveBack
  cases htake : d.take? t number with
  | none => exact h
  | some x =>
    obtain ⟨a, d'⟩ := x
    obtain ⟨flying, -, rfl⟩ := take?_eq_some htake
    exact (h.without flying).untouched (untouched_giveBackTaken _ a t)

omit [Sink σ] in
theorem Clocked.of_armed (h : d.Clocked) {t : Timer} (ht : t ∈ d.timers) :
    ∃ a, d.inFlight.get? t.task = some a ∧ a.launch = t.launch ∧ a.number = t.attempt ∧
      (d.disarm t.launch).take? t.task t.attempt = some (a, d.without t.task t.launch) := by
  obtain ⟨a, flying, heq⟩ := (h.armed t).mp ht
  have hlaunch : a.launch = t.launch := (congrArg Timer.launch heq).symm
  have hnumber : a.number = t.attempt := (congrArg Timer.attempt heq).symm
  exact ⟨a, flying, hlaunch, hnumber, take?_of_flying (d := d.disarm t.launch) flying hnumber⟩

theorem expire_of_taken {t : Timer} {a : Attempt}
    (htake : (d.disarm t.launch).take? t.task t.attempt = some (a, d.without t.task t.launch)) :
    d.expire t = (d.without t.task t.launch).settle a (d.timeoutOf a t) := by
  unfold expire
  rw [htake]
  rfl

theorem deadline_of_taken {t : Timer} {x : Attempt × Dispatcher σ}
    (htake : (d.disarm t.launch).take? t.task t.attempt = some x) :
    (d.deadline t).change
      = ((d.expire t).andThen pump).change.saying [⟨.warn, "Task attempt timed out"⟩] := by
  unfold deadline expire
  simp only []
  rw [htake]
  rfl

theorem Clocked.expire (h : d.Clocked) {t : Timer} (ht : t ∈ d.timers) :
    (d.expire t).change.next.Clocked := by
  obtain ⟨a, flying, hlaunch, -, htake⟩ := h.of_armed ht
  have hwithout := h.without flying
  rw [hlaunch] at hwithout
  rw [expire_of_taken htake]
  exact hwithout.untouched (untouched_settle _ a _)

/-! ## whole operations -/

theorem Clocked.deliver (h : d.Clocked) (hd : d.Filed True) (r : TaskResult) :
    (d.deliver r).change.next.Clocked := by
  cases htake : d.take? r.taskId r.attempt.toNat with
  | none =>
    unfold Dispatcher.deliver
    rw [htake]
    exact h
  | some x =>
    rw [deliver_of_taken htake]
    exact (h.receive r).andThen_pump ((receive_follows hd fun _ => trivial).filed hd)

theorem Clocked.refuse (h : d.Clocked) (hd : d.Filed halts) (t : TaskId) (number : Nat) :
    (d.refuse t number).next.Clocked := by
  cases htake : d.take? t number with
  | none =>
    unfold Dispatcher.refuse
    rw [htake]
    exact h
  | some x =>
    rw [refuse_of_taken htake]
    exact (h.giveBack t number).pump ((giveBack_follows hd).filed hd)

theorem Clocked.deadline (h : d.Clocked) (hd : d.Filed True) {t : Timer} (ht : t ∈ d.timers) :
    (d.deadline t).change.next.Clocked := by
  obtain ⟨a, -, -, -, htake⟩ := h.of_armed ht
  rw [deadline_of_taken htake]
  exact (h.expire ht).andThen_pump ((expire_follows hd fun _ => trivial).filed hd)

omit [Sink σ] in
theorem Clocked.heard (h : d.Clocked) (a : Attempt) : (d.heard a).Clocked :=
  h.untouched ⟨rfl, rfl, rfl, rfl, rfl⟩

theorem Clocked.answer (h : d.Clocked) (hd : d.Filed True) (a : Attempt)
    (reply : Except TransportError ExecuteResponse) : (d.answer a reply).change.next.Clocked := by
  rw [answer_eq]
  cases (d.heard a).reading a reply with
  | some r => exact (h.heard a).deliver (filed_heard hd a) r
  | none => exact (h.heard a).refuse (filed_heard hd a) _ _

theorem Clocked.returned (h : d.Clocked) (a : Attempt)
    (reply : Except TransportError ExecuteResponse) : (d.returned a reply).change.next.Clocked := by
  unfold Dispatcher.returned
  cases (d.heard a).reading a reply with
  | some r => exact (h.heard a).receive r
  | none => exact (h.heard a).giveBack _ _

omit [Sink σ] in
theorem Clocked.enqueueNew (h : d.Clocked) (t : Task) : (d.enqueueNew t).Clocked :=
  ⟨h.distinct, h.issued, h.armed⟩

theorem Clocked.submit (h : d.Clocked) (hd : d.Filed halts) (t : Task) :
    (d.submit t).change.next.Clocked := by
  obtain ⟨e, log, hs⟩ | ⟨ht, hs⟩ := d.submit_cases t
  · rw [hs]
    exact h
  · rw [hs]
    exact (h.enqueueNew t).pump ((enqueueNew_turns ht).filed hd)

theorem Clocked.wake (h : d.Clocked) (hd : d.Filed halts) : d.wake.next.Clocked := by
  have hused : d.Untouched { d with pool := { d.pool with permit := false } } :=
    ⟨rfl, rfl, rfl, rfl, rfl⟩
  unfold Dispatcher.wake
  split
  · exact (h.untouched hused).pump (hd.withPool _)
  · exact h

theorem Clocked.doPart (h : d.Clocked) (hd : d.Filed True) {p : Part}
    (punctual : d.Punctual (.occurs (.own (.part p)))) : (d.doPart p).change.next.Clocked := by
  cases p with
  | accept t =>
    show Clocked (if d.tasks.contains t.id then d else d.enqueueNew t)
    split
    · exact h
    · exact h.enqueueNew t
  | receive r => exact h.receive r
  | giveBack t number => exact h.giveBack t number
  | expire t => exact h.expire punctual
  | assign t =>
    show (Settled.change (if t ∈ d.pending then _ else _)).next.Clocked
    split
    · next ht =>
      cases hat : d.assign? t with
      | none => exact h
      | some x =>
        obtain rfl := task_of_assign? hat
        obtain ⟨e, live, landed, -⟩ := hd.of_queued ht
        show (d.launch x).next.Clocked
        rw [launch_eq live]
        exact h.takeOff landed
    · exact h

theorem Clocked.undergo (h : d.Clocked) (hd : d.Filed True) {o : Occurrence}
    (punctual : d.Punctual (.occurs o)) : (d.undergo o).change.next.Clocked := by
  cases o with
  | pool c => exact h.untouched ⟨rfl, rfl, rfl, rfl, rfl⟩
  | own a =>
    cases a with
    | submit t => exact h.submit hd t
    | cancel t => exact h.untouched (untouched_cancel hd t)
    | deliver r => exact h.deliver hd r
    | refuse t number => exact h.refuse hd t number
    | deadline t => exact h.deadline hd punctual
    | answer a reply => exact h.answer hd a reply
    | wake => exact h.wake hd
    | part p => exact h.doPart hd punctual
    | takePermit => exact h.untouched ⟨rfl, rfl, rfl, rfl, rfl⟩
    | pass millis => exact h.untouched ⟨rfl, rfl, rfl, rfl, rfl⟩
    | shutdown => exact h.untouched ⟨rfl, rfl, rfl, rfl, rfl⟩

/-! ## runs -/

theorem history_clocked {hs : List Happening} (punctual : d.Throughout Punctual hs)
    (hd : d.Filed True) (h : d.Clocked) :
    (d.history hs).next.Filed True ∧ (d.history hs).next.Clocked := by
  refine history_keeps (P := Clocked) (fun {d x} hd hx h => ?_) punctual hd h
  cases x with
  | occurs o => exact h.undergo hd hx
  | returns a reply => exact h.returned a reply

/-- The launches so far have numbers of their own, and what is in flight was launched. -/
structure Flown (es : List Event) (d : Dispatcher σ) : Prop where
  distinct : ((launches es).map (·.launch)).Nodup
  issued : ∀ a ∈ launches es, a.launch < d.nextLaunch
  flying : ∀ t a, d.inFlight.get? t = some a → a ∈ launches es

theorem Turn.flown {u : Option TaskId} {es es₀ : List Event} (turn : Turn halts u d es d')
    (h : Flown es₀ d) : Flown (es₀ ++ es) d' := by
  have landed {t : TaskId} {d' : Dispatcher σ} (hl : launches es = [])
      (hn : d'.nextLaunch = d.nextLaunch) (hf : d'.inFlight = d.inFlight.erase t) :
      Flown (es₀ ++ es) d' := by
    have hsame : launches (es₀ ++ es) = launches es₀ := by
      rw [launches_append, hl, List.append_nil]
    refine ⟨hsame ▸ h.distinct, fun a ha => hn ▸ h.issued a (hsame ▸ ha), fun v b hb => ?_⟩
    rw [hf, Table.get?_erase] at hb
    split at hb
    · cases hb
    · exact hsame ▸ h.flying v b hb
  have same {d' : Dispatcher σ} (hl : launches es = []) (hn : d'.nextLaunch = d.nextLaunch)
      (hf : d'.inFlight = d.inFlight) : Flown (es₀ ++ es) d' := by
    have hsame : launches (es₀ ++ es) = launches es₀ := by
      rw [launches_append, hl, List.append_nil]
    exact ⟨hsame ▸ h.distinct, fun a ha => hn ▸ h.issued a (hsame ▸ ha),
      fun v b hb => hsame ▸ h.flying v b (hf ▸ hb)⟩
  cases turn with
  | quiet => exact same rfl rfl rfl
  | accepted => exact same rfl rfl rfl
  | withdrawn => exact same rfl rfl rfl
  | marked => exact same rfl rfl rfl
  | cancelled => exact landed rfl rfl rfl
  | returned => exact landed rfl rfl rfl
  | completed => exact landed rfl rfl rfl
  | retried => exact landed rfl rfl rfl
  | abandoned => exact landed rfl rfl rfl
  | halted => exact landed rfl rfl rfl
  | @launched _ a e queued assigned live =>
    have hnew : launches (es₀ ++ [.launched e.ticket (d.attemptOf a e)])
        = launches es₀ ++ [d.attemptOf a e] := launches_append _ _
    obtain ⟨distinct, issued⟩ := numbered_concat (x := d.attemptOf a e) h.distinct h.issued
    refine ⟨hnew ▸ distinct, hnew ▸ issued, fun v b hb => ?_⟩
    · rw [hnew, List.mem_append, List.mem_singleton]
      replace hb : (d.inFlight.put a.task (d.attemptOf a e)).get? v = some b := hb
      rw [Table.get?_put] at hb
      split at hb
      · exact .inr (Option.some.inj hb).symm
      · exact .inl (h.flying v b hb)

/-! ## firing -/

/-- The timer ends the attempt `a` that it was armed for, and no other: it is taken out of flight, and
its worker is blamed for a timeout, unless the task is cancelled. -/
structure TimesOut (d : Dispatcher σ) (a : Attempt) (t : Timer) (c : Change σ) : Prop where
  disarmed : t ∉ c.next.timers
  ended : ∀ k b, c.next.inFlight.get? k = some b → b.launch ≠ t.launch
  others : ∀ k b, d.inFlight.get? k = some b → b.launch ≠ t.launch →
    c.next.inFlight.get? k = some b
  handed : ∃ e, d.tasks.get? t.task = some e ∧
    forwards c.events = if e.cancelRequested then [] else [d.timeoutOf a t]

omit [Sink σ] in
theorem Clocked.launch_ne (h : d.Clocked) {k k' : TaskId} {a b : Attempt}
    (ha : d.inFlight.get? k = some a) (hb : d.inFlight.get? k' = some b) (hne : k' ≠ k) :
    b.launch ≠ a.launch := fun hl =>
  hne (congrArg Timer.task (h.unique (h.deadline_mem hb) (h.deadline_mem ha) hl))

theorem Clocked.timesOut_expire (h : d.Clocked) (hd : d.Filed True) {t : Timer} {a : Attempt}
    (flying : d.inFlight.get? t.task = some a) (hlaunch : a.launch = t.launch)
    (htake : (d.disarm t.launch).take? t.task t.attempt
      = some (a, d.without t.task t.launch)) : d.TimesOut a t (d.expire t).change := by
  rw [expire_of_taken htake]
  have hu := untouched_settle (d.without t.task t.launch) a (d.timeoutOf a t)
  have hflights : ∀ k, (Settled.change _).next.inFlight.get? k
      = (d.inFlight.erase t.task).get? k := fun k => congrArg (Table.get? · k) hu.inFlight
  refine ⟨fun ht => ?_, fun k b hb => ?_, fun k b hb hne => ?_, ?_⟩
  · rw [hu.timers] at ht
    exact bne_iff_ne.mp (List.mem_filter.mp ht).2 rfl
  · rw [hflights, Table.get?_erase] at hb
    split at hb
    · cases hb
    · next hk =>
      rw [← hlaunch]
      exact h.launch_ne flying hb hk
  · rw [hflights, Table.get?_erase, if_neg, hb]
    rintro rfl
    obtain rfl := Option.some.inj (flying.symm.trans hb)
    exact hne hlaunch
  · obtain ⟨e, -, live, -⟩ := hd.of_flying flying
    refine ⟨e, live, ?_⟩
    obtain ⟨ls, hs⟩ := (d.without t.task t.launch).settle_eq a (d.timeoutOf a t)
    rw [hs]
    show forwards (ls.map .logged ++ _) = _
    rw [forwards_append, forwards_logged, List.nil_append]
    exact forwards_applyResult_of_live (r := d.timeoutOf a t) live

theorem pump_fresh (hd : d.Filed halts) {l : Nat} (old : l < d.nextLaunch)
    (gone : ∀ k b, d.inFlight.get? k = some b → b.launch ≠ l) :
    ∀ k b, d.pump.next.inFlight.get? k = some b → b.launch ≠ l := by
  let P : Dispatcher σ → Prop := fun d =>
    l < d.nextLaunch ∧ ∀ k b, d.inFlight.get? k = some b → b.launch ≠ l
  suffices hp : P d.pump.next from hp.2
  refine pumpRounds_preserves (P := P) ?_ _ hd ⟨old, gone⟩
  rintro d a e - - - ⟨hlt, hgone⟩
  refine ⟨Nat.lt_succ_of_lt hlt, fun k b hb => ?_⟩
  replace hb : (d.inFlight.put a.task (d.attemptOf a e)).get? k = some b := hb
  rw [Table.get?_put] at hb
  split at hb
  · obtain rfl := Option.some.inj hb
    exact Nat.ne_of_gt hlt
  · exact hgone k b hb

theorem TimesOut.andThen_pump {s : Settled σ} {a : Attempt} {t : Timer}
    (h : d.TimesOut a t s.change) (hc : s.change.next.Clocked) (hd : s.change.next.Filed halts)
    (old : t.launch < s.change.next.nextLaunch) :
    d.TimesOut a t (s.andThen Dispatcher.pump).change := by
  unfold Settled.andThen
  split
  · have hgone := pump_fresh hd old h.ended
    refine ⟨fun ht => ?_, hgone, fun k b hb hne => ?_, ?_⟩
    · obtain ⟨b, hb, heq⟩ := ((hc.pump hd).armed t).mp ht
      exact hgone _ b hb (congrArg Timer.launch heq).symm
    · exact pumpRounds_keeps _ hd (h.others k b hb hne)
    · obtain ⟨e, live, hf⟩ := h.handed
      refine ⟨e, live, ?_⟩
      show forwards (s.change.events ++ s.change.next.pump.events) = _
      rw [forwards_append, hf, pump, forwards_pumpRounds, List.append_nil]
  · exact h

omit [Sink σ] in
theorem TimesOut.saying {a : Attempt} {t : Timer} {c : Change σ} (h : d.TimesOut a t c)
    (log : List LogLine) : d.TimesOut a t (c.saying log) := by
  refine ⟨h.disarmed, h.ended, h.others, ?_⟩
  obtain ⟨e, live, hf⟩ := h.handed
  refine ⟨e, live, ?_⟩
  show forwards (log.map .logged ++ c.events) = _
  rw [forwards_append, forwards_logged, List.nil_append, hf]

omit [Sink σ] in
/-- The timers are the deadlines of the records in flight, each once. -/
theorem Clocked.perm (h : d.Clocked) :
    d.timers.Perm (d.inFlight.entries.map fun x => d.deadlineOf x.1 x.2) := by
  have hkeys : (d.inFlight.entries.map fun x => d.deadlineOf x.1 x.2).Nodup := by
    have hn : ((d.inFlight.entries.map fun x => d.deadlineOf x.1 x.2).map (·.task)).Nodup := by
      rw [List.map_map]
      exact d.inFlight.nodup_keys
    exact hn.of_map
  refine (List.perm_ext_iff_of_nodup h.distinct.of_map hkeys).mpr fun t => ?_
  rw [h.armed, List.mem_map]
  constructor
  · rintro ⟨a, ha, heq⟩
    exact ⟨(t.task, a), (Table.mem_entries_iff _).mpr ha, heq.symm⟩
  · rintro ⟨⟨k, a⟩, hx, rfl⟩
    exact ⟨a, (Table.mem_entries_iff _).mp hx, rfl⟩

/-- In every run in which only armed timers fire, the armed timers are the deadlines of the records in
flight, one for one, and each was armed for that very launch. So a timer that fires ends the attempt
it was armed for and no other, whatever their tasks and numbers. -/
theorem deadlines_match_attempts (config : ControllerConfig) (sink : σ) {hs : List Happening}
    (punctual : (start config sink).Throughout Punctual hs) :
    let c := (start config sink).history hs
    let d := c.next
    d.timers.Perm (d.inFlight.entries.map fun x => d.deadlineOf x.1 x.2) ∧
      ((launches c.events).map (·.launch)).Nodup ∧
      (∀ x ∈ d.inFlight.entries, x.2 ∈ launches c.events) ∧
      ∀ t ∈ d.timers, ∃ a ∈ launches c.events, d.inFlight.get? t.task = some a ∧
        a.launch = t.launch ∧ a.number = t.attempt ∧
        d.TimesOut a t (d.expire t).change ∧ d.TimesOut a t (d.deadline t).change := by
  intro c d
  obtain ⟨hd, h⟩ := history_clocked punctual (filed_start config sink) (clocked_start config sink)
  have hstart : Flown [] (start config sink) :=
    ⟨.nil, fun _ ha => (nomatch ha), fun _ _ ha => (nomatch ha)⟩
  have hflown : Flown (facts c.events) d := by
    have htell := history_tell (P := Flown) [] hs (fun _ h => ⟨h.distinct, h.issued, h.flying⟩)
      (fun _ turn h => turn.flown h) (filed_start config sink) hstart
    rwa [List.nil_append] at htell
  have hlaunches : launches (facts c.events) = launches c.events := launches_facts _
  refine ⟨h.perm, hlaunches ▸ hflown.distinct, fun x hx => ?_, fun t ht => ?_⟩
  · exact hlaunches ▸ hflown.flying x.1 x.2 ((Table.mem_entries_iff _).mp hx)
  · obtain ⟨a, flying, hlaunch, hnumber, htake⟩ := h.of_armed ht
    have hexpire := h.timesOut_expire hd flying hlaunch htake
    refine ⟨a, hlaunches ▸ hflown.flying _ _ flying, flying, hlaunch, hnumber, hexpire, ?_⟩
    rw [deadline_of_taken htake]
    have hu := untouched_settle (d.without t.task t.launch) a (d.timeoutOf a t)
    have old : t.launch < (d.expire t).change.next.nextLaunch := by
      rw [expire_of_taken htake, hu.nextLaunch]
      exact h.issued t ht
    exact (hexpire.andThen_pump (h.expire ht)
      ((expire_follows hd fun _ => trivial).filed hd) old).saying _

def firstDeadline (launch : Nat) : Timer :=
  { launch, task := someTask.id, attempt := 1, due := strict.config.taskTimeout }

/-- The first worker refuses the task, which gives the number of the attempt back. The second one runs
into the deadline. The task is submitted again, and its attempt has the same number once more. -/
def renumbered : List Happening :=
  [.occurs (.pool (.register someWorker)), .occurs (.pool (.register spareWorker)),
    .occurs (.own (.submit someTask)), .occurs (.own (.refuse someTask.id 1)),
    .occurs (.own (.deadline (firstDeadline 1))),
    .occurs (.pool (.restore someWorker.workerId)), .occurs (.own (.submit someTask))]

theorem deadlines_match_renumbered :
    let c := strict.history renumbered
    strict.Throughout Punctual renumbered ∧ (launches c.events).map (·.launch) = [0, 1, 2] ∧
      (launches c.events).map (·.number) = [1, 1, 1] ∧ c.next.timers = [firstDeadline 2] ∧
      ∃ a, c.next.inFlight.get? someTask.id = some a ∧ a.launch = 2 ∧
        c.next.TimesOut a (firstDeadline 2) (c.next.deadline (firstDeadline 2)).change := by
  intro c
  have punctual : strict.Throughout Punctual renumbered :=
    ⟨trivial, trivial, trivial, trivial, List.mem_cons_self, trivial, trivial, trivial⟩
  obtain ⟨-, -, -, match_own⟩ := deadlines_match_attempts { maxRetries := 1 } _ punctual
  obtain ⟨a, -, flying, hlaunch, -, -, hdeadline⟩ :=
    match_own (firstDeadline 2) List.mem_cons_self
  exact ⟨punctual, rfl, rfl, rfl, a, flying, hlaunch, hdeadline⟩

end
end Dispatcher
end HazardDispatch
