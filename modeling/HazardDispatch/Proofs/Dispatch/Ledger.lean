import HazardDispatch.Proofs.Dispatch.Account
import HazardDispatch.Proofs.Dispatch.Hearing
import HazardDispatch.Proofs.Dispatch.Partition

/-!
# One outcome and an exact account for each submission

`Tally` ties what happened to a submission so far to where its task stands now: while the task is
live, its entry counts the results that were forwarded, and one more if an attempt is in flight; once
it is not, the account is closed. A refusal takes an attempt number back together with the attempt in
flight, so that the number is free to be used again.

A submission is told from others by its number. Numbers are not used twice (`Fresh`), and a turn has
events about the submission only whose task it concerns (`Turn.tickets`). What it makes of the entry
of that task is one of three things (`Turn.updates`).
-/

namespace HazardDispatch.Dispatcher

variable {σ : Type}

/-- How many attempts at the task are in flight: none or one. -/
def aloft (d : Dispatcher σ) (t : TaskId) : Nat := (d.inFlight.get? t).elim 0 fun _ => 1

def Live (d : Dispatcher σ) (task : Task) (n : Nat) : Prop :=
  ∃ e, d.tasks.get? task.id = some e ∧ e.ticket = n

/-- The submission `n` of a task is live, and `es` is what happened to it. -/
structure Going (task : Task) (n : Nat) (es : List Event) (d : Dispatcher σ) (e : Entry) :
    Prop where
  issued : n < d.nextTicket
  live : d.tasks.get? task.id = some e
  ticket : e.ticket = n
  own : e.task = task
  alone : ∀ t e', d.tasks.get? t = some e' → e'.ticket = n → t = task.id
  failing : Failing task es
  count : e.attempts = (forwards es).length + d.aloft task.id

/-- The submission `n` of a task came to its end. -/
structure Closed (task : Task) (n : Nat) (es : List Event) (d : Dispatcher σ) : Prop where
  issued : n < d.nextTicket
  gone : ∀ t e, d.tasks.get? t = some e → e.ticket ≠ n
  account : Account d.maxAttempts task es
  one : (outcomes es).length = 1

inductive Tally (task : Task) (n : Nat) (es : List Event) (d : Dispatcher σ) : Prop where
  | going {e : Entry} (h : Going task n es d e)
  | closed (h : Closed task n es d)

/-- The numbers that are not issued yet are not in use. -/
structure Fresh (es : List Event) (d : Dispatcher σ) : Prop where
  entries : ∀ t e, d.tasks.get? t = some e → e.ticket < d.nextTicket
  events : ∀ n, d.nextTicket ≤ n → story n es = []

variable [Sink σ] {halts : Prop} {u : Option TaskId} {d d' : Dispatcher σ} {es es₀ : List Event}
  {task : Task} {n : Nat}

/-! ## submission numbers in a turn -/

/-- What a turn makes of the entry of a task that it concerns and that is live after it. -/
inductive Updates (d : Dispatcher σ) (es : List Event) (d' : Dispatcher σ) (t : TaskId)
    (e' : Entry) : Prop where
  | kept {e : Entry} (live : d.tasks.get? t = some e) (ticket : e'.ticket = e.ticket)
      (last : e'.lastWorker = e.lastWorker) (unlaunched : ∀ ev ∈ es, ∀ n a, ev ≠ .launched n a)
  | launched {e : Entry} {a : Attempt} (live : d.tasks.get? t = some e)
      (ticket : e'.ticket = e.ticket) (last : e'.lastWorker = some a.worker.workerId)
      (event : es = [.launched e.ticket a])
  | accepted (ticket : e'.ticket = d.nextTicket) (next : d'.nextTicket = d.nextTicket + 1)
      (last : e'.lastWorker = none) (silent : es = [])

theorem Turn.updates {t : TaskId} {e' : Entry} (h : Turn halts (some t) d es d')
    (he : d'.tasks.get? t = some e') : Updates d es d' t e' := by
  have kept {e e₁ : Entry} (live : d.tasks.get? t = some e) (hp : d'.tasks.get? t = some e₁)
      (ticket : e₁.ticket = e.ticket) (last : e₁.lastWorker = e.lastWorker)
      (unlaunched : ∀ ev ∈ es, ∀ n a, ev ≠ .launched n a) : Updates d es d' t e' := by
    obtain rfl := Option.some.inj (hp.symm.trans he)
    exact .kept live ticket last unlaunched
  cases h with
  | accepted t new =>
    have hp : (d.enqueueNew t).tasks.get? t.id = _ := Table.get?_put_self _ _ _
    obtain rfl := Option.some.inj (hp.symm.trans he)
    exact .accepted rfl rfl rfl rfl
  | @launched _ a e queued assigned live =>
    have hp : (d.takeOff a e).tasks.get? a.task = _ := Table.get?_put_self _ _ _
    obtain rfl := Option.some.inj (hp.symm.trans he)
    exact .launched live rfl rfl rfl
  | withdrawn => rw [Table.get?_erase_self] at he; cases he
  | marked _ live => exact kept live (Table.get?_put_self _ _ _) rfl rfl (by simp)
  | cancelled => rw [Table.get?_erase_self] at he; cases he
  | returned _ _ live => exact kept live (Table.get?_put_self _ _ _) rfl rfl (by simp)
  | completed => rw [Table.get?_erase_self] at he; cases he
  | retried _ _ _ live => exact kept live (Table.get?_put_self _ _ _) rfl rfl (by simp)
  | abandoned => rw [Table.get?_erase_self] at he; cases he
  | halted _ _ _ _ live => exact kept live live rfl rfl (by simp)

/-- The entry of a live task keeps its number; a new one gets the next number. -/
theorem Turn.origin (h : Turn halts u d es d') {t : TaskId} {e' : Entry}
    (he : d'.tasks.get? t = some e') :
    (∃ e, d.tasks.get? t = some e ∧ e'.ticket = e.ticket) ∨
      e'.ticket = d.nextTicket ∧ d'.nextTicket = d.nextTicket + 1 := by
  by_cases hu : u = some t
  · subst hu
    cases h.updates he with
    | kept live ticket => exact .inl ⟨_, live, ticket⟩
    | launched live ticket => exact .inl ⟨_, live, ticket⟩
    | accepted ticket next => exact .inr ⟨ticket, next⟩
  · rw [(h.frame hu).2.1] at he
    exact .inl ⟨e', he, rfl⟩

theorem Turn.nextTicket_le (h : Turn halts u d es d') : d.nextTicket ≤ d'.nextTicket := by
  cases h with
  | accepted t new => exact Nat.le_succ _
  | _ => exact Nat.le_refl _

/-- Events about a submission come from a turn that concerns its task. -/
theorem Turn.tickets (h : Turn halts u d es d') {ev : Event} (hev : ev ∈ es)
    (hn : ev.ticket? = some n) :
    ∃ t e, u = some t ∧ d.tasks.get? t = some e ∧ e.ticket = n := by
  have found {t : TaskId} {e : Entry} (hu : u = some t) (live : d.tasks.get? t = some e)
      (hes : ∀ ev ∈ es, ev.ticket? = some e.ticket ∨ ev.ticket? = none) :
      ∃ t e, u = some t ∧ d.tasks.get? t = some e ∧ e.ticket = n := by
    rcases hes ev hev with hk | hk
    · exact ⟨t, e, hu, live, Option.some.inj (hk.symm.trans hn)⟩
    · rw [hk] at hn
      cases hn
  cases h with
  | quiet => cases hev
  | accepted => cases hev
  | launched _ _ live => exact found rfl live (by simp [Event.ticket?])
  | withdrawn _ live => exact found rfl live (by simp [Event.ticket?])
  | marked _ live => exact found rfl live (by simp [Event.ticket?])
  | cancelled _ _ _ live => exact found rfl live (by simp [Event.ticket?])
  | returned => cases hev
  | completed _ _ _ live => exact found rfl live (by simp [Event.ticket?])
  | retried _ _ _ live => exact found rfl live (by simp [Event.ticket?])
  | abandoned _ _ _ live => exact found rfl live (by simp [Event.ticket?])
  | halted _ _ _ _ live => exact found rfl live (by simp [Event.ticket?])

theorem Turn.fresh (h : Turn halts u d es d') (hf : Fresh es₀ d) : Fresh (es₀ ++ es) d' where
  entries t e' he' := by
    have hle := h.nextTicket_le
    obtain ⟨e, he, heq⟩ | ⟨heq, hnext⟩ := h.origin he'
    · have := hf.entries t e he
      omega
    · omega
  events n hn := by
    have hle := h.nextTicket_le
    rw [story_append, hf.events n (Nat.le_trans hle hn), List.nil_append]
    refine story_of_other fun ev hev hnum => ?_
    obtain ⟨t, e, -, he, heq⟩ := h.tickets hev hnum
    have := hf.entries t e he
    omega

/-! ## a submission in a turn -/

/-- No other task gets the number of a submission. -/
theorem Turn.alone (h : Turn halts u d es d') {t₀ : TaskId} (issued : n < d.nextTicket)
    (alone : ∀ t e, d.tasks.get? t = some e → e.ticket = n → t = t₀) :
    ∀ t e, d'.tasks.get? t = some e → e.ticket = n → t = t₀ := by
  intro t e' he' hn
  obtain ⟨e, he, heq⟩ | ⟨heq, -⟩ := h.origin he'
  · exact alone t e he (heq ▸ hn)
  · omega

/-- Nothing happens any more to a submission whose task is not live. -/
theorem Turn.gone (h : Turn halts u d es d') (issued : n < d.nextTicket)
    (gone : ∀ t e, d.tasks.get? t = some e → e.ticket ≠ n) :
    story n es = [] ∧ ∀ t e, d'.tasks.get? t = some e → e.ticket ≠ n := by
  refine ⟨story_of_other fun ev hev hn => ?_, fun t e' he' hn => ?_⟩
  · obtain ⟨t, e, -, he, heq⟩ := h.tickets hev hn
    exact gone t e he heq
  · obtain ⟨e, he, heq⟩ | ⟨heq, -⟩ := h.origin he'
    · exact gone t e he (heq ▸ hn)
    · omega

/-- Nothing happens to a submission in a turn that does not concern its task. -/
theorem Turn.silent (h : Turn halts u d es d') {t₀ : TaskId} (hu : u ≠ some t₀)
    (alone : ∀ t e, d.tasks.get? t = some e → e.ticket = n → t = t₀) : story n es = [] :=
  story_of_other fun ev hev hn => by
    obtain ⟨t, e, rfl, he, heq⟩ := h.tickets hev hn
    exact hu (congrArg some (alone t e he heq))

theorem Turn.closed (h : Turn halts u d es d') (c : Closed task n es₀ d) :
    Closed task n (es₀ ++ story n es) d' := by
  obtain ⟨hs, gone⟩ := h.gone c.issued c.gone
  rw [hs, List.append_nil]
  exact ⟨Nat.lt_of_lt_of_le c.issued h.nextTicket_le, gone, h.maxAttempts ▸ c.account, c.one⟩

variable {e e' : Entry}

theorem Turn.going_other (h : Turn halts u d es d') (hu : u ≠ some task.id)
    (g : Going task n es₀ d e) : Going task n (es₀ ++ story n es) d' e := by
  obtain ⟨-, ht, hf⟩ := h.frame hu
  rw [h.silent hu g.alone, List.append_nil]
  refine ⟨Nat.lt_of_lt_of_le g.issued h.nextTicket_le, ht.trans g.live, g.ticket, g.own,
    h.alone g.issued g.alone, g.failing, ?_⟩
  rw [g.count, aloft, aloft, hf]

theorem Turn.goes_on (h : Turn halts u d es d') (g : Going task n es₀ d e) {t : TaskId}
    (hid : task.id = t) (es' : List Event) (hs : story n es = es')
    (live : d'.tasks.get? t = some e') (ticket : e'.ticket = e.ticket) (own : e'.task = e.task)
    (failing : Failing task (es₀ ++ es'))
    (count : e'.attempts = (forwards (es₀ ++ es')).length + d'.aloft t) :
    Tally task n (es₀ ++ story n es) d' := by
  subst hid
  rw [hs]
  exact .going ⟨Nat.lt_of_lt_of_le g.issued h.nextTicket_le, live, ticket.trans g.ticket,
    own.trans g.own, h.alone g.issued g.alone, failing, count⟩

theorem Turn.closes (h : Turn halts u d es d') (g : Going task n es₀ d e) {t : TaskId}
    (hid : task.id = t) (hs : story n es = es) (dead : d'.tasks.get? t = none)
    (account : Account d.maxAttempts task (es₀ ++ es)) (one : (outcomes es).length = 1) :
    Tally task n (es₀ ++ story n es) d' := by
  subst hid
  rw [hs]
  refine .closed ⟨Nat.lt_of_lt_of_le g.issued h.nextTicket_le, ?_, h.maxAttempts ▸ account, ?_⟩
  · intro t e he hn
    rw [h.alone g.issued g.alone t e he hn, dead] at he
    cases he
  · rw [outcomes_append, g.failing.silent]
    exact one

omit [Sink σ] in
theorem aloft_of_landed {t : TaskId} (h : d.inFlight.get? t = none) : d.aloft t = 0 := by
  rw [aloft, h]; rfl

omit [Sink σ] in
theorem aloft_of_flying {t : TaskId} {a : Attempt} (h : d.inFlight.get? t = some a) :
    d.aloft t = 1 := by
  rw [aloft, h]; rfl

omit [Sink σ] in
/-- A queued submission counts the results that were forwarded. -/
theorem Going.of_queued (g : Going task n es₀ d e) (hd : d.Filed halts)
    (ht : task.id ∈ d.pending) :
    d.inFlight.get? task.id = none ∧ e.attempts = (forwards es₀).length ∧
      (forwards es₀).length < d.maxAttempts := by
  obtain ⟨e', he', landed, waits⟩ := hd.of_queued ht
  obtain rfl := Option.some.inj (g.live.symm.trans he')
  have count := g.count
  rw [aloft_of_landed landed, Nat.add_zero] at count
  exact ⟨landed, count, count ▸ waits.attempts⟩

omit [Sink σ] in
/-- A submission with an attempt in flight counts one more, and this is the number of the attempt. -/
theorem Going.of_flying {a : Attempt} (g : Going task n es₀ d e) (hd : d.Filed halts)
    (ha : d.inFlight.get? task.id = some a) :
    a.number = (forwards es₀).length + 1 ∧ e.attempts = (forwards es₀).length + 1 ∧
      (forwards es₀).length + 1 ≤ d.maxAttempts := by
  obtain ⟨e', -, he', runs⟩ := hd.of_flying ha
  obtain rfl := Option.some.inj (g.live.symm.trans he')
  have count := g.count
  rw [aloft_of_flying ha] at count
  have hnum := runs.attempts.symm.trans count
  exact ⟨hnum, count, hnum ▸ runs.le⟩

theorem Turn.tally_self (h : Turn False (some task.id) d es d') (hd : d.Filed False)
    (g : Going task n es₀ d e) : Tally task n (es₀ ++ story n es) d' := by
  have turn := h
  obtain rfl := g.ticket
  -- some turns name their task by a result, so the name must be a variable before they are told apart
  obtain ⟨t, hid⟩ : ∃ t, task.id = t := ⟨_, rfl⟩
  rw [hid] at h
  have same {e' : Entry} (live : d.tasks.get? t = some e') : e' = e := by
    rw [← hid, g.live] at live
    exact (Option.some.inj live).symm
  cases h with
  | accepted t new =>
    rw [← hid, g.live] at new
    cases new
  | launched queued assigned live =>
    obtain rfl := same live
    obtain ⟨-, count, -⟩ := g.of_queued hd (hid ▸ queued)
    refine turn.goes_on g hid _ (story_of_own (by simp [Event.ticket?]))
      (Table.get?_put_self _ _ _) rfl rfl (g.failing.quiet rfl rfl rfl) ?_
    rw [aloft_of_flying (Table.get?_put_self _ _ _), forwards_append, List.length_append]
    exact congrArg (· + 1) count
  | withdrawn queued live =>
    obtain rfl := same live
    obtain ⟨-, -, bound⟩ := g.of_queued hd (hid ▸ queued)
    refine turn.closes g hid (story_of_own (by simp [Event.ticket?])) (Table.get?_erase_self _ _)
      ?_ rfl
    exact hid ▸ g.failing.cancelled (Nat.le_of_lt bound)
  | marked flying live =>
    obtain rfl := same live
    refine turn.goes_on g hid [] (story_of_other (by simp [Event.ticket?]))
      (Table.get?_put_self _ _ _) rfl rfl (g.failing.quiet rfl rfl rfl) ?_
    rw [List.append_nil, ← hid]
    exact g.count
  | cancelled l how flying live doomed =>
    obtain rfl := same live
    obtain ⟨-, -, bound⟩ := g.of_flying hd (hid ▸ flying)
    refine turn.closes g hid (story_of_own (by simp [Event.ticket?])) (Table.get?_erase_self _ _)
      ?_ rfl
    exact hid ▸ g.failing.cancelled (Nat.le_of_lt bound)
  | returned l flying live wanted =>
    obtain rfl := same live
    obtain ⟨-, count, -⟩ := g.of_flying hd (hid ▸ flying)
    refine turn.goes_on g hid [] rfl (Table.get?_put_self _ _ _) rfl rfl
      (g.failing.quiet rfl rfl rfl) ?_
    rw [aloft_of_landed (Table.get?_erase_self _ _), List.append_nil]
    exact congrArg (· - 1) count
  | completed l flying number live wanted success whole =>
    obtain rfl := same live
    obtain ⟨hn, -, bound⟩ := g.of_flying hd (hid ▸ flying)
    exact turn.closes g hid (story_of_own (by simp [Event.ticket?])) (Table.get?_erase_self _ _)
      (g.failing.completed (number.trans hn) hid.symm success bound) rfl
  | retried l flying number live wanted failure retryable left whole =>
    obtain rfl := same live
    obtain ⟨hn, count, bound⟩ := g.of_flying hd (hid ▸ flying)
    refine turn.goes_on g hid _ (story_of_own (by simp [Event.ticket?]))
      (Table.get?_put_self _ _ _) rfl rfl
      (g.failing.retried (number.trans hn) hid.symm (by simp [failure])) ?_
    rw [aloft_of_landed (Table.get?_erase_self _ _), forwards_append, List.length_append]
    exact count
  | abandoned l flying number live wanted failure last whole =>
    obtain rfl := same live
    obtain ⟨hn, count, bound⟩ := g.of_flying hd (hid ▸ flying)
    refine turn.closes g hid (story_of_own (by simp [Event.ticket?])) (Table.get?_erase_self _ _)
      ?_ rfl
    exact g.failing.abandoned (number.trans hn) hid.symm hid.symm g.own count failure bound
  | halted _ h => exact h.elim

theorem Turn.tally (h : Turn False u d es d') (hd : d.Filed False)
    (ht : Tally task n (story n es₀) d) : Tally task n (story n (es₀ ++ es)) d' := by
  rw [story_append]
  cases ht with
  | going g =>
    by_cases hu : u = some task.id
    · subst hu
      exact h.tally_self hd g
    · exact .going (h.going_other hu g)
  | closed c => exact .closed (h.closed c)

/-! ## acceptance -/

/-- The occurrence is the submission of the task, which is accepted under the number `n`. -/
inductive Accepts (d : Dispatcher σ) : Occurrence → Task → Nat → Prop where
  | whole {t : Task} {ticket : Ticket} (h : (d.submit t).value = .ok ticket) :
      Accepts d (.own (.submit t)) t ticket.number
  | part {t : Task} (h : d.tasks.get? t.id = none) :
      Accepts d (.own (.part (.accept t))) t d.nextTicket

/-- An accepted task is new and gets the next number; what follows are turns. -/
theorem Accepts.turns {o : Occurrence} (h : Accepts d o task n) (hd : d.Filed False) :
    d.tasks.get? task.id = none ∧ n = d.nextTicket ∧ (d.enqueueNew task).Filed False ∧
      Turns False (d.enqueueNew task) (facts (d.undergo o).change.events)
        (d.undergo o).change.next := by
  cases h with
  | whole h =>
    obtain ⟨e, log, hs⟩ | ⟨ht, hs⟩ := d.submit_cases task
    · rw [hs] at h
      cases h
    · have new := (Table.contains_eq_false_iff _ _).mp ht
      have hq : (d.enqueueNew task).Filed False := (enqueueNew_turns ht).filed hd
      rw [hs] at h
      obtain rfl := Except.ok.inj h
      refine ⟨new, rfl, hq, ?_⟩
      show Turns False _ (facts (d.submit task).change.events) (d.submit task).change.next
      rw [hs]
      exact ((pump_follows hq).saying _).turns
  | part h =>
    have ht := (Table.contains_eq_false_iff _ _).mpr h
    refine ⟨h, rfl, (enqueueNew_turns ht).filed hd, ?_⟩
    show Turns False _ [] (if d.tasks.contains task.id then d else d.enqueueNew task)
    rw [ht]
    exact .nil _

omit [Sink σ] in
theorem Fresh.tally (hf : Fresh es₀ d) (hd : (d.enqueueNew task).Filed False) :
    Tally task d.nextTicket (story d.nextTicket es₀) (d.enqueueNew task) := by
  have hp : (d.enqueueNew task).tasks.get? task.id = _ := Table.get?_put_self _ _ _
  have hq : task.id ∈ (d.enqueueNew task).pending :=
    List.mem_append_right _ List.mem_cons_self
  obtain ⟨-, -, landed, -⟩ := hd.of_queued hq
  rw [hf.events _ (Nat.le_refl _)]
  refine .going ⟨Nat.lt_succ_self _, hp, rfl, rfl, ?_, .nil task, ?_⟩
  · intro t e he hn
    by_cases ht : t = task.id
    · exact ht
    · have := hf.entries t e ((Table.get?_put_of_ne _ _ ht).symm.trans he)
      omega
  · rw [aloft_of_landed landed]
    rfl

theorem run_fresh (config : ControllerConfig) (sink : σ) {os : List Occurrence}
    (hs : (start config sink).SinksReturn os) :
    Fresh (facts ((start config sink).run os).events) ((start config sink).run os).next := by
  have h₀ : Fresh [] (start config sink) := ⟨fun t e he => (by cases he), fun _ _ => rfl⟩
  have h := run_tell (P := Fresh) [] (fun _ h => ⟨h.entries, h.events⟩) (fun _ turn h => turn.fresh h)
    hs (filed_start config sink) h₀
  rwa [List.nil_append] at h

/-! ## the account of a run -/

omit [Sink σ] in
theorem Tally.withPool (h : Tally task n es d) (p : Pool) :
    Tally task n es { d with pool := p } := by
  cases h with
  | going g => exact .going ⟨g.issued, g.live, g.ticket, g.own, g.alone, g.failing, g.count⟩
  | closed c => exact .closed ⟨c.issued, c.gone, c.account, c.one⟩

theorem run_tally (config : ControllerConfig) (sink : σ) {before after : List Occurrence}
    {o : Occurrence} (hs : (start config sink).SinksReturn (before ++ o :: after))
    (accepted : Accepts ((start config sink).run before).next o task n) :
    Tally task n (story n ((start config sink).run (before ++ o :: after)).events)
      ((start config sink).run (before ++ o :: after)).next := by
  obtain ⟨hs₁, -, hs₂⟩ := (sinksReturn_append _ _ _).mp hs
  let c := (start config sink).run before
  let c' := (c.next.undergo o).change
  let c'' := c'.next.run after
  have hd : c.next.Filed False := run_filed hs₁ (filed_start config sink)
  obtain ⟨-, hn, hq, turns⟩ := accepted.turns hd
  have h₁ : Tally task n (story n (facts c.events)) (c.next.enqueueNew task) :=
    hn ▸ (run_fresh config sink hs₁).tally hq
  have h₂ : Tally task n (story n (facts c.events ++ facts c'.events)) c'.next :=
    turns.tell (P := fun es d => Tally task n (story n es) d) (fun hd turn h => turn.tally hd h)
      hq h₁
  have h₃ := run_tell (P := fun es d => Tally task n (story n es) d) _ (fun p h => h.withPool p)
    (fun hd turn h => turn.tally hd h) hs₂ (turns.filed hq) h₂
  rw [← facts_append, ← facts_append, story_facts, List.append_assoc] at h₃
  rw [run_append]
  exact h₃

omit [Sink σ] in
theorem Tally.account (h : Tally task n es d) (hd : d.Filed False) :
    Account d.maxAttempts task es := by
  cases h with
  | @going e g =>
    refine g.failing.account ?_
    rcases hd.of_live g.live with ht | ⟨a, ha⟩
    · exact Nat.le_of_lt (g.of_queued hd ht).2.2
    · exact Nat.le_of_lt (g.of_flying hd ha).2.2
  | closed c => exact c.account

omit [Sink σ] in
/-- A submission is live until it has its outcome. -/
theorem Tally.live_iff (h : Tally task n es d) : Live d task n ↔ outcomes es = [] := by
  cases h with
  | @going e g => exact ⟨fun _ => g.failing.silent, fun _ => ⟨e, g.live, g.ticket⟩⟩
  | closed c =>
    constructor
    · rintro ⟨e, he, hn⟩
      exact absurd hn (c.gone _ e he)
    · intro ho
      have one := c.one
      rw [ho] at one
      cases one

theorem run_maxAttempts (config : ControllerConfig) (sink : σ) {os : List Occurrence}
    (hs : (start config sink).SinksReturn os) :
    ((start config sink).run os).next.maxAttempts = max config.maxRetries.toNat 1 :=
  run_tell (P := fun _ d => d.maxAttempts = max config.maxRetries.toNat 1) [] (fun _ h => h)
    (fun _ turn h => turn.maxAttempts.trans h) hs (filed_start config sink) rfl

omit [Sink σ] in
/-- The outcome comes in the step that ends the life of the task. -/
theorem Tally.outcome_iff {es' : List Event} (h : Tally task n (story n es) d)
    (h' : Tally task n (story n (es ++ es')) d') (hd : d'.Filed False) :
    outcomes (story n es') ≠ [] ↔ Live d task n ∧ ¬ Live d' task n := by
  have once := (h'.account hd).once
  rw [h.live_iff, h'.live_iff, story_append, outcomes_append, List.append_eq_nil_iff]
  rw [story_append, outcomes_append, List.length_append] at once
  constructor
  · intro ho
    have hpos := List.length_pos_iff.mpr ho
    exact ⟨List.eq_nil_of_length_eq_zero (by omega), fun hboth => ho hboth.2⟩
  · rintro ⟨hn, hboth⟩ ho
    exact hboth ⟨hn, ho⟩

/-- Every accepted submission has an account that is in order, at any time of any run whose sinks
return; its outcome is sent in the very step that ends the life of its task; and each sink heard the
results and the ends of the story, in its order. -/
theorem account_of_submission (config : ControllerConfig) (sink : σ)
    (before after : List Occurrence) (o : Occurrence) (task : Task) (n : Nat)
    (hs : (start config sink).SinksReturn (before ++ o :: after))
    (accepted : Accepts ((start config sink).run before).next o task n) :
    let c := (start config sink).run (before ++ o :: after)
    Account (max config.maxRetries.toNat 1) task (story n c.events) ∧
      (∀ o', (c.next.undergo o').stop = none →
        (outcomes (story n (c.next.undergo o').change.events) ≠ [] ↔
          Live c.next task n ∧ ¬ Live (c.next.undergo o').change.next task n)) ∧
      ∀ {τ : Type} [Sink τ] (view : σ → τ), Listens view →
        view c.next.sink = c.events.foldl Event.tell (view sink) := by
  intro c
  have hd : c.next.Filed False := run_filed hs (filed_start config sink)
  have ht : Tally task n (story n c.events) c.next := run_tally config sink hs accepted
  refine ⟨?_, ?_, ?_⟩
  · rw [← run_maxAttempts config sink hs]
    exact ht.account hd
  · intro o' hstop
    have hs' : (start config sink).SinksReturn (before ++ o :: (after ++ [o'])) := by
      rw [← List.cons_append, ← List.append_assoc, sinksReturn_append]
      exact ⟨hs, hstop, trivial⟩
    have ht' := run_tally config sink hs' accepted
    have hd' := run_filed hs' (filed_start config sink)
    rw [← List.cons_append, ← List.append_assoc, run_concat] at ht' hd'
    exact ht.outcome_iff ht' hd'
  · intro τ _ view hv
    exact run_heard hv hs (filed_start config sink)

/-- The task fails once and is done then; the figures by operation heard of both results. -/
theorem account_of_secondTry :
    firstDay.SinksReturn secondTry ∧
      Accepts (firstDay.run (secondTry.take 1)).next (.own (.submit someTask)) someTask 0 ∧
      forwards (story 0 (firstDay.run secondTry).events) = [firstResult, secondResult] ∧
      outcomes (story 0 (firstDay.run secondTry).events) = [.completed secondResult] ∧
      Account 3 someTask (story 0 (firstDay.run secondTry).events) ∧
      (firstDay.run secondTry).next.sink.1
        = (firstDay.run secondTry).events.foldl Event.tell firstDay.sink.1 := by
  have hs : firstDay.SinksReturn secondTry := ⟨rfl, rfl, rfl, rfl, trivial⟩
  have ha : Accepts (firstDay.run (secondTry.take 1)).next (.own (.submit someTask)) someTask 0 :=
    .whole (show _ = Except.ok (⟨0, ⟨"t1"⟩⟩ : Ticket) from rfl)
  obtain ⟨account, -, heard⟩ :=
    account_of_submission {} _ (secondTry.take 1) (secondTry.drop 2) _ someTask 0 hs ha
  exact ⟨hs, ha, rfl, rfl, account, heard Prod.fst listens_fst⟩

end HazardDispatch.Dispatcher
