import HazardDispatch.Proofs.Dispatch.Run
import HazardDispatch.Proofs.Table

/-!
# Turns

A turn is the least change of a dispatcher's books that happens at once: one task is accepted,
launched, cancelled, taken out of flight, and so on. `Turn` lists them, each with the events that
others see of it, log lines apart, and with the dispatcher after it in full. Every action is a list of
turns, so what all turns keep is kept by every run, and no proof but the one that cuts the actions
into turns has to look into them.

* `Turn halts u d es d'`   a turn from `d` to `d'` with the events `es`. It concerns the task `u`, if
                           any; with `halts`, sinks may stop half-way;
* `Turns halts d es d'`    turns one after the other;
* `Turn.frame`             nothing happens to a task that the turn does not concern.
-/

namespace HazardDispatch

def Event.isLog : Event → Bool
  | logged _ => true
  | _ => false

/-- The events that are not log lines. -/
def facts (es : List Event) : List Event := es.filter (!·.isLog)

@[simp] theorem facts_nil : facts [] = [] := rfl

theorem facts_cons (e : Event) (es : List Event) :
    facts (e :: es) = if e.isLog then facts es else e :: facts es := by
  cases h : e.isLog <;> simp [facts, h]

@[simp] theorem facts_append (es es' : List Event) : facts (es ++ es') = facts es ++ facts es' :=
  List.filter_append es es'

@[simp] theorem facts_logged (ls : List LogLine) : facts (ls.map .logged) = [] := by
  rw [facts, List.filter_eq_nil_iff]
  intro e he
  obtain ⟨l, -, rfl⟩ := List.mem_map.mp he
  simp [Event.isLog]

theorem mem_facts {e : Event} {es : List Event} (he : e.isLog = false) :
    e ∈ facts es ↔ e ∈ es := by
  rw [facts, List.mem_filter, he]
  simp

/-- The pool after an attempt on the worker `w` came to its end; without a result it was refused. -/
def Pool.vacate (p : Pool) (w : WorkerId) : Option ResultStatus → Pool
  | some .success => (p.release w).pool
  | some (.failure reason) =>
    if reason.isWorkerFault then (p.deregister w).pool else (p.release w).pool
  | none => (p.markUnreachable w).pool

namespace Dispatcher

variable {σ : Type}

/-- The attempt at `t` is out of flight, its worker `w` is free and the timer `l` is disarmed. -/
def land (d : Dispatcher σ) (t : TaskId) (w : WorkerId) (l : Nat) (how : Option ResultStatus) :
    Dispatcher σ :=
  { d with
    inFlight := d.inFlight.erase t, timers := d.timers.filter (·.launch != l)
    pool := d.pool.vacate w how }

/-- The attempt that an assignment starts. -/
def attemptOf (d : Dispatcher σ) (a : Assignment) (e : Entry) : Attempt :=
  { launch := d.nextLaunch, task := e.task, worker := a.worker, number := e.attempts + 1
    startedAt := d.now }

/-- The dispatcher with the attempt of an assignment in flight. -/
def takeOff (d : Dispatcher σ) (a : Assignment) (e : Entry) : Dispatcher σ :=
  { d with
    pool := a.pool, pending := d.pending.erase a.task
    tasks := d.tasks.put a.task { e with
      attempts := e.attempts + 1, state := .running, lastWorker := some a.worker.workerId }
    inFlight := d.inFlight.put a.task (d.attemptOf a e)
    waiting := d.waiting ++ [d.attemptOf a e]
    timers := d.timers ++ [
      { launch := d.nextLaunch, task := a.task, attempt := e.attempts + 1
        due := d.now + d.config.taskTimeout }]
    nextLaunch := d.nextLaunch + 1 }

variable [Sink σ]

inductive Turn (halts : Prop) :
    Option TaskId → Dispatcher σ → List Event → Dispatcher σ → Prop where
  /-- No task is concerned. -/
  | quiet (d : Dispatcher σ) (now : Nat) (stopped permit : Bool) {waiting : List Attempt}
      (fewer : waiting.Sublist d.waiting) (timers : List Timer) :
      Turn halts none d []
        { d with now, stopped, waiting, timers, pool := { d.pool with permit } }
  | accepted {d : Dispatcher σ} (t : Task) (new : d.tasks.get? t.id = none) :
      Turn halts (some t.id) d [] (d.enqueueNew t)
  | launched {d : Dispatcher σ} {a : Assignment} {e : Entry} (queued : a.task ∈ d.pending)
      (assigned : d.assign? a.task = some a) (live : d.tasks.get? a.task = some e) :
      Turn halts (some a.task) d [.launched e.ticket (d.attemptOf a e)] (d.takeOff a e)
  /-- A queued task is cancelled. -/
  | withdrawn {d : Dispatcher σ} {t : TaskId} {e : Entry} (queued : t ∈ d.pending)
      (live : d.tasks.get? t = some e) :
      Turn halts (some t) d [.resolved e.ticket (.cancelled t)]
        { d with pending := d.pending.erase t, tasks := d.tasks.erase t }
  /-- A running task is cancelled. -/
  | marked {d : Dispatcher σ} {t : TaskId} {a : Attempt} {e : Entry}
      (flying : d.inFlight.get? t = some a) (live : d.tasks.get? t = some e) :
      Turn halts (some t) d [.cancelSignal a.worker t]
        { d with tasks := d.tasks.put t { e with cancelRequested := true } }
  /-- The attempt at a cancelled task came to its end. -/
  | cancelled {d : Dispatcher σ} {t : TaskId} {a : Attempt} {e : Entry} (l : Nat)
      (how : Option ResultStatus) (flying : d.inFlight.get? t = some a)
      (live : d.tasks.get? t = some e) (doomed : e.cancelRequested = true) :
      Turn halts (some t) d [.resolved e.ticket (.cancelled t)]
        { d.land t a.worker.workerId l how with tasks := d.tasks.erase t }
  /-- An attempt was refused. -/
  | returned {d : Dispatcher σ} {t : TaskId} {a : Attempt} {e : Entry} (l : Nat)
      (flying : d.inFlight.get? t = some a) (live : d.tasks.get? t = some e)
      (wanted : e.cancelRequested = false) :
      Turn halts (some t) d []
        ((d.land t a.worker.workerId l none).requeue t { e with attempts := e.attempts - 1 })
  | completed {d : Dispatcher σ} {r : TaskResult} {a : Attempt} {e : Entry} (l : Nat)
      (flying : d.inFlight.get? r.taskId = some a) (number : r.attempt.toNat = a.number)
      (live : d.tasks.get? r.taskId = some e) (wanted : e.cancelRequested = false)
      (success : r.status = .success) (whole : (Sink.record d.sink r).2 = none) :
      Turn halts (some r.taskId) d
        [.forwarded e.ticket r, .resolved e.ticket (.completed r)]
        { d.land r.taskId a.worker.workerId l (some r.status) with
          sink := (Sink.record d.sink r).1, tasks := d.tasks.erase r.taskId }
  /-- An attempt failed and there will be another one. -/
  | retried {d : Dispatcher σ} {r : TaskResult} {a : Attempt} {e : Entry} {reason : FailureReason}
      (l : Nat) (flying : d.inFlight.get? r.taskId = some a)
      (number : r.attempt.toNat = a.number) (live : d.tasks.get? r.taskId = some e)
      (wanted : e.cancelRequested = false) (failure : r.status = .failure reason)
      (retryable : reason.isRetryable = true) (left : e.attempts < d.maxAttempts)
      (whole : (Sink.record d.sink r).2 = none) :
      Turn halts (some r.taskId) d [.forwarded e.ticket r]
        (requeue { d.land r.taskId a.worker.workerId l (some r.status) with
          sink := (Sink.record d.sink r).1 } r.taskId e)
  | abandoned {d : Dispatcher σ} {r : TaskResult} {a : Attempt} {e : Entry}
      {reason : FailureReason} (l : Nat) (flying : d.inFlight.get? r.taskId = some a)
      (number : r.attempt.toNat = a.number) (live : d.tasks.get? r.taskId = some e)
      (wanted : e.cancelRequested = false) (failure : r.status = .failure reason)
      (last : ¬ (reason.isRetryable = true ∧ e.attempts < d.maxAttempts))
      (whole : (Sink.record d.sink r).2 = none) :
      Turn halts (some r.taskId) d
        [.forwarded e.ticket r, .abandoned e.ticket e.task reason,
          .resolved e.ticket (.failed r.taskId e.attempts reason)]
        { d.land r.taskId a.worker.workerId l (some r.status) with
          sink := Sink.abandon (Sink.record d.sink r).1 e.task reason
          tasks := d.tasks.erase r.taskId }
  /-- A sink stopped half-way. -/
  | halted {d : Dispatcher σ} {r : TaskResult} {a : Attempt} {e : Entry} (l : Nat) (h : halts)
      (flying : d.inFlight.get? r.taskId = some a) (number : r.attempt.toNat = a.number)
      (live : d.tasks.get? r.taskId = some e) (wanted : e.cancelRequested = false)
      (stop : (Sink.record d.sink r).2 ≠ none) :
      Turn halts (some r.taskId) d [.forwarded e.ticket r]
        { d.land r.taskId a.worker.workerId l (some r.status) with
          sink := (Sink.record d.sink r).1 }

inductive Turns (halts : Prop) : Dispatcher σ → List Event → Dispatcher σ → Prop where
  | nil (d : Dispatcher σ) : Turns halts d [] d
  | cons {u : Option TaskId} {d d' d'' : Dispatcher σ} {es es' : List Event}
      (turn : Turn halts u d es d') (rest : Turns halts d' es' d'') :
      Turns halts d (es ++ es') d''

variable {halts : Prop} {u : Option TaskId} {d d' d'' : Dispatcher σ} {es es' : List Event}

theorem Turn.turns (h : Turn halts u d es d') : Turns halts d es d' := by
  have h' := Turns.cons h (.nil d')
  rwa [List.append_nil] at h'

theorem Turns.append (h : Turns halts d es d') (h' : Turns halts d' es' d'') :
    Turns halts d (es ++ es') d'' := by
  induction h with
  | nil d => exact h'
  | cons turn rest ih =>
    rw [List.append_assoc]
    exact .cons turn (ih h')

theorem Turns.keep {P : Dispatcher σ → Prop}
    (step : ∀ {u d es d'}, Turn halts u d es d' → P d → P d') (h : Turns halts d es d')
    (hd : P d) : P d' := by
  induction h with
  | nil d => exact hd
  | cons turn rest ih => exact ih (step turn hd)

/-! ## what a turn leaves alone -/

omit [Sink σ] in
theorem insertQueued_perm (tasks : Table TaskId Entry) (ticket : Nat) (t : TaskId)
    (us : List TaskId) : (insertQueued tasks ticket t us).Perm (t :: us) := by
  induction us with
  | nil => exact .refl _
  | cons v us ih =>
    have hlater : (v :: insertQueued tasks ticket t us).Perm (t :: v :: us) :=
      (ih.cons v).trans (.swap t v us)
    rw [insertQueued]
    split
    · split
      · exact .refl _
      · exact hlater
    · exact hlater

theorem Turn.config (h : Turn halts u d es d') : d'.config = d.config := by
  cases h <;> rfl

theorem Turn.maxAttempts (h : Turn halts u d es d') : d'.maxAttempts = d.maxAttempts := by
  rw [Dispatcher.maxAttempts, h.config, Dispatcher.maxAttempts]

/-- Only an acceptance uses up a number. -/
theorem Turn.nextTicket_of_live {t : TaskId} {e : Entry} (h : Turn halts (some t) d es d')
    (live : d.tasks.get? t = some e) : d'.nextTicket = d.nextTicket := by
  cases h with
  | accepted t new =>
    rw [new] at live
    cases live
  | _ => rfl

theorem Turn.frame {v : TaskId} (h : Turn halts u d es d') (hv : u ≠ some v) :
    (v ∈ d'.pending ↔ v ∈ d.pending) ∧ d'.tasks.get? v = d.tasks.get? v ∧
      d'.inFlight.get? v = d.inFlight.get? v := by
  have hne : ∀ {t : TaskId}, some t ≠ some v → v ≠ t := fun h e => h (congrArg some e.symm)
  cases h with
  | quiet => exact ⟨.rfl, rfl, rfl⟩
  | accepted t _ =>
    refine ⟨?_, ?_, rfl⟩
    · simp [enqueueNew, hne hv]
    · simp [enqueueNew, Table.get?_put, hne hv]
  | launched =>
    refine ⟨?_, ?_, ?_⟩
    · exact List.mem_erase_of_ne (hne hv)
    · simp [takeOff, Table.get?_put, hne hv]
    · simp [takeOff, Table.get?_put, hne hv]
  | withdrawn =>
    refine ⟨List.mem_erase_of_ne (hne hv), ?_, rfl⟩
    simp [Table.get?_erase, hne hv]
  | marked =>
    refine ⟨.rfl, ?_, rfl⟩
    simp [Table.get?_put, hne hv]
  | cancelled =>
    refine ⟨.rfl, ?_, ?_⟩ <;> simp [land, Table.get?_erase, hne hv]
  | returned =>
    refine ⟨?_, ?_, ?_⟩
    · simp [requeue, land, (insertQueued_perm _ _ _ _).mem_iff, hne hv]
    · simp [requeue, land, Table.get?_put, hne hv]
    · simp [requeue, land, Table.get?_erase, hne hv]
  | completed =>
    refine ⟨.rfl, ?_, ?_⟩ <;> simp [land, Table.get?_erase, hne hv]
  | retried =>
    refine ⟨?_, ?_, ?_⟩
    · simp [requeue, land, (insertQueued_perm _ _ _ _).mem_iff, hne hv]
    · simp [requeue, land, Table.get?_put, hne hv]
    · simp [requeue, land, Table.get?_erase, hne hv]
  | abandoned =>
    refine ⟨.rfl, ?_, ?_⟩ <;> simp [land, Table.get?_erase, hne hv]
  | halted =>
    refine ⟨.rfl, rfl, ?_⟩
    simp [land, Table.get?_erase, hne hv]

end Dispatcher
end HazardDispatch
