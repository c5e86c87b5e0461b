import HazardDispatch.Proofs.Dispatch.Actions

/-!
# Queue, table and attempts in flight agree

The three collections of a dispatcher tell one story after every run whose sinks return: each live
task is either queued, once, or has one attempt in flight; there are no others in either, and the
entry says the same. `Partitioned` is this invariant read off `Filed`, where it is kept.
-/

namespace HazardDispatch
namespace Dispatcher

variable {σ : Type}

structure Partitioned (d : Dispatcher σ) : Prop where
  once : d.pending.Nodup
  live : ∀ t, (d.tasks.get? t).isSome ↔ t ∈ d.pending ∨ (d.inFlight.get? t).isSome
  apart : ∀ t ∈ d.pending, d.inFlight.get? t = none
  queued : ∀ t e, d.tasks.get? t = some e → t ∈ d.pending →
    e.state = .pending ∧ e.attempts < d.maxAttempts
  running : ∀ t e a, d.tasks.get? t = some e → d.inFlight.get? t = some a →
    e.state = .running ∧ a.number = e.attempts ∧ 1 ≤ e.attempts ∧ e.attempts ≤ d.maxAttempts
  cancelled : ∀ t e, d.tasks.get? t = some e → e.cancelRequested = true →
    (d.inFlight.get? t).isSome

variable {d : Dispatcher σ}

theorem Filed.live_iff (h : d.Filed False) (t : TaskId) :
    (d.tasks.get? t).isSome ↔ t ∈ d.pending ∨ (d.inFlight.get? t).isSome := by
  constructor
  · intro ht
    obtain ⟨e, he⟩ := Option.isSome_iff_exists.mp ht
    rcases h.of_live he with hp | ⟨a, ha⟩
    · exact .inl hp
    · exact .inr (by rw [ha]; rfl)
  · rintro (hp | hf)
    · obtain ⟨e, he, -⟩ := h.of_queued hp
      rw [he]
      rfl
    · obtain ⟨a, ha⟩ := Option.isSome_iff_exists.mp hf
      obtain ⟨e, -, he, -⟩ := h.of_flying ha
      rw [he]
      rfl

theorem Filed.partitioned (h : d.Filed False) : d.Partitioned where
  once := h.once
  live := h.live_iff
  apart t ht := by
    obtain ⟨-, -, landed, -⟩ := h.of_queued ht
    exact landed
  queued t e he ht := by
    obtain ⟨e', he', -, waits⟩ := h.of_queued ht
    obtain rfl := Option.some.inj (he.symm.trans he')
    exact ⟨waits.state, waits.attempts⟩
  running t e a he ha := by
    obtain ⟨e', -, he', runs⟩ := h.of_flying ha
    obtain rfl := Option.some.inj (he.symm.trans he')
    exact ⟨runs.state, runs.attempts.symm, runs.attempts ▸ runs.pos, runs.attempts ▸ runs.le⟩
  cancelled t e he hc := by
    rcases h.of_live he with hp | ⟨a, ha⟩
    · obtain ⟨e', he', -, waits⟩ := h.of_queued hp
      obtain rfl := Option.some.inj (he.symm.trans he')
      rw [waits.wanted] at hc
      cases hc
    · rw [ha]
      rfl

theorem Partitioned.cancel_unknown_iff (h : d.Partitioned) (t : TaskId) :
    (d.cancel t).value = .error (.unknownTask t) ↔ d.tasks.get? t = none := by
  have hlive := h.live t
  unfold cancel
  split
  · next hc =>
    have ht : t ∈ d.pending := List.contains_iff_mem.mp hc
    obtain ⟨e, he⟩ := Option.isSome_iff_exists.mp (hlive.mpr (.inl ht))
    simp [he]
  · next hc =>
    have ht : t ∉ d.pending := fun hp => hc (List.contains_iff_mem.mpr hp)
    cases ha : d.inFlight.get? t with
    | none =>
      have hdead : ¬ (d.tasks.get? t).isSome := by
        rw [hlive, ha]
        rintro (hp | hf)
        · exact ht hp
        · cases hf
      simpa [turnDown] using hdead
    | some a =>
      have hsome := hlive.mpr (.inr (by rw [ha]; rfl))
      obtain ⟨e, he⟩ := Option.isSome_iff_exists.mp hsome
      simp [he]

variable [Sink σ]

/-- After every run whose sinks return, the collections of the dispatcher agree. -/
theorem partitioned_run (config : ControllerConfig) (sink : σ) (os : List Occurrence)
    (hs : (start config sink).SinksReturn os) :
    ((start config sink).run os).next.Partitioned ∧
      ∀ t, (((start config sink).run os).next.cancel t).value = .error (.unknownTask t) ↔
        ((start config sink).run os).next.tasks.get? t = none := by
  have h := (run_filed hs (filed_start config sink)).partitioned
  exact ⟨h, h.cancel_unknown_iff⟩

end Dispatcher

/-! ## a second try -/

def someWorker : WorkerHandle := .new ⟨"w1"⟩ "http://w1" default

def spareWorker : WorkerHandle := .new ⟨"w2"⟩ "http://w2" default

def someTask : Task := { (default : Task) with id := ⟨"t1"⟩ }

def Dispatcher.otherTask : Task := { (default : Task) with id := ⟨"t2"⟩ }

/-- The first attempt at the task fails. -/
def firstResult : TaskResult :=
  .failed someTask.id 1 someWorker.workerId someTask.operation (.execution "no memory") 0

/-- The second one succeeds. -/
def secondResult : TaskResult := { firstResult with attempt := 2, status := .success }

/-- A dispatcher that was just started, with the accounts of a calculation. -/
def firstDay : Dispatcher (Accounts Float) := .start {} (.empty 10)

def secondTry : List Occurrence :=
  [.pool (.register someWorker), .own (.submit someTask), .own (.deliver firstResult),
    .own (.deliver secondResult)]

namespace Dispatcher

/-- After one failure the task runs again, and the collections agree. -/
theorem partitioned_secondTry :
    firstDay.SinksReturn (secondTry.take 3) ∧
      ((firstDay.run (secondTry.take 3)).next.inFlight.get? someTask.id).map (·.number) = some 2 ∧
      (firstDay.run (secondTry.take 3)).next.Partitioned ∧
      ∀ t, ((firstDay.run (secondTry.take 3)).next.cancel t).value = .error (.unknownTask t) ↔
        (firstDay.run (secondTry.take 3)).next.tasks.get? t = none :=
  ⟨⟨rfl, rfl, rfl, trivial⟩, rfl, partitioned_run {} _ (secondTry.take 3) ⟨rfl, rfl, rfl, trivial⟩⟩

end Dispatcher
end HazardDispatch
