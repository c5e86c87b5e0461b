import HazardDispatch.Proofs.Dispatch.Actions
import HazardDispatch.Proofs.Pool.Status

/-!
# Busy workers and attempts in flight

The pool says which workers are busy, and the attempts in flight say which workers run a task.
`Leased` says that these are the same workers and that no two attempts have the same one. All turns
keep it: an attempt takes off with an idle worker, which is busy from then on; and when it lands, its
worker is idle, out of rotation or gone, whatever the result.

`Manned` is the part of it that also holds where workers are removed while they run a task: every busy
worker has an attempt.
-/

namespace HazardDispatch

/-! ## statuses after an attempt -/

namespace Pool

theorem status?_vacate_of_ne (p : Pool) (how : Option ResultStatus) {w u : WorkerId} (h : u ≠ w) :
    (p.vacate w how).status? u = p.status? u := by
  unfold vacate
  split
  · rw [status?_release, if_neg (fun c => h c.1)]
  · split
    · rw [status?_deregister, if_neg h]
    · rw [status?_release, if_neg (fun c => h c.1)]
  · rw [status?_markUnreachable, if_neg h]

theorem status?_vacate_ne_busy (p : Pool) (w : WorkerId) (how : Option ResultStatus) :
    (p.vacate w how).status? w ≠ some .busy := by
  have hrelease : (p.release w).pool.status? w ≠ some .busy := by
    rw [status?_release]
    split
    · exact fun c => nomatch c
    · next h => exact fun c => h ⟨rfl, c⟩
  unfold vacate
  split
  · exact hrelease
  · split
    · rw [status?_deregister, if_pos rfl]
      exact fun c => nomatch c
    · exact hrelease
  · rw [status?_markUnreachable, if_pos rfl]
    cases p.status? w <;> exact fun c => nomatch c

end Pool

namespace Dispatcher

variable {σ : Type}

/-- An attempt in flight is on this worker. -/
def Names (d : Dispatcher σ) (w : WorkerId) : Prop :=
  ∃ t a, d.inFlight.get? t = some a ∧ a.worker.workerId = w

/-- Every busy worker has an attempt in flight. -/
def Manned (d : Dispatcher σ) : Prop := ∀ w, d.pool.status? w = some .busy → d.Names w

structure Leased (d : Dispatcher σ) : Prop where
  distinct : ∀ t t' a a', d.inFlight.get? t = some a → d.inFlight.get? t' = some a' →
    a.worker.workerId = a'.worker.workerId → t = t'
  busy : ∀ t a, d.inFlight.get? t = some a → d.pool.status? a.worker.workerId = some .busy
  named : ∀ w, d.pool.status? w = some .busy → d.Names w

variable {d d' : Dispatcher σ}

theorem leased_start (config : ControllerConfig) (sink : σ) : (start config sink).Leased where
  distinct _ _ _ _ ha := nomatch ha
  busy _ _ ha := nomatch ha
  named _ hw := nomatch hw

/-- Only the attempts in flight and the statuses of the workers count. -/
theorem Leased.congr (h : d.Leased) (hf : d'.inFlight = d.inFlight)
    (hp : ∀ w, d'.pool.status? w = d.pool.status? w) : d'.Leased where
  distinct := by rw [hf]; exact h.distinct
  busy t a ha := by
    rw [hf] at ha
    exact (hp _).trans (h.busy t a ha)
  named w hw := by
    rw [hp] at hw
    obtain ⟨t, a, ha, rfl⟩ := h.named w hw
    exact ⟨t, a, by rw [hf]; exact ha, rfl⟩

/-- Others may change the status of workers without an attempt, but not make them busy. -/
theorem Leased.withPool (h : d.Leased) {p : Pool}
    (hp : ∀ w, p.status? w ≠ d.pool.status? w →
      d.pool.status? w ≠ some .busy ∧ p.status? w ≠ some .busy) :
    Leased { d with pool := p } where
  distinct := h.distinct
  busy t a ha := by
    have hb := h.busy t a ha
    by_cases he : p.status? a.worker.workerId = d.pool.status? a.worker.workerId
    · exact he.trans hb
    · exact absurd hb (hp _ he).1
  named w hw := by
    by_cases he : p.status? w = d.pool.status? w
    · exact h.named w (he.symm.trans hw)
    · exact absurd hw (hp w he).2

theorem Leased.register (h : d.Leased) (w : WorkerHandle) :
    Leased { d with pool := (d.pool.register w).pool } := by
  refine h.withPool fun u hu => ?_
  rw [Pool.status?_register] at hu ⊢
  split
  · next he =>
    rw [if_pos he] at hu
    cases hs : d.pool.status? u with
    | none => exact ⟨(fun c => nomatch c), (fun c => nomatch c)⟩
    | some s =>
      rw [hs] at hu
      exact absurd rfl hu
  · next he =>
    rw [if_neg he] at hu
    exact absurd rfl hu

theorem manned_start (config : ControllerConfig) (sink : σ) : (start config sink).Manned :=
  fun _ hw => nomatch hw

theorem Manned.congr (h : d.Manned) (hf : d'.inFlight = d.inFlight)
    (hp : ∀ w, d'.pool.status? w = d.pool.status? w) : d'.Manned := by
  intro w hw
  rw [hp] at hw
  obtain ⟨t, a, ha, hw⟩ := h w hw
  exact ⟨t, a, by rw [hf]; exact ha, hw⟩

theorem Manned.land (h : d.Manned) {t : TaskId} {a : Attempt} (l : Nat)
    (how : Option ResultStatus) (ha : d.inFlight.get? t = some a) :
    (d.land t a.worker.workerId l how).Manned := by
  intro w hw
  by_cases hwa : w = a.worker.workerId
  · rw [hwa] at hw
    exact absurd hw (Pool.status?_vacate_ne_busy _ _ _)
  · obtain ⟨t', a', ha', rfl⟩ := h w ((Pool.status?_vacate_of_ne _ _ hwa).symm.trans hw)
    have hne : t' ≠ t := by
      rintro rfl
      rw [ha] at ha'
      exact hwa (congrArg (·.worker.workerId) (Option.some.inj ha').symm)
    exact ⟨t', a', (Table.get?_erase_of_ne _ hne).trans ha', rfl⟩

theorem Leased.land (h : d.Leased) {t : TaskId} {a : Attempt} (l : Nat)
    (how : Option ResultStatus) (ha : d.inFlight.get? t = some a) :
    (d.land t a.worker.workerId l how).Leased := by
  have hget {t' : TaskId} {a' : Attempt}
      (ha' : (d.land t a.worker.workerId l how).inFlight.get? t' = some a') :
      t' ≠ t ∧ d.inFlight.get? t' = some a' := by
    rw [Dispatcher.land, Table.get?_erase] at ha'
    split at ha'
    · cases ha'
    · next hne => exact ⟨hne, ha'⟩
  constructor
  · intro t₁ t₂ a₁ a₂ h₁ h₂ hw
    exact h.distinct t₁ t₂ a₁ a₂ (hget h₁).2 (hget h₂).2 hw
  · intro t' a' ha'
    obtain ⟨hne, ha'⟩ := hget ha'
    have hw : a'.worker.workerId ≠ a.worker.workerId := fun hw =>
      hne (h.distinct t' t a' a ha' ha hw)
    exact (Pool.status?_vacate_of_ne _ _ hw).trans (h.busy t' a' ha')
  · exact Manned.land h.named l how ha

/-- The worker of an assignment was idle and is busy now; no other worker is touched. -/
theorem status?_of_assign? {t : TaskId} {a : Assignment} (ha : d.assign? t = some a) :
    d.pool.status? a.worker.workerId = some .idle ∧
      ∀ u, a.pool.status? u =
        if u = a.worker.workerId then some .busy else d.pool.status? u := by
  obtain ⟨w, hw, rfl⟩ := Option.map_eq_some_iff.mp ha
  obtain ⟨e, he, hidle, -⟩ := Pool.acquireAvoiding_some hw
  refine ⟨?_, Pool.status?_acquireAvoiding hw⟩
  rw [Pool.status?_of_entry he, hidle]

theorem Manned.takeOff (h : d.Manned) {a : Assignment} (e : Entry)
    (ha : d.assign? a.task = some a) (landed : d.inFlight.get? a.task = none) :
    (d.takeOff a e).Manned := by
  obtain ⟨-, hp⟩ := status?_of_assign? ha
  intro w hw
  replace hw := (hp w).symm.trans hw
  split at hw
  · next he => exact ⟨a.task, _, Table.get?_put_self _ _ _, he.symm⟩
  · obtain ⟨t', a', ha', rfl⟩ := h w hw
    have hne : t' ≠ a.task := by
      rintro rfl
      rw [landed] at ha'
      cases ha'
    exact ⟨t', a', (Table.get?_put_of_ne _ _ hne).trans ha', rfl⟩

/-- An attempt starts on a worker that was idle. -/
theorem Leased.takeOff (h : d.Leased) {a : Assignment} (e : Entry)
    (ha : d.assign? a.task = some a) (landed : d.inFlight.get? a.task = none) :
    (d.takeOff a e).Leased := by
  obtain ⟨hidle, hp⟩ := status?_of_assign? ha
  have hget {t' : TaskId} {a' : Attempt} (ha' : (d.takeOff a e).inFlight.get? t' = some a') :
      t' = a.task ∧ a'.worker = a.worker ∨ t' ≠ a.task ∧ d.inFlight.get? t' = some a' := by
    rw [Dispatcher.takeOff, Table.get?_put] at ha'
    split at ha'
    · next he => exact .inl ⟨he, congrArg (·.worker) (Option.some.inj ha').symm⟩
    · next hne => exact .inr ⟨hne, ha'⟩
  have hother {t' : TaskId} {a' : Attempt} (ha' : d.inFlight.get? t' = some a') :
      a'.worker.workerId ≠ a.worker.workerId := by
    intro hw
    have hb := h.busy t' a' ha'
    rw [hw, hidle] at hb
    cases hb
  constructor
  · intro t₁ t₂ a₁ a₂ h₁ h₂ hw
    rcases hget h₁ with ⟨rfl, hw₁⟩ | ⟨-, h₁⟩ <;> rcases hget h₂ with ⟨rfl, hw₂⟩ | ⟨-, h₂⟩
    · rfl
    · rw [hw₁] at hw
      exact absurd hw.symm (hother h₂)
    · rw [hw₂] at hw
      exact absurd hw (hother h₁)
    · exact h.distinct t₁ t₂ a₁ a₂ h₁ h₂ hw
  · intro t' a' ha'
    refine (hp _).trans ?_
    rcases hget ha' with ⟨-, hw⟩ | ⟨-, ha'⟩
    · rw [if_pos (congrArg _ hw)]
    · rw [if_neg (hother ha')]
      exact h.busy t' a' ha'
  · exact Manned.takeOff h.named e ha landed

variable [Sink σ] {halts : Prop} {u : Option TaskId} {es : List Event}

/-- What a turn keeps that depends on the attempts in flight and the statuses of the workers only. -/
theorem Turn.keep_lease {P : Dispatcher σ → Prop}
    (congr : ∀ {d d' : Dispatcher σ}, P d → d'.inFlight = d.inFlight →
      (∀ w, d'.pool.status? w = d.pool.status? w) → P d')
    (land : ∀ {d : Dispatcher σ} {t a} (l how), P d → d.inFlight.get? t = some a →
      P (d.land t a.worker.workerId l how))
    (takeOff : ∀ {d : Dispatcher σ} {a} (e), P d → d.assign? a.task = some a →
      d.inFlight.get? a.task = none → P (d.takeOff a e))
    (h : Turn halts u d es d') (hd : d.Filed halts) (hp : P d) : P d' := by
  cases h with
  | quiet => exact congr hp rfl fun _ => rfl
  | accepted => exact congr hp rfl fun _ => rfl
  | launched queued assigned live =>
    obtain ⟨-, -, landed, -⟩ := hd.of_queued queued
    exact takeOff _ hp assigned landed
  | withdrawn => exact congr hp rfl fun _ => rfl
  | marked => exact congr hp rfl fun _ => rfl
  | cancelled l how flying => exact congr (land l how hp flying) rfl fun _ => rfl
  | returned l flying => exact congr (land l none hp flying) rfl fun _ => rfl
  | completed l flying => exact congr (land l _ hp flying) rfl fun _ => rfl
  | retried l flying => exact congr (land l _ hp flying) rfl fun _ => rfl
  | abandoned l flying => exact congr (land l _ hp flying) rfl fun _ => rfl
  | halted l _ flying => exact congr (land l _ hp flying) rfl fun _ => rfl

theorem Turn.leased (h : Turn halts u d es d') (hd : d.Filed halts) (hl : d.Leased) :
    d'.Leased :=
  h.keep_lease (fun h => h.congr) (fun l how h => h.land l how) (fun e h => h.takeOff e) hd hl

theorem Turn.manned (h : Turn halts u d es d') (hd : d.Filed halts) (hm : d.Manned) :
    d'.Manned :=
  h.keep_lease (fun h => h.congr) (fun l how h => h.land l how) (fun e h => h.takeOff e) hd hm

/-- Whoever is out of rotation stays so: no attempt is on that worker. -/
theorem Turn.unreachable (h : Turn halts u d es d') (hl : d.Leased) {w : WorkerId}
    (hw : d.pool.status? w = some .unreachable) : d'.pool.status? w = some .unreachable := by
  have hland {t : TaskId} {a : Attempt} (how : Option ResultStatus)
      (ha : d.inFlight.get? t = some a) :
      (d.pool.vacate a.worker.workerId how).status? w = some .unreachable := by
    refine (Pool.status?_vacate_of_ne _ _ ?_).trans hw
    rintro rfl
    rw [hl.busy t a ha] at hw
    cases hw
  cases h with
  | quiet => exact hw
  | accepted => exact hw
  | launched _ assigned =>
    obtain ⟨hidle, hp⟩ := status?_of_assign? assigned
    refine (hp w).trans ?_
    rw [if_neg, hw]
    rintro rfl
    rw [hw] at hidle
    cases hidle
  | withdrawn => exact hw
  | marked => exact hw
  | cancelled _ _ flying => exact hland _ flying
  | returned _ flying => exact hland _ flying
  | completed _ flying => exact hland _ flying
  | retried _ flying => exact hland _ flying
  | abandoned _ flying => exact hland _ flying
  | halted _ _ flying => exact hland _ flying

end Dispatcher
end HazardDispatch
