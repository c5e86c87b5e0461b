import HazardDispatch.Proofs.Dispatch.Turn

/-!
# Where tasks stand

At any time a task is queued, in flight, or not live at all, and its entry says which. `Stands` is
this for one task: with `halts` it may also be stranded, which is what a sink leaves behind that stops
half-way. `Filed` says that all tasks stand somewhere and that no task is queued twice; it is the
invariant of all turns. A turn moves only the task that it concerns, so that the proof looks at one
task for each turn.
-/

namespace HazardDispatch

/-- The entry of a queued task. -/
structure Entry.Waits (e : Entry) (max : Nat) : Prop where
  state : e.state = .pending
  attempts : e.attempts < max
  wanted : e.cancelRequested = false

/-- The entry of a task whose attempt with the given number is in flight. -/
structure Entry.Runs (e : Entry) (max number : Nat) : Prop where
  state : e.state = .running
  attempts : e.attempts = number
  pos : 1 ≤ number
  le : number ≤ max

namespace Dispatcher

variable {σ : Type}

/-- The place of a task: it has just one. -/
inductive Stands (halts : Prop) (d : Dispatcher σ) (t : TaskId) : Prop where
  | queued {e : Entry} (listed : t ∈ d.pending) (live : d.tasks.get? t = some e)
      (landed : d.inFlight.get? t = none) (waits : e.Waits d.maxAttempts)
  | flying {e : Entry} {a : Attempt} (unlisted : t ∉ d.pending) (live : d.tasks.get? t = some e)
      (flying : d.inFlight.get? t = some a) (runs : e.Runs d.maxAttempts a.number)
  | gone (unlisted : t ∉ d.pending) (dead : d.tasks.get? t = none)
      (landed : d.inFlight.get? t = none)
  | stranded {e : Entry} (h : halts) (unlisted : t ∉ d.pending) (live : d.tasks.get? t = some e)
      (landed : d.inFlight.get? t = none)

structure Filed (halts : Prop) (d : Dispatcher σ) : Prop where
  once : d.pending.Nodup
  stands : ∀ t, d.Stands halts t

variable {halts : Prop} {d d' : Dispatcher σ}

theorem filed_start (config : ControllerConfig) (sink : σ) :
    (start config sink).Filed halts :=
  ⟨.nil, fun _ => .gone List.not_mem_nil rfl rfl⟩

theorem Filed.congr (h : d.Filed halts) (hp : d'.pending = d.pending) (ht : d'.tasks = d.tasks)
    (hf : d'.inFlight = d.inFlight) (hm : d'.maxAttempts = d.maxAttempts) : d'.Filed halts := by
  refine ⟨hp ▸ h.once, fun t => ?_⟩
  cases h.stands t with
  | queued listed live landed waits =>
    exact .queued (hp ▸ listed) (ht ▸ live) (hf ▸ landed) (hm ▸ waits)
  | flying unlisted live flying runs =>
    exact .flying (hp ▸ unlisted) (ht ▸ live) (hf ▸ flying) (hm ▸ runs)
  | gone unlisted dead landed => exact .gone (hp ▸ unlisted) (ht ▸ dead) (hf ▸ landed)
  | stranded h unlisted live landed =>
    exact .stranded h (hp ▸ unlisted) (ht ▸ live) (hf ▸ landed)

theorem Filed.withPool (h : d.Filed halts) (p : Pool) : Filed halts { d with pool := p } :=
  h.congr rfl rfl rfl rfl

/-- The places are the same where sinks may halt in addition. -/
theorem Filed.mono {halts' : Prop} (h : d.Filed halts) (hh : halts → halts') : d.Filed halts' := by
  refine ⟨h.once, fun t => ?_⟩
  cases h.stands t with
  | queued listed live landed waits => exact .queued listed live landed waits
  | flying unlisted live flying runs => exact .flying unlisted live flying runs
  | gone unlisted dead landed => exact .gone unlisted dead landed
  | stranded h unlisted live landed => exact .stranded (hh h) unlisted live landed

/-! ## reading off a place -/

theorem Filed.of_queued (h : d.Filed halts) {t : TaskId} (ht : t ∈ d.pending) :
    ∃ e, d.tasks.get? t = some e ∧ d.inFlight.get? t = none ∧ e.Waits d.maxAttempts := by
  cases h.stands t with
  | queued listed live landed waits => exact ⟨_, live, landed, waits⟩
  | flying unlisted => exact absurd ht unlisted
  | gone unlisted => exact absurd ht unlisted
  | stranded _ unlisted => exact absurd ht unlisted

theorem Filed.of_flying (h : d.Filed halts) {t : TaskId} {a : Attempt}
    (ha : d.inFlight.get? t = some a) :
    ∃ e, t ∉ d.pending ∧ d.tasks.get? t = some e ∧ e.Runs d.maxAttempts a.number := by
  cases h.stands t with
  | queued _ _ landed => rw [landed] at ha; cases ha
  | flying unlisted live flying runs =>
    rw [flying] at ha
    obtain rfl := Option.some.inj ha
    exact ⟨_, unlisted, live, runs⟩
  | gone _ _ landed => rw [landed] at ha; cases ha
  | stranded _ _ _ landed => rw [landed] at ha; cases ha

theorem Filed.of_live (h : d.Filed False) {t : TaskId} {e : Entry}
    (he : d.tasks.get? t = some e) : t ∈ d.pending ∨ ∃ a, d.inFlight.get? t = some a := by
  cases h.stands t with
  | queued listed => exact .inl listed
  | flying _ _ flying => exact .inr ⟨_, flying⟩
  | gone _ dead => rw [dead] at he; cases he
  | stranded h => exact h.elim

/-! ## turns -/

variable [Sink σ] {u : Option TaskId} {es : List Event}

theorem Turn.stands_other (h : Turn halts u d es d') {v : TaskId} (hv : u ≠ some v)
    (hd : d.Stands halts v) : d'.Stands halts v := by
  obtain ⟨hp, ht, hf⟩ := h.frame hv
  have hm := h.maxAttempts
  cases hd with
  | queued listed live landed waits =>
    exact .queued (hp.mpr listed) (ht.trans live) (hf.trans landed) (hm ▸ waits)
  | flying unlisted live flying runs =>
    exact .flying (mt hp.mp unlisted) (ht.trans live) (hf.trans flying) (hm ▸ runs)
  | gone unlisted dead landed =>
    exact .gone (mt hp.mp unlisted) (ht.trans dead) (hf.trans landed)
  | stranded h unlisted live landed =>
    exact .stranded h (mt hp.mp unlisted) (ht.trans live) (hf.trans landed)

/-- A queue that a task, which is not in it, is put into. -/
theorem nodup_insertQueued {tasks : Table TaskId Entry} {ticket : Nat} {t : TaskId}
    {us : List TaskId} (h : us.Nodup) (ht : t ∉ us) : (insertQueued tasks ticket t us).Nodup :=
  (insertQueued_perm tasks ticket t us).nodup_iff.mpr (List.nodup_cons.mpr ⟨ht, h⟩)

theorem Turn.once (h : Turn halts u d es d') (hd : d.Filed halts) : d'.pending.Nodup := by
  cases h with
  | quiet => exact hd.once
  | accepted t new =>
    have ht : t.id ∉ d.pending := fun hq => by
      obtain ⟨e, he, -⟩ := hd.of_queued hq
      rw [new] at he
      cases he
    show (d.pending ++ [t.id]).Nodup
    rw [List.nodup_append]
    refine ⟨hd.once, List.nodup_cons.mpr ⟨List.not_mem_nil, .nil⟩, fun a ha b hb e => ?_⟩
    rw [List.mem_singleton] at hb
    exact ht (hb ▸ e ▸ ha)
  | launched => exact hd.once.erase _
  | withdrawn => exact hd.once.erase _
  | marked => exact hd.once
  | cancelled => exact hd.once
  | returned l flying => exact nodup_insertQueued hd.once (hd.of_flying flying).choose_spec.1
  | completed => exact hd.once
  | retried l flying => exact nodup_insertQueued hd.once (hd.of_flying flying).choose_spec.1
  | abandoned => exact hd.once
  | halted => exact hd.once

theorem Turn.stands_self {t : TaskId} (h : Turn halts (some t) d es d') (hd : d.Filed halts) :
    d'.Stands halts t := by
  cases h with
  | accepted t new =>
    refine .queued ?_ (Table.get?_put_self _ _ _) ?_ ⟨rfl, ?_, rfl⟩
    · show t.id ∈ d.pending ++ [t.id]
      exact List.mem_append_right _ List.mem_cons_self
    · cases hf : d.inFlight.get? t.id with
      | none => exact hf
      | some a =>
        obtain ⟨e, -, he, -⟩ := hd.of_flying hf
        rw [new] at he
        cases he
    · show 0 < max _ 1
      omega
  | launched queued _ live =>
    obtain ⟨e, he, -, hw⟩ := hd.of_queued queued
    obtain rfl := Option.some.inj (live.symm.trans he)
    refine .flying ?_ (Table.get?_put_self _ _ _) (Table.get?_put_self _ _ _) ⟨rfl, rfl, ?_, ?_⟩
    · exact hd.once.not_mem_erase
    · exact Nat.succ_le_succ (Nat.zero_le _)
    · exact hw.attempts
  | withdrawn queued live =>
    obtain ⟨e, -, hf, -⟩ := hd.of_queued queued
    exact .gone hd.once.not_mem_erase (Table.get?_erase_self _ _) hf
  | marked flying live =>
    obtain ⟨e, hp, he, hr⟩ := hd.of_flying flying
    obtain rfl := Option.some.inj (live.symm.trans he)
    exact .flying hp (Table.get?_put_self _ _ _) flying ⟨hr.state, hr.attempts, hr.pos, hr.le⟩
  | cancelled l how flying =>
    obtain ⟨e, hp, -, -⟩ := hd.of_flying flying
    exact .gone hp (Table.get?_erase_self _ _) (Table.get?_erase_self _ _)
  | returned l flying live wanted =>
    obtain ⟨e, -, he, hr⟩ := hd.of_flying flying
    obtain rfl := Option.some.inj (live.symm.trans he)
    refine .queued ?_ (Table.get?_put_self _ _ _) (Table.get?_erase_self _ _) ⟨rfl, ?_, wanted⟩
    · exact (insertQueued_perm _ _ _ _).mem_iff.mpr List.mem_cons_self
    · have h1 := hr.attempts
      have h2 := hr.pos
      have h3 := hr.le
      show _ - 1 < d.maxAttempts
      omega
  | completed l flying =>
    obtain ⟨e, hp, -, -⟩ := hd.of_flying flying
    exact .gone hp (Table.get?_erase_self _ _) (Table.get?_erase_self _ _)
  | retried l flying number live wanted _ _ left =>
    refine .queued ?_ (Table.get?_put_self _ _ _) (Table.get?_erase_self _ _) ⟨rfl, left, wanted⟩
    exact (insertQueued_perm _ _ _ _).mem_iff.mpr List.mem_cons_self
  | abandoned l flying =>
    obtain ⟨e, hp, -, -⟩ := hd.of_flying flying
    exact .gone hp (Table.get?_erase_self _ _) (Table.get?_erase_self _ _)
  | halted l h flying number live =>
    obtain ⟨e, hp, -, -⟩ := hd.of_flying flying
    exact .stranded h hp live (Table.get?_erase_self _ _)

theorem Turn.filed (h : Turn halts u d es d') (hd : d.Filed halts) : d'.Filed halts := by
  refine ⟨h.once hd, fun t => ?_⟩
  -- the task of the turn moves; all others stay where they are
  by_cases hu : u = some t
  · subst hu
    exact h.stands_self hd
  · exact h.stands_other hu (hd.stands t)

theorem Turns.filed (h : Turns halts d es d') (hd : d.Filed halts) : d'.Filed halts :=
  h.keep (fun turn => turn.filed) hd

end Dispatcher
end HazardDispatch
