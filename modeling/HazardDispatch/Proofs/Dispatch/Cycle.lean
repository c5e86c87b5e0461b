import HazardDispatch.Proofs.Dispatch.Progress
import HazardDispatch.Proofs.Dispatch.Queue

/-!
# What a scheduling cycle assigns

`Cycle d c` says of a cycle from `d` with the outcome `c` that each of its assignments was the right one
when it was made, and that it stopped only when there was none left. The right one (`Picks`) is that of
the earliest submission which a worker can be had for. An earlier submission is passed over only while
one worker alone is idle, the one that its last attempt went to, and another one is alive
(`PassedOver`).

Every cycle is such a one, in every state that a run comes to and with whatever pool it finds there
(`pump_cycle`). It may leave off looking for a task as soon as no worker is idle (`scan_pending`).
-/

namespace HazardDispatch.Dispatcher

variable {σ : Type}

/-- No worker can be had for the task: the only idle one is the one that it went to last, and waiting
may bring another one. -/
def PassedOver (d : Dispatcher σ) (t : TaskId) : Prop :=
  ∃ e w, d.tasks.get? t = some e ∧ e.lastWorker = some w ∧
    (d.pool.acquireAvoiding (some w)).value = none ∧
    (∀ u, d.pool.status? u = some .idle ↔ u = w) ∧
    ∃ v, v ≠ w ∧ ∃ s, d.pool.status? v = some s ∧ s.isLive = true

/-- The assignment is the one that is due. -/
structure Picks (d : Dispatcher σ) (a : Assignment) : Prop where
  queued : a.task ∈ d.pending
  assigned : ∃ e, d.tasks.get? a.task = some e ∧
    (d.pool.acquireAvoiding e.lastWorker).value = some a.worker ∧
    (d.pool.acquireAvoiding e.lastWorker).pool = a.pool
  earliest : ∀ t ∈ d.pending, Earlier d.tasks t a.task → d.PassedOver t

/-- No worker can be had for any queued task. -/
def Exhausted (d : Dispatcher σ) : Prop :=
  ∀ t ∈ d.pending, ∃ e, d.tasks.get? t = some e ∧ (d.pool.acquireAvoiding e.lastWorker).value = none

inductive Cycle : Dispatcher σ → Change σ → Prop where
  | stop {d : Dispatcher σ} (h : d.Exhausted) : Cycle d (.none d)
  | assign {d : Dispatcher σ} {a : Assignment} {c : Change σ} (h : d.Picks a)
      (rest : Cycle (d.launch a).next c) : Cycle d ⟨c.next, (d.launch a).events ++ c.events⟩

/-- The first task of the list that a worker can be had for; the search is left off when no worker is
idle. -/
def scan (d : Dispatcher σ) : List TaskId → Option Assignment
  | [] => none
  | t :: ts => (d.assign? t).or (if d.pool.idleCount = 0 then none else d.scan ts)

variable {d : Dispatcher σ}

/-! ## one assignment -/

theorem assign?_of_live {t : TaskId} {e : Entry} (he : d.tasks.get? t = some e) :
    d.assign? t = (d.pool.acquireAvoiding e.lastWorker).value.map fun w =>
      { task := t, worker := w, pool := (d.pool.acquireAvoiding e.lastWorker).pool
        log := (d.pool.acquireAvoiding e.lastWorker).log } := by
  rw [assign?, he]
  rfl

theorem assign?_eq_none_iff {t : TaskId} {e : Entry} (he : d.tasks.get? t = some e) :
    d.assign? t = none ↔ (d.pool.acquireAvoiding e.lastWorker).value = none := by
  rw [assign?_of_live he, Option.map_eq_none_iff]

theorem assigned_of_live {t : TaskId} {e : Entry} {a : Assignment} (he : d.tasks.get? t = some e)
    (ha : d.assign? t = some a) :
    (d.pool.acquireAvoiding e.lastWorker).value = some a.worker ∧
      (d.pool.acquireAvoiding e.lastWorker).pool = a.pool := by
  rw [assign?_of_live he] at ha
  obtain ⟨w, hw, rfl⟩ := Option.map_eq_some_iff.mp ha
  exact ⟨hw, rfl⟩

theorem passedOver_of_refused {t : TaskId} {e : Entry} {w : WorkerId}
    (he : d.tasks.get? t = some e) (hw : d.pool.status? w = some .idle)
    (h : (d.pool.acquireAvoiding e.lastWorker).value = none) : d.PassedOver t := by
  have hrefused := Pool.acquireAvoiding_eq_none_iff.mp h
  obtain ⟨hlast, hlive⟩ := hrefused w hw
  refine ⟨e, w, he, hlast, hlast ▸ h, fun u => ⟨fun hu => ?_, fun hu => hu ▸ hw⟩, hlive⟩
  exact Option.some.inj ((hrefused u hu).1.symm.trans hlast)

theorem Earlier.irrefl {tasks : Table TaskId Entry} {t : TaskId} : ¬ Earlier tasks t t := by
  rintro ⟨e, f, he, hf, hlt⟩
  obtain rfl := Option.some.inj (he.symm.trans hf)
  exact Nat.lt_irrefl _ hlt

/-- The first task in the queue that a worker can be had for is the earliest one. -/
theorem picks_of_next {halts : Prop} {a : Assignment} (hd : d.Filed halts) (hr : d.Ranked)
    (h : d.nextAssignment? = some a) : d.Picks a := by
  obtain ⟨before, t, after, hsplit, ha, hbefore⟩ := List.findSome?_eq_some_iff.mp h
  obtain rfl := task_of_assign? ha
  have hqueued : a.task ∈ d.pending := by
    rw [hsplit]
    exact List.mem_append_right _ List.mem_cons_self
  obtain ⟨e, he, -⟩ := hd.of_queued hqueued
  obtain ⟨hvalue, hpool⟩ := assigned_of_live he ha
  have hstatus : d.pool.status? a.worker.workerId = some .idle := (status?_of_assign? ha).1
  refine ⟨hqueued, ⟨e, he, hvalue, hpool⟩, fun u hu hearlier => ?_⟩
  have hfront : u ∈ before := by
    rw [hsplit, List.mem_append, List.mem_cons] at hu
    rcases hu with hu | rfl | hu
    · exact hu
    · exact absurd hearlier Earlier.irrefl
    · have hsorted := hr.sorted
      rw [hsplit, List.pairwise_append, List.pairwise_cons] at hsorted
      exact absurd (hearlier.trans (hsorted.2.1.1 u hu)) Earlier.irrefl
  obtain ⟨g, hg, -⟩ := hd.of_queued hu
  exact passedOver_of_refused hg hstatus ((assign?_eq_none_iff hg).mp (hbefore u hfront))

theorem exhausted_of_next {halts : Prop} (hd : d.Filed halts) (h : d.nextAssignment? = none) :
    d.Exhausted := by
  intro t ht
  obtain ⟨e, he, -⟩ := hd.of_queued ht
  exact ⟨e, he, (assign?_eq_none_iff he).mp (List.findSome?_eq_none_iff.mp h t ht)⟩

/-! ## the whole cycle -/

theorem pumpRounds_cycle [Sink σ] {halts : Prop} (n : Nat) (hn : d.pending.length ≤ n)
    (hd : d.Filed halts) (hr : d.Ranked) : d.Cycle (pumpRounds n d) := by
  induction n generalizing d with
  | zero =>
    have hnil : d.pending = [] := List.eq_nil_of_length_eq_zero (Nat.le_zero.mp hn)
    refine .stop fun t ht => ?_
    rw [hnil] at ht
    cases ht
  | succ n ih =>
    rw [pumpRounds]
    cases h : d.nextAssignment? with
    | none => exact .stop (exhausted_of_next hd h)
    | some a =>
      have hpicks := picks_of_next hd hr h
      obtain ⟨t, ht, ha⟩ := List.exists_of_findSome?_eq_some h
      have hturns : Turns halts d _ (d.launch a).next := (launch_follows hd ht ha).turns
      have hkept := hturns.keep (P := fun d => d.Filed halts ∧ d.Ranked)
        (fun turn h => ⟨turn.filed h.1, turn.ranked h.1 h.2⟩) ⟨hd, hr⟩
      have hlength : (d.launch a).next.pending.length ≤ n := by
        have hpos := List.length_pos_of_mem hpicks.queued
        rw [launch_pending, List.length_erase_of_mem hpicks.queued]
        omega
      exact .assign hpicks (ih hlength hkept.1 hkept.2)

/-- In every state that a run comes to, the queue is in the order of submission; and with any pool the
scheduling cycle makes the assignments that are due, one after the other, until no worker can be had
for a queued task. -/
theorem pump_cycle [Sink σ] (config : ControllerConfig) (sink : σ) (os : List Occurrence) :
    let d := ((start config sink).run os).next
    d.pending.Pairwise (Earlier d.tasks) ∧
      ∀ p : Pool, Cycle { d with pool := p } (pump { d with pool := p }) := by
  intro d
  have hr : d.Ranked := run_ranked config sink os
  have hd : d.Filed True := run_filed_any os (filed_start config sink)
  exact ⟨hr.sorted, fun p => pumpRounds_cycle _ (Nat.le_refl _) (hd.withPool p) (hr.withPool p)⟩

/-! ## leaving off early -/

theorem assign?_of_idleCount (h : d.pool.idleCount = 0) (t : TaskId) : d.assign? t = none := by
  refine Option.map_eq_none_iff.mpr (Pool.acquireAvoiding_eq_none_iff.mpr fun w hw => ?_)
  exact absurd h (Pool.idleCount_ne_zero hw)

theorem scan_eq (ts : List TaskId) : d.scan ts = ts.findSome? d.assign? := by
  induction ts with
  | nil => rfl
  | cons t ts ih =>
    rw [scan, List.findSome?_cons, ih]
    by_cases h : d.pool.idleCount = 0
    · have hnone : ts.findSome? d.assign? = none :=
        List.findSome?_eq_none_iff.mpr fun u _ => assign?_of_idleCount h u
      rw [if_pos h, hnone, assign?_of_idleCount h]
      rfl
    · rw [if_neg h]
      cases d.assign? t <;> rfl

theorem scan_pending (d : Dispatcher σ) : d.scan d.pending = d.nextAssignment? := scan_eq d.pending

end HazardDispatch.Dispatcher
