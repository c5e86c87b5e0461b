import HazardDispatch.Proofs.Dispatch.Leases
import HazardDispatch.Proofs.Dispatch.Partition

/-!
# Workers that are removed and come back

Others may remove a worker from the pool at any time, and a removed worker may register again. The
pool knows workers by name only, so a worker that is removed while it runs a task comes back idle,
and is given a second task while the first is still in flight.

Only removals of workers that run a task do harm. As long as there are none (`SparesAll`), the
attempts in flight have distinct workers that are busy (`run_leased`). But each such removal can be
followed by harmless things only and still end with two attempts on one worker
(`doubleBooked_of_comeback`): the idle workers are removed, the removed one comes back, and a new task
is submitted.
-/

namespace HazardDispatch

/-- What the dispatcher does, a heartbeat, or a removal. -/
def Occurrence.isTraffic : Occurrence → Bool
  | own _ => true
  | pool (.register _) => true
  | pool (.deregister _) => true
  | pool _ => false

namespace Pool

def idleWorkers (p : Pool) : List WorkerId :=
  p.workers.keys.filter fun w => p.status? w == some .idle

theorem mem_idleWorkers {p : Pool} {w : WorkerId} :
    w ∈ p.idleWorkers ↔ p.status? w = some .idle := by
  rw [idleWorkers, List.mem_filter, beq_iff_eq, and_iff_right_iff_imp]
  exact mem_keys_of_status?

end Pool

namespace Dispatcher

variable {σ : Type}

/-- Two attempts in flight are on the same worker. -/
def DoubleBooked (d : Dispatcher σ) : Prop :=
  ∃ t t' a a', t ≠ t' ∧ d.inFlight.get? t = some a ∧ d.inFlight.get? t' = some a' ∧
    a.worker.workerId = a'.worker.workerId

theorem Leased.not_doubleBooked {d : Dispatcher σ} (h : d.Leased) : ¬ d.DoubleBooked := by
  rintro ⟨t, t', a, a', hne, ha, ha', hw⟩
  exact hne (h.distinct t t' a a' ha ha' hw)

/-- No attempt in flight is on a worker that is removed. -/
def Spares (d : Dispatcher σ) (o : Occurrence) : Prop :=
  o.isTraffic = true ∧ ∀ w, o = .pool (.deregister w) → ¬ d.Names w

def SparesAll [Sink σ] (d : Dispatcher σ) : List Occurrence → Prop
  | [] => True
  | o :: os => d.Spares o ∧ SparesAll (d.undergo o).change.next os

def removed (d : Dispatcher σ) (w : WorkerId) : Dispatcher σ :=
  { d with pool := (d.pool.deregister w).pool }

variable [Sink σ] {d : Dispatcher σ}

theorem sparesAll_append (os os' : List Occurrence) :
    d.SparesAll (os ++ os') ↔ d.SparesAll os ∧ (d.run os).next.SparesAll os' := by
  induction os generalizing d with
  | nil => exact ⟨fun h => ⟨trivial, h⟩, fun h => h.2⟩
  | cons o os ih =>
    show (_ ∧ SparesAll _ (os ++ os')) ↔ (_ ∧ SparesAll _ os) ∧ _
    rw [ih, and_assoc]
    rfl

/-! ## without harmful removals -/

omit [Sink σ] in
theorem Leased.removed (h : d.Leased) {w : WorkerId} (hw : ¬ d.Names w) :
    (d.removed w).Leased := by
  refine h.withPool fun u hu => ?_
  rw [Pool.status?_deregister] at hu ⊢
  split
  · next he =>
    rw [he]
    exact ⟨fun hb => hw (h.named w hb), (fun c => nomatch c)⟩
  · next he =>
    rw [if_neg he] at hu
    exact absurd rfl hu

theorem undergo_leased {o : Occurrence} (hd : d.Filed True) (hl : d.Leased) (hs : d.Spares o) :
    (d.undergo o).change.next.Filed True ∧ (d.undergo o).change.next.Leased := by
  obtain ⟨htraffic, hspares⟩ := hs
  match o with
  | .own a =>
    have hf : Turns True d _ (d.act a).change.next := act_turns hd fun _ => trivial
    exact hf.keep (P := fun d => d.Filed True ∧ d.Leased)
      (fun turn ⟨hd, hl⟩ => ⟨turn.filed hd, turn.leased hd hl⟩) ⟨hd, hl⟩
  | .pool (.register h) => exact ⟨hd.withPool _, hl.register h⟩
  | .pool (.deregister w) => exact ⟨hd.withPool _, hl.removed (hspares w rfl)⟩

theorem run_leased {os : List Occurrence} (hd : d.Filed True) (hl : d.Leased)
    (hs : d.SparesAll os) : (d.run os).next.Filed True ∧ (d.run os).next.Leased := by
  induction os generalizing d with
  | nil => exact ⟨hd, hl⟩
  | cons o os ih =>
    obtain ⟨hd', hl'⟩ := undergo_leased hd hl hs.1
    exact ih hd' hl' hs.2

/-! ## a harmful removal -/

/-- A cycle begins while one worker is idle and a queued task takes any worker: then some queued task
starts on that worker. -/
theorem pump_books {w : WorkerId} {t : TaskId} {e : Entry} (hd : d.Filed True)
    (hidle : ∀ u, d.pool.status? u = some .idle ↔ u = w) (ht : t ∈ d.pending)
    (live : d.tasks.get? t = some e) (free : e.lastWorker = none) :
    ∃ t' a, t' ∈ d.pending ∧ d.pump.next.inFlight.get? t' = some a ∧ a.worker.workerId = w := by
  have hassign : d.assign? t ≠ none := by
    have hv := Pool.acquireAvoiding_none_ne_none ((hidle w).mpr rfl)
    unfold assign?
    rw [live]
    simp only [Option.bind_some, free, ne_eq, Option.map_eq_none_iff]
    exact hv
  obtain ⟨x, hx⟩ : ∃ x, d.nextAssignment? = some x := by
    rw [← Option.isSome_iff_exists, nextAssignment?, List.findSome?_isSome_iff]
    exact ⟨t, ht, Option.isSome_iff_ne_none.mpr hassign⟩
  obtain ⟨u, hu, hux⟩ := List.exists_of_findSome?_eq_some hx
  have hw : x.worker.workerId = w := (hidle _).mp (status?_of_assign? hux).1
  obtain rfl := task_of_assign? hux
  obtain ⟨e', live', -⟩ := hd.of_queued hu
  refine ⟨x.task, d.attemptOf x e', hu, ?_, hw⟩
  obtain ⟨n, hn⟩ : ∃ n, d.pending.length = n + 1 :=
    ⟨d.pending.length - 1, by have := List.length_pos_of_mem hu; omega⟩
  have hfl := (launch_follows hd hu hux).filed hd
  have hpump : d.pump = (d.launch x).andThen (pumpRounds n) := by
    rw [pump, hn, pumpRounds, hx]
  rw [hpump]
  refine pumpRounds_keeps n hfl ?_
  rw [launch_eq live']
  exact Table.get?_put_self _ _ _

def removedAll (d : Dispatcher σ) (ws : List WorkerId) : Dispatcher σ := ws.foldl removed d

omit [Sink σ] in
theorem removedAll_eq (d : Dispatcher σ) (ws : List WorkerId) :
    ∃ p : Pool, d.removedAll ws = { d with pool := p } ∧
      ∀ u, p.status? u = if u ∈ ws then none else d.pool.status? u := by
  induction ws generalizing d with
  | nil => exact ⟨d.pool, rfl, fun u => (if_neg List.not_mem_nil).symm⟩
  | cons w ws ih =>
    obtain ⟨p, hp, hs⟩ := ih (d.removed w)
    refine ⟨p, hp, fun u => ?_⟩
    rw [hs u]
    show (if u ∈ ws then none else (d.pool.deregister w).pool.status? u) = _
    rw [Pool.status?_deregister]
    by_cases hw : u = w
    · rw [if_pos hw, if_pos (List.mem_cons.mpr (.inl hw)), ite_self]
    · rw [if_neg hw]
      simp only [List.mem_cons, hw, false_or]

def removals (ws : List WorkerId) : List Occurrence := ws.map fun w => .pool (.deregister w)

theorem run_removals (d : Dispatcher σ) (ws : List WorkerId) :
    (d.run (removals ws)).next = d.removedAll ws := by
  induction ws generalizing d with
  | nil => rfl
  | cons w ws ih => exact ih (d.removed w)

theorem sparesAll_removals {ws : List WorkerId} (h : ∀ w ∈ ws, ¬ d.Names w) :
    d.SparesAll (removals ws) := by
  induction ws generalizing d with
  | nil => trivial
  | cons w ws ih =>
    refine ⟨⟨rfl, ?_⟩, ih (d := d.removed w) fun u hu => h u (List.mem_cons_of_mem _ hu)⟩
    rintro _ ⟨⟩
    exact h w List.mem_cons_self

omit [Sink σ] in
theorem submit_accepted {t : Task} (running : d.stopped = false)
    (new : d.tasks.get? t.id = none) (idle : d.pool.idleCount ≠ 0) :
    d.submit t = ⟨.ok ⟨d.nextTicket, t.id⟩,
      (d.enqueueNew t).pump.saying [⟨.debug, "Task submitted"⟩]⟩ := by
  have hc : d.tasks.contains t.id = false := (Table.contains_eq_false_iff _ _).mpr new
  unfold submit
  rw [running, hc, if_neg Bool.false_ne_true, if_neg Bool.false_ne_true,
    if_neg fun c => idle c.2]

/-- The idle workers are removed, the worker comes back, and a task is submitted. -/
def comeback (d : Dispatcher σ) (w : WorkerId) (t : Task) : List Occurrence :=
  removals d.pool.idleWorkers ++
    [.pool (.register (.new w "" default)), .own (.submit t)]

/-- All that happens at a comeback is harmless. -/
theorem sparesAll_comeback (hl : d.Leased) (w : WorkerId) (t : Task) :
    (d.removed w).SparesAll ((d.removed w).comeback w t) := by
  rw [comeback, sparesAll_append]
  refine ⟨sparesAll_removals fun u hu => ?_, ⟨rfl, ?_⟩, ⟨rfl, ?_⟩, trivial⟩
  · rintro ⟨t', a, ha, rfl⟩
    have hb := hl.busy t' a ha
    have hi : (d.pool.deregister w).pool.status? a.worker.workerId = some .idle :=
      Pool.mem_idleWorkers.mp hu
    rw [Pool.status?_deregister, hb] at hi
    split at hi <;> cases hi
  · rintro _ ⟨⟩
  · rintro _ ⟨⟩

/-- A worker that was removed at work and comes back gets a second task. -/
theorem doubleBooked_of_comeback (hd : d.Filed True) (running : d.stopped = false)
    {w : WorkerId} (hw : d.Names w) {t : Task} (new : d.tasks.get? t.id = none) :
    ((d.removed w).run ((d.removed w).comeback w t)).next.DoubleBooked := by
  obtain ⟨t₁, a₁, ha₁, hw⟩ := hw
  obtain ⟨p, hp, hstatus⟩ := (d.removed w).removedAll_eq (d.removed w).pool.idleWorkers
  let p' := (p.register (.new w "" default)).pool
  have hnone : ∀ u, p.status? u ≠ some .idle := by
    intro u hu
    rw [hstatus u] at hu
    split at hu
    · cases hu
    · next hmem => exact hmem (Pool.mem_idleWorkers.mpr hu)
  have hgone : p.status? w = none := by
    rw [hstatus w]
    split
    · rfl
    · show (d.pool.deregister w).pool.status? w = none
      rw [Pool.status?_deregister, if_pos rfl]
  have hidle : ∀ u, p'.status? u = some .idle ↔ u = w := by
    intro u
    rw [Pool.status?_register]
    show (if u = w then _ else _) = _ ↔ _
    split
    · next he =>
      rw [he, hgone]
      exact ⟨fun _ => rfl, fun _ => rfl⟩
    · next he => exact ⟨fun hu => absurd hu (hnone u), fun hu => absurd hu he⟩
  let d' : Dispatcher σ := { d with pool := p' }
  have hd' : (d'.enqueueNew t).Filed True :=
    (enqueueNew_turns (d := d') ((Table.contains_eq_false_iff _ _).mpr new)).filed
      (hd.withPool p')
  have hrun : ((d.removed w).run ((d.removed w).comeback w t)).next
      = (d'.enqueueNew t).pump.next := by
    rw [comeback, run_append]
    show (run ((d.removed w).run (removals _)).next _).next = _
    rw [run_removals, hp]
    show (d'.submit t).change.next = _
    rw [submit_accepted (d := d') running new (Pool.idleCount_ne_zero ((hidle w).mpr rfl))]
    rfl
  -- it is the only idle worker when it is back, so the next task that starts gets it
  obtain ⟨t₂, a₂, ht₂, ha₂, hw₂⟩ := pump_books hd' hidle
    (List.mem_append_right d.pending List.mem_cons_self) (Table.get?_put_self _ _ _) rfl
  have hkept : (d'.enqueueNew t).pump.next.inFlight.get? t₁ = some a₁ :=
    pumpRounds_keeps _ hd' ha₁
  -- the first task is in flight and not queued, so this is another one
  obtain ⟨e, unlisted, -⟩ := hd'.of_flying (t := t₁) (a := a₁) ha₁
  rw [hrun]
  exact ⟨t₁, t₂, a₁, a₂, fun he => unlisted (he ▸ ht₂), hkept, ha₂, hw.trans hw₂.symm⟩

/-- As long as no worker is removed while it runs a task, the attempts in flight have distinct
workers, which are the busy ones. And before the dispatcher is shut down, the removal of a worker is
safe just if no attempt is on it: otherwise harmless things can follow that book the worker twice. -/
theorem removal_harmless_iff (config : ControllerConfig) (sink : σ) (os : List Occurrence)
    (hs : (start config sink).SparesAll os) :
    ((start config sink).run os).next.Leased ∧
      (((start config sink).run os).next.stopped = false → ∀ w,
        ¬ ((start config sink).run os).next.Names w ↔
          ∀ os', (((start config sink).run os).next.removed w).SparesAll os' →
            ¬ ((((start config sink).run os).next.removed w).run os').next.DoubleBooked) := by
  obtain ⟨hd, hl⟩ := run_leased (filed_start config sink) (leased_start config sink) hs
  generalize ((start config sink).run os).next = d at hd hl ⊢
  refine ⟨hl, fun running w => ⟨fun hw os' hs' => ?_, fun h hw => ?_⟩⟩
  · exact (run_leased (hd.withPool _) (hl.removed hw) hs').2.not_doubleBooked
  · obtain ⟨t, new, -⟩ := Table.exists_new_key TaskId.text (fun _ => rfl) d.tasks []
    exact h _ (sparesAll_comeback hl w { (default : Task) with id := t })
      (doubleBooked_of_comeback hd running hw new)

/-- While its first task runs, the worker must not be removed. -/
theorem removal_harmful_atWork :
    firstDay.SparesAll (secondTry.take 2) ∧
      (firstDay.run (secondTry.take 2)).next.Leased ∧
      (firstDay.run (secondTry.take 2)).next.Names someWorker.workerId ∧
      ∃ os', ((firstDay.run (secondTry.take 2)).next.removed someWorker.workerId).SparesAll os' ∧
        (((firstDay.run (secondTry.take 2)).next.removed someWorker.workerId).run
          os').next.DoubleBooked := by
  have hs : firstDay.SparesAll (secondTry.take 2) := by
    refine ⟨⟨rfl, ?_⟩, ⟨rfl, ?_⟩, trivial⟩
    · rintro _ ⟨⟩
    · rintro _ ⟨⟩
  obtain ⟨hl, hiff⟩ := removal_harmless_iff {} _ (secondTry.take 2) hs
  have hnames : (firstDay.run (secondTry.take 2)).next.Names someWorker.workerId :=
    ⟨someTask.id, _, rfl, rfl⟩
  refine ⟨hs, hl, hnames, Classical.byContradiction fun h => ?_⟩
  exact (hiff rfl someWorker.workerId).mpr (fun os' hs' hb => h ⟨os', hs', hb⟩) hnames

/-- A worker is removed at work, comes back, and a second task is submitted. -/
def removedAtWork : List Occurrence :=
  secondTry.take 2 ++ [.pool (.deregister someWorker.workerId), .pool (.register someWorker),
    .own (.submit otherTask)]

/-- The worker has two tasks then; and once the first one is done it is idle, while the second one is
still in flight on it. -/
theorem doubleBooked_removedAtWork :
    removedAtWork.all (·.isTraffic) = true ∧ (firstDay.run removedAtWork).next.DoubleBooked ∧
      ((firstDay.run removedAtWork).next.act
        (.deliver { firstResult with status := .success })).change.next.Names someWorker.workerId ∧
      ((firstDay.run removedAtWork).next.act
        (.deliver { firstResult with status := .success })).change.next.pool.status?
          someWorker.workerId = some .idle := by
  have hne : someTask.id ≠ otherTask.id := by decide
  exact ⟨rfl, ⟨someTask.id, otherTask.id, _, _, hne, rfl, rfl, rfl⟩,
    ⟨otherTask.id, _, rfl, rfl⟩, rfl⟩

end Dispatcher
end HazardDispatch
