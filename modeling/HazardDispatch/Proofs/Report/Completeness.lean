import HazardDispatch.Controller.Server
import HazardDispatch.Proofs.Dispatch.Overflow
import HazardDispatch.Proofs.Dispatch.Progress
import HazardDispatch.Proofs.Dispatch.Removal

/-!
# What a complete report says of the tasks at work

The report is made of three readings: of the accounts, of the queue, and of the table of attempts. The
last two are looked at one after the other, and a task that is in the table first and in the queue
then is in neither when it is looked for. So a report can be complete although there was a task queued
or in flight all the time.

When this can happen is known once the queue is read. Unless nothing was queued or in flight at some
moment before, the worst can still come (`exists_unseen`): another task is submitted, all workers go,
and whatever is in flight is refused. What the table says after that is of no use
(`complete_reliable_iff`).
-/

namespace HazardDispatch

theorem Table.size_ne_zero {κ α : Type} [Ord κ] {t : Table κ α} {k : κ} {v : α}
    (h : t.get? k = some v) : t.size ≠ 0 := by
  intro hsize
  have hnone : t.entries = [] := List.length_eq_zero_iff.mp hsize
  rw [Table.get?, hnone] at h
  cases h

theorem Table.size_eq_zero {κ α : Type} [Ord κ] [Std.TransOrd κ] [Std.LawfulEqOrd κ] {t : Table κ α}
    (h : ∀ k, t.get? k = none) : t.size = 0 := by
  rw [size, List.length_eq_zero_iff, List.eq_nil_iff_forall_not_mem]
  intro x hx
  have hget : t.get? x.1 = some x.2 := (mem_entries_iff t).mp hx
  rw [h x.1] at hget
  cases hget

namespace Dispatcher

variable {σ : Type}

def Quiet (d : Dispatcher σ) : Prop := d.pendingCount = 0 ∧ d.runningCount = 0

/-- No task is live. -/
def Vacant (d : Dispatcher σ) : Prop := ∀ t, d.tasks.get? t = none

/-- At some moment of the run, its first and last ones included. -/
def Sometime [Sink σ] (P : Dispatcher σ → Prop) (d : Dispatcher σ) : List Occurrence → Prop
  | [] => P d
  | o :: os => P d ∨ Sometime P (d.undergo o).change.next os

/-- The report as it is told when the queue is read `os₁` after the accounts, and the table of attempts
`os₂` after the queue. -/
def reportOver (d : Dispatcher (Accounts Float)) (os₁ os₂ : List Occurrence) :
    CompositeReport Float :=
  d.sink.report.withOutstanding (d.run os₁).next.pendingCount
    ((d.run os₁).next.run os₂).next.runningCount

theorem reportOver_nil (d : Dispatcher (Accounts Float)) : d.reportOver [] [] = d.currentReport := rfl

theorem complete_withOutstanding {F : Type} {r : CompositeReport F} {pending running : Nat} :
    (r.withOutstanding pending running).complete = true ↔
      r.complete = true ∧ pending = 0 ∧ running = 0 := by
  unfold CompositeReport.withOutstanding
  split
  · next hpos => exact iff_of_false Bool.false_ne_true (by omega)
  · next hnone => exact (and_iff_left (by omega)).symm

variable [Sink σ] {d : Dispatcher σ} {P Q : Dispatcher σ → Prop} {os os' : List Occurrence}

/-! ## moments -/

theorem Sometime.first (h : P d) (os : List Occurrence) : d.Sometime P os := by
  cases os with
  | nil => exact h
  | cons o os => exact .inl h

theorem sometime_append :
    d.Sometime P (os ++ os') ↔ d.Sometime P os ∨ (d.run os).next.Sometime P os' := by
  induction os generalizing d with
  | nil => exact ⟨.inr, fun h => h.elim (fun h => .first h os') id⟩
  | cons o os ih =>
    show P d ∨ Sometime P _ (os ++ os') ↔ (P d ∨ Sometime P _ os) ∨ _
    rw [ih, or_assoc]
    rfl

theorem Sometime.last (h : P (d.run os).next) : d.Sometime P os := by
  have happend : d.Sometime P (os ++ []) := sometime_append.mpr (.inr h)
  rwa [List.append_nil] at happend

theorem not_sometime_of_kept (hno : ∀ d, Q d → ¬ P d)
    (hkeep : ∀ o ∈ os, ∀ d, Q d → Q (d.undergo o).change.next) (hd : Q d) :
    ¬ d.Sometime P os ∧ Q (d.run os).next := by
  induction os generalizing d with
  | nil => exact ⟨hno d hd, hd⟩
  | cons o os ih =>
    obtain ⟨hrest, hlast⟩ := ih (fun o' ho' => hkeep o' (List.mem_cons_of_mem _ ho'))
      (hkeep o List.mem_cons_self d hd)
    exact ⟨fun h => h.elim (hno d hd) hrest, hlast⟩

theorem sinksReturn_of_forall (h : ∀ o ∈ os, ∀ d : Dispatcher σ, (d.undergo o).stop = none) :
    d.SinksReturn os := by
  induction os generalizing d with
  | nil => trivial
  | cons o os ih =>
    exact ⟨h o List.mem_cons_self d, ih fun o' ho' => h o' (List.mem_cons_of_mem _ ho')⟩

/-- As long as no sink stops half-way, no task is live when none is queued or in flight. -/
theorem Sometime.vacant (hd : d.Filed False) (hs : d.SinksReturn os) (h : d.Sometime Quiet os) :
    d.Sometime Vacant os := by
  have hvacant {d : Dispatcher σ} (hd : d.Filed False) (hq : d.Quiet) : d.Vacant := by
    intro t
    cases he : d.tasks.get? t with
    | none => rfl
    | some e =>
      rcases hd.of_live he with hqueued | ⟨a, ha⟩
      · rw [List.length_eq_zero_iff.mp hq.1] at hqueued
        cases hqueued
      · exact absurd hq.2 (Table.size_ne_zero ha)
  induction os generalizing d with
  | nil => exact hvacant hd h
  | cons o os ih =>
    have hfirst : d.SinksReturn [o] := ⟨hs.1, trivial⟩
    have hnext : (d.undergo o).change.next.Filed False := run_filed hfirst hd
    exact h.elim (fun hq => .inl (hvacant hd hq)) fun h => .inr (ih hnext hs.2 h)

/-! ## a task that is not done -/

/-- The task is wanted, and queued or in flight. -/
structure Outstanding (d : Dispatcher σ) (t : TaskId) : Prop where
  wanted : ∃ e, d.tasks.get? t = some e ∧ e.cancelRequested = false
  placed : t ∈ d.pending ∨ ∃ a, d.inFlight.get? t = some a

variable {t u : TaskId}

omit [Sink σ] in
theorem Outstanding.not_quiet (h : d.Outstanding t) : ¬ d.Quiet := by
  rintro ⟨hpending, hrunning⟩
  rcases h.placed with hqueued | ⟨a, ha⟩
  · rw [List.length_eq_zero_iff.mp hpending] at hqueued
    cases hqueued
  · exact Table.size_ne_zero ha hrunning

theorem Outstanding.pump (hd : d.Filed True) (h : d.Outstanding t) : d.pump.next.Outstanding t := by
  refine pumpRounds_preserves (P := fun d => d.Outstanding t) ?_ _ hd h
  intro d a e _ hqueued live h
  obtain ⟨e', live', wanted⟩ := h.wanted
  by_cases ht : t = a.task
  · subst ht
    rw [live] at live'
    obtain rfl := Option.some.inj live'
    exact ⟨⟨_, Table.get?_put_self _ _ _, wanted⟩, .inr ⟨_, Table.get?_put_self _ _ _⟩⟩
  · refine ⟨⟨e', (Table.get?_put_of_ne _ _ ht).trans live', wanted⟩, ?_⟩
    refine h.placed.imp (fun hq => (List.mem_erase_of_ne ht).mpr hq) fun ⟨b, hb⟩ => ⟨b, ?_⟩
    exact (Table.get?_put_of_ne _ _ ht).trans hb

/-! ## refusals -/

/-- A refusal is stale, or the task is given back and a scheduling cycle runs. -/
theorem refuse_cases (hd : d.Filed True) (u : TaskId) (number : Nat) :
    (d.refuse u number).next = d ∧ (∀ a, d.inFlight.get? u = some a → a.number ≠ number) ∨
      ∃ a e, d.inFlight.get? u = some a ∧ d.tasks.get? u = some e ∧
        ((d.without u a.launch).giveBackTaken a u).next.Filed True ∧
        (d.refuse u number).next = ((d.without u a.launch).giveBackTaken a u).next.pump.next := by
  cases htake : d.take? u number with
  | none =>
    refine .inl ⟨by rw [refuse, htake]; rfl, fun a ha hnumber => ?_⟩
    rw [take?_of_flying ha hnumber] at htake
    cases htake
  | some x =>
    obtain ⟨a, d'⟩ := x
    obtain ⟨flying, -, rfl⟩ := take?_eq_some htake
    obtain ⟨e, -, live, -⟩ := hd.of_flying flying
    refine .inr ⟨a, e, flying, live, (giveBackTaken_follows a.launch hd flying).filed hd, ?_⟩
    rw [refuse, htake]
    rfl

/-- A refused task is queued again, unless it is cancelled. -/
theorem Outstanding.refuse (hd : d.Filed True) (h : d.Outstanding t) (u : TaskId) (number : Nat) :
    (d.refuse u number).next.Outstanding t := by
  rcases refuse_cases hd u number with ⟨heq, -⟩ | ⟨a, e, flying, live, hfiled, heq⟩
  · rwa [heq]
  · rw [heq]
    refine Outstanding.pump hfiled ?_
    obtain ⟨e', live', wanted⟩ := h.wanted
    rw [giveBackTaken_eq a.launch live]
    by_cases ht : t = u
    · subst ht
      rw [live] at live'
      obtain rfl := Option.some.inj live'
      have hwanted : ¬ e.cancelRequested = true := Bool.eq_false_iff.mp wanted
      rw [if_neg hwanted]
      refine ⟨⟨_, Table.get?_put_self _ _ _, wanted⟩, .inl ?_⟩
      exact (insertQueued_perm _ _ _ _).mem_iff.mpr List.mem_cons_self
    · have hflying : (∃ a, d.inFlight.get? t = some a) →
          ∃ a, (d.inFlight.erase u).get? t = some a :=
        fun ⟨b, hb⟩ => ⟨b, (Table.get?_erase_of_ne _ ht).trans hb⟩
      split
      · exact ⟨⟨e', (Table.get?_erase_of_ne _ ht).trans live', wanted⟩, h.placed.imp id hflying⟩
      · refine ⟨⟨e', (Table.get?_put_of_ne _ _ ht).trans live', wanted⟩, h.placed.imp ?_ hflying⟩
        intro hqueued
        exact (insertQueued_perm _ _ _ _).mem_iff.mpr (List.mem_cons_of_mem _ hqueued)

/-- No worker is idle. -/
def Unmanned (d : Dispatcher σ) : Prop := ∀ w, d.pool.status? w ≠ some .idle

omit [Sink σ] in
theorem Unmanned.pump (h : d.Unmanned) : d.pump.next = d := by
  have hnone : d.nextAssignment? = none := by
    refine List.findSome?_eq_none_iff.mpr fun t _ => ?_
    cases ha : d.assign? t with
    | none => rfl
    | some a => exact absurd (status?_of_assign? ha).1 (h _)
  unfold Dispatcher.pump
  cases d.pending.length with
  | zero => rfl
  | succ n =>
    rw [pumpRounds, hnone]
    rfl

/-- While no worker is idle, refusals only take attempts out of flight. -/
theorem Unmanned.refuse (h : d.Unmanned) (hd : d.Filed True) (u : TaskId) (number : Nat) :
    (d.refuse u number).next.Unmanned ∧ ∀ t a, (d.refuse u number).next.inFlight.get? t = some a →
      d.inFlight.get? t = some a ∧ ¬ (t = u ∧ a.number = number) := by
  rcases refuse_cases hd u number with ⟨heq, hstale⟩ | ⟨a, e, flying, live, -, heq⟩
  · rw [heq]
    refine ⟨h, fun t a ha => ⟨ha, ?_⟩⟩
    rintro ⟨rfl, hnumber⟩
    exact hstale a ha hnumber
  · have hmarked : ∀ w, (d.pool.markUnreachable a.worker.workerId).pool.status? w ≠ some .idle := by
      intro w hw
      rw [Pool.status?_markUnreachable] at hw
      split at hw
      · cases hknown : d.pool.status? a.worker.workerId with
        | none =>
          rw [hknown] at hw
          cases hw
        | some s =>
          rw [hknown] at hw
          cases hw
      · exact h w hw
    have hnext : ((d.without u a.launch).giveBackTaken a u).next.Unmanned ∧
        ((d.without u a.launch).giveBackTaken a u).next.inFlight = d.inFlight.erase u := by
      rw [giveBackTaken_eq a.launch live]
      split
      · exact ⟨hmarked, rfl⟩
      · exact ⟨hmarked, rfl⟩
    rw [heq, hnext.1.pump]
    refine ⟨hnext.1, fun t b hb => ?_⟩
    rw [hnext.2, Table.get?_erase] at hb
    split at hb
    · cases hb
    · next hne => exact ⟨hb, fun hboth => hne hboth.1⟩

/-- All attempts of a list are refused. -/
def refusals (l : List (TaskId × Attempt)) : List Occurrence :=
  l.map fun x => .own (.refuse x.1 x.2.number)

/-- The table is empty once all of its attempts were refused. -/
theorem Unmanned.run_refusals {l : List (TaskId × Attempt)} (h : d.Unmanned) (hd : d.Filed True)
    (hall : ∀ t a, d.inFlight.get? t = some a → (t, a) ∈ l) :
    (d.run (refusals l)).next.runningCount = 0 := by
  induction l generalizing d with
  | nil =>
    refine Table.size_eq_zero fun t => ?_
    cases ha : d.inFlight.get? t with
    | none => exact ha
    | some a => exact absurd (hall t a ha) List.not_mem_nil
  | cons x l ih =>
    obtain ⟨hnext, hfewer⟩ := h.refuse hd x.1 x.2.number
    refine ih hnext ((refuse_follows hd).filed hd) fun t a ha => ?_
    obtain ⟨ha, hother⟩ := hfewer t a ha
    rcases List.mem_cons.mp (hall t a ha) with rfl | hmem
    · exact absurd ⟨rfl, rfl⟩ hother
    · exact hmem

/-! ## the worst that can come -/

theorem Outstanding.submitted {x : Task} (hd : d.Filed True) (running : d.stopped = false)
    (new : d.tasks.get? x.id = none) {w : WorkerId} (hidle : d.pool.status? w = some .idle) :
    (d.submit x).change.next.Outstanding x.id := by
  have hqueued : (d.enqueueNew x).Filed True :=
    (enqueueNew_turns ((Table.contains_eq_false_iff _ _).mpr new)).filed hd
  have hout : (d.enqueueNew x).Outstanding x.id :=
    ⟨⟨_, Table.get?_put_self _ _ _, rfl⟩, .inl (List.mem_append_right _ List.mem_cons_self)⟩
  rw [submit_accepted running new (Pool.idleCount_ne_zero hidle)]
  exact hout.pump hqueued

/-- All workers go, and whatever is in flight is refused. -/
def upheaval (d : Dispatcher σ) : List Occurrence :=
  removals d.pool.workers.keys ++ refusals d.inFlight.entries

theorem upheaval_harmless {o : Occurrence} (ho : o ∈ d.upheaval) :
    o.isWhole = true ∧ ∀ d : Dispatcher σ, (d.undergo o).stop = none := by
  rcases List.mem_append.mp ho with ho | ho
  · obtain ⟨w, -, rfl⟩ := List.mem_map.mp ho
    exact ⟨rfl, fun _ => rfl⟩
  · obtain ⟨x, -, rfl⟩ := List.mem_map.mp ho
    exact ⟨rfl, fun _ => rfl⟩

theorem Outstanding.upheaval (hd : d.Filed True) (h : d.Outstanding t) :
    ¬ d.Sometime Quiet d.upheaval ∧ (d.run d.upheaval).next.runningCount = 0 := by
  constructor
  · refine (not_sometime_of_kept (Q := fun d => d.Filed True ∧ d.Outstanding t)
      (fun d h => h.2.not_quiet) (fun o ho d h => ?_) ⟨hd, h⟩).1
    rcases List.mem_append.mp ho with ho | ho
    · obtain ⟨w, -, rfl⟩ := List.mem_map.mp ho
      exact ⟨h.1.withPool _, h.2.wanted, h.2.placed⟩
    · obtain ⟨x, -, rfl⟩ := List.mem_map.mp ho
      exact ⟨(refuse_follows h.1).filed h.1, h.2.refuse h.1 _ _⟩
  · obtain ⟨p, hp, hstatus⟩ := d.removedAll_eq d.pool.workers.keys
    have hgone : Unmanned { d with pool := p } := by
      intro w hw
      have hw' : p.status? w = some .idle := hw
      rw [hstatus w] at hw'
      split at hw'
      · cases hw'
      · next hnew => exact hnew (Pool.mem_keys_of_status? hw')
    rw [Dispatcher.upheaval, run_append]
    show (run (d.run (removals _)).next _).next.runningCount = 0
    rw [run_removals, hp]
    exact hgone.run_refusals (hd.withPool p) fun t a ha => (Table.mem_entries_iff _).mpr ha

/-- What is in flight can end up in the queue, so that the table is empty, and there was no moment
without a task queued or in flight. -/
theorem exists_unseen (hd : d.Filed True) (running : d.stopped = false) (hbusy : d.runningCount ≠ 0) :
    ∃ os, os.all (·.isWhole) = true ∧ d.SinksReturn os ∧ (d.run os).next.runningCount = 0 ∧
      ¬ d.Sometime Quiet os := by
  obtain ⟨w, hw, -⟩ := Table.exists_new_key WorkerId.text (fun _ => rfl) d.pool.workers []
  obtain ⟨t, new, -⟩ := Table.exists_new_key TaskId.text (fun _ => rfl) d.tasks []
  let task : Task := { (default : Task) with id := t }
  let d' : Dispatcher σ := { d with pool := (d.pool.register (.new w "" default)).pool }
  have hidle : d'.pool.status? w = some .idle := by
    show (d.pool.register (.new w "" default)).pool.status? w = _
    rw [Pool.status?_register, Pool.status?_eq, hw]
    exact if_pos rfl
  have hd' : d'.Filed True := hd.withPool _
  have hout := Outstanding.submitted (x := task) hd' running new hidle
  have hfiled : (d'.submit task).change.next.Filed True := (submit_turns hd').filed hd'
  generalize hs : (d'.submit task).change.next = s at hout hfiled
  obtain ⟨hnever, hempty⟩ := hout.upheaval hfiled
  have hrun : (d.run [.pool (.register (.new w "" default)), .own (.submit task)]).next = s := hs
  refine ⟨[.pool (.register (.new w "" default)), .own (.submit task)] ++ s.upheaval, ?_, ?_, ?_, ?_⟩
  · rw [List.all_append, List.all_eq_true.mpr fun o ho => (upheaval_harmless ho).1]
    rfl
  · refine (sinksReturn_append d _ _).mpr ⟨⟨rfl, rfl, trivial⟩, ?_⟩
    rw [hrun]
    exact sinksReturn_of_forall fun o ho => (upheaval_harmless ho).2
  · rw [run_append]
    show (run (d.run _).next _).next.runningCount = 0
    rw [hrun]
    exact hempty
  · rw [sometime_append, hrun]
    rintro ((hquiet | hquiet | hquiet) | hlater)
    · exact hbusy hquiet.2
    · exact hbusy hquiet.2
    · exact hout.not_quiet (hs ▸ hquiet)
    · exact hnever hlater

/-! ## complete reports -/

/-- Before the dispatcher is shut down, the following is known once the queue is read. A complete report
will mean that at some moment no task was queued or in flight, whatever still comes, just if there was
such a moment already or the report will not be complete. Beyond that it does mean this if nothing was
in flight when the queue was read, or nothing queued when the table was. And if no sink stopped half-way,
then no task was live at such a moment. -/
theorem complete_reliable_iff (config : ControllerConfig) (sink : Accounts Float)
    (os₀ os₁ : List Occurrence) :
    let d := ((start config sink).run os₀).next
    let d₁ := (d.run os₁).next
    (d₁.stopped = false →
      ((∀ os₂, os₂.all (·.isWhole) = true → d₁.SinksReturn os₂ →
          (d.reportOver os₁ os₂).complete = true → d.Sometime Quiet (os₁ ++ os₂)) ↔
        (d.sink.report.complete = true → d₁.pendingCount = 0 → d.Sometime Quiet os₁))) ∧
    ∀ os₂, (d.reportOver os₁ os₂).complete = true →
      (d₁.runningCount = 0 ∨ (d₁.run os₂).next.pendingCount = 0 → d.Sometime Quiet (os₁ ++ os₂)) ∧
      ((start config sink).SinksReturn (os₀ ++ (os₁ ++ os₂)) → d.Sometime Quiet (os₁ ++ os₂) →
        d.Sometime Vacant (os₁ ++ os₂)) := by
  intro d d₁
  have hd : d.Filed True := run_filed_any os₀ (filed_start config sink)
  have hd₁ : d₁.Filed True := run_filed_any os₁ hd
  refine ⟨fun running => ⟨fun h hreport hqueue => ?_, fun h os₂ _ _ hcomplete => ?_⟩,
    fun os₂ hcomplete => ⟨fun hsure => ?_, fun hs hquiet => ?_⟩⟩
  · refine Classical.byContradiction fun hnever => ?_
    have hbusy : d₁.runningCount ≠ 0 := fun hnone => hnever (.last ⟨hqueue, hnone⟩)
    obtain ⟨os₂, hwhole, hs, hempty, hunseen⟩ := exists_unseen hd₁ running hbusy
    have hcomplete : (d.reportOver os₁ os₂).complete = true :=
      complete_withOutstanding.mpr ⟨hreport, hqueue, hempty⟩
    exact (sometime_append.mp (h os₂ hwhole hs hcomplete)).elim hnever hunseen
  · obtain ⟨hreport, hqueue, -⟩ := complete_withOutstanding.mp hcomplete
    exact sometime_append.mpr (.inl (h hreport hqueue))
  · obtain ⟨-, hqueue, hempty⟩ := complete_withOutstanding.mp hcomplete
    refine sometime_append.mpr (hsure.imp (fun hnone => .last ⟨hqueue, hnone⟩) fun hnone => ?_)
    exact .last ⟨hnone, hempty⟩
  · obtain ⟨hs₀, hs₁⟩ := (sinksReturn_append (start config sink) os₀ (os₁ ++ os₂)).mp hs
    exact hquiet.vacant (run_filed hs₀ (filed_start config sink)) hs₁

def oneDone : List Occurrence :=
  secondTry.take 2 ++ [.own (.answer (firstCall someTask 0) (.ok (doneAfter someTask 1)))]

/-- Another one is in flight then, on the only worker. -/
def oneDoneOneToGo : List Occurrence := oneDone ++ [.own (.submit otherTask)]

/-- The only worker is lost. -/
def workerLost : List Occurrence :=
  [.own (.answer (firstCall otherTask 1) (.error (.unreachable "connection refused")))]

/-- With one task done the report can be relied on, and no longer when the other one is submitted. -/
theorem complete_reliable_oneDone :
    (firstDay.run oneDone).next.currentReport.complete = true ∧
      (firstDay.run oneDone).next.Vacant ∧
      (firstDay.run oneDoneOneToGo).next.stopped = false ∧
      ∃ os, os.all (·.isWhole) = true ∧ (firstDay.run oneDoneOneToGo).next.SinksReturn os ∧
        ((firstDay.run oneDoneOneToGo).next.reportOver [] os).complete = true ∧
        ¬ (firstDay.run oneDoneOneToGo).next.Sometime Quiet os := by
  obtain ⟨-, hnow⟩ := complete_reliable_iff {} (.empty 10) oneDone []
  obtain ⟨hiff, -⟩ := complete_reliable_iff {} (.empty 10) oneDoneOneToGo []
  obtain ⟨hquiet, hvacant⟩ := hnow [] rfl
  have hs : firstDay.SinksReturn oneDone := ⟨rfl, rfl, rfl, trivial⟩
  refine ⟨rfl, hvacant hs (hquiet (.inl rfl)), rfl, Classical.byContradiction fun hall => ?_⟩
  have hbefore := (hiff rfl).mp (fun os hwhole hs hcomplete =>
    Classical.byContradiction fun hnever => hall ⟨os, hwhole, hs, hcomplete, hnever⟩) rfl rfl
  exact absurd hbefore.2 (by decide)

/-- A report is complete while the other task goes from the table, which is read last, to the queue,
which is read before. -/
theorem complete_unseen_workerLost :
    ((firstDay.run oneDoneOneToGo).next.reportOver [] workerLost).complete = true ∧
      ¬ (firstDay.run oneDoneOneToGo).next.Sometime Quiet workerLost := by
  refine ⟨rfl, ?_⟩
  rintro (hbefore | hafter)
  · exact absurd hbefore.2 (by decide)
  · exact absurd hafter.1 (by decide)

end Dispatcher
end HazardDispatch
