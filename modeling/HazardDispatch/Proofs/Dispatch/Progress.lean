import HazardDispatch.Proofs.Dispatch.Leases
import HazardDispatch.Proofs.Dispatch.Partition
import HazardDispatch.Proofs.Pool.Wakeup

/-!
# No queued task is forgotten

While a task is queued and a worker is idle, something is under way that brings the next scheduling
cycle: a wake-up is stored, or an attempt is in flight, whose end brings one. `Stirred` is this for a
dispatcher. A task may be queued beside an idle worker, since it failed on that one; then another
worker is busy, and so (`Manned`) an attempt is in flight.

Whole operations keep `Stirred`, and so does what others do to the pool, apart from handing out
workers. An operation that is taken part by part breaks it until its cycle begins: `owes` says for a
run whether it ends between the two.
-/

namespace HazardDispatch

def Occurrence.handsOut : Occurrence → Bool
  | own _ => false
  | pool c => c.handsOut

/-- The occurrence is not part of an operation. -/
def Occurrence.isWhole : Occurrence → Bool
  | own (.part _) => false
  | own .takePermit => false
  | _ => true

namespace Dispatcher

variable {σ : Type}

/-- If a task is queued and a worker is idle, a scheduling cycle will come. -/
def Stirred (d : Dispatcher σ) : Prop :=
  d.pending ≠ [] → (∃ w, d.pool.status? w = some .idle) →
    d.pool.permit = true ∨ ∃ t a, d.inFlight.get? t = some a

/-- After this part of an operation comes a scheduling cycle, unless the queue is empty. -/
def opens (d : Dispatcher σ) : Action → Bool
  | .part (.accept t) => !d.tasks.contains t.id
  | .part (.receive r) => (d.take? r.taskId r.attempt.toNat).isSome
  | .part (.giveBack t number) => (d.take? t number).isSome
  | .part (.expire t) => ((d.disarm t.launch).take? t.task t.attempt).isSome
  | .takePermit => true
  | _ => false

/-- An assignment is tried for a queued task. -/
def assigns (d : Dispatcher σ) : Action → Bool
  | .part (.assign t) => d.pending.contains t
  | _ => false

/-- A scheduling cycle is owed after the occurrence: it was before and does not begin now, or the
occurrence opens one. -/
def owesAfter [Sink σ] (d : Dispatcher σ) (due : Bool) : Occurrence → Bool
  | .own a => due && !d.assigns a || d.opens a && !(d.act a).change.next.pending.isEmpty
  | .pool _ => due

def owes [Sink σ] (d : Dispatcher σ) (due : Bool) : List Occurrence → Bool
  | [] => due
  | o :: os => owes (d.undergo o).change.next (d.owesAfter due o) os

variable {d d' : Dispatcher σ}

/-! ## why a dispatcher may rest -/

/-- The queue is empty, or a cycle found no worker for a task, or an attempt is in flight. -/
inductive Rested (d : Dispatcher σ) : Prop where
  | empty (h : d.pending = [])
  | refused {t : TaskId} (queued : t ∈ d.pending) (h : d.assign? t = none)
  | aloft {t : TaskId} {a : Attempt} (flying : d.inFlight.get? t = some a)

theorem Rested.stirred (h : d.Rested) (hm : d.Manned) : d.Stirred := by
  rintro hq ⟨w, hw⟩
  cases h with
  | empty h => exact absurd h hq
  | refused _ h =>
    have hnone := Option.map_eq_none_iff.mp h
    obtain ⟨u, hu⟩ := Pool.busy_of_acquireAvoiding_none hw hnone
    obtain ⟨t, a, ha, -⟩ := hm u hu
    exact .inr ⟨t, a, ha⟩
  | aloft flying => exact .inr ⟨_, _, flying⟩

/-- The queue did not grow, and nothing else that counts was touched. -/
structure Unmoved (d d' : Dispatcher σ) : Prop where
  queue : d'.pending ⊆ d.pending
  pool : d'.pool = d.pool
  inFlight : d'.inFlight = d.inFlight

theorem Unmoved.refl (d : Dispatcher σ) : d.Unmoved d := ⟨fun _ h => h, rfl, rfl⟩

theorem Unmoved.stirred (h : d.Unmoved d') (hs : d.Stirred) : d'.Stirred := by
  intro hq hw
  rw [h.pool] at hw ⊢
  rw [h.inFlight]
  refine hs (fun hnil => hq ?_) hw
  exact List.subset_nil.mp (hnil ▸ h.queue)

theorem Stirred.withPool (h : d.Stirred) {p : Pool} (hp : d.pool.Heeds p) :
    Stirred { d with pool := p } := by
  rintro hq ⟨w, hw⟩
  rcases hp.idle w hw with hpermit | hidle
  · exact .inl hpermit
  · rcases h hq ⟨w, hidle⟩ with hpermit | hflight
    · exact .inl (hp.permit hpermit)
    · exact .inr hflight

theorem Manned.withPool (h : d.Manned) {p : Pool} (hp : d.pool.Heeds p) :
    Manned { d with pool := p } :=
  fun w hw => h w (hp.busy w hw)

/-! ## a cycle to its end -/

theorem launch_pending (d : Dispatcher σ) (a : Assignment) :
    (d.launch a).next.pending = d.pending.erase a.task := by
  unfold launch
  simp only []
  split <;> rfl

theorem pumpRounds_rested (n : Nat) (h : d.pending.length ≤ n) :
    (pumpRounds n d).next.nextAssignment? = none := by
  induction n generalizing d with
  | zero =>
    have hnil : d.pending = [] := List.eq_nil_of_length_eq_zero (Nat.le_zero.mp h)
    show d.pending.findSome? d.assign? = none
    rw [hnil]
    rfl
  | succ n ih =>
    rw [pumpRounds]
    cases ha : d.nextAssignment? with
    | none => exact ha
    | some a =>
      obtain ⟨t, ht, hat⟩ := List.exists_of_findSome?_eq_some ha
      obtain rfl := task_of_assign? hat
      have hlen := List.length_erase_of_mem ht
      have hpos := List.length_pos_of_mem ht
      refine ih ?_
      rw [launch_pending, hlen]
      omega

/-- A scheduling cycle ends with an empty queue or without a worker for its tasks. -/
theorem pump_rested (d : Dispatcher σ) : d.pump.next.Rested := by
  have h : d.pump.next.nextAssignment? = none := pumpRounds_rested _ (Nat.le_refl _)
  cases hq : d.pump.next.pending with
  | nil => exact .empty hq
  | cons t ts =>
    have ht : t ∈ d.pump.next.pending := hq ▸ List.mem_cons_self
    exact .refused ht (List.findSome?_eq_none_iff.mp h t ht)

theorem andThen_pump_rested {s : Settled σ} (hs : (s.andThen pump).stop = none) :
    (s.andThen pump).change.next.Rested := by
  rw [stop_andThen] at hs
  unfold Settled.andThen
  rw [hs]
  exact pump_rested _

/-! ## actions -/

theorem assign_rested [Sink σ] (hd : d.Filed False) {t : TaskId} (ht : t ∈ d.pending) :
    (d.act (.part (.assign t))).change.next.Rested := by
  show (Settled.change (if t ∈ d.pending then _ else _)).next.Rested
  rw [if_pos ht]
  cases ha : d.assign? t with
  | none => exact .refused ht ha
  | some a =>
    obtain rfl := task_of_assign? ha
    obtain ⟨e, live, -⟩ := hd.of_queued ht
    show (d.launch a).next.Rested
    rw [launch_eq live]
    exact .aloft (Table.get?_put_self _ _ _)

theorem refuse_rested (d : Dispatcher σ) (t : TaskId) (number : Nat) :
    (d.refuse t number).next.Rested ∨ d.Unmoved (d.refuse t number).next := by
  unfold refuse
  split
  · exact .inr (.refl d)
  · exact .inl (pump_rested _)

theorem assigns_rested [Sink σ] (hd : d.Filed False) {a : Action} (ha : d.assigns a = true) :
    (d.act a).change.next.Rested := by
  cases a with
  | part p =>
    cases p with
    | assign t => exact assign_rested hd (List.contains_iff_mem.mp ha)
    | _ => cases ha
  | _ => cases ha

variable [Sink σ]

theorem deliver_rested {r : TaskResult} (hs : (d.deliver r).stop = none) :
    (d.deliver r).change.next.Rested ∨ d.Unmoved (d.deliver r).change.next := by
  unfold deliver at hs ⊢
  split at hs
  · exact .inr (.refl d)
  · exact .inl (andThen_pump_rested hs)

theorem deadline_rested {t : Timer} (hs : (d.deadline t).stop = none) :
    (d.deadline t).change.next.Rested ∨ d.Unmoved (d.deadline t).change.next := by
  unfold deadline at hs ⊢
  simp only [] at hs ⊢
  split at hs
  · exact .inr ⟨fun _ h => h, rfl, rfl⟩
  · exact .inl (andThen_pump_rested hs)

theorem answer_rested {a : Attempt} {reply : Except TransportError ExecuteResponse}
    (hs : (d.answer a reply).stop = none) :
    (d.answer a reply).change.next.Rested ∨ d.Unmoved (d.answer a reply).change.next := by
  have hheard {d' : Dispatcher σ} (h : d'.Rested ∨ (d.heard a).Unmoved d') :
      d'.Rested ∨ d.Unmoved d' :=
    h.imp_right fun h => ⟨h.queue, h.pool, h.inFlight⟩
  obtain ⟨r, h⟩ | h := d.answer_cases a reply
  · rw [h] at hs ⊢
    exact hheard (deliver_rested hs)
  · rw [h]
    exact hheard (refuse_rested _ _ _)

theorem part_rested {p : Part} (hd : d.Filed False) (ha : d.opens (.part p) = false) :
    (d.act (.part p)).change.next.Rested ∨ d.Unmoved (d.act (.part p)).change.next := by
  cases p with
  | accept t =>
    refine .inr ?_
    show d.Unmoved (if d.tasks.contains t.id then d else d.enqueueNew t)
    rw [if_pos (by simpa [opens] using ha)]
    exact .refl d
  | receive r =>
    have hnone : d.take? r.taskId r.attempt.toNat = none := by simpa [opens] using ha
    refine .inr ?_
    show d.Unmoved (d.receive r).change.next
    unfold receive
    rw [hnone]
    exact .refl d
  | giveBack t number =>
    have hnone : d.take? t number = none := by simpa [opens] using ha
    refine .inr ?_
    show d.Unmoved (d.giveBack t number).next
    unfold giveBack
    rw [hnone]
    exact .refl d
  | expire t =>
    have hnone : (d.disarm t.launch).take? t.task t.attempt = none := by
      simpa [opens] using ha
    refine .inr ?_
    show d.Unmoved (d.expire t).change.next
    unfold expire
    rw [hnone]
    exact ⟨fun _ h => h, rfl, rfl⟩
  | assign t =>
    by_cases ht : t ∈ d.pending
    · exact .inl (assign_rested hd ht)
    · refine .inr ?_
      show d.Unmoved (Settled.change (if t ∈ d.pending then _ else _)).next
      rw [if_neg ht]
      exact .refl d

/-- An action that does not open a cycle leaves what counts alone, or brings it to rest. -/
theorem act_rested {a : Action} (hd : d.Filed False) (hs : (d.act a).stop = none)
    (ha : d.opens a = false) :
    (d.act a).change.next.Rested ∨ d.Unmoved (d.act a).change.next := by
  cases a with
  | submit t =>
    show (d.submit t).change.next.Rested ∨ d.Unmoved (d.submit t).change.next
    obtain ⟨e, log, h⟩ | ⟨-, h⟩ := d.submit_cases t
    · rw [h]
      exact .inr (.refl d)
    · rw [h]
      exact .inl (pump_rested _)
  | cancel t =>
    have h : (d.act (.cancel t)).change.next = _ := (cancel_frame hd t).1
    refine .inr ⟨?_, ?_, ?_⟩
    · rw [h]
      exact List.erase_subset
    · rw [h]
    · rw [h]
  | deliver r => exact deliver_rested hs
  | refuse t number => exact refuse_rested d t number
  | deadline t => exact deadline_rested hs
  | answer a reply => exact answer_rested hs
  | wake =>
    show (d.wake).next.Rested ∨ d.Unmoved d.wake.next
    unfold wake
    split
    · exact .inl (pump_rested _)
    · exact .inr (.refl d)
  | takePermit => cases ha
  | pass millis => exact .inr ⟨fun _ h => h, rfl, rfl⟩
  | shutdown => exact .inr ⟨fun _ h => h, rfl, rfl⟩
  | part p => exact part_rested hd ha

/-! ## runs -/

/-- After an occurrence, a cycle is owed or will come if one is needed. -/
theorem undergo_stirred {o : Occurrence} {due : Bool} (hd : d.Filed False)
    (hm : (d.undergo o).change.next.Manned) (hs : (d.undergo o).stop = none)
    (ho : o.handsOut = false) (h : due = false → d.Stirred)
    (howes : d.owesAfter due o = false) : (d.undergo o).change.next.Stirred := by
  cases o with
  | pool c => exact (h howes).withPool (Pool.heeds_perform _ ho)
  | own a =>
    have howes' : (due && !d.assigns a) = false ∧
        (d.opens a && !(d.act a).change.next.pending.isEmpty) = false := by
      simpa only [owesAfter, Bool.or_eq_false_iff] using howes
    by_cases hassigns : d.assigns a = true
    · exact (assigns_rested hd hassigns).stirred hm
    · have hdue : due = false := by simpa [hassigns] using howes'.1
      by_cases hopens : d.opens a = true
      · have hempty : (d.act a).change.next.pending = [] := by simpa [hopens] using howes'.2
        exact (Rested.empty hempty).stirred hm
      · rcases act_rested hd hs (Bool.not_eq_true _ ▸ hopens) with hrest | hsame
        · exact hrest.stirred hm
        · exact hsame.stirred (h hdue)

theorem run_stirred {os : List Occurrence} (due : Bool) (hs : d.SinksReturn os)
    (ho : ∀ o ∈ os, o.handsOut = false) (hd : d.Filed False) (hm : d.Manned)
    (h : due = false → d.Stirred) :
    (d.run os).next.Manned ∧ (d.owes due os = false → (d.run os).next.Stirred) := by
  induction os generalizing d due with
  | nil => exact ⟨hm, h⟩
  | cons o os ih =>
    rw [run_cons]
    have hd' : (d.undergo o).change.next.Filed False ∧ (d.undergo o).change.next.Manned := by
      cases o with
      | own a =>
        have hf : Turns False d _ (d.act a).change.next := act_turns hd fun c => c hs.1
        exact ⟨hf.filed hd, (hf.keep (P := fun d => d.Filed False ∧ d.Manned)
          (fun turn h => ⟨turn.filed h.1, turn.manned h.1 h.2⟩) ⟨hd, hm⟩).2⟩
      | pool c =>
        exact ⟨hd.withPool _, hm.withPool (Pool.heeds_perform _ (ho _ List.mem_cons_self))⟩
    exact ih _ hs.2 (fun o ho' => ho o (List.mem_cons_of_mem _ ho')) hd'.1 hd'.2
      (undergo_stirred hd hd'.2 hs.1 (ho o List.mem_cons_self) h)

theorem owes_of_whole {os : List Occurrence} (h : ∀ o ∈ os, o.isWhole = true) :
    d.owes false os = false := by
  induction os generalizing d with
  | nil => rfl
  | cons o os ih =>
    have hnone : d.owesAfter false o = false := by
      have hw := h o List.mem_cons_self
      cases o with
      | pool c => rfl
      | own a =>
        cases a with
        | part p => cases hw
        | takePermit => cases hw
        | _ => rfl
    show owes _ (d.owesAfter false o) os = false
    rw [hnone]
    exact ih fun o ho => h o (List.mem_cons_of_mem _ ho)

/-- In every run whose sinks return, and in which only the dispatcher hands out workers, every busy
worker has an attempt in flight; and a scheduling cycle comes whenever a task is queued and a worker is
idle: after any whole operations, and after operations taken part by part unless one is just between
its first part and its cycle. -/
theorem stirred_run (config : ControllerConfig) (sink : σ) (os : List Occurrence)
    (hs : (start config sink).SinksReturn os) (ho : ∀ o ∈ os, o.handsOut = false) :
    ((start config sink).run os).next.Manned ∧
      ((∀ o ∈ os, o.isWhole = true) → ((start config sink).run os).next.Stirred) ∧
      ((start config sink).owes false os = false → ((start config sink).run os).next.Stirred) := by
  obtain ⟨hm, h⟩ := run_stirred false hs ho (filed_start config sink)
    (manned_start config sink) fun _ hq => absurd rfl hq
  exact ⟨hm, fun hw => h (owes_of_whole hw), h⟩

/-- A task failed on one worker and waits for the other one, which is busy. -/
def avoiding : List Occurrence :=
  [.pool (.register someWorker), .pool (.register spareWorker),
    .own (.submit someTask), .own (.submit otherTask), .own (.deliver firstResult), .own .wake]

/-- The worker that it failed on is idle and the wake-up is used up; an attempt is in flight. -/
theorem stirred_avoiding :
    firstDay.SinksReturn avoiding ∧ (∀ o ∈ avoiding, o.handsOut = false ∧ o.isWhole = true) ∧
      (firstDay.run avoiding).next.pending = [someTask.id] ∧
      (firstDay.run avoiding).next.pool.status? someWorker.workerId = some .idle ∧
      (firstDay.run avoiding).next.pool.permit = false ∧
      ∃ t a, (firstDay.run avoiding).next.inFlight.get? t = some a := by
  have hs : firstDay.SinksReturn avoiding := ⟨rfl, rfl, rfl, rfl, rfl, rfl, trivial⟩
  have ho : ∀ o ∈ avoiding, o.handsOut = false ∧ o.isWhole = true := by
    simp [avoiding, Occurrence.handsOut, PoolCall.handsOut, Occurrence.isWhole]
  have hidle : (firstDay.run avoiding).next.pool.status? someWorker.workerId = some .idle := rfl
  have hpermit : (firstDay.run avoiding).next.pool.permit = false := rfl
  obtain ⟨-, hstirred, -⟩ := stirred_run {} _ avoiding hs fun o h => (ho o h).1
  refine ⟨hs, ho, rfl, hidle, hpermit, ?_⟩
  rcases hstirred (fun o h => (ho o h).2) (List.cons_ne_nil someTask.id []) ⟨_, hidle⟩ with h | h
  · exact absurd (hpermit.symm.trans h) Bool.false_ne_true
  · exact h

end Dispatcher
end HazardDispatch
