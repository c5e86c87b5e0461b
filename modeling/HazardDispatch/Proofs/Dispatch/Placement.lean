import HazardDispatch.Proofs.Dispatch.Cycle
import HazardDispatch.Proofs.Dispatch.Removal

/-!
# Where a failed task is tried again

A task that failed on a worker should go to another one if another one is idle. The dispatcher does not
remember where a task failed: it avoids the worker that the task was sent to last. `Trail` keeps both,
as they can be read off the story of a submission: a launch sends the task, and what failed was sent
before. `run_remembers` says that the entry of a live task names the last worker that it was sent to.

So the worker that failed the task is avoided as long as the task was not sent elsewhere since
(`retry_avoids_iff`). But an attempt that is refused was sent, too: after it the task avoids the worker
that refused it, which is out of rotation, and may go back to the one it failed on
(`returns_triedElsewhere`).
-/

namespace HazardDispatch

/-- Where a task was sent last, and where it failed last. -/
structure Trail where
  sent : Option WorkerId
  failed : Option WorkerId

namespace Trail

/-- A result that is handed on as a failure is that of the last attempt. -/
def step (s : Trail) : Event → Trail
  | .launched _ a => { s with sent := some a.worker.workerId }
  | .forwarded _ r => if r.isSuccess then s else { s with failed := s.sent }
  | _ => s

end Trail

def trail (es : List Event) : Trail := es.foldl Trail.step ⟨none, none⟩

theorem trail_append (es es' : List Event) : trail (es ++ es') = es'.foldl Trail.step (trail es) :=
  List.foldl_append

theorem Trail.sent_of_unlaunched {es : List Event} (h : ∀ e ∈ es, ∀ n a, e ≠ .launched n a)
    (s : Trail) : (es.foldl step s).sent = s.sent := by
  induction es generalizing s with
  | nil => rfl
  | cons e es ih =>
    have hstep : (s.step e).sent = s.sent := by
      cases e with
      | launched n a => exact absurd rfl (h _ List.mem_cons_self n a)
      | forwarded n r =>
        rw [step]
        split <;> rfl
      | _ => rfl
    exact (ih (fun e he => h e (List.mem_cons_of_mem _ he)) _).trans hstep

theorem Trail.failed_of_unsent {s : Trail} (h : s.sent = none → s.failed = none) (es : List Event) :
    (es.foldl step s).sent = none → (es.foldl step s).failed = none := by
  induction es generalizing s with
  | nil => exact h
  | cons e es ih =>
    refine ih ?_
    cases e with
    | launched n a => exact fun hs => nomatch hs
    | forwarded n r =>
      rw [step]
      split
      · exact h
      · exact id
    | _ => exact h

namespace Dispatcher

variable {σ : Type}

/-- The task goes to the worker only while no other one is idle. -/
def LastResort (d : Dispatcher σ) (t : TaskId) (w : WorkerId) : Prop :=
  ∀ a, d.assign? t = some a → a.worker.workerId = w → ∀ u, u ≠ w → d.pool.status? u ≠ some .idle

/-- The entries of the live tasks name the workers that these were sent to last. -/
structure Remembers (es : List Event) (d : Dispatcher σ) : Prop where
  ranked : d.Ranked
  fresh : Fresh es d
  sent : ∀ t e, d.tasks.get? t = some e → e.lastWorker = (trail (story e.ticket es)).sent

variable {d d' : Dispatcher σ} {es : List Event}

theorem Remembers.congr (h : Remembers es d) (ht : d'.tasks = d.tasks)
    (hp : d'.pending = d.pending) (hn : d'.nextTicket = d.nextTicket) : Remembers es d' where
  ranked := ⟨by rw [ht, hn]; exact h.ranked.issued, by rw [ht]; exact h.ranked.apart,
    by rw [ht, hp]; exact h.ranked.sorted⟩
  fresh := ⟨by rw [ht, hn]; exact h.fresh.entries, by rw [hn]; exact h.fresh.events⟩
  sent := by rw [ht]; exact h.sent

theorem remembers_start (config : ControllerConfig) (sink : σ) :
    Remembers [] (start config sink) :=
  ⟨ranked_start config sink, ⟨fun _ _ he => (nomatch he), fun _ _ => rfl⟩, fun _ _ he => (nomatch he)⟩

/-! ## what the dispatcher remembers -/

section
variable [Sink σ] {halts : Prop} {u : Option TaskId} {es₀ : List Event}

theorem Turn.sent_self {t : TaskId} {e' : Entry} (h : Turn halts (some t) d es d')
    (hr : Remembers es₀ d) (he : d'.tasks.get? t = some e') :
    e'.lastWorker = (trail (story e'.ticket (es₀ ++ es))).sent := by
  rw [story_append, trail_append]
  cases h.updates he with
  | @kept e live ticket last unlaunched =>
    rw [Trail.sent_of_unlaunched fun ev hev => unlaunched ev (mem_story.mp hev).1, last, ticket]
    exact hr.sent t e live
  | @launched e a live ticket last event =>
    have hown : story e.ticket es = es := story_of_own (by simp [event, Event.ticket?])
    rw [ticket, hown, event, last]
    rfl
  | accepted ticket next last silent =>
    rw [ticket, hr.fresh.events _ (Nat.le_refl _), silent, last]
    rfl

theorem Turn.remembers (h : Turn halts u d es d') (hd : d.Filed halts) (hr : Remembers es₀ d) :
    Remembers (es₀ ++ es) d' := by
  refine ⟨h.ranked hd hr.ranked, h.fresh hr.fresh, fun t e he => ?_⟩
  by_cases hu : u = some t
  · subst hu
    exact h.sent_self hr he
  · rw [(h.frame hu).2.1] at he
    have hsilent : story e.ticket es = [] :=
      h.silent hu fun v f hf heq => hr.ranked.apart v t f e hf he heq
    rw [story_append, hsilent, List.append_nil]
    exact hr.sent t e he

theorem run_remembers (config : ControllerConfig) (sink : σ) (os : List Occurrence) :
    Remembers (facts ((start config sink).run os).events) ((start config sink).run os).next :=
  run_tell_any (P := Remembers) [] os (fun _ h => h.congr rfl rfl rfl)
    (fun hd turn h => turn.remembers hd h) (filed_start config sink) (remembers_start config sink)

end

/-! ## the worker that is avoided -/

theorem lastResort_of_sent {t : TaskId} {e : Entry} {w : WorkerId} (he : d.tasks.get? t = some e)
    (hlast : e.lastWorker = some w) : d.LastResort t w := by
  intro a ha hw u hne hu
  obtain ⟨hvalue, -⟩ := assigned_of_live he ha
  rw [hlast] at hvalue
  exact hne (Pool.idle_of_acquireAvoiding hvalue hw hu)

/-- Of two idle workers the one that the task was not sent to last gets it. -/
theorem not_lastResort {t : TaskId} {e : Entry} {w x : WorkerId} (he : d.tasks.get? t = some e)
    (hlast : e.lastWorker = some x) (hne : x ≠ w)
    (hidle : ∀ u, d.pool.status? u = some .idle ↔ u = w ∨ u = x) : ¬ d.LastResort t w := by
  intro h
  have hw : d.pool.status? w = some .idle := (hidle w).mpr (.inl rfl)
  have hx : d.pool.status? x = some .idle := (hidle x).mpr (.inr rfl)
  cases ha : d.assign? t with
  | none =>
    have hrefused := (assign?_eq_none_iff he).mp ha
    have heq := (Pool.acquireAvoiding_eq_none_iff.mp hrefused w hw).1
    exact hne (Option.some.inj (hlast.symm.trans heq))
  | some a =>
    obtain ⟨hvalue, -⟩ := assigned_of_live he ha
    have hstatus : d.pool.status? a.worker.workerId = some .idle := (status?_of_assign? ha).1
    rw [hlast] at hvalue
    rcases (hidle _).mp hstatus with heq | heq
    · exact h a ha heq x hne hx
    · exact hne (Pool.idle_of_acquireAvoiding hvalue heq hw).symm

variable [Sink σ]

theorem run_calls (d : Dispatcher σ) (cs : List PoolCall) :
    ∃ p : Pool, (d.run (cs.map .pool)).next = { d with pool := p } := by
  induction cs generalizing d with
  | nil => exact ⟨d.pool, rfl⟩
  | cons c cs ih => exact ih { d with pool := (d.pool.perform c).pool }

def justTwo (p : Pool) (w x : WorkerId) : List PoolCall :=
  p.workers.keys.map .deregister ++ [.register (.new w "" default), .register (.new x "" default)]

theorem run_justTwo (d : Dispatcher σ) (w x : WorkerId) :
    ∃ p : Pool, (d.run ((justTwo d.pool w x).map .pool)).next = { d with pool := p } ∧
      ∀ u, p.status? u = some .idle ↔ u = w ∨ u = x := by
  obtain ⟨p, hp, hstatus⟩ := d.removedAll_eq d.pool.workers.keys
  have hnone : ∀ u, p.status? u = none := by
    intro u
    rw [hstatus u]
    split
    · rfl
    · next hu =>
      cases hs : d.pool.status? u with
      | none => rfl
      | some s => exact absurd (Pool.mem_keys_of_status? hs) hu
  refine ⟨((p.register (.new w "" default)).pool.register (.new x "" default)).pool, ?_, fun u => ?_⟩
  · rw [justTwo, List.map_append, List.map_map, run_append]
    show (run (d.run (removals d.pool.workers.keys)).next _).next = _
    rw [run_removals, hp]
    rfl
  · rw [Pool.status?_register, Pool.status?_register, hnone]
    show (if u = x then _ else if u = w then _ else _) = _ ↔ _
    by_cases hx : u = x
    · rw [if_pos hx]
      refine iff_of_true ?_ (.inr hx)
      split <;> rfl
    · by_cases hw : u = w
      · rw [if_neg hx, if_pos hw]
        exact iff_of_true rfl (.inl hw)
      · rw [if_neg hx, if_neg hw]
        exact iff_of_false (fun h => nomatch h) fun h => h.elim hw hx

theorem Remembers.avoids_iff (hr : Remembers es d) {t : TaskId} {e : Entry} {w : WorkerId}
    (he : d.tasks.get? t = some e) (hfailed : (trail (story e.ticket es)).failed = some w) :
    ((trail (story e.ticket es)).sent = some w → d.LastResort t w) ∧
      ((trail (story e.ticket es)).sent = some w ↔
        ∀ cs : List PoolCall, (d.run (cs.map .pool)).next.LastResort t w) := by
  have hlast := hr.sent t e he
  refine ⟨fun hsent => lastResort_of_sent he (hlast.trans hsent), fun hsent cs => ?_, fun h => ?_⟩
  · obtain ⟨q, hq⟩ := d.run_calls cs
    rw [hq]
    exact lastResort_of_sent (d := { d with pool := q }) he (hlast.trans hsent)
  · cases hsent : (trail (story e.ticket es)).sent with
    | none =>
      have hnone := Trail.failed_of_unsent (fun _ => rfl) (story e.ticket es) hsent
      rw [trail, hnone] at hfailed
      cases hfailed
    | some x =>
      by_cases hne : x = w
      · rw [hne]
      · -- others can bring it about that just these two workers are idle
        obtain ⟨q, hq, hidle⟩ := d.run_justTwo w x
        have hresort := h (justTwo d.pool w x)
        rw [hq] at hresort
        have hnot := not_lastResort (d := { d with pool := q }) he (hlast.trans hsent) hne hidle
        exact absurd hresort hnot

theorem rounds_remember (config : ControllerConfig) (sink : σ) (os : List Occurrence) (p : Pool)
    (ws : List Attempt) (k : Nat) :
    let c := ((start config sink).run os).andThen fun d =>
      pumpRounds k { d with pool := p, waiting := ws }
    Remembers (facts c.events) c.next := by
  intro c
  have hd : ((start config sink).run os).next.Filed True := run_filed_any os (filed_start config sink)
  have hd' : Filed True { ((start config sink).run os).next with pool := p, waiting := ws } :=
    hd.congr rfl rfl rfl rfl
  have hstart : Remembers (facts ((start config sink).run os).events)
      { ((start config sink).run os).next with pool := p, waiting := ws } :=
    (run_remembers config sink os).congr rfl rfl rfl
  have hrounds := (pumpRounds_follows k _ hd').turns.tell (P := Remembers)
    (fun hd turn h => turn.remembers hd h) hd' hstart
  rwa [← facts_append] at hrounds

/-- At every assignment of every scheduling cycle, with whatever pool and calls it began: a live task
goes back to the worker it failed on only while no other one is idle, if it was not sent elsewhere
since; and just then this is so whatever happens to the pool before. -/
theorem retry_avoids_iff (config : ControllerConfig) (sink : σ) (os : List Occurrence) (p : Pool)
    (ws : List Attempt) (k : Nat) :
    let c := ((start config sink).run os).andThen fun d =>
      pumpRounds k { d with pool := p, waiting := ws }
    ∀ t e w, c.next.tasks.get? t = some e →
      (trail (story e.ticket c.events)).failed = some w →
      ((trail (story e.ticket c.events)).sent = some w → c.next.LastResort t w) ∧
        ((trail (story e.ticket c.events)).sent = some w ↔
          ∀ cs : List PoolCall, (c.next.run (cs.map .pool)).next.LastResort t w) := by
  intro c t e w he hfailed
  have hr : Remembers (facts c.events) c.next := rounds_remember config sink os p ws k
  rw [← story_facts] at hfailed ⊢
  exact hr.avoids_iff he hfailed

/-- A task failed on the first worker and is queued again. -/
def failedOnce : List Occurrence :=
  [.pool (.register someWorker), .pool (.register spareWorker), .own (.submit someTask),
    .own (.part (.receive firstResult))]

/-- Then the cycle that follows gives it to the other worker; the first one gets it only for want of
another, whatever happens to the pool before. -/
theorem retry_avoids_failedOnce :
    let d := (firstDay.run failedOnce).next
    let c := (firstDay.run failedOnce).andThen fun d' =>
      pumpRounds 0 { d' with pool := d.pool, waiting := d.waiting }
    (trail (story 0 c.events)).failed = some someWorker.workerId ∧
      c.next.nextAssignment?.map (·.worker.workerId) = some spareWorker.workerId ∧
      ∀ cs : List PoolCall,
        (c.next.run (cs.map .pool)).next.LastResort someTask.id someWorker.workerId := by
  intro d c
  have hfailed : (trail (story 0 c.events)).failed = some someWorker.workerId := rfl
  have hsent : (trail (story 0 c.events)).sent = some someWorker.workerId := rfl
  have hentry : (c.next.tasks.get? someTask.id).map (·.ticket) = some 0 := rfl
  obtain ⟨e, he, hticket⟩ := Option.map_eq_some_iff.mp hentry
  have havoids := retry_avoids_iff {} (.empty 10 : Accounts Float) failedOnce d.pool d.waiting 0
    someTask.id e someWorker.workerId he
  rw [hticket] at havoids
  exact ⟨hfailed, rfl, (havoids hfailed).2.mp hsent⟩

/-- A task failed on the first of three workers and is tried again on the third one; the second one is
done with another task. -/
def triedElsewhere : List Occurrence :=
  [.pool (.register someWorker), .pool (.register spareWorker),
    .pool (.register (.new ⟨"w3"⟩ "http://w3" default)), .own (.submit someTask),
    .own (.submit otherTask), .own (.deliver firstResult),
    .own (.deliver { firstResult with taskId := otherTask.id, status := .success })]

/-- The third worker refuses it. The task is sent back to the first one then, while the second one is
idle, whether the refusal comes in parts or as a whole. -/
theorem returns_triedElsewhere :
    let c := firstDay.run (triedElsewhere ++ [.own (.part (.giveBack someTask.id 2))])
    let d := (firstDay.run (triedElsewhere ++ [.own (.refuse someTask.id 2)])).next
    someTask.id ∈ c.next.pending ∧
      (trail (story 0 c.events)).failed = some someWorker.workerId ∧
      (trail (story 0 c.events)).sent = some ⟨"w3"⟩ ∧
      ¬ c.next.LastResort someTask.id someWorker.workerId ∧
      d.worker? someTask.id = some someWorker.workerId ∧
      d.pool.status? spareWorker.workerId = some .idle := by
  intro c d
  have hassign : (c.next.assign? someTask.id).map (·.worker.workerId) = some someWorker.workerId := rfl
  have hidle : c.next.pool.status? spareWorker.workerId = some .idle := rfl
  refine ⟨List.mem_cons_self, rfl, rfl, fun h => ?_, rfl, rfl⟩
  obtain ⟨a, ha, hw⟩ := Option.map_eq_some_iff.mp hassign
  exact h a ha hw spareWorker.workerId (by decide) hidle

end Dispatcher
end HazardDispatch
