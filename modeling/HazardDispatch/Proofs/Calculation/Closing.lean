import HazardDispatch.Proofs.Calculation.Sound
import Mathlib.Algebra.BigOperators.Group.List.Lemmas

/-!
# The report of a whole calculation

When a calculation returns its report, every task was accepted once and has one outcome, and the report
counts these: done and failed tasks, successes and failures of attempts (`calculation_accounted`).

Two accounts are made apart from each other, the figures by operation and the assembler's lists. Both
are tied to the events (`Figures`), and the events to the outcomes, story by story (`Account`). The
totals are sums over the stories (`countP_stories`).
-/

namespace HazardDispatch

def Outcome.isFailed : Outcome → Bool
  | failed _ _ _ => true
  | _ => false

/-! ## sums over the stories -/

theorem sum_ite_eq_countP {α : Type} (p : α → Bool) (l : List α) :
    (l.map fun i => if p i then 1 else 0).sum = l.countP p := by
  induction l with
  | nil => rfl
  | cons i l ih => rw [List.map_cons, List.sum_cons, ih, List.countP_cons, Nat.add_comm]

/-- An event of the first `n` submissions is in just one of their stories. -/
theorem countP_stories {n : Nat} {es : List Event} {p : Event → Bool}
    (h : ∀ e ∈ es, p e → ∃ i < n, e.ticket? = some i) :
    es.countP p = ((List.range n).map fun i => (story i es).countP p).sum := by
  induction es with
  | nil => simp [story]
  | cons e es ih =>
    have hrest := ih fun e' he' => h e' (List.mem_cons_of_mem _ he')
    have hstory (i : Nat) : (story i (e :: es)).countP p
        = (story i es).countP p + if e.ticket? == some i && p e then 1 else 0 := by
      rw [story, List.filter_cons]
      by_cases hi : e.ticket? == some i
      · rw [if_pos hi, List.countP_cons, hi, Bool.true_and]
        rfl
      · rw [if_neg hi, Bool.eq_false_iff.mpr hi]
        rfl
    have hone : (List.range n).countP (fun i => e.ticket? == some i && p e)
        = if p e then 1 else 0 := by
      by_cases hp : p e
      · obtain ⟨j, hj, hticket⟩ := h e List.mem_cons_self hp
        have hcount : (List.range n).count j = 1 := by rw [List.count_range, if_pos hj]
        rw [if_pos hp, ← hcount, List.count]
        congr 1
        funext i
        simp [hticket, hp, eq_comm]
      · simp [hp]
    rw [List.countP_cons, hrest]
    simp only [hstory]
    rw [List.sum_map_add, sum_ite_eq_countP, hone]

/-- A list whose part for each place is one item made from the item of `l` there. -/
theorem flatMap_range_eq_map {α β : Type} (l : List α) (f : α → β) {g : Nat → List β}
    (h : ∀ i (hi : i < l.length), g i = [f l[i]]) : (List.range l.length).flatMap g = l.map f := by
  induction l generalizing g with
  | nil => rfl
  | cons a l ih =>
    rw [List.length_cons, List.range_succ_eq_map, List.flatMap_cons, List.flatMap_map, List.map_cons,
      h 0 (Nat.zero_lt_succ _)]
    have hrest := ih (g := fun i => g (i + 1)) fun i hi => h (i + 1) (Nat.succ_lt_succ hi)
    exact congrArg (f a :: ·) hrest

/-! ## one submission -/

section
variable {max : Nat} {task : Task} {es : List Event} {o : Outcome}

/-- What can be read off the one outcome of a submission that is not cancelled. -/
structure Summed (task : Task) (es : List Event) (o : Outcome) : Prop where
  named : o.taskId = task.id
  own : ∀ r ∈ forwards es, r.taskId = o.taskId
  successes : successes (forwards es) = if o.isCompleted then 1 else 0
  failed : o.isFailed = !o.isCompleted
  given_up : o.isFailed → ∃ reason, abandons es = [(task, reason)]

theorem not_isSuccess {r : TaskResult} (h : r.status ≠ .success) : r.isSuccess = false :=
  Bool.eq_false_iff.mpr fun hs => h (isSuccess_iff.mp hs)

theorem successes_of_failures {rs : List TaskResult} (h : ∀ r ∈ rs, r.status ≠ .success) :
    successes rs = 0 :=
  List.countP_eq_zero.mpr fun r hr => by rw [not_isSuccess (h r hr)]; exact Bool.false_ne_true

theorem Account.summed (h : Account max task es) (ho : outcomes es = [o])
    (kept : ∀ t, o ≠ .cancelled t) : Summed task es o := by
  have hfits := h.fits o (ho ▸ List.mem_cons_self)
  cases o with
  | completed r =>
    obtain ⟨hsuccess, rs, hrs, hfailures⟩ := hfits
    have htask := h.own r (hrs ▸ List.mem_append_right _ List.mem_cons_self)
    refine ⟨htask, fun r' hr' => (h.own r' hr').trans htask.symm, ?_, rfl, fun hf => nomatch hf⟩
    rw [hrs, successes_append, successes_of_failures hfailures, successes,
      List.countP_singleton, isSuccess_iff.mpr hsuccess]
    rfl
  | failed t k reason =>
    obtain ⟨htask, -, hfailures, -, hends⟩ := hfits
    exact ⟨htask, fun r hr => (h.own r hr).trans htask.symm, successes_of_failures hfailures, rfl,
      fun _ => ⟨reason, hends⟩⟩
  | cancelled t => exact absurd rfl (kept t)

/-- A task is done if a success of it was taken in. -/
theorem Summed.done_iff (h : Summed task es o) :
    o.isCompleted = true ↔ ∃ r ∈ forwards es, r.isSuccess = true := by
  have hpos : 0 < HazardDispatch.successes (forwards es) ↔ ∃ r ∈ forwards es, r.isSuccess = true :=
    List.countP_pos_iff
  rw [← hpos, h.successes]
  cases o.isCompleted <;> simp

end

namespace Session

variable {F : Type}

/-- The outcomes of the accepted tasks, in the order of their submissions. -/
def outcomes (s : Session F) : List Outcome :=
  (List.range s.accepted.length).flatMap fun i => HazardDispatch.outcomes (story i s.events)

/-- The report is the account of these tasks and outcomes. -/
structure Accounted (tasks : List Task) (os : List Outcome) (rs : List TaskResult)
    (report : CompositeReport F) : Prop where
  expected : report.expectedTasks = tasks.length
  completed : report.completedTasks = os.countP (·.isCompleted)
  counts : (report.operations.values.map (·.count)).sum = report.completedTasks
  sorted : report.failedTasks.Pairwise (TaskId.le · ·)
  failed : report.failedTasks.Perm ((os.filter (·.isFailed)).map (·.taskId))
  total : report.completedTasks + report.failedTasks.length = report.expectedTasks
  failures : (report.operations.values.map (·.failures)).sum = failures rs
  complete : report.complete = true ↔ tasks ≠ [] ∧ ∀ o ∈ os, o.isCompleted = true

variable {tasks : List Task} {s : Session F} {report : CompositeReport F}

/-- The stories of a session that is over. -/
structure Told (tasks : List Task) (s : Session F) : Prop where
  accepted : s.accepted = tasks
  told : ∀ i (hi : i < tasks.length),
    ∃ o, HazardDispatch.outcomes (story i s.events) = [o] ∧ Summed tasks[i] (story i s.events) o
  known : ∀ e ∈ s.events, ∀ i, e.ticket? = some i → i < tasks.length
  ends : ∀ i t reason, .abandoned i t reason ∈ s.events →
    ∃ u k, .resolved i (.failed u k reason) ∈ s.events

namespace Told

theorem outcomes_eq (h : Told tasks s) : s.outcomes = (List.range tasks.length).flatMap fun i =>
    HazardDispatch.outcomes (story i s.events) := by
  rw [outcomes, h.accepted]

theorem mem_outcomes (h : Told tasks s) {o : Outcome} (ho : o ∈ s.outcomes) :
    ∃ i, ∃ hi : i < tasks.length, HazardDispatch.outcomes (story i s.events) = [o] ∧
      Summed tasks[i] (story i s.events) o := by
  rw [h.outcomes_eq, List.mem_flatMap] at ho
  obtain ⟨i, hi, ho⟩ := ho
  obtain ⟨o', ho', hsummed⟩ := h.told i (List.mem_range.mp hi)
  rw [ho', List.mem_singleton] at ho
  exact ⟨i, List.mem_range.mp hi, ho ▸ ho', ho ▸ hsummed⟩

theorem mem_of_story (h : Told tasks s) {i : Nat} (hi : i < tasks.length) {o : Outcome}
    (ho : HazardDispatch.outcomes (story i s.events) = [o]) : o ∈ s.outcomes := by
  rw [h.outcomes_eq, List.mem_flatMap]
  exact ⟨i, List.mem_range.mpr hi, ho ▸ List.mem_cons_self⟩

theorem taskIds (h : Told tasks s) : s.outcomes.map (·.taskId) = tasks.map (·.id) := by
  rw [h.outcomes_eq, List.map_flatMap]
  refine flatMap_range_eq_map tasks (·.id) fun i hi => ?_
  obtain ⟨o, ho, hsummed⟩ := h.told i hi
  rw [ho, List.map_singleton, hsummed.named]

theorem length_outcomes (h : Told tasks s) : s.outcomes.length = tasks.length := by
  have hlength := congrArg List.length h.taskIds
  rwa [List.length_map, List.length_map] at hlength

theorem successes_eq (h : Told tasks s) :
    successes (forwards s.events) = s.outcomes.countP (·.isCompleted) := by
  let p : Event → Bool := fun e => (e.forward?.map (·.isSuccess)).getD false
  have hevents (es : List Event) : successes (forwards es) = es.countP p :=
    List.countP_filterMap
  have hticket : ∀ e ∈ s.events, p e → ∃ i < tasks.length, e.ticket? = some i := by
    intro e he hp
    cases e with
    | forwarded i r => exact ⟨i, h.known _ he i rfl, rfl⟩
    | launched => cases hp
    | abandoned => cases hp
    | resolved => cases hp
    | cancelSignal => cases hp
    | logged => cases hp
  rw [hevents, countP_stories hticket, h.outcomes_eq, List.countP_flatMap]
  congr 1
  refine List.map_congr_left fun i hi => ?_
  obtain ⟨o, ho, hsummed⟩ := h.told i (List.mem_range.mp hi)
  show (story i s.events).countP p = (HazardDispatch.outcomes (story i s.events)).countP _
  rw [← hevents, hsummed.successes, ho, List.countP_singleton]

theorem mem_completed (h : Told tasks s) (t : TaskId) :
    (∃ r ∈ forwards s.events, r.isSuccess ∧ r.taskId = t) ↔
      t ∈ (s.outcomes.filter (·.isCompleted)).map (·.taskId) := by
  rw [List.mem_map]
  constructor
  · rintro ⟨r, hr, hsuccess, rfl⟩
    obtain ⟨i, he⟩ := reads_forward.mem_iff.mp hr
    have hi := h.known _ he i rfl
    obtain ⟨o, ho, hsummed⟩ := h.told i hi
    have hstory : r ∈ forwards (story i s.events) := reads_forward.mem_story_iff.mpr he
    have hdone := hsummed.done_iff.mpr ⟨r, hstory, hsuccess⟩
    exact ⟨o, List.mem_filter.mpr ⟨h.mem_of_story hi ho, hdone⟩, (hsummed.own r hstory).symm⟩
  · rintro ⟨o, ho, rfl⟩
    obtain ⟨hmem, hdone⟩ := List.mem_filter.mp ho
    obtain ⟨i, hi, -, hsummed⟩ := h.mem_outcomes hmem
    obtain ⟨r, hr, hsuccess⟩ := hsummed.done_iff.mp hdone
    exact ⟨r, reads_forward.mem_iff.mpr ⟨i, reads_forward.mem_story_iff.mp hr⟩, hsuccess,
      hsummed.own r hr⟩

theorem mem_failed (h : Told tasks s) (t : TaskId) : (∃ x ∈ abandons s.events, x.1.id = t) ↔
    t ∈ (s.outcomes.filter (·.isFailed)).map (·.taskId) := by
  rw [List.mem_map]
  constructor
  · rintro ⟨⟨t, reason⟩, hx, rfl⟩
    obtain ⟨i, he⟩ := reads_abandon.mem_iff.mp hx
    have hi := h.known _ he i rfl
    obtain ⟨o, ho, hsummed⟩ := h.told i hi
    obtain ⟨u, k, hresolved⟩ := h.ends i t reason he
    have hsame : Outcome.failed u k reason ∈ HazardDispatch.outcomes (story i s.events) :=
      reads_outcome.mem_story_iff.mpr hresolved
    rw [ho, List.mem_singleton] at hsame
    have hfailed : o.isFailed = true := hsame ▸ rfl
    obtain ⟨reason', hends⟩ := hsummed.given_up hfailed
    have hstory : (t, reason) ∈ abandons (story i s.events) := reads_abandon.mem_story_iff.mpr he
    rw [hends, List.mem_singleton] at hstory
    refine ⟨o, List.mem_filter.mpr ⟨h.mem_of_story hi ho, hfailed⟩, ?_⟩
    rw [hsummed.named, (Prod.mk.inj hstory).1]
  · rintro ⟨o, ho, rfl⟩
    obtain ⟨hmem, hfailed⟩ := List.mem_filter.mp ho
    obtain ⟨i, hi, -, hsummed⟩ := h.mem_outcomes hmem
    obtain ⟨reason, hends⟩ := hsummed.given_up hfailed
    have hstory : (tasks[i], reason) ∈ abandons (story i s.events) := hends ▸ List.mem_cons_self
    have he := reads_abandon.mem_story_iff.mp hstory
    exact ⟨_, reads_abandon.mem_iff.mpr ⟨i, he⟩, hsummed.named.symm⟩

/-- Each task is done or failed. -/
theorem countP_failed (h : Told tasks s) :
    s.outcomes.countP (·.isCompleted) + s.outcomes.countP (·.isFailed) = tasks.length := by
  have hfailed : s.outcomes.countP (·.isFailed) = s.outcomes.countP (!·.isCompleted) := by
    refine List.countP_congr fun o ho => ?_
    obtain ⟨i, hi, -, hsummed⟩ := h.mem_outcomes ho
    rw [hsummed.failed]
  rw [hfailed, ← h.length_outcomes, List.length_eq_countP_add_countP (·.isCompleted)]
  simp

/-- A list of task ids without repetition that has the tasks of these outcomes has them once each. -/
theorem perm_taskIds (h : Told tasks s) (ids : (tasks.map (·.id)).Nodup) {p : Outcome → Bool}
    {ts : List TaskId} (once : ts.Nodup)
    (mem : ∀ t, t ∈ ts ↔ t ∈ (s.outcomes.filter p).map (·.taskId)) :
    ts.Perm ((s.outcomes.filter p).map (·.taskId)) := by
  refine (List.perm_ext_iff_of_nodup once ?_).mpr mem
  rw [← h.taskIds] at ids
  exact ids.sublist (List.filter_sublist.map _)

end Told

theorem figures_of_facts {n : Nat} {es : List Event} {a : Accounts F}
    (h : Figures n (facts es) a) : Figures n es a := by
  obtain ⟨hcounts, hfailures, hexpected, honce, hcompleted, hfailed_once, hfailed⟩ := h
  rw [forwards_facts] at hcounts hfailures
  simp only [forwards_facts, abandons_facts] at hcompleted hfailed
  exact ⟨hcounts, hfailures, hexpected, honce, hcompleted, hfailed_once, hfailed⟩

variable [Add F] [Sub F] [Mul F] [Div F] [Scalar F]

omit [Sub F] [Mul F] in
theorem Sound.told (h : Sound tasks s) (hstage : s.calculation.stage = .finished (.ok report)) :
    Told tasks s := by
  obtain ⟨-, hrest, hall⟩ := h.finished report hstage
  have haccepted : s.accepted = tasks := by
    have hsplit := h.split
    rw [hrest, List.append_nil] at hsplit
    exact hsplit.symm
  refine ⟨haccepted, fun i hi => ?_, fun e he i hticket => ?_, fun i t reason hmem => ?_⟩
  · have hi' : i < s.accepted.length := haccepted.symm ▸ hi
    obtain ⟨o, ho⟩ := hall i hi'
    have hclosed := h.recorded.closed hi' ⟨o, (mem_facts rfl).mpr ho⟩
    rw [story_facts] at hclosed
    have htask : s.accepted[i] = tasks[i] := by simp only [haccepted]
    obtain ⟨o', ho'⟩ := List.length_eq_one_iff.mp hclosed.one
    refine ⟨o', ho', htask ▸ hclosed.account.summed ho' fun t ht => h.kept t ?_⟩
    have hmem : o' ∈ HazardDispatch.outcomes (story i s.events) := ho' ▸ List.mem_cons_self
    rw [ht] at hmem
    exact reads_outcome.mem_iff.mpr ⟨i, reads_outcome.mem_story_iff.mp hmem⟩
  · refine Classical.byContradiction fun hge => ?_
    have hissued : s.dispatcher.nextTicket ≤ i := by
      rw [h.issued, haccepted]
      exact Nat.not_lt.mp hge
    have hstory := h.recorded.fresh.events i hissued
    rw [story_facts] at hstory
    have hmem : e ∈ story i s.events := mem_story.mpr ⟨he, hticket⟩
    rw [hstory] at hmem
    cases hmem
  · obtain ⟨u, k, hfailed⟩ := h.recorded.ends i t reason ((mem_facts rfl).mpr hmem)
    exact ⟨u, k, (mem_facts rfl).mp hfailed⟩

omit [Sub F] [Mul F] in
/-- The report of a session that is over. -/
theorem Told.accounted (h : Told tasks s) (ids : (tasks.map (·.id)).Nodup)
    (figures : Figures tasks.length s.events s.dispatcher.sink) :
    Accounted tasks s.outcomes (forwards s.events) s.dispatcher.sink.report := by
  let a := s.dispatcher.sink
  obtain ⟨hsorted, hperm⟩ := failedTasks_sorted a
  have hcompleted := h.perm_taskIds ids figures.completed_once
    fun t => (figures.completed t).trans (h.mem_completed t)
  have hfailed := h.perm_taskIds ids figures.failed_once
    fun t => (figures.failed t).trans (h.mem_failed t)
  have hdone : a.2.completed.length = s.outcomes.countP (·.isCompleted) := by
    rw [hcompleted.length_eq, List.length_map, List.countP_eq_length_filter]
  have hlost : a.2.failed.length = s.outcomes.countP (·.isFailed) := by
    rw [hfailed.length_eq, List.length_map, List.countP_eq_length_filter]
  have htotal := h.countP_failed
  refine ⟨figures.expected, hdone, ?_, hsorted, hperm.trans hfailed, ?_, ?_, ?_⟩
  · show (a.1.snapshot.values.map (·.count)).sum = a.2.completed.length
    rw [sum_snapshot, hdone, ← h.successes_eq]
    exact figures.counts
  · show a.2.completed.length + a.report.failedTasks.length = a.2.expected
    rw [hperm.length_eq, hdone, hlost, htotal]
    exact figures.expected.symm
  · show (a.1.snapshot.values.map (·.failures)).sum = _
    rw [sum_snapshot]
    exact figures.failures
  · show a.2.isComplete = true ↔ _
    have hall : s.outcomes.countP (·.isCompleted) = s.outcomes.length ↔
        ∀ o ∈ s.outcomes, o.isCompleted = true := List.countP_eq_length
    have hlength := h.length_outcomes
    have hsome : tasks ≠ [] ↔ 0 < tasks.length := List.length_pos_iff.symm
    have hexpected : a.2.expected = tasks.length := figures.expected
    rw [← hall, hsome, Assembler.isComplete, Bool.and_eq_true, Bool.and_eq_true, List.isEmpty_iff,
      decide_eq_true_iff, decide_eq_true_iff, ← List.length_eq_zero_iff]
    omega

/-- When a calculation of different tasks returns its report, each task was accepted once and has one
outcome, and the report is their account. -/
theorem calculation_accounted (config : ControllerConfig) (topK : Nat) {tasks : List Task}
    (ids : (tasks.map (·.id)).Nodup) {ms : List Move}
    (lawful : (begin config topK tasks : Session F).Lawful ms)
    (returned : ((begin config topK tasks : Session F).run ms).calculation.stage
      = .finished (.ok report)) :
    let s := (begin config topK tasks : Session F).run ms
    s.accepted = tasks ∧
      (∀ i < tasks.length, (HazardDispatch.outcomes (story i s.events)).length = 1) ∧
      s.outcomes.map (·.taskId) = tasks.map (·.id) ∧
      Accounted tasks s.outcomes (forwards s.events) report := by
  intro s
  have hsound : Sound tasks s := by
    refine (run_sound (.inr (sound_begin config topK tasks)) lawful).resolve_left fun haborted => ?_
    unfold Calculation.Aborted at haborted
    rwa [returned] at haborted
  have htold := hsound.told returned
  have hfigures := figures_of_facts hsound.recorded.figures
  refine ⟨htold.accepted, fun i hi => ?_, htold.taskIds, ?_⟩
  · obtain ⟨o, ho, -⟩ := htold.told i hi
    rw [ho]
    rfl
  · rw [(hsound.finished report returned).1]
    exact htold.accounted ids hfigures

def twoTasks : Session Float := begin { maxRetries := 1 } 10 [someTask, Dispatcher.otherTask]

/-- On one worker the first task is done; the second fails and is given up. -/
def oneOfTwo : List Move :=
  let done : TaskResult := { firstResult with status := .success }
  let lost : TaskResult := { firstResult with taskId := Dispatcher.otherTask.id }
  [.others (.pool (.register someWorker)), .step, .step, .others (.own (.deliver done)),
    .hear 0 (.completed done), .step, .others (.own (.deliver lost)),
    .hear 1 (.failed Dispatcher.otherTask.id 1 (.execution "no memory")), .step, .step]

theorem calculation_accounted_oneOfTwo :
    ([someTask, Dispatcher.otherTask].map (·.id)).Nodup ∧ twoTasks.Lawful oneOfTwo ∧
      ∃ report, (twoTasks.run oneOfTwo).calculation.stage = .finished (.ok report) ∧
        Accounted [someTask, Dispatcher.otherTask] (twoTasks.run oneOfTwo).outcomes
          (forwards (twoTasks.run oneOfTwo).events) report ∧
        report.completedTasks = 1 ∧ report.failedTasks = [Dispatcher.otherTask.id] ∧
        ¬ report.complete := by
  have ids : ([someTask, Dispatcher.otherTask].map (·.id)).Nodup := by decide
  have lawful : twoTasks.Lawful oneOfTwo :=
    ⟨⟨rfl, rfl⟩, trivial, trivial, ⟨rfl, rfl⟩, List.mem_of_getElem? (i := 8) rfl, trivial,
      ⟨rfl, rfl⟩, List.mem_of_getElem? (i := 14) rfl, trivial, trivial, trivial⟩
  have hover : (twoTasks.run oneOfTwo).calculation.stage matches .finished (.ok _) := rfl
  obtain ⟨report, hreport⟩ : ∃ report,
      (twoTasks.run oneOfTwo).calculation.stage = .finished (.ok report) := by
    split at hover
    · next report h => exact ⟨report, h⟩
    · cases hover
  have haccounted := (calculation_accounted { maxRetries := 1 } 10 ids lawful hreport).2.2.2
  refine ⟨ids, lawful, report, hreport, haccounted, haccounted.completed.trans rfl, ?_, ?_⟩
  · exact List.perm_singleton.mp haccounted.failed
  · intro hcomplete
    have hdone := (haccounted.complete.mp hcomplete).2 (.failed Dispatcher.otherTask.id 1
      (.execution "no memory")) (List.mem_of_getElem? (i := 1) rfl)
    cases hdone

end Session
end HazardDispatch
