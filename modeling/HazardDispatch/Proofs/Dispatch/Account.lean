import HazardDispatch.Proofs.Dispatch.Turn

/-!
# The account of a submission

What can be read off the events of one submission alone, and what these must look like.

* `story n es`         the events of the submission `n`;
* `forwards`           the results that were handed to the sinks;
* `abandons`           what the sinks were told of the end of the task;
* `outcomes`           what the submitter got;
* `Failing task es`    so far all attempts failed, and the task goes on;
* `Account max task es`   the law of a submission: attempts are numbered without gaps, only the last
                       one can be a success, and there is at most one outcome, which fits them.

A submission is `Failing` until its outcome; each kind of outcome turns `Failing` into `Account`.
-/

namespace HazardDispatch

namespace Event

/-- The number of the submission that an event is about. -/
def ticket? : Event → Option Nat
  | launched n _ => some n
  | forwarded n _ => some n
  | abandoned n _ _ => some n
  | resolved n _ => some n
  | cancelSignal _ _ => none
  | logged _ => none

def forward? : Event → Option TaskResult
  | forwarded _ r => some r
  | _ => none

def abandon? : Event → Option (Task × FailureReason)
  | abandoned _ t reason => some (t, reason)
  | _ => none

def outcome? : Event → Option Outcome
  | resolved _ o => some o
  | _ => none

end Event

def story (n : Nat) (es : List Event) : List Event := es.filter (·.ticket? == some n)

def forwards (es : List Event) : List TaskResult := es.filterMap Event.forward?

def abandons (es : List Event) : List (Task × FailureReason) := es.filterMap Event.abandon?

def outcomes (es : List Event) : List Outcome := es.filterMap Event.outcome?

@[simp] theorem forwards_append (es es' : List Event) :
    forwards (es ++ es') = forwards es ++ forwards es' := List.filterMap_append

@[simp] theorem abandons_append (es es' : List Event) :
    abandons (es ++ es') = abandons es ++ abandons es' := List.filterMap_append

@[simp] theorem outcomes_append (es es' : List Event) :
    outcomes (es ++ es') = outcomes es ++ outcomes es' := List.filterMap_append

theorem story_append (n : Nat) (es es' : List Event) :
    story n (es ++ es') = story n es ++ story n es' := List.filter_append es es'

theorem story_of_other {n : Nat} {es : List Event} (h : ∀ e ∈ es, e.ticket? ≠ some n) :
    story n es = [] := by
  rw [story, List.filter_eq_nil_iff]
  intro e he
  rw [beq_iff_eq]
  exact h e he

theorem story_of_own {n : Nat} {es : List Event} (h : ∀ e ∈ es, e.ticket? = some n) :
    story n es = es := by
  rw [story, List.filter_eq_self]
  intro e he
  rw [beq_iff_eq]
  exact h e he

theorem story_facts (n : Nat) (es : List Event) : story n (facts es) = story n es := by
  rw [story, facts, List.filter_filter, story]
  congr 1
  funext e
  cases e <;> simp [Event.isLog, Event.ticket?]

section
variable {α : Type} {f : Event → Option α}

theorem filterMap_facts (h : ∀ l, f (.logged l) = none) (es : List Event) :
    (facts es).filterMap f = es.filterMap f := by
  rw [facts, List.filterMap_filter]
  congr 1
  funext e
  cases e with
  | logged l => exact (h l).symm
  | _ => rfl

theorem filterMap_logged (h : ∀ l, f (.logged l) = none) (ls : List LogLine) :
    (ls.map .logged).filterMap f = [] := by
  rw [List.filterMap_eq_nil_iff]
  intro e he
  obtain ⟨l, -, rfl⟩ := List.mem_map.mp he
  exact h l

end

theorem forwards_facts (es : List Event) : forwards (facts es) = forwards es :=
  filterMap_facts (fun _ => rfl) es

theorem abandons_facts (es : List Event) : abandons (facts es) = abandons es :=
  filterMap_facts (fun _ => rfl) es

theorem forwards_logged (ls : List LogLine) : forwards (ls.map .logged) = [] :=
  filterMap_logged (fun _ => rfl) ls

theorem outcomes_logged (ls : List LogLine) : outcomes (ls.map .logged) = [] :=
  filterMap_logged (fun _ => rfl) ls

/-- `f` reads the events that `mk` makes for a submission, and no others. -/
structure Event.Reads {α : Type} (f : Event → Option α) (mk : Nat → α → Event) : Prop where
  eq_some_iff : ∀ e a, f e = some a ↔ ∃ n, e = mk n a
  ticket : ∀ n a, (mk n a).ticket? = some n

theorem reads_forward : Event.Reads Event.forward? .forwarded where
  eq_some_iff e r := by cases e <;> simp [Event.forward?]
  ticket _ _ := rfl

theorem reads_abandon : Event.Reads Event.abandon? fun n x => .abandoned n x.1 x.2 where
  eq_some_iff e x := by cases e <;> simp [Event.abandon?, Prod.ext_iff]
  ticket _ _ := rfl

theorem reads_outcome : Event.Reads Event.outcome? .resolved where
  eq_some_iff e o := by cases e <;> simp [Event.outcome?]
  ticket _ _ := rfl

section
variable {α : Type} {f : Event → Option α} {mk : Nat → α → Event} {es : List Event} {a : α}

theorem Event.Reads.mem_iff (h : Event.Reads f mk) : a ∈ es.filterMap f ↔ ∃ n, mk n a ∈ es := by
  rw [List.mem_filterMap]
  constructor
  · rintro ⟨e, he, ha⟩
    obtain ⟨n, rfl⟩ := (h.eq_some_iff e a).mp ha
    exact ⟨n, he⟩
  · rintro ⟨n, he⟩
    exact ⟨mk n a, he, (h.eq_some_iff _ _).mpr ⟨n, rfl⟩⟩

theorem mem_story {n : Nat} {e : Event} : e ∈ story n es ↔ e ∈ es ∧ e.ticket? = some n := by
  rw [story, List.mem_filter, beq_iff_eq]

theorem Event.Reads.mem_story_iff (h : Event.Reads f mk) {n : Nat} :
    a ∈ (story n es).filterMap f ↔ mk n a ∈ es := by
  rw [h.mem_iff]
  constructor
  · rintro ⟨m, hm⟩
    obtain ⟨he, hticket⟩ := mem_story.mp hm
    rw [h.ticket, Option.some.injEq] at hticket
    exact hticket ▸ he
  · exact fun he => ⟨n, mem_story.mpr ⟨he, h.ticket n a⟩⟩

end

/-- So far all attempts of the submission failed, and the task goes on. -/
structure Failing (task : Task) (es : List Event) : Prop where
  numbers : (forwards es).map (·.attempt.toNat) = List.range' 1 (forwards es).length
  own : ∀ r ∈ forwards es, r.taskId = task.id
  failures : ∀ r ∈ forwards es, r.status ≠ .success
  kept : abandons es = []
  silent : outcomes es = []

/-- The outcome fits the results and what the sinks were told of the end: a task was done if its
last attempt, and no other one, succeeded; it was given up if all attempts failed, and then it is the
reason of the last one that counts. -/
def Outcome.Fits (task : Task) (rs : List TaskResult) (ends : List (Task × FailureReason)) :
    Outcome → Prop
  | completed r => r.status = .success ∧ ∃ rs', rs = rs' ++ [r] ∧ ∀ r' ∈ rs', r'.status ≠ .success
  | failed t k reason => t = task.id ∧ k = rs.length ∧ (∀ r ∈ rs, r.status ≠ .success) ∧
    (∃ r, rs.getLast? = some r ∧ r.status = .failure reason) ∧ ends = [(task, reason)]
  | cancelled t => t = task.id ∧ (∀ r ∈ rs, r.status ≠ .success) ∧ ends = []

/-- The law of a submission. -/
structure Account (max : Nat) (task : Task) (es : List Event) : Prop where
  once : (outcomes es).length ≤ 1
  numbers : (forwards es).map (·.attempt.toNat) = List.range' 1 (forwards es).length
  bound : (forwards es).length ≤ max
  own : ∀ r ∈ forwards es, r.taskId = task.id
  failures : ∀ r ∈ (forwards es).dropLast, r.status ≠ .success
  fits : ∀ o ∈ outcomes es, o.Fits task (forwards es) (abandons es)

namespace Failing

variable {task : Task} {es : List Event} {max : Nat} {n : Nat} {r : TaskResult}

theorem nil (task : Task) : Failing task [] :=
  ⟨rfl, fun _ h => absurd h List.not_mem_nil, fun _ h => absurd h List.not_mem_nil, rfl, rfl⟩

/-- A failing submission has an account, which says nothing of an outcome. -/
theorem account (h : Failing task es) (hb : (forwards es).length ≤ max) :
    Account max task es where
  once := by rw [h.silent]; exact Nat.zero_le 1
  numbers := h.numbers
  bound := hb
  own := h.own
  failures r hr := h.failures r (List.dropLast_subset _ hr)
  fits o ho := by rw [h.silent] at ho; cases ho

/-- Events that are neither results nor ends change nothing. -/
theorem quiet {es' : List Event} (h : Failing task es) (hf : forwards es' = [])
    (ha : abandons es' = []) (ho : outcomes es' = []) : Failing task (es ++ es') := by
  have hf' : forwards (es ++ es') = forwards es := by
    rw [forwards_append, hf, List.append_nil]
  refine ⟨hf' ▸ h.numbers, hf' ▸ h.own, hf' ▸ h.failures, ?_, ?_⟩
  · rw [abandons_append, h.kept, ha]
    rfl
  · rw [outcomes_append, h.silent, ho]
    rfl

/-! ## one more attempt -/

theorem numbers_concat (h : Failing task es)
    (number : r.attempt.toNat = (forwards es).length + 1) :
    (forwards es ++ [r]).map (·.attempt.toNat)
      = List.range' 1 (forwards es ++ [r]).length := by
  rw [List.map_append, h.numbers, List.length_append, List.length_singleton,
    List.range'_concat, List.map_singleton, number, Nat.one_mul, Nat.add_comm 1]

theorem own_concat (h : Failing task es) (own : r.taskId = task.id) :
    ∀ r' ∈ forwards es ++ [r], r'.taskId = task.id := by
  intro r' hr'
  rcases List.mem_append.mp hr' with hr' | hr'
  · exact h.own r' hr'
  · rw [List.mem_singleton.mp hr']
    exact own

theorem retried (h : Failing task es) (number : r.attempt.toNat = (forwards es).length + 1)
    (own : r.taskId = task.id) (failure : r.status ≠ .success) :
    Failing task (es ++ [.forwarded n r]) where
  numbers := by
    rw [forwards_append]
    exact h.numbers_concat number
  own := by
    rw [forwards_append]
    exact h.own_concat own
  failures r' hr' := by
    rw [forwards_append] at hr'
    rcases List.mem_append.mp hr' with hr' | hr'
    · exact h.failures r' hr'
    · rw [List.mem_singleton.mp hr']
      exact failure
  kept := by rw [abandons_append, h.kept]; rfl
  silent := by rw [outcomes_append, h.silent]; rfl

/-! ## the outcome -/

theorem completed (h : Failing task es) (number : r.attempt.toNat = (forwards es).length + 1)
    (own : r.taskId = task.id) (success : r.status = .success)
    (hb : (forwards es).length + 1 ≤ max) :
    Account max task (es ++ [.forwarded n r, .resolved n (.completed r)]) := by
  have hf : forwards (es ++ [.forwarded n r, .resolved n (.completed r)]) = forwards es ++ [r] :=
    forwards_append _ _
  have ho : outcomes (es ++ [.forwarded n r, .resolved n (.completed r)]) = [.completed r] := by
    rw [outcomes_append, h.silent]
    rfl
  constructor
  · rw [ho]
    exact Nat.le_refl 1
  · rw [hf]
    exact h.numbers_concat number
  · rw [hf, List.length_append]
    exact hb
  · rw [hf]
    exact h.own_concat own
  · rw [hf, List.dropLast_concat]
    exact h.failures
  · intro o hr'
    rw [ho, List.mem_singleton] at hr'
    rw [hr', hf]
    exact ⟨success, forwards es, rfl, h.failures⟩

theorem close {es' : List Event} {o : Outcome} (h : Failing task es)
    (hb : (forwards es).length ≤ max) (hf : forwards es' = []) (ho : outcomes es' = [o])
    (fits : o.Fits task (forwards es) (abandons es')) : Account max task (es ++ es') := by
  have hf' : forwards (es ++ es') = forwards es := by
    rw [forwards_append, hf, List.append_nil]
  have ho' : outcomes (es ++ es') = [o] := by
    rw [outcomes_append, h.silent, ho, List.nil_append]
  constructor
  · rw [ho']
    exact Nat.le_refl 1
  · rw [hf']
    exact h.numbers
  · rw [hf']
    exact hb
  · rw [hf']
    exact h.own
  · rw [hf']
    exact fun r hr => h.failures r (List.dropLast_subset _ hr)
  · intro o' hr
    rw [ho', List.mem_singleton] at hr
    rw [hr, hf', abandons_append, h.kept]
    exact fits

theorem abandoned {reason : FailureReason} {own' : Task} {t : TaskId} {k : Nat}
    (h : Failing task es) (number : r.attempt.toNat = (forwards es).length + 1)
    (own : r.taskId = task.id) (ht : t = task.id) (htask : own' = task)
    (count : k = (forwards es).length + 1) (failure : r.status = .failure reason)
    (hb : (forwards es).length + 1 ≤ max) :
    Account max task (es ++ [.forwarded n r, .abandoned n own' reason,
      .resolved n (.failed t k reason)]) := by
  have hf : forwards (es ++ [.forwarded n r]) = forwards es ++ [r] := forwards_append _ _
  have hlen : (forwards (es ++ [.forwarded n r])).length = (forwards es).length + 1 := by
    rw [hf, List.length_append, List.length_singleton]
  have h' : Failing task (es ++ [.forwarded n r]) :=
    h.retried number own (by simp [failure])
  rw [List.append_cons]
  refine h'.close (hlen ▸ hb) rfl rfl ⟨ht, count.trans hlen.symm, h'.failures, ⟨r, ?_, failure⟩, ?_⟩
  · rw [hf, List.getLast?_concat]
  · rw [← htask]
    rfl

theorem cancelled (h : Failing task es) (hb : (forwards es).length ≤ max) :
    Account max task (es ++ [.resolved n (.cancelled task.id)]) :=
  h.close hb rfl rfl ⟨rfl, h.failures, rfl⟩

end Failing
end HazardDispatch
