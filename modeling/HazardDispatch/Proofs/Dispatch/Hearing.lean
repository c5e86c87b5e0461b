import HazardDispatch.Proofs.Dispatch.Actions

/-!
# What the sinks hear

The sinks of a dispatcher hear the results that are handed to them and the tasks that are given up,
in order, and nothing else. A sink may be made of others. `Listens view` says that `view` shows one
of them, and `run_heard` that this one heard everything, too.
-/

namespace HazardDispatch

def Event.tell {σ : Type} [Sink σ] (s : σ) : Event → σ
  | forwarded _ r => (Sink.record s r).1
  | abandoned _ t reason => Sink.abandon s t reason
  | _ => s

theorem foldl_tell_facts {σ : Type} [Sink σ] (s : σ) (es : List Event) :
    (facts es).foldl Event.tell s = es.foldl Event.tell s := by
  induction es generalizing s with
  | nil => rfl
  | cons e es ih =>
    rw [facts_cons, List.foldl_cons, ← ih]
    cases e <;> rfl

/-- The sink that `view` shows hears what the whole sink hears. -/
structure Listens {σ τ : Type} [Sink σ] [Sink τ] (view : σ → τ) : Prop where
  record : ∀ s r, (Sink.record s r).2 = none →
    (Sink.record (view s) r).2 = none ∧ view (Sink.record s r).1 = (Sink.record (view s) r).1
  abandon : ∀ s t reason, view (Sink.abandon s t reason) = Sink.abandon (view s) t reason

section
variable {σ τ : Type} [Sink σ] [Sink τ]

theorem record_pair {s : σ × τ} {r : TaskResult} (h : (Sink.record s r).2 = none) :
    (Sink.record s.1 r).2 = none ∧ (Sink.record s.2 r).2 = none ∧
      (Sink.record s r).1 = ((Sink.record s.1 r).1, (Sink.record s.2 r).1) := by
  simp only [Sink.record] at h ⊢
  rcases h₁ : Sink.record s.1 r with ⟨a, _ | e⟩
  · rw [h₁] at h
    exact ⟨rfl, h, rfl⟩
  · rw [h₁] at h
    cases h

theorem listens_fst : Listens (Prod.fst : σ × τ → σ) where
  record s r h := by
    obtain ⟨h₁, -, h⟩ := record_pair h
    exact ⟨h₁, congrArg Prod.fst h⟩
  abandon _ _ _ := rfl

end

namespace Dispatcher

variable {σ τ : Type} [Sink σ] [Sink τ] {u : Option TaskId} {d d' : Dispatcher σ}
  {es : List Event} {view : σ → τ}

theorem Turn.heard (h : Turn False u d es d') (hv : Listens view) :
    view d'.sink = es.foldl Event.tell (view d.sink) := by
  cases h with
  | completed _ _ _ _ _ _ whole => exact (hv.record _ _ whole).2
  | retried _ _ _ _ _ _ _ _ whole => exact (hv.record _ _ whole).2
  | abandoned _ _ _ _ _ _ _ whole =>
    refine (hv.abandon _ _ _).trans ?_
    rw [(hv.record _ _ whole).2]
    rfl
  | halted _ h => exact h.elim
  | _ => rfl

theorem run_heard {os : List Occurrence} (hv : Listens view) (hs : d.SinksReturn os)
    (hd : d.Filed False) :
    view (d.run os).next.sink = (d.run os).events.foldl Event.tell (view d.sink) := by
  have h := run_tell (P := fun es d' => view d'.sink = es.foldl Event.tell (view d.sink)) []
    (fun _ h => h) (fun _ turn h => by rw [turn.heard hv, h, List.foldl_append]) hs hd rfl
  rw [List.nil_append, foldl_tell_facts] at h
  exact h

end Dispatcher
end HazardDispatch
