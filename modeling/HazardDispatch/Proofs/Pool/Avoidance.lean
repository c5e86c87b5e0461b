import HazardDispatch.Proofs.Pool.Rotation

/-!
# Keeping off a worker

A task that failed on a worker asks for another one. `Avoids` says who is handed out then: the next in
line of the others, and for want of one the avoided worker itself, but only if there is nobody to wait
for (`LastLive`). Which of the others is chosen depends on who is idle, and whether waiting is in vain
on who is alive.

Handing out changes one worker and nothing else (`Lent`).
-/

namespace HazardDispatch.Pool

variable {p : Pool} {trace : PoolTrace}

/-- `w` is idle, and every other worker that is registered is out of rotation. -/
def LastLive (p : Pool) (w : WorkerId) : Prop :=
  p.status? w = some .idle ∧ ∀ u s, u ≠ w → p.status? u = some s → s = .unreachable

/-- Who gets handed out, if anybody, when `w` is avoided. -/
inductive Avoids (p : Pool) (trace : PoolTrace) (w : WorkerId) : Option WorkerId → Prop where
  | other {u : WorkerId} (next : p.NextInLine trace (some w) u) : Avoids p trace w (some u)
  | avoided (alone : ∀ u, u ≠ w → p.status? u ≠ some .idle) (last : p.LastLive w) :
      Avoids p trace w (some w)
  | nobody (alone : ∀ u, u ≠ w → p.status? u ≠ some .idle) (awaited : ¬ p.LastLive w) :
      Avoids p trace w none

/-- From `p` to `q` the worker of the handle, which was idle, became busy, and nothing else changed. -/
structure Lent (p : Pool) (h : WorkerHandle) (q : Pool) : Prop where
  entry : ∃ e, p.entry? h.workerId = some e ∧ e.status = .idle ∧
    q.entry? h.workerId = some { e with status := .busy } ∧
    h = PoolEntry.handle { e with status := .busy } h.workerId
  others : ∀ u, u ≠ h.workerId → q.entry? u = p.entry? u
  rest : q = { p with workers := q.workers }

theorem lent_of_acquireAvoiding {avoid : Option WorkerId} {h : WorkerHandle}
    (hh : (p.acquireAvoiding avoid).value = some h) : p.Lent h (p.acquireAvoiding avoid).pool := by
  rcases acquireAvoiding_cases p avoid with ⟨w, e, log, he, hidle, heq⟩ | heq
  · rw [heq] at hh ⊢
    obtain rfl := Option.some.inj hh
    refine ⟨⟨e, he, hidle, ?_, rfl⟩, fun u hu => ?_, rfl⟩
    · exact (entry?_setEntry p w w _).trans (if_pos rfl)
    · exact (entry?_setEntry p w u _).trans (if_neg hu)
  · rw [heq] at hh
    cases hh

theorem pool_of_acquireAvoiding_none {avoid : Option WorkerId}
    (h : (p.acquireAvoiding avoid).value = none) : (p.acquireAvoiding avoid).pool = p := by
  rcases acquireAvoiding_cases p avoid with ⟨w, e, log, -, -, heq⟩ | heq
  · rw [heq] at h
    cases h
  · rw [heq]

/-- With every other idle worker out of the way, waiting is in vain just if nobody else is alive. -/
theorem acquireAvoiding_eq_none_of_alone {w : WorkerId}
    (halone : ∀ u, u ≠ w → p.status? u ≠ some .idle) :
    (p.acquireAvoiding (some w)).value = none ↔ ¬ p.LastLive w := by
  have only (u : WorkerId) (hu : p.status? u = some .idle) : u = w :=
    Classical.byContradiction fun hne => halone u hne hu
  rw [acquireAvoiding_eq_none_iff]
  constructor
  · rintro h ⟨hw, hothers⟩
    obtain ⟨-, u, hne, s, hs, hlive⟩ := h w hw
    rw [hothers u s hne hs] at hlive
    cases hlive
  · intro h u hu
    obtain rfl := only u hu
    refine ⟨rfl, Classical.byContradiction fun hdead => h ⟨hu, fun v s hne hs => ?_⟩⟩
    cases s with
    | unreachable => rfl
    | idle => exact absurd ⟨v, hne, _, hs, rfl⟩ hdead
    | busy => exact absurd ⟨v, hne, _, hs, rfl⟩ hdead

theorem Dated.avoids (h : p.Dated trace) (w : WorkerId) :
    p.Avoids trace w ((p.acquireAvoiding (some w)).value.map (·.workerId)) := by
  cases hn : p.nextIdle (some w) with
  | some x =>
    have hgiven : (p.acquireAvoiding (some w)).value.map (·.workerId) = some x.1 :=
      (handed_iff_of_ne (ne_of_nextIdle hn)).mpr ⟨x.2, hn⟩
    rw [hgiven]
    exact .other (h.nextIdle_iff.mp ⟨x.2, hn⟩)
  | none =>
    have only := nextIdle_eq_none_iff.mp hn
    have halone : ∀ u, u ≠ w → p.status? u ≠ some .idle :=
      fun u hne hu => hne (Option.some.inj (only u hu)).symm
    cases hv : (p.acquireAvoiding (some w)).value with
    | none => exact .nobody halone ((acquireAvoiding_eq_none_of_alone halone).mp hv)
    | some x =>
      have hlast : p.LastLive w := Classical.byContradiction fun hno => by
        rw [(acquireAvoiding_eq_none_of_alone halone).mpr hno] at hv
        cases hv
      obtain ⟨e, he, hidle, -⟩ := acquireAvoiding_some hv
      obtain rfl : w = x.workerId :=
        Option.some.inj (only _ ((status?_of_entry he).trans (congrArg some hidle)))
      exact .avoided halone hlast

/-- After any calls: with nobody to avoid it is `acquire`. If `w` is avoided, the next in line of the
others is handed out; if none of them is idle then `w` is, provided it is idle and they are all out of
rotation; and otherwise nobody. The worker that is handed out becomes busy, and nothing else changes. -/
theorem acquireAvoiding_rule (threshold : Nat) (calls : List PoolCall) :
    let p := (empty threshold).after calls
    let trace := (empty threshold).trace calls
    p.acquireAvoiding none = p.acquire ∧
      (∀ w, p.Avoids trace w ((p.acquireAvoiding (some w)).value.map (·.workerId))) ∧
      ∀ avoid, ((p.acquireAvoiding avoid).value = none → (p.acquireAvoiding avoid).pool = p) ∧
        ∀ h, (p.acquireAvoiding avoid).value = some h → p.Lent h (p.acquireAvoiding avoid).pool := by
  intro p trace
  have hd : p.Dated trace := dated_after threshold calls
  exact ⟨(acquire_eq p).symm, hd.avoids, fun avoid =>
    ⟨pool_of_acquireAvoiding_none, fun h => lent_of_acquireAvoiding⟩⟩

def oneTaken : List PoolCall :=
  [.register (.new ⟨"a"⟩ "http://a" default), .register (.new ⟨"b"⟩ "http://b" default),
    .acquireAvoiding (some ⟨"a"⟩)]

/-- The other one is refused while the first is at work, and taken once that is out of rotation. -/
theorem acquireAvoiding_rule_oneTaken :
    let p := (empty 3).after oneTaken
    let q := (empty 3).after (oneTaken ++ [.markUnreachable ⟨"b"⟩])
    (p.acquireAvoiding (some ⟨"a"⟩)).value = none ∧ (p.acquireAvoiding (some ⟨"a"⟩)).pool = p ∧
      ∃ h, h.workerId = ⟨"a"⟩ ∧ (q.acquireAvoiding (some ⟨"a"⟩)).value = some h ∧
        q.Lent h (q.acquireAvoiding (some ⟨"a"⟩)).pool ∧
        q.Avoids ((empty 3).trace (oneTaken ++ [.markUnreachable ⟨"b"⟩])) ⟨"a"⟩ (some ⟨"a"⟩) := by
  intro p q
  obtain ⟨-, -, hrefused⟩ := acquireAvoiding_rule 3 oneTaken
  obtain ⟨-, havoids, htaken⟩ := acquireAvoiding_rule 3 (oneTaken ++ [.markUnreachable ⟨"b"⟩])
  have hnone : (p.acquireAvoiding (some ⟨"a"⟩)).value = none := by decide
  have hname : (q.acquireAvoiding (some ⟨"a"⟩)).value.map (·.workerId) = some ⟨"a"⟩ := by decide
  obtain ⟨h, hsome, ha⟩ := Option.map_eq_some_iff.mp hname
  exact ⟨hnone, (hrefused _).1 hnone, h, ha, hsome, (htaken _).2 h hsome, hname ▸ havoids ⟨"a"⟩⟩

end HazardDispatch.Pool
