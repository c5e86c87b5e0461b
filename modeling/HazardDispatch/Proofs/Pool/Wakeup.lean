import HazardDispatch.Proofs.Pool.Effects

/-!
# Wake-ups

Whoever makes a worker idle stores the wake-up, and no operation takes it out again. `Heeds p q` is
this for a change of the pool from `p` to `q`, and says in addition that nobody was made busy. It holds
for every call but the two that hand out a worker (`heeds_perform`).

A worker that is idle while a task is refused it means that another one is busy
(`busy_of_acquireAvoiding_none`).
-/

namespace HazardDispatch

/-- Whoever is idle now was idle before, or there is a wake-up. -/
structure Pool.Heeds (p q : Pool) : Prop where
  permit : p.permit = true → q.permit = true
  idle : ∀ w, q.status? w = some .idle → q.permit = true ∨ p.status? w = some .idle
  busy : ∀ w, q.status? w = some .busy → p.status? w = some .busy

namespace Pool

variable {p q : Pool}

/-! ## calls of others -/

theorem heeds_of_quiet (permit : p.permit = true → q.permit = true)
    (kept : ∀ w s, s ≠ .unreachable → q.status? w = some s → p.status? w = some s) : p.Heeds q where
  permit := permit
  idle w hw := .inr (kept w _ (by decide) hw)
  busy w hw := kept w _ (by decide) hw

theorem Heeds.refl (p : Pool) : p.Heeds p := heeds_of_quiet id fun _ _ _ => id

theorem heeds_erase (p : Pool) (w : WorkerId) : p.Heeds { p with workers := p.workers.erase w } := by
  refine heeds_of_quiet id fun u s _ hu => ?_
  rw [status?_erase] at hu
  exact (Option.ite_none_left_eq_some.mp hu).2

theorem heeds_wake {w : WorkerId} (hq : q.permit = true)
    (hs : ∀ u, q.status? u = if u = w then some .idle else p.status? u) : p.Heeds q where
  permit _ := hq
  idle _ _ := .inl hq
  busy u hu := by
    rw [hs] at hu
    split at hu
    · cases hu
    · exact hu

theorem Effect.heeds {c : PoolCall} {a : PoolAnswer} (h : Effect p c a q)
    (hc : c.handsOut = false) : p.Heeds q := by
  have of_same {w : WorkerId} {e f : PoolEntry} (known : p.entry? w = some e)
      (hs : e.status = f.status) (u : WorkerId) (s : WorkerStatus) (_ : s ≠ .unreachable)
      (hu : (p.setEntry w f).status? u = some s) : p.status? u = some s := by
    rwa [status?_setEntry_same u ((status?_of_entry known).trans (congrArg some hs))] at hu
  cases h with
  | entered unknown => exact heeds_wake rfl fun u => status?_setEntry p _ u _
  | refreshed known =>
    exact heeds_of_quiet (fun hp => by rw [hp, Bool.true_or]) (of_same known rfl)
  | removed known => exact heeds_erase p _
  | handed hands => exact nomatch hands.symm.trans hc
  | nobody => exact .refl p
  | released known busy =>
    exact heeds_wake rfl fun u => status?_setEntry { p with clock := p.clock + 1 } _ u _
  | unreleased => exact heeds_of_quiet id fun _ _ _ => id
  | marked known =>
    refine heeds_of_quiet id fun u s hs hu => ?_
    rw [status?_setEntry] at hu
    split at hu
    · exact absurd (Option.some.inj hu).symm hs
    · exact hu
  | markedAgain known out => exact .refl p
  | restored known out => exact heeds_wake rfl fun u => status?_setEntry p _ u _
  | counted known => exact heeds_of_quiet id (of_same known rfl)
  | evicted known reached => exact heeds_erase p _
  | unrestored => exact .refl p
  | missed => exact .refl p

theorem heeds_perform (p : Pool) {c : PoolCall} (hc : c.handsOut = false) :
    p.Heeds (p.perform c).pool := (effect_perform p c).heeds hc

/-! ## idle workers that a task is refused -/

/-- An idle worker is refused only to a task that failed on it, and only while another one is busy. -/
theorem busy_of_acquireAvoiding_none {p : Pool} {avoid : Option WorkerId} {w : WorkerId}
    (hw : p.status? w = some .idle) (h : (p.acquireAvoiding avoid).value = none) :
    ∃ u, p.status? u = some .busy := by
  obtain ⟨havoid, u, hne, s, hs, hlive⟩ := acquireAvoiding_eq_none_iff.mp h w hw
  refine ⟨u, ?_⟩
  cases s with
  | idle =>
    have hu := (acquireAvoiding_eq_none_iff.mp h u hs).1
    exact absurd (Option.some.inj (hu.symm.trans havoid)) hne
  | busy => exact hs
  | unreachable => cases hlive

end Pool
end HazardDispatch
