import HazardDispatch.Proofs.Pool.Effects

/-!
# Leases

A worker that is handed out is leased until it is released, restored or removed. `leaseStep?` reads
off a call and its answer what they are to one worker: it is handed out, comes back, goes out of
rotation, leaves or enters. `perform_takes` says from which status to which each of these leads, so
the calls of a history lead one worker along a path of such steps (`path_leaseSteps`), and what lies
between two hand-outs is read off the path (`comes_back_of_path`).

The address of an entry is the one of the latest registration (`lastAddress_of_entry`).
-/

namespace HazardDispatch

/-- What a call that succeeds is to one worker. -/
inductive LeaseStep where
  | handed
  | released
  | restored
  | marked
  | removed
  | entered
deriving DecidableEq, Repr

namespace PoolCall

/-- What the call with this answer is to the worker `w`, if anything. -/
def leaseStep? (w : WorkerId) : PoolCall → PoolAnswer → Option LeaseStep
  | .register h, .flag true => if h.workerId = w then some .entered else none
  | .deregister u, .worker (some _) => if u = w then some .removed else none
  | .acquire, .worker (some h) => if h.workerId = w then some .handed else none
  | .acquireAvoiding _, .worker (some h) => if h.workerId = w then some .handed else none
  | .release u, .flag true => if u = w then some .released else none
  | .markUnreachable u, .flag true => if u = w then some .marked else none
  | .restore u, .flag true => if u = w then some .restored else none
  | .probeFailure u, .flag true => if u = w then some .removed else none
  | _, _ => none

def address? (w : WorkerId) : PoolCall → Option String
  | .register h => if h.workerId = w then some h.address else none
  | _ => none

/-- The address in the latest registration of `w`. -/
def lastAddress? (w : WorkerId) (calls : List PoolCall) : Option String :=
  (calls.filterMap (address? w)).getLast?

theorem leaseStep?_acquire (w : WorkerId) (a : PoolAnswer) :
    acquire.leaseStep? w a = (acquireAvoiding none).leaseStep? w a := by
  cases a with
  | flag b => rfl
  | worker h => cases h <;> rfl

theorem leaseStep?_handed {c : PoolCall} (hc : c.handsOut = true) (w : WorkerId) (h : WorkerHandle) :
    c.leaseStep? w (.worker (some h)) = if h.workerId = w then some .handed else none := by
  cases c <;> first | rfl | cases hc

theorem leaseStep?_refused {a : PoolAnswer} (ha : a = .flag false ∨ a = .worker none) (c : PoolCall)
    (w : WorkerId) : c.leaseStep? w a = none := by
  rcases ha with rfl | rfl <;> cases c <;> rfl

theorem address?_eq_none {c : PoolCall} (hc : ∀ h, c ≠ register h) {w : WorkerId} :
    c.address? w = none := by
  cases c with
  | register h => exact absurd rfl (hc h)
  | _ => rfl

end PoolCall

namespace LeaseStep

/-- The step leads from the status `s` to `t`; no status is that of a worker that is not known. -/
def Takes (s t : Option WorkerStatus) : LeaseStep → Prop
  | handed => s = some .idle ∧ t = some .busy
  | released => s = some .busy ∧ t = some .idle
  | restored => s = some .unreachable ∧ t = some .idle
  | marked => s ≠ none ∧ t = some .unreachable
  | removed => s ≠ none ∧ t = none
  | entered => s = none ∧ t = some .idle

/-- The steps lead from `s` to `t`, one after the other. -/
def Path (s t : Option WorkerStatus) : List LeaseStep → Prop
  | [] => s = t
  | x :: xs => ∃ u, x.Takes s u ∧ Path u t xs

theorem path_append {s t : Option WorkerStatus} {xs ys : List LeaseStep} :
    Path s t (xs ++ ys) ↔ ∃ u, Path s u xs ∧ Path u t ys := by
  induction xs generalizing s with
  | nil => exact ⟨fun h => ⟨s, rfl, h⟩, fun ⟨_, hs, h⟩ => hs ▸ h⟩
  | cons x xs ih =>
    constructor
    · rintro ⟨v, hx, h⟩
      obtain ⟨u, hxs, hys⟩ := ih.mp h
      exact ⟨u, ⟨v, hx, hxs⟩, hys⟩
    · rintro ⟨u, ⟨v, hx, hxs⟩, hys⟩
      exact ⟨v, hx, ih.mpr ⟨u, hxs, hys⟩⟩

/-- A path to the status idle from another one: a busy worker can be released, and every other way
is by a restoration or by entering, which a known worker can only do after it was removed. -/
theorem comes_back_of_path {s : Option WorkerStatus} {xs : List LeaseStep}
    (h : Path s (some .idle) xs) (hs : s ≠ some .idle) :
    (s = some .busy ∧ released ∈ xs) ∨ restored ∈ xs ∨
      entered ∈ xs ∧ (s ≠ none → [removed, entered].Sublist xs) := by
  induction xs generalizing s with
  | nil => exact absurd h hs
  | cons x xs ih =>
    obtain ⟨u, hx, h⟩ := h
    cases x with
    | handed => exact absurd hx.1 hs
    | released => exact .inl ⟨hx.1, List.mem_cons_self⟩
    | restored => exact .inr (.inl List.mem_cons_self)
    | marked =>
      obtain ⟨-, rfl⟩ := hx
      rcases ih h (by decide) with ⟨hbusy, -⟩ | hr | ⟨he, hsub⟩
      · cases hbusy
      · exact .inr (.inl (List.mem_cons_of_mem _ hr))
      · have hsub := hsub (Option.some_ne_none _)
        exact .inr (.inr ⟨List.mem_cons_of_mem _ he, fun _ => hsub.cons _⟩)
    | removed =>
      obtain ⟨-, rfl⟩ := hx
      rcases ih h (Option.some_ne_none _).symm with ⟨hbusy, -⟩ | hr | ⟨he, -⟩
      · cases hbusy
      · exact .inr (.inl (List.mem_cons_of_mem _ hr))
      · exact .inr (.inr ⟨List.mem_cons_of_mem _ he,
          fun _ => (List.singleton_sublist.mpr he).cons_cons _⟩)
    | entered => exact .inr (.inr ⟨List.mem_cons_self, fun hne => absurd hx.1 hne⟩)

end LeaseStep

namespace Pool

open LeaseStep

/-! ## what each call does to one worker -/

/-- What happened to `w`, from `s` to `t`; if nothing did, the status stays. -/
def Took (s t : Option WorkerStatus) : Option LeaseStep → Prop
  | none => t = s
  | some x => x.Takes s t

variable {p q : Pool} {c : PoolCall} {a : PoolAnswer}

theorem took_ite {s t : Option WorkerStatus} {u w : WorkerId} {x : LeaseStep}
    (hx : u = w → x.Takes s t) (hsame : u ≠ w → t = s) :
    Took s t (if u = w then some x else none) := by
  by_cases hw : u = w
  · rw [if_pos hw]
    exact hx hw
  · rw [if_neg hw]
    exact hsame hw

theorem took_setEntry {u : WorkerId} {e : PoolEntry} (x : LeaseStep)
    (hx : x.Takes (p.status? u) (some e.status)) (w : WorkerId) :
    Took (p.status? w) ((p.setEntry u e).status? w) (if u = w then some x else none) := by
  rw [status?_setEntry]
  refine took_ite (fun hw => ?_) fun hw => if_neg (Ne.symm hw)
  rw [if_pos hw.symm, ← hw]
  exact hx

theorem took_erase {u : WorkerId} (hu : p.status? u ≠ none) (w : WorkerId) :
    Took (p.status? w) (status? { p with workers := p.workers.erase u } w)
      (if u = w then some .removed else none) := by
  rw [status?_erase]
  refine took_ite (fun hw => ?_) fun hw => if_neg (Ne.symm hw)
  rw [if_pos hw.symm, ← hw]
  exact ⟨hu, rfl⟩

/-- Of every call, the answer says what it did to a worker, and the status changes accordingly. -/
theorem Effect.took (h : Effect p c a q) (w : WorkerId) :
    Took (p.status? w) (q.status? w) (c.leaseStep? w a) := by
  cases h with
  | entered unknown => exact took_setEntry .entered ⟨status?_of_unknown unknown, rfl⟩ w
  | refreshed known => exact status?_setEntry_same w ((status?_of_entry known).trans rfl)
  | removed known => exact took_erase (status?_ne_none known) w
  | handed hands known idle =>
    rw [PoolCall.leaseStep?_handed hands]
    exact took_setEntry .handed ⟨(status?_of_entry known).trans (congrArg some idle), rfl⟩ w
  | released known busy =>
    exact took_setEntry .released ⟨(status?_of_entry known).trans (congrArg some busy), rfl⟩ w
  | nobody hands =>
    rw [PoolCall.leaseStep?_refused (.inr rfl)]
    rfl
  | unreleased => rfl
  | unrestored => rfl
  | marked known => exact took_setEntry .marked ⟨status?_ne_none known, rfl⟩ w
  | markedAgain known out =>
    refine took_ite (fun hw => ?_) fun _ => rfl
    exact hw ▸ ⟨status?_ne_none known, (status?_of_entry known).trans (congrArg some out)⟩
  | restored known out =>
    exact took_setEntry .restored ⟨(status?_of_entry known).trans (congrArg some out), rfl⟩ w
  | counted known => exact status?_setEntry_same w ((status?_of_entry known).trans rfl)
  | evicted known reached => exact took_erase (status?_ne_none known) w
  | missed unknown about refused =>
    rw [PoolCall.leaseStep?_refused refused]
    rfl

theorem perform_takes (p : Pool) (c : PoolCall) (w : WorkerId) :
    Took (p.status? w) ((p.perform c).pool.status? w) (c.leaseStep? w (p.perform c).value) :=
  (effect_perform p c).took w

/-! ## histories -/

def after (p : Pool) (calls : List PoolCall) : Pool := (p.performAll calls).2

/-- What happened to `w` in a list of calls, in order. -/
def leaseSteps (p : Pool) (calls : List PoolCall) (w : WorkerId) : List LeaseStep :=
  (calls.zip (p.performAll calls).1).filterMap fun x => x.1.leaseStep? w x.2

theorem leaseSteps_cons (p : Pool) (c : PoolCall) (cs : List PoolCall) (w : WorkerId) :
    p.leaseSteps (c :: cs) w
      = (c.leaseStep? w (p.perform c).value).toList ++ (p.perform c).pool.leaseSteps cs w := by
  show List.filterMap _ ((c, (p.perform c).value) :: _) = _
  rw [List.filterMap_cons]
  cases c.leaseStep? w (p.perform c).value <;> rfl

theorem path_leaseSteps (p : Pool) (calls : List PoolCall) (w : WorkerId) :
    Path (p.status? w) ((p.after calls).status? w) (p.leaseSteps calls w) := by
  induction calls generalizing p with
  | nil => rfl
  | cons c cs ih =>
    have hstep := perform_takes p c w
    have hrest := ih (p.perform c).pool
    rw [leaseSteps_cons]
    cases hx : c.leaseStep? w (p.perform c).value with
    | none =>
      rw [hx] at hstep
      have hsame : (p.perform c).pool.status? w = p.status? w := hstep
      rw [hsame] at hrest
      exact hrest
    | some x =>
      rw [hx] at hstep
      exact ⟨_, hstep, hrest⟩

/-! ## addresses -/

/-- Every entry of `q` has the address that it has in `p`. -/
def KeepsAddresses (p q : Pool) : Prop :=
  ∀ w e, q.entry? w = some e → ∃ e', p.entry? w = some e' ∧ e'.address = e.address

theorem KeepsAddresses.refl (p : Pool) : p.KeepsAddresses p := fun _ e h => ⟨e, h, rfl⟩

theorem keepsAddresses_setEntry {p : Pool} {w : WorkerId} {e e' : PoolEntry}
    (h : p.entry? w = some e) (ha : e.address = e'.address) :
    p.KeepsAddresses (p.setEntry w e') := by
  intro u f hf
  rw [entry?_setEntry] at hf
  split at hf
  · next hu =>
    obtain rfl := Option.some.inj hf
    exact ⟨e, hu ▸ h, ha⟩
  · exact ⟨f, hf, rfl⟩

theorem keepsAddresses_erase (p : Pool) (w : WorkerId) :
    p.KeepsAddresses { p with workers := p.workers.erase w } :=
  fun _ e he => ⟨e, entry?_of_erase he, rfl⟩

/-- The address was registered with the call, or was there before. -/
def Addressed (p : Pool) (c : PoolCall) (w : WorkerId) (address : String) : Prop :=
  c.address? w = some address ∨
    c.address? w = none ∧ ∃ e, p.entry? w = some e ∧ e.address = address

theorem addressed_of_registered {h : WorkerHandle} {w : WorkerId} {e f : PoolEntry}
    (ha : e.address = h.address) (hf : entry? (p.setEntry h.workerId e) w = some f) :
    p.Addressed (.register h) w f.address := by
  rw [entry?_setEntry] at hf
  show (if h.workerId = w then some h.address else none) = some f.address ∨
    (if h.workerId = w then some h.address else none) = none ∧ _
  by_cases hw : h.workerId = w
  · rw [if_pos hw.symm] at hf
    rw [if_pos hw, ← ha, Option.some.inj hf]
    exact .inl rfl
  · rw [if_neg (Ne.symm hw)] at hf
    rw [if_neg hw]
    exact .inr ⟨rfl, f, hf, rfl⟩

/-- An entry has the address that the call registers, or that it had before. -/
theorem Effect.addressed (h : Effect p c a q) {w : WorkerId} {e : PoolEntry}
    (he : q.entry? w = some e) : p.Addressed c w e.address := by
  have of_kept (hq : p.KeepsAddresses q) (hc : ∀ h, c ≠ .register h) : p.Addressed c w e.address :=
    .inr ⟨PoolCall.address?_eq_none hc, hq w e he⟩
  cases h with
  | entered unknown => exact addressed_of_registered rfl he
  | refreshed known => exact addressed_of_registered rfl he
  | removed known => exact of_kept (keepsAddresses_erase p _) nofun
  | handed hands known idle =>
    exact of_kept (keepsAddresses_setEntry known rfl) (by rintro h rfl; cases hands)
  | released known busy =>
    exact of_kept (keepsAddresses_setEntry (p := { p with clock := p.clock + 1 }) known rfl) nofun
  | nobody hands => exact of_kept (.refl p) (by rintro h rfl; cases hands)
  | unreleased => exact of_kept (.refl p) nofun
  | marked known => exact of_kept (keepsAddresses_setEntry known rfl) nofun
  | markedAgain known out => exact of_kept (.refl p) nofun
  | restored known out => exact of_kept (keepsAddresses_setEntry known rfl) nofun
  | counted known => exact of_kept (keepsAddresses_setEntry known rfl) nofun
  | evicted known reached => exact of_kept (keepsAddresses_erase p _) nofun
  | unrestored => exact of_kept (.refl p) nofun
  | missed unknown about => exact of_kept (.refl p) (by rintro h rfl; simp at about)

/-- Every entry has the address of the latest registration, also after more calls. -/
theorem lastAddress_after {p : Pool} (before : List PoolCall) {w : WorkerId}
    (hp : ∀ e, p.entry? w = some e → PoolCall.lastAddress? w before = some e.address)
    (calls : List PoolCall) {e : PoolEntry} (he : entry? (p.after calls) w = some e) :
    PoolCall.lastAddress? w (before ++ calls) = some e.address := by
  induction calls generalizing p before with
  | nil => rw [List.append_nil]; exact hp e he
  | cons c cs ih =>
    rw [List.append_cons]
    refine ih (before ++ [c]) (p := (p.perform c).pool) (fun e' he' => ?_) he
    rw [PoolCall.lastAddress?, List.filterMap_append, List.filterMap_cons]
    rcases (effect_perform p c).addressed he' with hc | ⟨hc, e'', he'', ha⟩
    · rw [hc]
      exact List.getLast?_concat
    · rw [hc, List.filterMap_nil, List.append_nil, ← ha]
      exact hp e'' he''

theorem lastAddress_of_entry {threshold : Nat} {calls : List PoolCall} {w : WorkerId}
    {e : PoolEntry} (he : entry? ((empty threshold).after calls) w = some e) :
    PoolCall.lastAddress? w calls = some e.address :=
  lastAddress_after [] (p := .empty threshold) (fun _ h => by cases h) calls he

/-! ## leases -/

/-- A handle is handed out marked busy, by a call that found the worker idle. -/
theorem busy_of_handed {w : WorkerId} {h : WorkerHandle}
    (hv : (p.perform c).value = .worker (some h))
    (hc : c.leaseStep? w (.worker (some h)) = some .handed) :
    h.workerId = w ∧ h.status = .busy ∧ p.status? w = some .idle ∧
      ∃ e, p.entry? w = some e ∧ e.address = h.address := by
  have heffect := effect_perform p c
  rw [hv] at heffect
  generalize (p.perform c).pool = q at heffect
  cases heffect with
  | removed known => cases (Option.ite_none_right_eq_some.mp hc).2
  | handed hands known idle =>
    rw [PoolCall.leaseStep?_handed hands] at hc
    obtain ⟨rfl, -⟩ := Option.ite_none_right_eq_some.mp hc
    exact ⟨rfl, rfl, (status?_of_entry known).trans (congrArg some idle), _, known, rfl⟩
  | missed unknown about refused =>
    rw [PoolCall.leaseStep?_refused refused] at hc
    cases hc

/-- Leases are exclusive and a worker out of rotation stays out. Between two hand-outs of a worker it
is released, restored, or removed and registered again; between being marked unreachable and a
hand-out it is restored, or removed and registered again. Every handle that is handed out is marked
busy, of a worker that was idle, with the address of its latest registration. -/
theorem leases_exclusive (threshold : Nat) (calls : List PoolCall) (w : WorkerId) :
    (∀ xs ys zs, (empty threshold).leaseSteps calls w = xs ++ .handed :: (ys ++ .handed :: zs) →
      .released ∈ ys ∨ .restored ∈ ys ∨ [.removed, .entered].Sublist ys) ∧
    (∀ xs ys zs, (empty threshold).leaseSteps calls w = xs ++ .marked :: (ys ++ .handed :: zs) →
      .restored ∈ ys ∨ [.removed, .entered].Sublist ys) ∧
    ∀ cs c ds h, calls = cs ++ c :: ds →
      (((empty threshold).after cs).perform c).value = .worker (some h) →
      c.leaseStep? w (.worker (some h)) = some .handed →
      h.workerId = w ∧ h.status = .busy ∧ ((empty threshold).after cs).status? w = some .idle ∧
        PoolCall.lastAddress? w cs = some h.address := by
  have path_between {s : Option WorkerStatus} {x : LeaseStep} {xs ys zs : List LeaseStep}
      (hsteps : (empty threshold).leaseSteps calls w = xs ++ x :: (ys ++ .handed :: zs))
      (hx : ∀ u v, x.Takes u v → v = s) :
      Path s (some .idle) ys := by
    have hpath := path_leaseSteps (empty threshold) calls w
    rw [hsteps] at hpath
    obtain ⟨u, -, v, htakes, hpath⟩ := path_append.mp hpath
    obtain ⟨v', hys, v'', hhanded, -⟩ := path_append.mp hpath
    obtain rfl := hx _ _ htakes
    exact hhanded.1 ▸ hys
  refine ⟨fun xs ys zs hsteps => ?_, fun xs ys zs hsteps => ?_, fun cs c ds h _ hv hc => ?_⟩
  · have hpath : Path (some .busy) (some .idle) ys := path_between hsteps fun _ _ h => h.2
    rcases comes_back_of_path hpath (by decide) with ⟨-, hr⟩ | hr | ⟨-, hsub⟩
    · exact .inl hr
    · exact .inr (.inl hr)
    · exact .inr (.inr (hsub (Option.some_ne_none _)))
  · have hpath : Path (some .unreachable) (some .idle) ys := path_between hsteps fun _ _ h => h.2
    rcases comes_back_of_path hpath (by decide) with ⟨hbusy, -⟩ | hr | ⟨-, hsub⟩
    · cases hbusy
    · exact .inl hr
    · exact .inr (hsub (Option.some_ne_none _))
  · obtain ⟨hw, hbusy, hidle, e, he, ha⟩ := busy_of_handed hv hc
    exact ⟨hw, hbusy, hidle, ha ▸ lastAddress_of_entry he⟩

def secondLease (h : WorkerHandle) : List PoolCall :=
  [.register h, .acquire, .markUnreachable h.workerId, .restore h.workerId, .acquire]

theorem leases_exclusive_secondLease :
    let h : WorkerHandle := .new ⟨"w1"⟩ "http://w1" default
    let busy : WorkerHandle := { h with status := .busy }
    let steps := (empty 3).leaseSteps (secondLease h) h.workerId
    steps = [.entered, .handed, .marked, .restored, .handed] ∧
    (LeaseStep.released ∈ [LeaseStep.marked, .restored] ∨ .restored ∈ [LeaseStep.marked, .restored] ∨
      [LeaseStep.removed, .entered].Sublist [.marked, .restored]) ∧
    (LeaseStep.restored ∈ [LeaseStep.restored] ∨
      [LeaseStep.removed, .entered].Sublist [.restored]) ∧
    (busy.workerId = h.workerId ∧ busy.status = .busy ∧
      ((empty 3).after [.register h]).status? h.workerId = some .idle ∧
      PoolCall.lastAddress? h.workerId [.register h] = some busy.address) := by
  intro h busy steps
  have hsteps : steps = [.entered, .handed, .marked, .restored, .handed] := by decide
  obtain ⟨exclusive, quarantine, handles⟩ := leases_exclusive 3 (secondLease h) h.workerId
  exact ⟨hsteps, exclusive [.entered] [.marked, .restored] [] hsteps,
    quarantine [.entered, .handed] [.restored] [] hsteps,
    handles [.register h] .acquire _ busy rfl (by decide) (by decide)⟩

end Pool
end HazardDispatch
