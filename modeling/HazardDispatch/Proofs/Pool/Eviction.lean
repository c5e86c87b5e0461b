import HazardDispatch.Proofs.Pool.Prober
import Mathlib.Data.List.DropRight

/-!
# Evictions and the probes before them

A `Patrol` is a pool with a prober at work on it, and any operation of the pool may come between two of
the prober's moves. `findings` is what the probes of one worker showed, in order.

The counter of an entry is behind the findings: as long as the prober may still act on a worker, as many
of its latest probes failed, not counting those that it answered while busy (`Counted`). For a worker
that goes out of rotation starts with the counter at zero, and the only other change is by a probe.

So an eviction comes after a row of failures that no sign of an idle worker interrupts
(`eviction_follows_failures`). A worker that answers but is busy does not interrupt the row, though it
does answer (`eviction_after_answer`).
-/

namespace HazardDispatch

/-- What a probe shows of a worker. -/
inductive Finding where
  | idle
  | busy
  | silent
deriving DecidableEq, Repr

def ProbeAnswer.finding : ProbeAnswer → Finding
  | .ok health => if health.isIdle then .idle else .busy
  | .error _ => .silent

/-! ## the counter after each operation -/

namespace Pool

/-- A counter of `q` is at zero or was the same in `p`, and whoever was put out of rotation starts at
zero. -/
def KeepsCounters (p q : Pool) : Prop :=
  ∀ w e, q.entry? w = some e → e.probeFailures = 0 ∨
    ∃ e', p.entry? w = some e' ∧ e'.probeFailures = e.probeFailures ∧
      (e.status = .unreachable → e'.status = .unreachable)

theorem KeepsCounters.refl (p : Pool) : p.KeepsCounters p := by
  intro w e he
  exact .inr ⟨e, he, rfl, id⟩

theorem keepsCounters_setEntry_zero (p : Pool) (w : WorkerId) {e : PoolEntry}
    (h : e.probeFailures = 0) : p.KeepsCounters (p.setEntry w e) := by
  intro u f hf
  rw [entry?_setEntry] at hf
  split at hf
  · obtain rfl := Option.some.inj hf
    exact .inl h
  · exact .inr ⟨f, hf, rfl, id⟩

theorem keepsCounters_setEntry {p : Pool} {w : WorkerId} {e e' : PoolEntry}
    (h : p.entry? w = some e) (hcount : e.probeFailures = e'.probeFailures)
    (hs : e'.status ≠ .unreachable) : p.KeepsCounters (p.setEntry w e') := by
  intro u f hf
  rw [entry?_setEntry] at hf
  split at hf
  · next hu =>
    obtain rfl := Option.some.inj hf
    exact .inr ⟨e, hu ▸ h, hcount, fun c => absurd c hs⟩
  · exact .inr ⟨f, hf, rfl, id⟩

theorem keepsCounters_erase (p : Pool) (w : WorkerId) :
    p.KeepsCounters { p with workers := p.workers.erase w } :=
  fun _ e he => .inr ⟨e, entry?_of_erase he, rfl, id⟩

theorem Effect.keepsCounters {p q : Pool} {c : PoolCall} {a : PoolAnswer} (h : Effect p c a q)
    (hc : ∀ w, c ≠ .probeFailure w) : p.KeepsCounters q := by
  cases h with
  | entered unknown => exact keepsCounters_setEntry_zero p _ rfl
  | refreshed known => exact keepsCounters_setEntry_zero p _ rfl
  | removed known => exact keepsCounters_erase p _
  | handed hands known idle => exact keepsCounters_setEntry known rfl (nomatch ·)
  | nobody => exact .refl p
  | released known busy =>
    exact keepsCounters_setEntry (p := { p with clock := p.clock + 1 }) known rfl (nomatch ·)
  | unreleased => exact .refl p
  | marked known inside => exact keepsCounters_setEntry_zero p _ rfl
  | markedAgain => exact .refl p
  | restored known out => exact keepsCounters_setEntry_zero p _ rfl
  | unrestored => exact .refl p
  | counted => exact absurd rfl (hc _)
  | evicted => exact absurd rfl (hc _)
  | missed => exact .refl p

/-! ## what an answer does -/

theorem counter_recordProbeFailure {p : Pool} {w : WorkerId} {e : PoolEntry}
    (he : (p.recordProbeFailure w).pool.entry? w = some e) :
    ∃ e', p.entry? w = some e' ∧ e.probeFailures = e'.probeFailures + 1 := by
  have heffect := effect_recordProbeFailure p w
  generalize (p.recordProbeFailure w).pool = q, (p.recordProbeFailure w).value = b at he heffect
  cases heffect with
  | counted known below =>
    rw [entry?_setEntry, if_pos rfl] at he
    obtain rfl := Option.some.inj he
    exact ⟨_, known, rfl⟩
  | evicted known reached =>
    rw [entry?_erase, if_pos rfl] at he
    cases he
  | missed unknown about refused =>
    obtain rfl : w = _ := by simpa using about
    rw [unknown] at he
    cases he

/-- A worker is removed for a failed probe when its counter reaches the threshold with it. -/
theorem counter_of_evicted {p : Pool} {w : WorkerId} (h : (p.recordProbeFailure w).value = true) :
    ∃ e, p.entry? w = some e ∧ p.threshold ≤ e.probeFailures + 1 := by
  have heffect := effect_recordProbeFailure p w
  rw [h] at heffect
  generalize (p.recordProbeFailure w).pool = q at heffect
  cases heffect with
  | evicted known reached => exact ⟨_, known, reached⟩
  | missed unknown about refused => rcases refused with hr | hr <;> cases hr

theorem entry?_afterProbe_of_ne (p : Pool) (answer : ProbeAnswer) {w u : WorkerId} (h : u ≠ w) :
    (p.afterProbe w answer).pool.entry? u = p.entry? u := by
  rw [pool_afterProbe]
  cases hc : probeCall? w answer with
  | none => rfl
  | some c => exact (effect_perform p c).entry?_of_ne (probeCall?_about hc) h

theorem threshold_afterProbe (p : Pool) (w : WorkerId) (answer : ProbeAnswer) :
    (p.afterProbe w answer).pool.threshold = p.threshold := by
  rw [pool_afterProbe]
  cases probeCall? w answer with
  | none => rfl
  | some c => exact (effect_perform p c).threshold

end Pool

/-! ## a pool and its prober -/

/-- What the prober learns by a move, and of whom. -/
def Prober.finding? (b : Prober) : ProberMove → Option (WorkerId × Finding)
  | .hear answer => b.asked.map fun h => (h.workerId, ProbeAnswer.finding answer)
  | _ => none

structure Patrol where
  pool : Pool
  prober : Prober
  heard : List (WorkerId × Finding)

namespace Patrol

inductive Move where
  /-- Somebody else uses the pool. -/
  | call (c : PoolCall)
  | probe (m : ProberMove)

def start (threshold : Nat) : Patrol :=
  { pool := .empty threshold, prober := .resting, heard := [] }

def move (s : Patrol) : Move → Patrol
  | .call c => { s with pool := (s.pool.perform c).pool }
  | .probe m =>
    { pool := (s.prober.move s.pool m).1, prober := (s.prober.move s.pool m).2
      heard := s.heard ++ (s.prober.finding? m).toList }

def run (s : Patrol) (ms : List Move) : Patrol := ms.foldl move s

/-- Failed probes are only counted by the prober. -/
def Indirect (ms : List Move) : Prop := ∀ w, .call (.probeFailure w) ∉ ms

/-- The worker that the prober removes when this answer comes now. -/
def evicts? (s : Patrol) : ProbeAnswer → Option WorkerId
  | .ok _ => none
  | .error _ => s.prober.asked.bind fun h =>
    if (s.pool.recordProbeFailure h.workerId).value then some h.workerId else none

/-- What the probes of a worker showed, in order. -/
def findings (s : Patrol) (w : WorkerId) : List Finding :=
  (s.heard.filter (·.1 = w)).map (·.2)

/-- The findings that say whether the worker can be reached and used. -/
def verdicts (s : Patrol) (w : WorkerId) : List Finding := (s.findings w).filter (· ≠ .busy)

/-! ## the invariant -/

structure Counted (threshold : Nat) (s : Patrol) : Prop where
  threshold : s.pool.threshold = max threshold 1
  once : s.prober.due.Nodup
  counts : ∀ w e, s.pool.entry? w = some e → e.status = .unreachable ∨ w ∈ s.prober.due →
    List.replicate e.probeFailures .silent <:+ s.verdicts w

variable {threshold : Nat} {s : Patrol}

theorem counted_start (threshold : Nat) : (start threshold).Counted threshold where
  threshold := rfl
  once := .nil
  counts _ _ he := nomatch he

theorem Counted.call (h : s.Counted threshold) {c : PoolCall} (hc : ∀ w, c ≠ .probeFailure w) :
    (s.move (.call c)).Counted threshold := by
  have heffect := Pool.effect_perform s.pool c
  refine ⟨heffect.threshold.trans h.threshold, h.once, fun w e he hw => ?_⟩
  rcases heffect.keepsCounters hc w e he with hzero | ⟨e', he', hcount, hout⟩
  · rw [hzero]
    exact List.nil_suffix
  · rw [← hcount]
    exact h.counts w e' he' (hw.imp_left hout)

theorem findings_concat (s : Patrol) (p : Pool) (b : Prober) (w u : WorkerId) (f : Finding) :
    findings ⟨p, b, s.heard ++ [(w, f)]⟩ u = s.findings u ++ if w = u then [f] else [] := by
  unfold findings
  rw [List.filter_append, List.map_append]
  by_cases hu : w = u <;> simp [hu]

/-- What an answer does to the counter of the worker that was asked: it stays behind the verdicts, as
long as the worker is out of rotation. -/
theorem counts_afterProbe {p : Pool} {w : WorkerId} {verdicts : List Finding} (answer : ProbeAnswer)
    (h : ∀ e, p.entry? w = some e → List.replicate e.probeFailures .silent <:+ verdicts)
    {e : PoolEntry} (he : (p.afterProbe w answer).pool.entry? w = some e)
    (hout : e.status = .unreachable) :
    List.replicate e.probeFailures Finding.silent
      <:+ verdicts ++ [ProbeAnswer.finding answer].filter (· ≠ .busy) := by
  cases answer with
  | ok health =>
    cases hidle : health.isIdle with
    | true =>
      have hp : (p.afterProbe w (.ok health)).pool = (p.restore w).pool := by
        rw [Pool.afterProbe, if_pos hidle]
      rw [hp] at he
      have hs := Pool.status?_of_entry he
      rw [Pool.status?_restore, hout] at hs
      split at hs
      · cases hs
      · next hno => exact absurd ⟨rfl, hs⟩ hno
    | false =>
      have hp : (p.afterProbe w (.ok health)).pool = p := by
        rw [Pool.afterProbe, if_neg (by simp [hidle])]
      rw [hp] at he
      simpa [ProbeAnswer.finding, hidle] using h e he
  | error x =>
    obtain ⟨e', he', hcount⟩ := Pool.counter_recordProbeFailure he
    show List.replicate e.probeFailures Finding.silent <:+ verdicts ++ [.silent]
    rw [hcount, List.replicate_succ']
    exact List.suffix_append_self_iff.mpr (h e' he')

theorem Counted.heard {p : Pool} {x : WorkerHandle} {xs : List WorkerHandle}
    {heard : List (WorkerId × Finding)} (h : Counted threshold ⟨p, ⟨xs, some x⟩, heard⟩)
    (answer : ProbeAnswer) :
    Counted threshold ⟨(p.afterProbe x.workerId answer).pool, ⟨xs, none⟩,
      heard ++ [(x.workerId, ProbeAnswer.finding answer)]⟩ := by
  obtain ⟨hx, honce⟩ := List.nodup_cons.mp h.once
  refine ⟨(Pool.threshold_afterProbe _ _ _).trans h.threshold, honce, fun w e he hw => ?_⟩
  rw [verdicts, findings_concat ⟨p, ⟨xs, some x⟩, heard⟩, List.filter_append]
  by_cases hwx : x.workerId = w
  -- whoever was asked is not asked again in this round, so it counts only while out of rotation
  · subst hwx
    rw [if_pos rfl]
    refine counts_afterProbe answer (fun e' he' => ?_) he (hw.resolve_right hx)
    exact h.counts _ e' he' (.inr List.mem_cons_self)
  · rw [if_neg hwx, List.filter_nil, List.append_nil]
    have hsame : p.entry? w = some e :=
      (Pool.entry?_afterProbe_of_ne _ answer (Ne.symm hwx)).symm.trans he
    exact h.counts w e hsame (hw.imp_right (List.mem_cons_of_mem _))

theorem Counted.probe (h : s.Counted threshold) (m : ProberMove) :
    (s.move (.probe m)).Counted threshold := by
  have hmoved := s.prober.moved_move s.pool m
  obtain ⟨p, b, heard⟩ := s
  show Counted threshold ⟨(b.move p m).1, (b.move p m).2, heard ++ (b.finding? m).toList⟩
  replace hmoved : Prober.Moved p b m (b.move p m).1 (b.move p m).2 := hmoved
  generalize (b.move p m).1 = q, (b.move p m).2 = b' at hmoved ⊢
  cases hmoved with
  | still _ _ unheard =>
    have hnone : b.finding? m = none := by
      cases m with
      | hear answer => exact congrArg (Option.map _) (unheard answer rfl)
      | _ => rfl
    rw [hnone, Option.toList_none, List.append_nil]
    exact h
  | looked horder =>
    rw [show Prober.finding? _ (.look _) = none from rfl, Option.toList_none, List.append_nil]
    refine ⟨h.threshold, Prober.nodup_of_perm_unreachable horder, fun w e he hw => h.counts w e he ?_⟩
    refine .inl (hw.elim id fun hw => ?_)
    have hout := Prober.out_of_perm_unreachable horder hw
    rw [Pool.status?_of_entry he] at hout
    exact Option.some.inj hout
  | asked x xs =>
    rw [show Prober.finding? _ .ask = none from rfl, Option.toList_none, List.append_nil]
    exact ⟨h.threshold, h.once, h.counts⟩
  | heard x xs answer => exact h.heard answer

theorem Counted.run (h : s.Counted threshold) {ms : List Move} (hms : Indirect ms) :
    (s.run ms).Counted threshold := by
  induction ms generalizing s with
  | nil => exact h
  | cons m ms ih =>
    have hrest : Indirect ms := fun w hw => hms w (List.mem_cons_of_mem _ hw)
    refine ih ?_ hrest
    cases m with
    | call c => exact h.call fun w hc => hms w (hc ▸ List.mem_cons_self)
    | probe m => exact h.probe m

/-! ## evictions -/

/-- An eviction is by a probe that fails, of the worker that was asked, whose counter reaches the
threshold with it. -/
theorem evicts?_eq_some {answer : ProbeAnswer} {w : WorkerId} (h : s.evicts? answer = some w) :
    ProbeAnswer.finding answer = .silent ∧
      (∃ asked, s.prober.asked = some asked ∧ asked.workerId = w) ∧
      ∃ e, s.pool.entry? w = some e ∧ s.pool.threshold ≤ e.probeFailures + 1 := by
  cases answer with
  | ok health => cases h
  | error x =>
    obtain ⟨asked, hasked, hevicted⟩ := Option.bind_eq_some_iff.mp h
    obtain ⟨hvalue, hw⟩ := Option.ite_none_right_eq_some.mp hevicted
    obtain rfl := Option.some.inj hw
    exact ⟨rfl, ⟨asked, hasked, rfl⟩, Pool.counter_of_evicted hvalue⟩

theorem findings_hear {asked : WorkerHandle} (h : s.prober.asked = some asked)
    (answer : ProbeAnswer) :
    (s.move (.probe (.hear answer))).findings asked.workerId
      = s.findings asked.workerId ++ [ProbeAnswer.finding answer] := by
  have hfinding : s.prober.finding? (.hear answer)
      = some (asked.workerId, ProbeAnswer.finding answer) := congrArg (Option.map _) h
  show findings ⟨_, _, s.heard ++ (s.prober.finding? _).toList⟩ _ = _
  rw [hfinding, Option.toList_some, findings_concat, if_pos rfl]

theorem rtake_of_suffix {α : Type} {l r : List α} (h : r <:+ l) : l.rtake r.length = r := by
  obtain ⟨front, rfl⟩ := h
  rw [List.rtake, List.length_append, Nat.add_sub_cancel, List.drop_left]

/-- A row at the end of a filtered list is at the end of the list itself if nothing there was left
out. -/
theorem replicate_suffix_iff {α : Type} {l : List α} {n : Nat} {a : α} {p : α → Bool} (ha : p a)
    (h : List.replicate n a <:+ l.filter p) :
    List.replicate n a <:+ l ↔ ∀ x ∈ l.rtake n, p x := by
  constructor
  · intro hrow x hx
    have hrtake := rtake_of_suffix hrow
    rw [List.length_replicate] at hrtake
    rw [hrtake] at hx
    exact List.eq_of_mem_replicate hx ▸ ha
  · intro hp
    have hlong : n ≤ l.length := by
      have hle := h.length_le.trans (List.length_filter_le p l)
      rwa [List.length_replicate] at hle
    have hlength : (List.replicate n a).length = (l.rtake n).length := by
      rw [List.length_replicate, List.rtake, List.length_drop]
      omega
    have hend : l.rtake n <:+ l.filter p := by
      have hsplit : l.rdrop n ++ l.rtake n = l := List.take_append_drop _ l
      conv_rhs => rw [← hsplit, List.filter_append, List.filter_eq_self.mpr hp]
      exact List.suffix_append _ _
    rw [(List.suffix_of_suffix_length_le h hend hlength.le).eq_of_length hlength]
    exact List.drop_suffix _ l

/-- When the prober removes a worker, as many of the latest probes of that worker as the threshold says
have failed, one at least, not counting probes that it answered while busy. They are the very latest
ones exactly if none of these was answered so. -/
theorem eviction_follows_failures (threshold : Nat) {ms : List Move} (hms : Indirect ms)
    {answer : ProbeAnswer} {w : WorkerId}
    (h : ((start threshold).run ms).evicts? answer = some w) :
    let s := ((start threshold).run ms).move (.probe (.hear answer))
    let row := List.replicate (max threshold 1) Finding.silent
    row <:+ s.verdicts w ∧
      (row <:+ s.findings w ↔ .busy ∉ (s.findings w).rtake (max threshold 1)) := by
  intro s row
  have hcounted := (counted_start threshold).run hms
  obtain ⟨hsilent, ⟨asked, hasked, rfl⟩, e, he, hle⟩ := evicts?_eq_some h
  rw [hcounted.threshold] at hle
  have hdue : asked.workerId ∈ ((start threshold).run ms).prober.due := by
    rw [Prober.due, hasked]
    exact List.mem_cons_self
  -- with the last probe there are more failures in a row than the counter says
  have hcount : List.replicate (e.probeFailures + 1) .silent <:+ s.verdicts asked.workerId := by
    rw [verdicts, findings_hear hasked, hsilent, List.filter_append, List.replicate_succ']
    exact List.suffix_append_self_iff.mpr (hcounted.counts _ e he (.inr hdue))
  have hrow : row <:+ s.verdicts asked.workerId := by
    refine List.IsSuffix.trans
      ⟨List.replicate (e.probeFailures + 1 - max threshold 1) .silent, ?_⟩ hcount
    rw [List.replicate_append_replicate, Nat.sub_add_cancel hle]
  refine ⟨hrow, (replicate_suffix_iff (by decide) hrow).trans ?_⟩
  simp only [ne_eq, decide_not, Bool.not_eq_eq_eq_not, Bool.not_true, decide_eq_false_iff_not]
  exact ⟨fun hall hbusy => hall _ hbusy rfl, fun hno f hf hc => hno (hc ▸ hf)⟩

/-! ## a worker that answers between two failures -/

def answersBusy (h : WorkerHandle) : ProbeAnswer := .ok (.busy h.workerId.text "t1")

def noAnswer : ProbeAnswer := .error (.unreachable "no answer")

def roundOfOne (h : WorkerHandle) (answer : ProbeAnswer) : List Move :=
  [.probe (.look [{ h with status := .unreachable }]), .probe .ask, .probe (.hear answer)]

/-- The worker is out of rotation, and the prober has had these answers and asks it once more. -/
def askedAgain (h : WorkerHandle) (answers : List ProbeAnswer) : List Move :=
  [.call (.register h), .call (.markUnreachable h.workerId)] ++ answers.flatMap (roundOfOne h)
    ++ (roundOfOne h noAnswer).take 2

theorem indirect_askedAgain (h : WorkerHandle) (answers : List ProbeAnswer) :
    Indirect (askedAgain h answers) := by
  simp [Indirect, askedAgain, roundOfOne]

theorem eviction_follows_two_failures :
    let h : WorkerHandle := .new ⟨"w1"⟩ "http://w1" default
    let ms := askedAgain h [answersBusy h, noAnswer]
    let s := ((start 2).run ms).move (.probe (.hear noAnswer))
    Indirect ms ∧ ((start 2).run ms).evicts? noAnswer = some h.workerId ∧
      s.findings h.workerId = [.busy, .silent, .silent] ∧
      [.silent, .silent] <:+ s.findings h.workerId := by
  intro h ms s
  have hms : Indirect ms := indirect_askedAgain h _
  have hevicts : ((start 2).run ms).evicts? noAnswer = some h.workerId := by decide
  obtain ⟨-, hlatest⟩ := eviction_follows_failures 2 hms hevicts
  exact ⟨hms, hevicts, by decide, hlatest.mpr (by decide)⟩

/-- A worker is removed at the second failure, though it answered in between. -/
theorem eviction_after_answer :
    ¬ ∀ (threshold : Nat) (ms : List Move), Indirect ms → ∀ (answer : ProbeAnswer) (w : WorkerId),
      ((start threshold).run ms).evicts? answer = some w →
      List.replicate (max threshold 1) .silent
        <:+ (((start threshold).run ms).move (.probe (.hear answer))).findings w := by
  intro hall
  let h : WorkerHandle := .new ⟨"w1"⟩ "http://w1" default
  let ms := askedAgain h [noAnswer, answersBusy h]
  have hrow := hall 2 ms (indirect_askedAgain h _) noAnswer h.workerId (by decide)
  have hfindings : (((start 2).run ms).move (.probe (.hear noAnswer))).findings h.workerId
      = [.silent, .busy, .silent] := by decide
  rw [hfindings] at hrow
  exact absurd hrow (by decide)

end Patrol
end HazardDispatch
