import HazardDispatch.Proofs.Table.Gathering
import HazardDispatch.Worker.Server
import Mathlib.Data.List.Induction

/-!
# One execution at a time

A request to run an attempt goes through several stages: its body is read, it is decoded, it claims the
slot, the executor runs, the slot is freed. Its connection may be dropped at any of them. `Traffic` is a
server with its open requests, and a run of moves does what is due for one request or the other in any
order, with requests to cancel and for health in between.

Freeing the slot does not look at who holds it. It is right because whoever frees the slot holds it:
`t.Sound` says that the slot holds just what is in progress. A move changes the slot in three ways only,
it claims, frees or signals (`Change`), so one lemma for each way keeps it (`Sound.change`), and what a
move does to an execution in progress is read off in the same way (`slot_admits_one`).

The stages, done one after the other, are what the server does at once (`execute_at_once`).
-/

namespace HazardDispatch

/-- What an open request to run an attempt has come to. -/
inductive Traffic.Stage where
  | received (body : List UInt8)
  | decoded (request : ExecuteRequest) (size : Nat)
  | running (b : Begun)

/-- A server with its open requests, by number. -/
structure Traffic where
  slot : Slot
  /-- How many requests to run an attempt have come in. -/
  arrived : Nat
  requests : Table Nat Traffic.Stage

def Begun.running (b : Begun) : Running := ⟨b.request.taskId, b.execution⟩

def Handled.response? : Handled → Option Http.Response
  | .answered r => some r
  | .begun _ => none

namespace Traffic

/-! ## moves -/

/-- What may happen next. An executor that panics ends in `.stopped`. -/
inductive Move where
  | arrive (body : List UInt8)
  | decode (n : Nat)
  | claim (n : Nat)
  | finish (n : Nat) (e : Execution) (duration peakMemory : Float)
  | drop (n : Nat)
  | cancel (segment : List Char)
  | health

def idle (w : WorkerId) : Traffic := ⟨.free w, 0, .empty⟩

def close (t : Traffic) (n : Nat) : Traffic := { t with requests := t.requests.erase n }

def goOn (t : Traffic) (n : Nat) (s : Stage) : Traffic :=
  { t with requests := t.requests.put n s }

def release (t : Traffic) (n : Nat) : Traffic := { t.close n with slot := t.slot.release }

/-- An answer, if there is one, and what is left. -/
abbrev Stepped := Option Http.Response × Traffic

def arrive (t : Traffic) (body : List UInt8) : Stepped :=
  (none, { t.goOn t.arrived (.received body) with arrived := t.arrived + 1 })

def decode (t : Traffic) (n : Nat) : Stepped :=
  match t.requests.get? n with
  | some (.received body) =>
    match (Document.ofBytes body).read ExecuteRequest.ofJson with
    | .error e => (some (.error 400 (Slot.refusalText e)), t.close n)
    | .ok req => (none, t.goOn n (.decoded req body.length))
  | _ => (none, t)

def claim (t : Traffic) (n : Nat) : Stepped :=
  match t.requests.get? n with
  | some (.decoded req size) =>
    match t.slot.claim req.taskId with
    | (.error current, slot) =>
      (some (.error 409 ("Worker busy running " ++ current)), { t.close n with slot })
    | (.ok execution, slot) => (none, { t.goOn n (.running ⟨execution, req, size⟩) with slot })
  | _ => (none, t)

def finish (t : Traffic) (n : Nat) (e : Execution) (duration peakMemory : Float) : Stepped :=
  match t.requests.get? n with
  | some (.running b) =>
    ((b.response? e duration peakMemory).map fun r => .json 200 r.toJson, t.release n)
  | _ => (none, t)

def drop (t : Traffic) (n : Nat) : Stepped :=
  match t.requests.get? n with
  | some (.running _) => (none, t.release n)
  | _ => (none, t.close n)

def cancel (t : Traffic) (segment : List Char) : Stepped :=
  let (handled, slot, _) := t.slot.handleCancel segment
  (handled.response?, { t with slot })

def step (t : Traffic) : Move → Stepped
  | .arrive body => t.arrive body
  | .decode n => t.decode n
  | .claim n => t.claim n
  | .finish n e duration peakMemory => t.finish n e duration peakMemory
  | .drop n => t.drop n
  | .cancel segment => t.cancel segment
  | .health => (some (.json 200 t.slot.health.toJson), t)

def run (t : Traffic) (ms : List Move) : Traffic := ms.foldl (fun t m => (t.step m).2) t

/-! ## what holds -/

def InProgress (t : Traffic) (n : Nat) (b : Begun) : Prop :=
  t.requests.get? n = some (.running b)

/-- The move ends the execution of that request, if it is in progress. -/
def Move.Ends (m : Move) (n : Nat) : Prop :=
  m = .drop n ∨ ∃ e duration peakMemory, m = .finish n e duration peakMemory

def Numbered (t : Traffic) : Prop := ∀ n s, t.requests.get? n = some s → n < t.arrived

/-- The slot holds the execution in progress, of which there is one at most. Executions that are to come
have tokens of their own, none of which is used yet. -/
structure Sound (t : Traffic) : Prop where
  numbered : t.Numbered
  single : ∀ n n' b b', t.InProgress n b → t.InProgress n' b' → n = n' ∧ b = b'
  holds : ∀ x, t.slot.running = some x ↔ ∃ n b, t.InProgress n b ∧ b.running = x
  begun : ∀ n b, t.InProgress n b → b.execution < t.slot.begun
  stopped : ∀ i ∈ t.slot.stopped, i < t.slot.begun

/-- What a move does to the slot. -/
inductive Change (t : Traffic) : Move → Option Http.Response → Traffic → Prop where
  | quiet {m : Move} {r : Option Http.Response} {t' : Traffic} (slot : t'.slot = t.slot)
      (same : ∀ n b, t'.InProgress n b ↔ t.InProgress n b)
      (numbered : t'.Numbered) (goes : ∀ n b, t.InProgress n b → ¬ m.Ends n)
      (notCancel : ∀ seg, m ≠ .cancel seg) (notHealth : m ≠ .health) : Change t m r t'
  | begins {n : Nat} {req : ExecuteRequest} {size : Nat} (free : t.slot.running = none)
      (decoded : t.requests.get? n = some (.decoded req size)) :
      Change t (.claim n) none { t.goOn n (.running ⟨t.slot.begun, req, size⟩) with
        slot := { t.slot with
          running := some ⟨req.taskId, t.slot.begun⟩, begun := t.slot.begun + 1 } }
  | ends {m : Move} {n : Nat} {b : Begun} {r : Option Http.Response} (ends : m.Ends n)
      (inProgress : t.InProgress n b) (ok : ∀ a ∈ r, a.status = 200) : Change t m r (t.release n)
  | signals {seg : List Char} {x : Running} (parameter : Http.parameter? seg = some x.taskId)
      (held : t.slot.running = some x) :
      Change t (.cancel seg) (some (.json 200 (CancelResponse.toJson ⟨x.taskId, true⟩)))
        { t with slot := { t.slot with stopped := x.execution :: t.slot.stopped } }
  | misses {seg : List Char} {id : String} (parameter : Http.parameter? seg = some id)
      (other : ∀ x, t.slot.running = some x → x.taskId ≠ id) :
      Change t (.cancel seg) (some (.json 200 (CancelResponse.toJson ⟨id, false⟩))) t
  | malformed {seg : List Char} (parameter : Http.parameter? seg = none) :
      Change t (.cancel seg) (some (.empty 400)) t
  | looks : Change t .health (some (.json 200 t.slot.health.toJson)) t

/-! ## what a move does -/

section
variable {t : Traffic} {n : Nat}

theorem inProgress_goOn {s : Stage} {n' : Nat} {b : Begun} :
    (t.goOn n s).InProgress n' b ↔ if n' = n then s = .running b else t.InProgress n' b := by
  rw [InProgress, goOn, Table.get?_put, InProgress]
  split
  · rw [Option.some.injEq]
  · exact Iff.rfl

theorem inProgress_close {n' : Nat} {b : Begun} :
    (t.close n).InProgress n' b ↔ n' ≠ n ∧ t.InProgress n' b := by
  rw [InProgress, close, Table.get?_erase, InProgress]
  split
  · next h => simp [h]
  · next h => simp [h]

theorem Numbered.goOn (h : t.Numbered) (hn : n < t.arrived) (s : Stage) : (t.goOn n s).Numbered := by
  intro n' s' hs'
  rw [Traffic.goOn, Table.get?_put] at hs'
  split at hs'
  · next heq => exact heq ▸ hn
  · exact h n' s' hs'

theorem Numbered.close (h : t.Numbered) (n : Nat) : (t.close n).Numbered := by
  intro n' s' hs'
  rw [Traffic.close, Table.get?_erase] at hs'
  split at hs'
  · cases hs'
  · exact h n' s' hs'

theorem ends_drop_iff {n' : Nat} : (Move.drop n).Ends n' ↔ n = n' := by
  simp [Move.Ends]

theorem ends_finish_iff {e : Execution} {duration peakMemory : Float} {n' : Nat} :
    (Move.finish n e duration peakMemory).Ends n' ↔ n = n' := by
  simp [Move.Ends]

/-- A request is closed whose execution is not in progress. -/
theorem Numbered.change_close (h : t.Numbered) (hn : ∀ b, ¬ t.InProgress n b) {m : Move}
    (goes : ∀ n b, t.InProgress n b → ¬ m.Ends n) (notCancel : ∀ seg, m ≠ .cancel seg)
    (notHealth : m ≠ .health) (r : Option Http.Response) : t.Change m r (t.close n) := by
  refine .quiet rfl (fun n' b => ?_) (h.close n) goes notCancel notHealth
  rw [inProgress_close]
  refine ⟨And.right, fun hb => ⟨?_, hb⟩⟩
  rintro rfl
  exact hn b hb

/-- A request enters a stage before its execution. -/
theorem same_goOn (hn : ∀ b, ¬ t.InProgress n b) {s : Stage} (hs : ∀ b, s ≠ .running b) (n' : Nat)
    (b : Begun) : (t.goOn n s).InProgress n' b ↔ t.InProgress n' b := by
  rw [inProgress_goOn]
  split
  · next heq =>
    rw [heq]
    exact iff_of_false (hs b) (hn b)
  · exact Iff.rfl

theorem not_inProgress_of_stage {s : Stage} (h : t.requests.get? n = some s)
    (hs : ∀ b, s ≠ .running b) (b : Begun) : ¬ t.InProgress n b := by
  intro hb
  rw [InProgress, h, Option.some.injEq] at hb
  exact hs b hb

theorem Numbered.change_refl (h : t.Numbered) {m : Move}
    (goes : ∀ n b, t.InProgress n b → ¬ m.Ends n) (notCancel : ∀ seg, m ≠ .cancel seg)
    (notHealth : m ≠ .health) : t.Change m none t :=
  .quiet rfl (fun _ _ => Iff.rfl) h goes notCancel notHealth

theorem Numbered.arrive (h : t.Numbered) (body : List UInt8) :
    t.Change (.arrive body) (t.arrive body).1 (t.arrive body).2 := by
  have hnew : ∀ b, ¬ t.InProgress t.arrived b := fun b hb => absurd (h _ _ hb) (Nat.lt_irrefl _)
  refine .quiet rfl (same_goOn hnew nofun) ?_ (by simp [Move.Ends]) nofun nofun
  intro n s hs
  replace hs : (t.requests.put t.arrived (.received body)).get? n = some s := hs
  rw [Table.get?_put] at hs
  split at hs
  · next heq => exact heq ▸ Nat.lt_succ_self _
  · exact Nat.lt_succ_of_lt (h n s hs)

theorem Numbered.decode (h : t.Numbered) (n : Nat) :
    t.Change (.decode n) (t.decode n).1 (t.decode n).2 := by
  have hgoes : ∀ n' b, t.InProgress n' b → ¬ (Move.decode n).Ends n' := by simp [Move.Ends]
  unfold Traffic.decode
  split
  · next body hstage =>
    have hn := not_inProgress_of_stage hstage nofun
    split
    · exact h.change_close hn hgoes nofun nofun _
    · exact .quiet rfl (same_goOn hn nofun) (h.goOn (h n _ hstage) _) hgoes nofun nofun
  · exact h.change_refl hgoes nofun nofun

theorem Numbered.claim (h : t.Numbered) (n : Nat) :
    t.Change (.claim n) (t.claim n).1 (t.claim n).2 := by
  have hgoes : ∀ n' b, t.InProgress n' b → ¬ (Move.claim n).Ends n' := by simp [Move.Ends]
  unfold Traffic.claim
  split
  · next req size hstage =>
    cases hrunning : t.slot.running with
    | none =>
      simp only [Slot.claim, hrunning]
      exact .begins hrunning hstage
    | some x =>
      simp only [Slot.claim, hrunning]
      exact h.change_close (not_inProgress_of_stage hstage nofun) hgoes nofun nofun _
  · exact h.change_refl hgoes nofun nofun

theorem Numbered.finish (h : t.Numbered) (n : Nat) (e : Execution) (duration peakMemory : Float) :
    t.Change (.finish n e duration peakMemory) (t.finish n e duration peakMemory).1
      (t.finish n e duration peakMemory).2 := by
  unfold Traffic.finish
  split
  · next b hstage =>
    refine .ends (ends_finish_iff.mpr rfl) hstage fun a ha => ?_
    obtain ⟨r, -, rfl⟩ := Option.map_eq_some_iff.mp ha
    rfl
  · next hstage =>
    refine h.change_refl (fun n' b hb hends => ?_) nofun nofun
    obtain rfl := ends_finish_iff.mp hends
    exact hstage b hb

theorem Numbered.drop (h : t.Numbered) (n : Nat) :
    t.Change (.drop n) (t.drop n).1 (t.drop n).2 := by
  unfold Traffic.drop
  split
  · next b hstage => exact .ends (ends_drop_iff.mpr rfl) hstage nofun
  · next hstage =>
    refine h.change_close (m := .drop n) hstage (fun n' b hb hends => ?_) nofun nofun none
    obtain rfl := ends_drop_iff.mp hends
    exact hstage b hb

theorem change_cancel (t : Traffic) (segment : List Char) :
    t.Change (.cancel segment) (t.cancel segment).1 (t.cancel segment).2 := by
  unfold Traffic.cancel Slot.handleCancel
  cases hparameter : Http.parameter? segment with
  | none => exact .malformed hparameter
  | some id =>
    cases hrunning : t.slot.running with
    | none =>
      simp only [Slot.cancel, hrunning]
      exact .misses hparameter fun x hx => by rw [hrunning] at hx; cases hx
    | some x =>
      have hcancel : t.slot.cancel id = if x.taskId = id then
          (true, { t.slot with stopped := x.execution :: t.slot.stopped }) else (false, t.slot) := by
        simp only [Slot.cancel, hrunning]
      simp only [hcancel]
      by_cases hid : x.taskId = id
      · subst hid
        simp only [if_true]
        exact .signals hparameter hrunning
      · simp only [if_neg hid]
        refine .misses hparameter fun y hy => ?_
        rw [hrunning] at hy
        obtain rfl := Option.some.inj hy
        exact hid

theorem Numbered.step (h : t.Numbered) (m : Move) : t.Change m (t.step m).1 (t.step m).2 := by
  cases m with
  | arrive body => exact h.arrive body
  | decode n => exact h.decode n
  | claim n => exact h.claim n
  | finish n e duration peakMemory => exact h.finish n e duration peakMemory
  | drop n => exact h.drop n
  | cancel segment => exact change_cancel t segment
  | health => exact .looks

end

/-- The stages of a request with nothing between them are what the server does at once. -/
theorem execute_at_once (t : Traffic) (body : List UInt8) :
    let decoded := (t.arrive body).2.decode t.arrived
    let claimed := decoded.2.claim t.arrived
    let handled := t.slot.handleExecute body
    decoded.1.or claimed.1 = handled.1.response? ∧ claimed.2.slot = handled.2.1 ∧
      ∀ b, claimed.2.InProgress t.arrived b ↔ handled.1 = .begun b := by
  unfold Slot.handleExecute
  simp only [Traffic.arrive, Traffic.decode, goOn, Table.get?_put_self]
  cases (Document.ofBytes body).read ExecuteRequest.ofJson with
  | error e =>
    simp only [Traffic.claim, Traffic.close, Table.get?_erase_self, InProgress]
    exact ⟨rfl, trivial, fun b => by simp⟩
  | ok req =>
    simp only [Traffic.claim, Table.get?_put_self, Slot.claim]
    cases hrunning : t.slot.running with
    | none =>
      simp only [InProgress, goOn, Table.get?_put_self, Option.some.injEq, Stage.running.injEq]
      refine ⟨rfl, trivial, fun b => ?_⟩
      rw [Handled.begun.injEq]
    | some x =>
      simp only [InProgress, Traffic.close, Table.get?_erase_self]
      exact ⟨rfl, trivial, fun b => by simp⟩

/-! ## what a run keeps -/

theorem sound_idle (w : WorkerId) : (idle w).Sound where
  numbered _ _ h := nomatch h
  single _ _ _ _ h := nomatch h
  holds _ := ⟨nofun, fun ⟨_, _, h, _⟩ => nomatch h⟩
  begun _ _ h := nomatch h
  stopped _ h := nomatch h

section
variable {t t' : Traffic} {m : Move} {r : Option Http.Response}

theorem Sound.not_inProgress_of_free (h : t.Sound) (hfree : t.slot.running = none) (n : Nat)
    (b : Begun) : ¬ t.InProgress n b := by
  intro hb
  have hheld := (h.holds b.running).mpr ⟨n, b, hb, rfl⟩
  rw [hfree] at hheld
  cases hheld

theorem Sound.held (h : t.Sound) {n : Nat} {b : Begun} (hb : t.InProgress n b) :
    t.slot.running = some b.running := (h.holds _).mpr ⟨n, b, hb, rfl⟩

theorem Sound.not_inProgress_release (h : t.Sound) {n : Nat} {b : Begun} (hb : t.InProgress n b)
    (n' : Nat) (b' : Begun) : ¬ (t.release n).InProgress n' b' := by
  intro hb'
  obtain ⟨hne, hold⟩ := inProgress_close.mp hb'
  exact hne (h.single n' n b' b hold hb).1

theorem Sound.begin (h : t.Sound) (free : t.slot.running = none) {n : Nat} {req : ExecuteRequest}
    {size : Nat} (decoded : t.requests.get? n = some (.decoded req size)) :
    Sound { t.goOn n (.running ⟨t.slot.begun, req, size⟩) with
      slot := { t.slot with
        running := some ⟨req.taskId, t.slot.begun⟩, begun := t.slot.begun + 1 } } := by
  have hnone := h.not_inProgress_of_free free
  have hiff : ∀ n' b, (t.goOn n (.running ⟨t.slot.begun, req, size⟩)).InProgress n' b ↔
      n' = n ∧ b = ⟨t.slot.begun, req, size⟩ := by
    intro n' b
    rw [inProgress_goOn]
    split
    · next heq => simp [heq, eq_comm]
    · next hne => exact iff_of_false (hnone n' b) fun hand => hne hand.1
  constructor
  · exact h.numbered.goOn (h.numbered n _ decoded) _
  · intro n₁ n₂ b₁ b₂ h₁ h₂
    obtain ⟨rfl, rfl⟩ := (hiff _ _).mp h₁
    obtain ⟨rfl, rfl⟩ := (hiff _ _).mp h₂
    exact ⟨rfl, rfl⟩
  · intro x
    constructor
    · intro hx
      obtain rfl := Option.some.inj hx
      exact ⟨n, _, (hiff _ _).mpr ⟨rfl, rfl⟩, rfl⟩
    · rintro ⟨n', b, hb, rfl⟩
      obtain ⟨-, rfl⟩ := (hiff _ _).mp hb
      rfl
  · intro n' b hb
    obtain ⟨-, rfl⟩ := (hiff _ _).mp hb
    exact Nat.lt_succ_self _
  · exact fun i hi => Nat.lt_succ_of_lt (h.stopped i hi)

theorem Sound.release (h : t.Sound) {n : Nat} {b : Begun} (hb : t.InProgress n b) :
    (t.release n).Sound := by
  have hnone := h.not_inProgress_release hb
  constructor
  · exact h.numbered.close n
  · exact fun n' _ b' _ hb' => absurd hb' (hnone n' b')
  · exact fun x => ⟨nofun, fun ⟨n', b', hb', _⟩ => absurd hb' (hnone n' b')⟩
  · exact fun n' b' hb' => absurd hb' (hnone n' b')
  · exact h.stopped

theorem Sound.signal (h : t.Sound) {x : Running} (held : t.slot.running = some x) :
    Sound { t with slot := { t.slot with stopped := x.execution :: t.slot.stopped } } := by
  refine ⟨h.numbered, h.single, h.holds, h.begun, fun i hi => ?_⟩
  rcases List.mem_cons.mp hi with rfl | hi
  · obtain ⟨n, b, hb, rfl⟩ := (h.holds x).mp held
    exact h.begun n b hb
  · exact h.stopped i hi

theorem Sound.change (h : t.Sound) (change : t.Change m r t') : t'.Sound := by
  cases change with
  | quiet slot same numbered _ _ _ =>
    constructor
    · exact numbered
    · simpa only [same] using h.single
    · simpa only [same, slot] using h.holds
    · simpa only [same, slot] using h.begun
    · simpa only [slot] using h.stopped
  | begins free decoded => exact h.begin free decoded
  | ends _ inProgress _ => exact h.release inProgress
  | signals _ held => exact h.signal held
  | misses => exact h
  | malformed => exact h
  | looks => exact h

end

theorem run_sound (w : WorkerId) (ms : List Move) : ((idle w).run ms).Sound := by
  induction ms using List.reverseRecOn with
  | nil => exact sound_idle w
  | append_singleton ms m ih =>
    rw [run, List.foldl_append]
    exact ih.change (ih.numbered.step m)

/-! ## what a move is to those who wait -/

/-- The move `m` of `t` gives the answer `r` and leaves `t'`. -/
structure Served (t : Traffic) (m : Move) (r : Option Http.Response) (t' : Traffic) : Prop where
  refused : ∀ a, r = some a → a.status = 400 ∨ a.status = 409 → t'.slot = t.slot
  cancels : ∀ seg id, m = .cancel seg → Http.parameter? seg = some id →
    (∃ n b, t.InProgress n b ∧ b.request.taskId = id ∧
      r = some (.json 200 (CancelResponse.toJson ⟨id, true⟩)) ∧
      t'.slot = { t.slot with stopped := b.execution :: t.slot.stopped }) ∨
    (∀ n b, t.InProgress n b → b.request.taskId ≠ id) ∧
      r = some (.json 200 (CancelResponse.toJson ⟨id, false⟩)) ∧ t'.slot = t.slot
  fires : (∀ seg, m ≠ .cancel seg) → t'.slot.stopped = t.slot.stopped
  health : m = .health → t'.slot = t.slot ∧
    ∃ h : HealthResponse, r = some (.json 200 h.toJson) ∧ (h.isIdle ↔ t.slot.running = none)
  begins : ∀ n b, ¬ t.InProgress n b → t'.InProgress n b →
    m = .claim n ∧ t.slot.running = none ∧ b.execution ∉ t'.slot.stopped
  ends : ∀ n b, t.InProgress n b → m.Ends n →
    t'.slot.running = none ∧ ∀ n' b', ¬ t'.InProgress n' b'
  stays : ∀ n b, t.InProgress n b → ¬ m.Ends n →
    t'.InProgress n b ∧ t'.slot.running = t.slot.running

theorem isIdle_health (s : Slot) : s.health.isIdle ↔ s.running = none := by
  unfold Slot.health
  cases s.running with
  | none => simp [HealthResponse.isIdle, HealthResponse.idle]
  | some x => simp [HealthResponse.isIdle, HealthResponse.busy]

section
variable {t t' : Traffic} {m : Move} {r : Option Http.Response}

theorem Change.refused (c : t.Change m r t') (a : Http.Response) (ha : r = some a)
    (hs : a.status = 400 ∨ a.status = 409) : t'.slot = t.slot := by
  cases c with
  | quiet slot _ _ _ _ _ => exact slot
  | begins => cases ha
  | ends _ _ ok =>
    rw [ok a ha] at hs
    simp at hs
  | signals =>
    obtain rfl := Option.some.inj ha
    simp [Http.Response.json] at hs
  | misses => rfl
  | malformed => rfl
  | looks => rfl

theorem Sound.cancels (h : t.Sound) (c : t.Change m r t') (seg : List Char) (id : String)
    (hm : m = .cancel seg) (hid : Http.parameter? seg = some id) :
    (∃ n b, t.InProgress n b ∧ b.request.taskId = id ∧
      r = some (.json 200 (CancelResponse.toJson ⟨id, true⟩)) ∧
      t'.slot = { t.slot with stopped := b.execution :: t.slot.stopped }) ∨
    (∀ n b, t.InProgress n b → b.request.taskId ≠ id) ∧
      r = some (.json 200 (CancelResponse.toJson ⟨id, false⟩)) ∧ t'.slot = t.slot := by
  cases c with
  | quiet _ _ _ _ notCancel _ => exact absurd hm (notCancel seg)
  | begins => cases hm
  | ends ends _ _ =>
    rw [hm] at ends
    simp [Move.Ends] at ends
  | @signals _ x parameter held =>
    obtain rfl := Move.cancel.inj hm
    obtain rfl := Option.some.inj (parameter.symm.trans hid)
    obtain ⟨n, b, hb, rfl⟩ := (h.holds x).mp held
    exact .inl ⟨n, b, hb, rfl, rfl, rfl⟩
  | misses parameter other =>
    obtain rfl := Move.cancel.inj hm
    obtain rfl := Option.some.inj (parameter.symm.trans hid)
    exact .inr ⟨fun n b hb => other _ (h.held hb), rfl, rfl⟩
  | malformed parameter =>
    obtain rfl := Move.cancel.inj hm
    rw [hid] at parameter
    cases parameter
  | looks => cases hm

theorem Change.fires (c : t.Change m r t') (hm : ∀ seg, m ≠ .cancel seg) :
    t'.slot.stopped = t.slot.stopped := by
  cases c with
  | quiet slot _ _ _ _ _ => rw [slot]
  | begins => rfl
  | ends => rfl
  | signals => exact absurd rfl (hm _)
  | misses => rfl
  | malformed => rfl
  | looks => rfl

theorem Change.health (c : t.Change m r t') (hm : m = .health) : t'.slot = t.slot ∧
    ∃ h : HealthResponse, r = some (.json 200 h.toJson) ∧ (h.isIdle ↔ t.slot.running = none) := by
  cases c with
  | quiet _ _ _ _ _ notHealth => exact absurd hm notHealth
  | begins => cases hm
  | ends ends _ _ =>
    rw [hm] at ends
    simp [Move.Ends] at ends
  | signals => cases hm
  | misses => cases hm
  | malformed => cases hm
  | looks => exact ⟨rfl, _, rfl, isIdle_health t.slot⟩

theorem Sound.begins (h : t.Sound) (c : t.Change m r t') (n : Nat) (b : Begun)
    (hb : ¬ t.InProgress n b) (hb' : t'.InProgress n b) :
    m = .claim n ∧ t.slot.running = none ∧ b.execution ∉ t'.slot.stopped := by
  cases c with
  | quiet _ same _ _ _ _ => exact absurd ((same n b).mp hb') hb
  | begins free _ =>
    replace hb' := inProgress_goOn.mp hb'
    split at hb'
    · next heq =>
      obtain rfl := Stage.running.inj hb'
      refine ⟨heq ▸ rfl, free, fun hmem => ?_⟩
      exact absurd (h.stopped _ hmem) (Nat.lt_irrefl _)
    · exact absurd hb' hb
  | ends _ inProgress _ => exact absurd hb' (h.not_inProgress_release inProgress n b)
  | signals => exact absurd hb' hb
  | misses => exact absurd hb' hb
  | malformed => exact absurd hb' hb
  | looks => exact absurd hb' hb

theorem Sound.ends (h : t.Sound) (c : t.Change m r t') (n : Nat) (b : Begun)
    (hb : t.InProgress n b) (hm : m.Ends n) :
    t'.slot.running = none ∧ ∀ n' b', ¬ t'.InProgress n' b' := by
  cases c with
  | quiet _ _ _ goes _ _ => exact absurd hm (goes n b hb)
  | begins => simp [Move.Ends] at hm
  | ends _ inProgress _ => exact ⟨rfl, h.not_inProgress_release inProgress⟩
  | signals => simp [Move.Ends] at hm
  | misses => simp [Move.Ends] at hm
  | malformed => simp [Move.Ends] at hm
  | looks => simp [Move.Ends] at hm

theorem Sound.stays (h : t.Sound) (c : t.Change m r t') (n : Nat) (b : Begun)
    (hb : t.InProgress n b) (hm : ¬ m.Ends n) :
    t'.InProgress n b ∧ t'.slot.running = t.slot.running := by
  cases c with
  | quiet slot same _ _ _ _ => exact ⟨(same n b).mpr hb, by rw [slot]⟩
  | begins free _ => exact absurd hb (h.not_inProgress_of_free free n b)
  | ends ends inProgress _ =>
    obtain ⟨rfl, -⟩ := h.single _ _ _ _ hb inProgress
    exact absurd ends hm
  | signals => exact ⟨hb, rfl⟩
  | misses => exact ⟨hb, rfl⟩
  | malformed => exact ⟨hb, rfl⟩
  | looks => exact ⟨hb, rfl⟩

end

/-- After any run the slot holds the execution in progress, one at most, and whatever happens next, only
its own end frees it and only a request to cancel that names its task stops it. -/
theorem slot_admits_one (w : WorkerId) (ms : List Move) (m : Move) :
    let t := (idle w).run ms
    t.Sound ∧ t.Served m (t.step m).1 (t.step m).2 := by
  have hsound := run_sound w ms
  have hchange := hsound.numbered.step m
  exact ⟨hsound, hchange.refused, hsound.cancels hchange, hchange.fires, hchange.health,
    hsound.begins hchange, hsound.ends hchange, hsound.stays hchange⟩

end Traffic
end HazardDispatch
