import HazardDispatch.Proofs.Json.Codec
import HazardDispatch.Source.Output
import HazardDispatch.Source.Spec

/-!
# The payloads of tasks read back

The payload of a task is a list of sources, which comes back as it was (`decode_sources`).

A payload with the figures of a task holds them as they were: every name, kind, number of sites and
number of events, and the ruptures by group. The times are doubles; where they can be written and
read at all (`Json.Legible`) each comes back as some time, and the rest does not depend on which
(`decode_output`).
-/

namespace HazardDispatch

open Json (spells_text spells_char spells_word64 spells_forall₂ spells_list_self spells_table_self)

/-! ## lists of sources -/

theorem SourceSpec.spells_toJson (s : SourceSpec) : s.toJson.Spells ofJson s :=
  Record.Spells.read (((((Record.spells_build mk).field (spells_text s.sourceId) (by decide)).field
    (spells_char s.code) (by decide)).field (spells_word64 s.numRuptures) (by decide)).field
    (spells_word64 s.numDists) (by decide))

theorem SourceSpec.spells_listToJson (ss : List SourceSpec) :
    (listToJson ss).Spells listOfJson ss :=
  spells_list_self fun s _ => s.spells_toJson

theorem decode_sources (ss : List SourceSpec) :
    (Payload.ofValue (SourceSpec.listToJson ss)).decode SourceSpec.listOfJson = .ok ss :=
  (SourceSpec.spells_listToJson ss).decode

/-! ## counts by group -/

theorem Body.piece_char (d : Decimal.Digit) : piece d.char = .plain (.char d.char) := by
  decide +revert

theorem Json.natKey_ofNat {n bound : Nat} (h : n < bound) :
    natKey bound (Body.ofText (Decimal.ofNat n)) = .ok n := by
  have hbody : Body.ofText (Decimal.ofNat n)
      = (Decimal.digits n).map fun d => .plain (.char d.char) := by
    simp [Body.ofText, Decimal.ofNat, Decimal.text, Body.piece_char]
  have hdigits {f : Piece → Option Decimal.Digit}
      (hf : ∀ d : Decimal.Digit, f (.plain (.char d.char)) = some d) (ds : List Decimal.Digit) :
      (ds.map fun d => Piece.plain (.char d.char)).mapM f = some ds := by
    induction ds with
    | nil => rfl
    | cons d ds ih => simp [hf, ih]
  have hzero : ¬ ((Decimal.digits n).head? = some Decimal.Digit.zero
      ∧ 1 < (Decimal.digits n).length) := by
    rintro ⟨hhead, hlength⟩
    by_cases hn : n = 0
    · subst hn
      simp [Decimal.digits] at hlength
    · exact Decimal.head?_digits hn hhead
  have hvalue := Decimal.value_digits n
  unfold natKey
  dsimp only
  rw [hbody, hdigits Decimal.Digit.ofChar?_char]
  cases hds : Decimal.digits n with
  | nil => exact absurd hds (Decimal.digits_ne_nil n)
  | cons d ds =>
    rw [hds] at hzero hvalue
    dsimp only
    rw [if_neg hzero, hvalue, if_pos h]

theorem Json.spells_groupCounts (t : Table UInt32 UInt64) :
    (groupCounts t).Spells asGroupCounts t := by
  let key (g : UInt32) : String := Decimal.ofNat g.toNat
  let readKey (b : Body) : Except DecodeError UInt32 := (natKey Word32.bound b).map UInt32.ofNat
  let write (n : UInt64) : Json := nat n.toNat
  have hkey (g : UInt32) : readKey (Body.ofText (key g)) = .ok g := by
    have hnat : natKey Word32.bound (Body.ofText (key g)) = .ok g.toNat := natKey_ofNat g.toNat_lt
    show (natKey Word32.bound (Body.ofText (key g))).map UInt32.ofNat = .ok g
    rw [hnat, Except.map, UInt32.ofNat_toNat]
  have hvalue : ∀ e ∈ t.entries, (write e.2).Spells asWord64 e.2 := fun e _ => spells_word64 e.2
  exact spells_table_self hkey hvalue

/-! ## timings -/

/-- The double can be written, and what is written is read as some double. -/
def Json.Legible (x : Float) : Prop := (float x).Written ∧ ∃ y, (float x).asFloat = .ok y

def SourceTiming.SameButTime (t t' : SourceTiming) : Prop := ∃ y, t' = { t with calcTime := y }

theorem SourceTiming.spells_toJson {t : SourceTiming} {y : Float}
    (h : (Json.float t.calcTime).Spells Json.asFloat y) :
    t.toJson.Spells ofJson { t with calcTime := y } :=
  Record.Spells.read ((((((Record.spells_build mk).field (spells_text t.sourceId) (by decide)).field
    (spells_char t.code) (by decide)).field (spells_word64 t.numSites) (by decide)).field h
    (by decide)).field (spells_word64 t.events) (by decide))

theorem SourceTiming.spells_times {P : SourceTiming → SourceTiming → Prop} {ts : List SourceTiming}
    (h : ∀ t ∈ ts, ∃ y, (Json.float t.calcTime).Spells Json.asFloat y ∧ P t { t with calcTime := y }) :
    ∃ ts', List.Forall₂ (fun t t' => t.toJson.Spells ofJson t' ∧ P t t') ts ts' := by
  induction ts with
  | nil => exact ⟨[], .nil⟩
  | cons t ts ih =>
    obtain ⟨ts', hts'⟩ := ih fun t' ht' => h t' (List.mem_cons_of_mem _ ht')
    obtain ⟨y, hy, hP⟩ := h t List.mem_cons_self
    exact ⟨{ t with calcTime := y } :: ts', .cons ⟨spells_toJson hy, hP⟩ hts'⟩

/-! ## whole payloads -/

theorem TaskOutput.spells_toJson {o : TaskOutput} {ts : List SourceTiming}
    (h : (Json.list (o.timings.map SourceTiming.toJson)).Spells (Json.asList SourceTiming.ofJson) ts) :
    o.toJson.Spells ofJson ⟨ts, o.effRuptures⟩ :=
  Record.Spells.read (((Record.spells_build mk).field h (by decide)).field
    (Json.spells_groupCounts o.effRuptures) (by decide))

/-- The payload with the figures of a task is read as these figures, with the times that are read. -/
theorem decode_times {P : SourceTiming → SourceTiming → Prop} {o : TaskOutput}
    (h : ∀ t ∈ o.timings, ∃ y, (Json.float t.calcTime).Spells Json.asFloat y ∧
      P t { t with calcTime := y }) :
    ∃ ts, (Payload.ofValue o.toJson).decode TaskOutput.ofJson = .ok ⟨ts, o.effRuptures⟩ ∧
      List.Forall₂ P o.timings ts := by
  obtain ⟨ts, hts⟩ := SourceTiming.spells_times h
  have hlist := spells_forall₂ (hts.imp fun _ _ hboth => hboth.1)
  exact ⟨ts, (TaskOutput.spells_toJson hlist).decode, hts.imp fun _ _ hboth => hboth.2⟩

/-- Nothing but the times is read otherwise. -/
theorem decode_output {o : TaskOutput} (h : ∀ t ∈ o.timings, Json.Legible t.calcTime) :
    ∃ ts, (Payload.ofValue o.toJson).decode TaskOutput.ofJson = .ok ⟨ts, o.effRuptures⟩ ∧
      List.Forall₂ SourceTiming.SameButTime o.timings ts := by
  refine decode_times fun t ht => ?_
  obtain ⟨hwritten, y, hy⟩ := h t ht
  exact ⟨y, ⟨hwritten, hy⟩, y, rfl⟩

end HazardDispatch
