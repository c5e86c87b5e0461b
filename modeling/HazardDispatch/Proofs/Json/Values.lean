import HazardDispatch.Proofs.Json.RoundTrip
import HazardDispatch.Proofs.Text.Utf8
import HazardDispatch.Task.Payload

/-!
# What is written as a payload reads back

For each way to build a JSON value: the text can spell it (`written_text`, …), and its reader gives
back what it was built from (`asText_text`, …). With `decode_ofValue` a payload that was made from a
value is read as that value.

A record is read field by field (`Record.Reads.read`).
-/

namespace HazardDispatch

open Decimal (Digit Numeral)

/-! ## strings -/

namespace Body

theorem written_piece (c : Char) : (piece c).Written := by
  unfold piece
  cases hl : shortLetter? c with
  | some l =>
    show Piece.short? l = some c
    unfold shortLetter? at hl
    repeat' split at hl
    all_goals first | (obtain rfl := Option.some.inj hl; subst_vars; rfl) | cases hl
  | none =>
    show Piece.Written (if c.toNat < 0x20 then .unit c.toNat else .plain (.char c))
    split
    · next h => exact Nat.lt_trans h (by decide)
    · next h =>
      refine ⟨decide_eq_true (Nat.not_lt.mp h), ?_, ?_⟩ <;>
      · rintro rfl
        cases hl

theorem written_ofText (s : String) : (ofText s).Written := by
  intro p hp
  obtain ⟨c, -, rfl⟩ := List.mem_map.mp hp
  exact written_piece c

theorem chars?_piece (c : Char) (r : Body) : chars? (piece c :: r) = (chars? r).map (c :: ·) := by
  unfold piece
  cases shortLetter? c with
  | some l => rfl
  | none =>
    show chars? ((if c.toNat < 0x20 then .unit c.toNat else .plain (.char c)) :: r) = _
    split
    · next h =>
      have hsingle : single? c.toNat = some c := by
        rw [single?, if_pos (.inl (Nat.lt_trans h (by decide))), Char.ofNat_toNat]
      have halone (hunit : ∀ m t, r ≠ .unit m :: t) :
          chars? (.unit c.toNat :: r) = (chars? r).map (c :: ·) := by
        rw [chars?, hsingle, Option.bind_some]
        exact hunit
      cases r with
      | nil => exact halone fun m t heq => nomatch heq
      | cons q r =>
        cases q with
        | unit m => rw [chars?, hsingle]
        | plain s => exact halone fun m t heq => nomatch heq
        | short l d => exact halone fun m t heq => nomatch heq
    · rfl

theorem text?_ofText (s : String) : text? (ofText s) = some s := by
  have hchars (cs : List Char) : chars? (cs.map piece) = some cs := by
    induction cs with
    | nil => rfl
    | cons c cs ih => rw [List.map_cons, chars?_piece, ih, Option.map_some]
  rw [text?, ofText, hchars, Option.map_some, String.ofList_toList]

end Body

/-! ## numbers -/

theorem Decimal.head?_digits {n : Nat} (h : n ≠ 0) : (digits n).head? ≠ some Digit.zero := by
  induction n using digits.induct with
  | case1 n hlt =>
    rw [digits, dif_pos hlt]
    exact fun heq => h (congrArg Fin.val (Option.some.inj heq))
  | case2 n hge ih =>
    rw [digits, dif_neg hge, List.head?_append]
    intro heq
    obtain ⟨d, ds, hds⟩ := List.exists_cons_of_ne_nil (digits_ne_nil (n / 10))
    have hhead := ih (by omega)
    rw [hds] at heq hhead
    exact hhead heq

theorem Decimal.Numeral.written_ofNat (n : Nat) : (Numeral.ofNat n).Written where
  whole := digits_ne_nil n
  noZero hzero := by
    by_cases h : n = 0
    · rw [h, ofNat, digits]
      rfl
    · exact absurd hzero (head?_digits h)
  exponent _ he := nomatch he

namespace Json

theorem written_text (s : String) : (text s).Written := Body.written_ofText s

theorem written_nat (n : Nat) : (nat n).Written := Numeral.written_ofNat n

theorem written_list {js : List Json} (h : ∀ j ∈ js, j.Written) : (list js).Written := by
  refine ⟨rfl, ?_⟩
  induction js with
  | nil => trivial
  | cons j js ih =>
    exact ⟨h j List.mem_cons_self, ih fun j' hj' => h j' (List.mem_cons_of_mem _ hj')⟩

theorem written_record {ms : List (String × Json)} (h : ∀ m ∈ ms, m.2.Written) :
    (record ms).Written := by
  refine ⟨rfl, ?_⟩
  induction ms with
  | nil => trivial
  | cons m ms ih =>
    exact ⟨Body.written_ofText m.1, h m List.mem_cons_self,
      ih fun m' hm' => h m' (List.mem_cons_of_mem _ hm')⟩

/-! ## readers -/

@[simp] theorem spelled_ofText (s : String) : spelled (Body.ofText s) = .ok s := by
  rw [spelled, Body.text?_ofText]

@[simp] theorem asText_text (s : String) : asText (text s) = .ok s := spelled_ofText s

@[simp] theorem asChar_text (c : Char) : asChar (text c.toString) = .ok c := by
  have htext : (text c.toString).asText = .ok c.toString := asText_text _
  have hlist : c.toString.toList = [c] := String.toList_singleton c
  simp only [asChar, htext, bind, Except.bind, hlist]
  rfl

theorem asNat_nat {n bound : Nat} (h : n < bound) : asNat bound (nat n) = .ok n := by
  rw [nat, asNat, Numeral.natural?_ofNat]
  exact if_pos h

@[simp] theorem asWord64_nat (w : UInt64) : asWord64 (nat w.toNat) = .ok w := by
  have hread : asNat Word64.bound (nat w.toNat) = .ok w.toNat := asNat_nat w.toNat_lt
  rw [asWord64, hread]
  exact congrArg Except.ok (UInt64.ofNat_toNat)

end Json

/-- A payload that was made from a value is read as that value. -/
theorem Payload.decode_ofValue {α : Type} {j : Json} (h : j.Written) (read : Reader α) :
    (ofValue j).decode read = read j := by
  have hsymbols : Utf8.symbols (ofValue j).bytes = j.render.map .char := by
    rw [ofValue, ofText, Utf8.symbols_bytes, Json.compact, Utf8.ofText, String.toList_ofList]
  rw [decode, Document.ofBytes, hsymbols, Json.ofSymbols_render h, Document.read]
  cases read j <;> rfl

/-! ## records -/

namespace Record

inductive Puts {α : Type} (r : Record α) : r.Slots → List (String × Json) → r.Slots → Prop where
  | nil (slots : r.Slots) : Puts r slots [] slots
  | cons {name : String} {j : Json} {ms : List (String × Json)} {slots next last : r.Slots}
      (put : r.put name j slots = some (.ok next)) (rest : Puts r next ms last) :
      Puts r slots ((name, j) :: ms) last

def names : {α : Type} → Record α → List String
  | _, .build _ => []
  | _, .field before f => before.names ++ [f.name]

/-- The members are the fields in their order, but for some that may be left out, and their values
make up `a`. -/
inductive Reads : {α : Type} → Record α → List (String × Json) → α → Prop where
  | build {α : Type} (a : α) : Reads (.build a) [] a
  | field {α β : Type} {before : Record (β → α)} {f : Field β} {ms : List (String × Json)}
      {make : β → α} {j : Json} {b : β} (h : Reads before ms make) (read : f.read j = .ok b)
      (new : f.name ∉ before.names) : Reads (before.field f) (ms ++ [(f.name, j)]) (make b)
  /-- A field that may be left out has no member. -/
  | absent {α β : Type} {before : Record (β → α)} {f : Field β} {ms : List (String × Json)}
      {make : β → α} {b : β} (h : Reads before ms make) (default : f.absent = some b)
      (new : f.name ∉ before.names) : Reads (before.field f) ms (make b)

section
variable {α β : Type} {r : Record α} {ms : List (String × Json)}

theorem Puts.concat {slots next last : r.Slots} {name : String} {j : Json}
    (h : Puts r slots ms next) (put : r.put name j next = some (.ok last)) :
    Puts r slots (ms ++ [(name, j)]) last := by
  induction h with
  | nil slots => exact .cons put (.nil last)
  | cons first _ ih => exact .cons first (ih put)

theorem put_field_of_ne {before : Record (β → α)} {f : Field β} {name : String} {j : Json}
    {slots next : before.Slots} (h : name ≠ f.name)
    (put : before.put name j slots = some (.ok next)) :
    (before.field f).put name j (slots, none) = some (.ok (next, none)) := by
  simp only [Record.put, h, if_false, put, Option.map_some, Except.map]

theorem put_field_self {before : Record (β → α)} {f : Field β} {j : Json} {b : β}
    (slots : before.Slots) (read : f.read j = .ok b) :
    (before.field f).put f.name j (slots, none) = some (.ok (slots, some b)) := by
  simp only [Record.put, if_true, Option.isSome_none, Bool.false_eq_true, if_false, read, Except.map]

theorem Puts.field {before : Record (β → α)} {f : Field β} {slots last : before.Slots}
    (h : Puts before slots ms last) (new : f.name ∉ ms.map (·.1)) :
    Puts (before.field f) (slots, none) ms (last, none) := by
  induction h with
  | nil slots => exact .nil _
  | cons put _ ih =>
    rw [List.map_cons, List.mem_cons, not_or] at new
    exact .cons (put_field_of_ne (Ne.symm new.1) put) (ih new.2)

theorem collect_of_puts {slots last : r.Slots} (h : Puts r slots ms last) :
    r.collect true slots (ms.map fun (k, v) => (Body.ofText k, v)) = .ok last := by
  induction h with
  | nil slots => rfl
  | cons put _ ih =>
    rw [List.map_cons, collect, Json.spelled_ofText]
    simp only [bind, Except.bind, put]
    exact ih

theorem Reads.names_subset {a : α} (h : Reads r ms a) : ms.map (·.1) ⊆ r.names := by
  induction h with
  | build a => exact List.nil_subset _
  | field _ _ _ ih =>
    rw [List.map_append]
    exact List.append_subset.mpr
      ⟨List.subset_append_of_subset_left _ ih, List.subset_append_right _ _⟩
  | absent _ _ _ ih => exact List.subset_append_of_subset_left _ ih

theorem Reads.puts {a : α} (h : Reads r ms a) :
    ∃ slots, Puts r r.empty ms slots ∧ r.finish slots = .ok a := by
  induction h with
  | build a => exact ⟨(), .nil _, rfl⟩
  | @field α β before f ms make j b h read new ih =>
    obtain ⟨slots, hputs, hfinish⟩ := ih
    refine ⟨(slots, some b),
      (hputs.field fun hmem => new (h.names_subset hmem)).concat (put_field_self slots read), ?_⟩
    simp only [finish, hfinish, bind, Except.bind]
    rfl
  | @absent α β before f ms make b h default new ih =>
    obtain ⟨slots, hputs, hfinish⟩ := ih
    refine ⟨(slots, none), hputs.field fun hmem => new (h.names_subset hmem), ?_⟩
    simp only [finish, hfinish, bind, Except.bind, default]
    rfl

/-- An object with the fields as its members, in their order, is read as what they make up. -/
theorem Reads.read {a : α} (h : Reads r ms a) : r.read (Json.record ms) = .ok a := by
  obtain ⟨slots, hputs, hfinish⟩ := h.puts
  rw [Json.record, Record.read, collect_of_puts hputs]
  exact hfinish

end
end Record

end HazardDispatch
