import HazardDispatch.Proofs.Text.Utf8
import HazardDispatch.Text.Percent
import Mathlib.Data.List.Flatten
import Mathlib.Tactic.IntervalCases

/-!
# What percent decoding makes of a text

A text is a row of escapes, a percent sign with two digits, and of other characters (`Row`); a percent
sign that no two digits follow is one of the others. Everything here goes along such a row.

Encoding leaves escapes alone, so it does not change what a text stands for (`read_encode`). A text
stands for its own bytes if it has no escape (`read_eq`), and else for fewer bytes (`length_read_lt`).
-/

namespace HazardDispatch.Percent

def encoded (cs : List Char) : List UInt8 := cs.flatMap String.utf8EncodeChar

def read (cs : List Char) : List UInt8 := decodeBytes (encoded cs)

def IsDigit (c : Char) : Prop := (Hex.value? c).isSome

instance : DecidablePred IsDigit := fun c => inferInstanceAs (Decidable ((Hex.value? c).isSome = true))

/-- Two digits come next. -/
def Digits (cs : List Char) : Prop := ∃ a b r, cs = a :: b :: r ∧ IsDigit a ∧ IsDigit b

/-- There is an escape somewhere. -/
def Escaped (cs : List Char) : Prop := ∃ a b, IsDigit a ∧ IsDigit b ∧ ['%', a, b] <:+: cs

inductive Row : List Char → Prop where
  | nil : Row []
  | escape {a b : Char} {cs : List Char} (ha : IsDigit a) (hb : IsDigit b) (row : Row cs) :
      Row ('%' :: a :: b :: cs)
  | char {c : Char} {cs : List Char} (alone : c = '%' → ¬ Digits cs) (row : Row cs) : Row (c :: cs)

theorem row (cs : List Char) : Row cs := by
  induction hn : cs.length using Nat.strongRecOn generalizing cs with
  | _ n ih =>
    cases cs with
    | nil => exact .nil
    | cons c cs =>
      simp only [List.length_cons] at hn
      by_cases hescape : c = '%' ∧ Digits cs
      · obtain ⟨rfl, a, b, r, rfl, ha, hb⟩ := hescape
        simp only [List.length_cons] at hn
        exact .escape ha hb (ih r.length (by omega) r rfl)
      · exact .char (fun hc hd => hescape ⟨hc, hd⟩) (ih cs.length (by omega) cs rfl)

/-! ## digits and bytes -/

theorem lt_of_isDigit {c : Char} (h : IsDigit c) : c.toNat < 128 := by
  simp only [IsDigit, Hex.value?] at h
  split at h
  · omega
  split at h
  · omega
  split at h
  · omega
  · cases h

theorem value?_capital {n : Nat} (h : n < 16) : Hex.value? (Hex.capital n) = some n := by
  interval_cases n <;> decide

theorem encode_ascii {c : Char} (h : c.toNat < 128) :
    String.utf8EncodeChar c = [.ofNat c.toNat] := by
  rw [Utf8.encode_eq, if_pos (by omega)]

theorem toNat_ofNat_ascii {c : Char} (h : c.toNat < 128) : (UInt8.ofNat c.toNat).toNat = c.toNat := by
  rw [UInt8.toNat_ofNat']
  omega

/-- No byte of a longer encoding is ASCII. -/
theorem le_of_mem_encode {c : Char} (h : 128 ≤ c.toNat) :
    ∀ x ∈ String.utf8EncodeChar c, 128 ≤ x.toNat := by
  have hbyte {n : Nat} (hlow : 128 ≤ n) (hhigh : n < 256) : 128 ≤ (UInt8.ofNat n).toNat := by
    rw [UInt8.toNat_ofNat']
    omega
  have hmax : c.toNat < 1114112 := Utf8.toNat_lt c
  rw [Utf8.encode_eq, if_neg (by omega)]
  intro x hx
  split at hx
  · simp only [List.mem_cons, List.not_mem_nil, or_false] at hx
    rcases hx with rfl | rfl <;> exact hbyte (by omega) (by omega)
  split at hx
  · simp only [List.mem_cons, List.not_mem_nil, or_false] at hx
    rcases hx with rfl | rfl | rfl <;> exact hbyte (by omega) (by omega)
  · simp only [List.mem_cons, List.not_mem_nil, or_false] at hx
    rcases hx with rfl | rfl | rfl | rfl <;> exact hbyte (by omega) (by omega)

/-- A character that starts with an ASCII byte is that byte. -/
theorem eq_of_encoded_cons {cs : List Char} {x : UInt8} {r : List UInt8}
    (h : encoded cs = x :: r) (hx : x.toNat < 128) :
    ∃ cs', cs = Char.ofNat x.toNat :: cs' ∧ r = encoded cs' := by
  cases cs with
  | nil => cases h
  | cons c cs =>
    rw [encoded, List.flatMap_cons] at h
    by_cases hc : c.toNat < 128
    · rw [encode_ascii hc] at h
      obtain ⟨rfl, rfl⟩ := List.cons.inj h
      exact ⟨cs, by rw [toNat_ofNat_ascii hc, Char.ofNat_toNat], rfl⟩
    · obtain ⟨y, ys, hy, -⟩ := Utf8.leading?_encode c []
      have hle := le_of_mem_encode (by omega) y (hy ▸ List.mem_cons_self)
      rw [hy, List.cons_append] at h
      obtain ⟨rfl, -⟩ := List.cons.inj h
      omega

/-! ## along a row -/

theorem byte?_isSome {a b : UInt8} (h : (byte? a b).isSome) :
    IsDigit (Char.ofNat a.toNat) ∧ IsDigit (Char.ofNat b.toNat) := by
  unfold byte? at h
  simp only [IsDigit]
  cases ha : Hex.value? (Char.ofNat a.toNat) <;> cases hb : Hex.value? (Char.ofNat b.toNat) <;>
    simp_all

theorem toNat_lt_of_isDigit {x : UInt8} (h : IsDigit (Char.ofNat x.toNat)) : x.toNat < 128 := by
  have hx := x.toNat_lt
  have hof : (Char.ofNat x.toNat).toNat = x.toNat := by
    rw [Char.ofNat, dif_pos (.inl (by omega))]
    rfl
  exact hof ▸ lt_of_isDigit h

theorem byte?_encoded {cs : List Char} (h : ¬ Digits cs) {a b : UInt8} {r : List UInt8}
    (hr : encoded cs = a :: b :: r) : byte? a b = none := by
  rw [Option.eq_none_iff_forall_not_mem]
  intro x hx
  obtain ⟨ha, hb⟩ := byte?_isSome (Option.isSome_iff_exists.mpr ⟨x, hx⟩)
  obtain ⟨cs, rfl, hcs⟩ := eq_of_encoded_cons hr (toNat_lt_of_isDigit ha)
  obtain ⟨cs', rfl, -⟩ := eq_of_encoded_cons hcs.symm (toNat_lt_of_isDigit hb)
  exact h ⟨_, _, _, rfl, ha, hb⟩

theorem decodeBytes_alone {x : UInt8} {r : List UInt8}
    (h : x = 0x25 → ∀ a b t, r = a :: b :: t → byte? a b = none) :
    decodeBytes (x :: r) = x :: decodeBytes r := by
  by_cases hx : x = 0x25
  · subst hx
    rcases r with _ | ⟨a, _ | ⟨b, t⟩⟩
    · rfl
    · rfl
    · rw [decodeBytes, h rfl a b t rfl]
  · exact decodeBytes.eq_3 _ _ (fun a b t h' _ => hx h')

theorem decodeBytes_append {xs : List UInt8} (h : ∀ x ∈ xs, x ≠ 0x25) (r : List UInt8) :
    decodeBytes (xs ++ r) = xs ++ decodeBytes r := by
  induction xs with
  | nil => rfl
  | cons x xs ih =>
    rw [List.cons_append, decodeBytes_alone (fun hx => absurd hx (h x List.mem_cons_self)),
      ih fun y hy => h y (List.mem_cons_of_mem _ hy), List.cons_append]

theorem read_cons {c : Char} {cs : List Char} (h : c = '%' → ¬ Digits cs) :
    read (c :: cs) = String.utf8EncodeChar c ++ read cs := by
  rw [read, encoded, List.flatMap_cons]
  by_cases hc : c = '%'
  · subst hc
    exact decodeBytes_alone fun _ a b t ht => byte?_encoded (h rfl) ht
  · refine decodeBytes_append (fun x hx hpercent => ?_) _
    subst hpercent
    by_cases hlt : c.toNat < 128
    · rw [encode_ascii hlt, List.mem_singleton] at hx
      have hnat := toNat_ofNat_ascii hlt
      rw [← hx] at hnat
      exact hc (Char.toNat_inj.mp hnat.symm)
    · exact absurd (le_of_mem_encode (by omega) _ hx) (by decide)

theorem encoded_escape {a b : Char} (ha : a.toNat < 128) (hb : b.toNat < 128) (cs : List Char) :
    encoded ('%' :: a :: b :: cs) = 0x25 :: .ofNat a.toNat :: .ofNat b.toNat :: encoded cs := by
  simp only [encoded, List.flatMap_cons, encode_ascii ha, encode_ascii hb]
  rfl

theorem read_escape {a b : Char} {x y : Nat} (ha : Hex.value? a = some x) (hb : Hex.value? b = some y)
    (cs : List Char) : read ('%' :: a :: b :: cs) = .ofNat (x * 16 + y) :: read cs := by
  have hla : a.toNat < 128 := lt_of_isDigit (Option.isSome_iff_exists.mpr ⟨x, ha⟩)
  have hlb : b.toNat < 128 := lt_of_isDigit (Option.isSome_iff_exists.mpr ⟨y, hb⟩)
  have hbyte : byte? (.ofNat a.toNat) (.ofNat b.toNat) = some (.ofNat (x * 16 + y)) := by
    rw [byte?, toNat_ofNat_ascii hla, toNat_ofNat_ascii hlb, Char.ofNat_toNat, Char.ofNat_toNat, ha, hb]
    rfl
  rw [read, encoded_escape hla hlb, decodeBytes, hbyte]
  rfl

/-! ## encoding -/

theorem read_ofByte (bs : List UInt8) (cs : List Char) :
    read (bs.flatMap ofByte ++ cs) = bs ++ read cs := by
  induction bs with
  | nil => rfl
  | cons b bs ih =>
    have hb := b.toNat_lt
    have hbyte : UInt8.ofNat (b.toNat / 16 * 16 + b.toNat % 16) = b := by
      rw [Nat.div_add_mod', UInt8.ofNat_toNat]
    rw [List.flatMap_cons, ofByte, List.append_assoc]
    show read ('%' :: _ :: _ :: (bs.flatMap ofByte ++ cs)) = _
    rw [read_escape (value?_capital (by omega)) (value?_capital (by omega)), hbyte, ih,
      List.cons_append]

section
variable {keep : Char → Bool}

/-- What is written out starts with a percent sign, which is no digit. -/
theorem encode_eq_cons {cs r : List Char} {a : Char} (h : encode keep cs = a :: r) (ha : IsDigit a) :
    ∃ cs', cs = a :: cs' ∧ encode keep cs' = r := by
  cases cs with
  | nil => cases h
  | cons c cs =>
    rw [encode, List.flatMap_cons] at h
    split at h
    · obtain ⟨rfl, hr⟩ := List.cons.inj h
      exact ⟨cs, rfl, hr⟩
    · obtain ⟨x, xs, hx, -⟩ := Utf8.leading?_encode c []
      rw [hx, List.flatMap_cons, ofByte] at h
      obtain ⟨rfl, -⟩ := List.cons.inj h
      cases ha

theorem digits_encode {cs : List Char} (h : Digits (encode keep cs)) : Digits cs := by
  obtain ⟨a, b, r, hr, ha, hb⟩ := h
  obtain ⟨cs', rfl, hrest⟩ := encode_eq_cons hr ha
  obtain ⟨cs'', rfl, -⟩ := encode_eq_cons hrest hb
  exact ⟨a, b, cs'', rfl, ha, hb⟩

theorem read_encode (hpercent : keep '%' = true) (hdigit : ∀ c, IsDigit c → keep c = true)
    (cs : List Char) : read (encode keep cs) = read cs := by
  induction row cs with
  | nil => rfl
  | @escape a b cs ha hb _ ih =>
    obtain ⟨x, hx⟩ := Option.isSome_iff_exists.mp ha
    obtain ⟨y, hy⟩ := Option.isSome_iff_exists.mp hb
    have hencode : encode keep ('%' :: a :: b :: cs) = '%' :: a :: b :: encode keep cs := by
      simp only [encode, List.flatMap_cons, hpercent, hdigit a ha, hdigit b hb, if_true,
        List.cons_append, List.nil_append]
    rw [hencode, read_escape hx hy, read_escape hx hy, ih]
  | @char c cs alone _ ih =>
    rw [read_cons alone, encode, List.flatMap_cons]
    split
    · rw [List.singleton_append]
      exact (read_cons fun hc hd => alone hc (digits_encode hd)).trans (congrArg _ ih)
    · exact (read_ofByte _ _).trans (congrArg _ ih)

end

/-! ## how much a text stands for -/

theorem escaped_cons_iff {c : Char} {cs : List Char} (alone : c = '%' → ¬ Digits cs) :
    Escaped (c :: cs) ↔ Escaped cs := by
  constructor
  · rintro ⟨a, b, ha, hb, h⟩
    rcases List.infix_cons_iff.mp h with h | h
    · obtain ⟨rfl, r, rfl⟩ := List.cons_prefix_cons.mp h
      exact absurd ⟨a, b, r, rfl, ha, hb⟩ (alone rfl)
    · exact ⟨a, b, ha, hb, h⟩
  · rintro ⟨a, b, ha, hb, h⟩
    exact ⟨a, b, ha, hb, h.trans (List.suffix_cons c cs).isInfix⟩

theorem length_read_escape {a b : Char} (ha : IsDigit a) (hb : IsDigit b) (cs : List Char) :
    (read ('%' :: a :: b :: cs)).length + 2 + (encoded cs).length
      = (encoded ('%' :: a :: b :: cs)).length + (read cs).length := by
  obtain ⟨x, hx⟩ := Option.isSome_iff_exists.mp ha
  obtain ⟨y, hy⟩ := Option.isSome_iff_exists.mp hb
  rw [read_escape hx hy, encoded_escape (lt_of_isDigit ha) (lt_of_isDigit hb)]
  simp only [List.length_cons]
  omega

theorem length_read_cons {c : Char} {cs : List Char} (alone : c = '%' → ¬ Digits cs) :
    (read (c :: cs)).length + (encoded cs).length = (encoded (c :: cs)).length + (read cs).length := by
  rw [read_cons alone]
  simp only [encoded, List.flatMap_cons, List.length_append]
  omega

theorem length_read_le (cs : List Char) : (read cs).length ≤ (encoded cs).length := by
  induction row cs with
  | nil => exact Nat.le_refl _
  | @escape a b cs ha hb _ ih =>
    have hlength := length_read_escape ha hb cs
    omega
  | @char c cs alone _ ih =>
    have hlength := length_read_cons alone
    omega

theorem length_read_lt {cs : List Char} (h : Escaped cs) :
    (read cs).length < (encoded cs).length := by
  induction row cs with
  | nil =>
    obtain ⟨a, b, -, -, h⟩ := h
    cases List.infix_nil.mp h
  | @escape a b cs ha hb _ _ =>
    have hlength := length_read_escape ha hb cs
    have hle := length_read_le cs
    omega
  | @char c cs alone _ ih =>
    have hlength := length_read_cons alone
    have hlt := ih ((escaped_cons_iff alone).mp h)
    omega

theorem read_eq {cs : List Char} (h : ¬ Escaped cs) : read cs = encoded cs := by
  induction row cs with
  | nil => rfl
  | @escape a b cs ha hb _ _ => exact absurd ⟨a, b, ha, hb, [], cs, rfl⟩ h
  | @char c cs alone _ ih =>
    rw [read_cons alone, ih (mt (escaped_cons_iff alone).mpr h)]
    rfl

theorem not_escaped {cs : List Char} (h : '%' ∉ cs) : ¬ Escaped cs := by
  rintro ⟨a, b, -, -, hin⟩
  exact h (hin.subset List.mem_cons_self)

theorem encoded_inj {cs ds : List Char} (h : encoded cs = encoded ds) : cs = ds := by
  have hsymbols := congrArg Utf8.symbols h
  rw [encoded, encoded, Utf8.symbols_flatMap_encode, Utf8.symbols_flatMap_encode] at hsymbols
  exact (List.map_inj_right fun _ _ => Symbol.char.inj).mp hsymbols

/-- Part of a text does not stand for all of it, unless it is the whole and has no escape. -/
theorem eq_of_sublist {cs ds : List Char} (hsub : cs.Sublist ds) (h : encoded ds = read cs) :
    cs = ds ∧ ¬ Escaped cs := by
  have hencoded : (encoded cs).Sublist (encoded ds) := hsub.flatMap _
  have hlength : (encoded ds).length = (read cs).length := congrArg List.length h
  have hle := hencoded.length_le
  refine ⟨encoded_inj (hencoded.eq_of_length_le ?_), fun hescaped => ?_⟩
  · have := length_read_le cs
    omega
  · have := length_read_lt hescaped
    omega

end HazardDispatch.Percent
