import HazardDispatch.Text.Utf8

/-!
# What is written in UTF-8 reads back

The bytes of a text are read as its characters, none of them stray (`symbols_bytes`). A character is
encoded in one to four bytes; for each length the first byte rules out the shorter readings. Nothing
else is read as a text: bytes that spell one are those it is written in (`text?_eq_some_iff`).
-/

namespace HazardDispatch.Utf8

theorem scalar?_toNat {c : Char} {least : Nat} (h : least ≤ c.toNat) :
    scalar? least c.toNat = some c := by
  have hvalid : c.toNat.isValidChar := c.valid
  rw [scalar?, dif_pos hvalid, if_pos h]
  rfl

theorem toNat_lt (c : Char) : c.toNat < 1114112 := by
  have hvalid : c.toNat.isValidChar := c.valid
  unfold Nat.isValidChar at hvalid
  omega

theorem tail?_toNat {n : Nat} (h : n < 64) : tail? (.ofNat (n + 128)) = some n := by
  have hn : (UInt8.ofNat (n + 128)).toNat = n + 128 := by
    rw [UInt8.toNat_ofNat']
    omega
  rw [tail?, hn, if_pos (by omega), Nat.add_sub_cancel]

/-! ## one character -/

section
variable {a b c d : UInt8} {x : Char} {r : List UInt8}

theorem leading?_of_one (h : one? a = some x) : leading? a r = some (x, 0) := by
  unfold leading?
  rw [h]

theorem leading?_of_two (h1 : one? a = none) (h : two? a b = some x) :
    leading? a (b :: r) = some (x, 1) := by
  unfold leading?
  rw [h1]
  match r with
  | [] => simp only [h, Option.map_some]
  | [c] => simp only [h, Option.map_some]; rfl
  | c :: d :: r => simp only [h, Option.map_some]; rfl

theorem leading?_of_three (h1 : one? a = none) (h2 : two? a b = none)
    (h : three? a b c = some x) : leading? a (b :: c :: r) = some (x, 2) := by
  unfold leading?
  rw [h1]
  match r with
  | [] => simp only [h2, h, Option.map_none, Option.map_some]; rfl
  | d :: r => simp only [h2, h, Option.map_none, Option.map_some]; rfl

theorem leading?_of_four (h1 : one? a = none) (h2 : two? a b = none) (h3 : three? a b c = none)
    (h : four? a b c d = some x) : leading? a (b :: c :: d :: r) = some (x, 3) := by
  unfold leading?
  rw [h1]
  simp only [h2, h3, h, Option.map_none, Option.map_some]
  rfl

end

/-- The first byte of a longer encoding, `base` and the upper bits of the character. -/
theorem toNat_first (base n : Nat) (h : base + n < 256) :
    (UInt8.ofNat (n + base)).toNat = base + n := by
  rw [UInt8.toNat_ofNat']
  omega

theorem one?_of_le {a : UInt8} (h : 128 ≤ a.toNat) : one? a = none :=
  if_neg (Nat.not_lt.mpr h)

theorem two?_of_le {a : UInt8} (b : UInt8) (h : 224 ≤ a.toNat) : two? a b = none :=
  if_neg fun hc => Nat.not_lt.mpr h hc.2

theorem three?_of_le {a : UInt8} (b c : UInt8) (h : 240 ≤ a.toNat) : three? a b c = none :=
  if_neg fun hc => Nat.not_lt.mpr h hc.2

theorem one?_encoded {c : Char} (h : c.toNat < 128) : one? (.ofNat c.toNat) = some c := by
  have ha : (UInt8.ofNat c.toNat).toNat = c.toNat := by
    rw [UInt8.toNat_ofNat']
    omega
  rw [one?, ha, if_pos h, scalar?_toNat (Nat.zero_le _)]

theorem two?_encoded {c : Char} (hlow : 128 ≤ c.toNat) (hhigh : c.toNat < 2048) :
    two? (.ofNat (c.toNat / 64 % 32 + 192)) (.ofNat (c.toNat % 64 + 128)) = some c := by
  have ha := toNat_first 192 (c.toNat / 64 % 32) (by omega)
  have hsum : (192 + c.toNat / 64 % 32 - 192) * 64 + c.toNat % 64 = c.toNat := by omega
  rw [two?, ha, if_pos (by omega), tail?_toNat (by omega), Option.bind_some, hsum,
    scalar?_toNat hlow]

theorem three?_encoded {c : Char} (hlow : 2048 ≤ c.toNat) (hhigh : c.toNat < 65536) :
    three? (.ofNat (c.toNat / 4096 % 16 + 224)) (.ofNat (c.toNat / 64 % 64 + 128))
      (.ofNat (c.toNat % 64 + 128)) = some c := by
  have ha := toNat_first 224 (c.toNat / 4096 % 16) (by omega)
  have hsum : (224 + c.toNat / 4096 % 16 - 224) * 4096 + c.toNat / 64 % 64 * 64 + c.toNat % 64
      = c.toNat := by omega
  rw [three?, ha, if_pos (by omega), tail?_toNat (by omega), Option.bind_some,
    tail?_toNat (by omega), Option.bind_some, hsum, scalar?_toNat hlow]

theorem four?_encoded {c : Char} (hlow : 65536 ≤ c.toNat) :
    four? (.ofNat (c.toNat / 262144 % 8 + 240)) (.ofNat (c.toNat / 4096 % 64 + 128))
      (.ofNat (c.toNat / 64 % 64 + 128)) (.ofNat (c.toNat % 64 + 128)) = some c := by
  have hmax := toNat_lt c
  have ha := toNat_first 240 (c.toNat / 262144 % 8) (by omega)
  have hsum : (240 + c.toNat / 262144 % 8 - 240) * 262144 + c.toNat / 4096 % 64 * 4096
      + c.toNat / 64 % 64 * 64 + c.toNat % 64 = c.toNat := by omega
  rw [four?, ha, if_pos (by omega), tail?_toNat (by omega), Option.bind_some,
    tail?_toNat (by omega), Option.bind_some, tail?_toNat (by omega), Option.bind_some, hsum,
    scalar?_toNat hlow]

theorem encode_eq (c : Char) : String.utf8EncodeChar c =
    if c.toNat ≤ 127 then [.ofNat c.toNat]
    else if c.toNat ≤ 2047 then
      [.ofNat (c.toNat / 64 % 32 + 192), .ofNat (c.toNat % 64 + 128)]
    else if c.toNat ≤ 65535 then
      [.ofNat (c.toNat / 4096 % 16 + 224), .ofNat (c.toNat / 64 % 64 + 128),
        .ofNat (c.toNat % 64 + 128)]
    else
      [.ofNat (c.toNat / 262144 % 8 + 240), .ofNat (c.toNat / 4096 % 64 + 128),
        .ofNat (c.toNat / 64 % 64 + 128), .ofNat (c.toNat % 64 + 128)] := rfl

/-- The first bytes of the longer encodings rule out the shorter readings. -/
theorem leading?_encode (c : Char) (r : List UInt8) :
    ∃ a as, String.utf8EncodeChar c = a :: as ∧ leading? a (as ++ r) = some (c, as.length) := by
  have htwo := toNat_first 192 (c.toNat / 64 % 32) (by omega)
  have hthree := toNat_first 224 (c.toNat / 4096 % 16) (by omega)
  have hfour := toNat_first 240 (c.toNat / 262144 % 8) (by omega)
  rw [encode_eq]
  split
  · exact ⟨_, _, rfl, leading?_of_one (one?_encoded (by omega))⟩
  split
  · exact ⟨_, _, rfl, leading?_of_two (one?_of_le (by omega)) (two?_encoded (by omega) (by omega))⟩
  split
  · exact ⟨_, _, rfl, leading?_of_three (one?_of_le (by omega)) (two?_of_le _ (by omega))
      (three?_encoded (by omega) (by omega))⟩
  · exact ⟨_, _, rfl, leading?_of_four (one?_of_le (by omega)) (two?_of_le _ (by omega))
      (three?_of_le _ _ (by omega)) (four?_encoded (by omega))⟩

theorem symbolsAfter_skip (as r : List UInt8) :
    symbolsAfter as.length (as ++ r) = symbolsAfter 0 r := by
  induction as with
  | nil => rfl
  | cons a as ih => exact ih

theorem symbolsAfter_encode (c : Char) (r : List UInt8) :
    symbolsAfter 0 (String.utf8EncodeChar c ++ r) = .char c :: symbolsAfter 0 r := by
  obtain ⟨a, as, hencode, hleading⟩ := leading?_encode c r
  rw [hencode, List.cons_append, symbolsAfter, hleading]
  exact congrArg (.char c :: ·) (symbolsAfter_skip as r)

/-! ## texts -/

theorem symbols_flatMap_encode (cs : List Char) :
    symbols (cs.flatMap String.utf8EncodeChar) = cs.map .char := by
  induction cs with
  | nil => rfl
  | cons c cs ih =>
    rw [List.flatMap_cons, symbols, symbolsAfter_encode, List.map_cons]
    exact congrArg (.char c :: ·) ih

theorem symbols_bytes (s : String) : symbols (bytes s) = ofText s :=
  symbols_flatMap_encode s.toList

/-! ## nothing else is a text -/

theorem toNat_of_scalar? {least n : Nat} {c : Char} (h : scalar? least n = some c) :
    c.toNat = n ∧ least ≤ n := by
  unfold scalar? at h
  by_cases hvalid : n.isValidChar
  · rw [dif_pos hvalid] at h
    by_cases hle : least ≤ n
    · rw [if_pos hle] at h
      exact ⟨Option.some.inj h ▸ rfl, hle⟩
    · rw [if_neg hle] at h
      cases h
  · rw [dif_neg hvalid] at h
    cases h

theorem toNat_of_tail? {b : UInt8} {n : Nat} (h : tail? b = some n) :
    b.toNat = n + 128 ∧ n < 64 := by
  unfold tail? at h
  by_cases hb : 0x80 ≤ b.toNat ∧ b.toNat < 0xC0
  · rw [if_pos hb, Option.some.injEq] at h
    omega
  · rw [if_neg hb] at h
    cases h

section
variable {a b c d : UInt8} {x : Char} {k : Nat} {r : List UInt8}

theorem ofNat_eq {n : Nat} (h : n = b.toNat) : UInt8.ofNat n = b := by
  rw [h, UInt8.ofNat_toNat]

theorem encode_of_one? (h : one? a = some x) : String.utf8EncodeChar x = [a] := by
  unfold one? at h
  split at h
  · obtain ⟨hx, -⟩ := toNat_of_scalar? h
    rw [encode_eq, if_pos (by omega), ofNat_eq hx]
  · cases h

theorem encode_of_two? (h : two? a b = some x) : String.utf8EncodeChar x = [a, b] := by
  unfold two? at h
  split at h
  · obtain ⟨y, hy, h⟩ := Option.bind_eq_some_iff.mp h
    obtain ⟨hb, hlt⟩ := toNat_of_tail? hy
    obtain ⟨hx, hle⟩ := toNat_of_scalar? h
    rw [encode_eq, if_neg (by omega), if_pos (by omega), ofNat_eq (b := a) (by omega),
      ofNat_eq (b := b) (by omega)]
  · cases h

theorem encode_of_three? (h : three? a b c = some x) : String.utf8EncodeChar x = [a, b, c] := by
  unfold three? at h
  split at h
  · obtain ⟨y, hy, h⟩ := Option.bind_eq_some_iff.mp h
    obtain ⟨z, hz, h⟩ := Option.bind_eq_some_iff.mp h
    obtain ⟨hb, hylt⟩ := toNat_of_tail? hy
    obtain ⟨hc, hzlt⟩ := toNat_of_tail? hz
    obtain ⟨hx, hle⟩ := toNat_of_scalar? h
    rw [encode_eq, if_neg (by omega), if_neg (by omega), if_pos (by omega),
      ofNat_eq (b := a) (by omega), ofNat_eq (b := b) (by omega), ofNat_eq (b := c) (by omega)]
  · cases h

theorem encode_of_four? (h : four? a b c d = some x) :
    String.utf8EncodeChar x = [a, b, c, d] := by
  unfold four? at h
  split at h
  · obtain ⟨y, hy, h⟩ := Option.bind_eq_some_iff.mp h
    obtain ⟨z, hz, h⟩ := Option.bind_eq_some_iff.mp h
    obtain ⟨w, hw, h⟩ := Option.bind_eq_some_iff.mp h
    obtain ⟨hb, hylt⟩ := toNat_of_tail? hy
    obtain ⟨hc, hzlt⟩ := toNat_of_tail? hz
    obtain ⟨hd, hwlt⟩ := toNat_of_tail? hw
    obtain ⟨hx, hle⟩ := toNat_of_scalar? h
    rw [encode_eq, if_neg (by omega), if_neg (by omega), if_neg (by omega),
      ofNat_eq (b := a) (by omega), ofNat_eq (b := b) (by omega), ofNat_eq (b := c) (by omega),
      ofNat_eq (b := d) (by omega)]
  · cases h

theorem leading?_cases (h : leading? a r = some (x, k)) :
    one? a = some x ∧ k = 0 ∨
    (∃ b t, r = b :: t ∧ two? a b = some x ∧ k = 1) ∨
    (∃ b c t, r = b :: c :: t ∧ three? a b c = some x ∧ k = 2) ∨
    ∃ b c d t, r = b :: c :: d :: t ∧ four? a b c d = some x ∧ k = 3 := by
  unfold leading? at h
  split at h
  · simp_all
  · cases h
  · simp at h
    grind
  · simp at h
    grind
  · simp at h
    grind

theorem encode_of_leading? (h : leading? a r = some (x, k)) :
    k ≤ r.length ∧ String.utf8EncodeChar x = a :: r.take k := by
  rcases leading?_cases h with ⟨hx, rfl⟩ | ⟨b, t, rfl, hx, rfl⟩ | ⟨b, c, t, rfl, hx, rfl⟩ |
    ⟨b, c, d, t, rfl, hx, rfl⟩
  · exact ⟨Nat.zero_le _, encode_of_one? hx⟩
  · exact ⟨by simp, by simpa using encode_of_two? hx⟩
  · exact ⟨by simp, by simpa using encode_of_three? hx⟩
  · exact ⟨by simp, by simpa using encode_of_four? hx⟩

end

theorem flatMap_encode_of_symbolsAfter {k : Nat} {bs : List UInt8} {cs : List Char}
    (hk : k ≤ bs.length) (h : symbolsAfter k bs = cs.map .char) :
    cs.flatMap String.utf8EncodeChar = bs.drop k := by
  induction k, bs using symbolsAfter.induct generalizing cs with
  | case1 k =>
    rw [symbolsAfter] at h
    simp_all
  | case2 k a r ih =>
    rw [symbolsAfter] at h
    exact ih (by simpa using hk) h
  | case3 a r x k hleading ih =>
    simp only [symbolsAfter, hleading] at h
    obtain ⟨y, cs, rfl⟩ : ∃ y cs', cs = y :: cs' := by
      cases cs with
      | nil => cases h
      | cons y cs => exact ⟨y, cs, rfl⟩
    obtain ⟨hxy, hcs⟩ := List.cons.inj h
    obtain ⟨hk, hencode⟩ := encode_of_leading? hleading
    obtain rfl := Symbol.char.inj hxy
    rw [List.flatMap_cons, hencode, ih hk hcs, List.cons_append, List.take_append_drop, List.drop_zero]
  | case4 a r hleading ih =>
    simp only [symbolsAfter, hleading] at h
    cases cs with
    | nil => cases h
    | cons y cs => cases h

theorem mapM_char? {ss : List Symbol} {cs : List Char} :
    ss.mapM Symbol.char? = some cs ↔ ss = cs.map .char := by
  induction ss generalizing cs with
  | nil => cases cs <;> simp
  | cons s ss ih =>
    cases s with
    | char c =>
      have hbind : (Symbol.char c :: ss).mapM Symbol.char? = (ss.mapM Symbol.char?).map (c :: ·) := by
        rw [List.mapM_cons]
        cases ss.mapM Symbol.char? <;> rfl
      rw [hbind]
      cases cs with
      | nil => simp
      | cons d cs =>
        simp only [Option.map_eq_some_iff, ih, List.cons.injEq, List.map_cons, Symbol.char.injEq]
        constructor
        · rintro ⟨_, hss, rfl, rfl⟩
          exact ⟨rfl, hss⟩
        · rintro ⟨rfl, hss⟩
          exact ⟨cs, hss, rfl, rfl⟩
    | stray b => cases cs <;> simp [Symbol.char?]

theorem text?_eq_some_iff {bs : List UInt8} {s : String} : text? bs = some s ↔ bytes s = bs := by
  rw [text?, Option.map_eq_some_iff]
  constructor
  · rintro ⟨cs, hcs, rfl⟩
    rw [bytes, String.toList_ofList]
    exact flatMap_encode_of_symbolsAfter (Nat.zero_le _) (mapM_char?.mp hcs)
  · rintro rfl
    exact ⟨s.toList, mapM_char?.mpr (symbols_bytes s), String.ofList_toList⟩

end HazardDispatch.Utf8
