import HazardDispatch.Text.Base64

/-!
# Base64 text is read back, and no other text is read

Reading undoes writing, group by group: the letters of a group are its sextets, and these hold the
bits of its bytes. A full group is told from a padded one by its letters, none of which is `=`.

Writing undoes reading too (`encode_of_decode`), so a text that is read at all is the written form of
its bytes. `Canonical` says which texts these are without reading or writing one.
-/

namespace HazardDispatch.Base64

theorem sextet?_letter {n : Nat} (h : n < 64) : sextet? (letter n) = some n := by
  decide +revert

theorem letter_ne_pad {n : Nat} (h : n < 64) : letter n ≠ '=' := by
  decide +revert

/-- Letters of the alphabet are read as a full group, whatever follows. -/
theorem decode_group {x y z w : Nat} (hx : x < 64) (hy : y < 64) (hz : z < 64) (hw : w < 64)
    (t : List Char) :
    decode (letter x :: letter y :: letter z :: letter w :: t)
      = (decode t).map fun rest => .ofNat (x * 4 + y / 16) :: .ofNat (y % 16 * 16 + z / 4) ::
          .ofNat (z % 4 * 64 + w) :: rest := by
  have hpad : letter w ≠ '=' := letter_ne_pad hw
  rw [decode]
  · simp only [sextet?_letter hx, sextet?_letter hy, sextet?_letter hz, sextet?_letter hw,
      Option.bind_eq_bind, Option.bind_some]
    cases decode t <;> rfl
  · exact fun _ heq _ => hpad heq
  · exact fun heq _ => hpad heq

theorem byte_of_toNat {a : UInt8} {n : Nat} (h : n = a.toNat) : UInt8.ofNat n = a := by
  rw [h, UInt8.ofNat_toNat]

theorem decode_encode (bs : List UInt8) : decode (encode bs) = some bs := by
  induction bs using encode.induct with
  | case1 => rfl
  | case2 a =>
    have ha := a.toNat_lt
    rw [encode, decode, sextet?_letter (by omega), sextet?_letter (by omega)]
    have hzero : a.toNat % 4 * 16 % 16 = 0 := by omega
    simp only [Option.bind_eq_bind, Option.bind_some, hzero, if_true]
    rw [byte_of_toNat (a := a) (by omega)]
  | case3 a b =>
    have ha := a.toNat_lt
    have hb := b.toNat_lt
    rw [encode, decode, sextet?_letter (by omega), sextet?_letter (by omega),
      sextet?_letter (by omega)]
    · have hzero : b.toNat % 16 * 4 % 4 = 0 := by omega
      simp only [Option.bind_eq_bind, Option.bind_some, hzero, if_true]
      rw [byte_of_toNat (a := a) (by omega), byte_of_toNat (a := b) (by omega)]
    · exact fun heq => letter_ne_pad (by omega) heq
  | case4 a b c r ih =>
    have ha := a.toNat_lt
    have hb := b.toNat_lt
    have hc := c.toNat_lt
    rw [encode, decode_group (by omega) (by omega) (by omega) (by omega), ih, Option.map_some,
      byte_of_toNat (a := a) (by omega), byte_of_toNat (a := b) (by omega),
      byte_of_toNat (a := c) (by omega)]

/-! ## writing what was read -/

theorem letter_of_sextet? {c : Char} {n : Nat} (h : sextet? c = some n) :
    n < 64 ∧ letter n = c := by
  have hofNat : Char.ofNat c.toNat = c := Char.ofNat_toNat c
  unfold sextet? at h
  dsimp only at h
  split at h
  · obtain rfl := Option.some.inj h
    refine ⟨by omega, ?_⟩
    rw [letter, if_pos (by omega), show 65 + (c.toNat - 65) = c.toNat by omega, hofNat]
  split at h
  · obtain rfl := Option.some.inj h
    refine ⟨by omega, ?_⟩
    rw [letter, if_neg (by omega), if_pos (by omega),
      show 97 + (c.toNat - 97 + 26 - 26) = c.toNat by omega, hofNat]
  split at h
  · obtain rfl := Option.some.inj h
    refine ⟨by omega, ?_⟩
    rw [letter, if_neg (by omega), if_neg (by omega), if_pos (by omega),
      show 48 + (c.toNat - 48 + 52 - 52) = c.toNat by omega, hofNat]
  split at h
  · next hc =>
    obtain rfl := Option.some.inj h
    exact ⟨by omega, hc.symm⟩
  split at h
  · next hc =>
    obtain rfl := Option.some.inj h
    exact ⟨by omega, hc.symm⟩
  · cases h

/-! The bytes that are put together from sextets. -/

section
variable {x y z w : Nat}

theorem toNat_first (hx : x < 64) (hy : y < 64) :
    (UInt8.ofNat (x * 4 + y / 16)).toNat = x * 4 + y / 16 :=
  UInt8.toNat_ofNat_of_lt' (show x * 4 + y / 16 < 256 by omega)

theorem toNat_second (hz : z < 64) :
    (UInt8.ofNat (y % 16 * 16 + z / 4)).toNat = y % 16 * 16 + z / 4 :=
  UInt8.toNat_ofNat_of_lt' (show y % 16 * 16 + z / 4 < 256 by omega)

theorem toNat_third (hw : w < 64) : (UInt8.ofNat (z % 4 * 64 + w)).toNat = z % 4 * 64 + w :=
  UInt8.toNat_ofNat_of_lt' (show z % 4 * 64 + w < 256 by omega)

theorem encode_one (hx : x < 64) (hy : y < 64) (hzero : y % 16 = 0) :
    encode [.ofNat (x * 4 + y / 16)] = [letter x, letter y, '=', '='] := by
  have hp : (x * 4 + y / 16) / 4 = x := by omega
  have hq : (x * 4 + y / 16) % 4 * 16 = y := by omega
  rw [encode, toNat_first hx hy, hp, hq]

theorem encode_two (hx : x < 64) (hy : y < 64) (hz : z < 64) (hzero : z % 4 = 0) :
    encode [.ofNat (x * 4 + y / 16), .ofNat (y % 16 * 16 + z / 4)]
      = [letter x, letter y, letter z, '='] := by
  have hp : (x * 4 + y / 16) / 4 = x := by omega
  have hq : (x * 4 + y / 16) % 4 * 16 + (y % 16 * 16 + z / 4) / 16 = y := by omega
  have hr : (y % 16 * 16 + z / 4) % 16 * 4 = z := by omega
  rw [encode, toNat_first hx hy, toNat_second hz, hp, hq, hr]

theorem encode_three (hx : x < 64) (hy : y < 64) (hz : z < 64) (hw : w < 64) (bs : List UInt8) :
    encode (.ofNat (x * 4 + y / 16) :: .ofNat (y % 16 * 16 + z / 4) :: .ofNat (z % 4 * 64 + w) :: bs)
      = letter x :: letter y :: letter z :: letter w :: encode bs := by
  have hp : (x * 4 + y / 16) / 4 = x := by omega
  have hq : (x * 4 + y / 16) % 4 * 16 + (y % 16 * 16 + z / 4) / 16 = y := by omega
  have hr : (y % 16 * 16 + z / 4) % 16 * 4 + (z % 4 * 64 + w) / 64 = z := by omega
  have hs : (z % 4 * 64 + w) % 64 = w := by omega
  rw [encode, toNat_first hx hy, toNat_second hz, toNat_third hw, hp, hq, hr, hs]

end

theorem encode_of_decode {cs : List Char} {bs : List UInt8} (h : decode cs = some bs) :
    encode bs = cs := by
  induction cs using decode.induct generalizing bs with
  | case1 =>
    obtain rfl := Option.some.inj h
    rfl
  | case2 p q =>
    simp only [decode, Option.bind_eq_bind, Option.bind_eq_some_iff] at h
    obtain ⟨x, hp, y, hq, h⟩ := h
    obtain ⟨hx, rfl⟩ := letter_of_sextet? hp
    obtain ⟨hy, rfl⟩ := letter_of_sextet? hq
    split at h
    · next hzero =>
      obtain rfl := Option.some.inj h
      exact encode_one hx hy hzero
    · cases h
  | case3 p q r hpad =>
    rw [decode.eq_3 p q r hpad] at h
    simp only [Option.bind_eq_bind, Option.bind_eq_some_iff] at h
    obtain ⟨x, hp, y, hq, z, hr, h⟩ := h
    obtain ⟨hx, rfl⟩ := letter_of_sextet? hp
    obtain ⟨hy, rfl⟩ := letter_of_sextet? hq
    obtain ⟨hz, rfl⟩ := letter_of_sextet? hr
    split at h
    · next hzero =>
      obtain rfl := Option.some.inj h
      exact encode_two hx hy hz hzero
    · cases h
  | case4 p q r s t hpads hpad ih =>
    rw [decode.eq_4 p q r s t hpads hpad] at h
    simp only [Option.bind_eq_bind, Option.bind_eq_some_iff] at h
    obtain ⟨x, hp, y, hq, z, hr, w, hs, rest, hrest, h⟩ := h
    obtain rfl := Option.some.inj h
    obtain ⟨hx, rfl⟩ := letter_of_sextet? hp
    obtain ⟨hy, rfl⟩ := letter_of_sextet? hq
    obtain ⟨hz, rfl⟩ := letter_of_sextet? hr
    obtain ⟨hw, rfl⟩ := letter_of_sextet? hs
    rw [encode_three hx hy hz hw, ih hrest]
  | case5 t hnil hone htwo hthree =>
    rw [decode.eq_5 t hnil hone htwo hthree] at h
    cases h

/-! ## the texts that are read -/

/-- Whole groups of four: letters, then at most two `=`. Each `=` leaves two bits of the last letter
over, and these are zero. -/
structure Canonical (cs : List Char) : Prop where
  groups : cs.length % 4 = 0
  spelled : ∃ ls pads, cs = ls ++ List.replicate pads '=' ∧ pads ≤ 2 ∧
    (∀ c ∈ ls, ∃ n, sextet? c = some n) ∧ ∀ n, ls.getLast?.bind sextet? = some n → n % Nat.pow 4 pads = 0

theorem mem_letters {ns : List Nat} (h : ∀ n ∈ ns, n < 64) :
    ∀ c ∈ ns.map letter, ∃ n, sextet? c = some n := by
  intro c hc
  obtain ⟨n, hn, rfl⟩ := List.mem_map.mp hc
  exact ⟨n, sextet?_letter (h n hn)⟩

theorem canonical_encode (bs : List UInt8) : Canonical (encode bs) := by
  induction bs using encode.induct with
  | case1 => exact ⟨rfl, [], 0, rfl, by decide, by simp, by simp⟩
  | case2 a =>
    have ha := a.toNat_lt
    refine ⟨by simp [encode], [a.toNat / 4, a.toNat % 4 * 16].map letter, 2, rfl, by decide,
      mem_letters (by simp; omega), fun n hn => ?_⟩
    obtain rfl : a.toNat % 4 * 16 = n := by
      simpa [sextet?_letter (show a.toNat % 4 * 16 < 64 by omega)] using hn
    show a.toNat % 4 * 16 % 16 = 0
    omega
  | case3 a b =>
    have ha := a.toNat_lt
    have hb := b.toNat_lt
    refine ⟨by simp [encode],
      [a.toNat / 4, a.toNat % 4 * 16 + b.toNat / 16, b.toNat % 16 * 4].map letter, 1, rfl,
      by decide, mem_letters (by simp; omega), fun n hn => ?_⟩
    obtain rfl : b.toNat % 16 * 4 = n := by
      simpa [sextet?_letter (show b.toNat % 16 * 4 < 64 by omega)] using hn
    show b.toNat % 16 * 4 % 4 = 0
    omega
  | case4 a b c r ih =>
    have ha := a.toNat_lt
    have hb := b.toNat_lt
    have hc := c.toNat_lt
    obtain ⟨hgroups, ls, pads, hspelled, hpads, hls, hlast⟩ := ih
    let group := [a.toNat / 4, a.toNat % 4 * 16 + b.toNat / 16,
      b.toNat % 16 * 4 + c.toNat / 64, c.toNat % 64].map letter
    have hencode : encode (a :: b :: c :: r) = group ++ encode r := rfl
    have hgroup : ∀ l ∈ group, ∃ n, sextet? l = some n := mem_letters (by simp; omega)
    refine ⟨by rw [hencode, List.length_append]; simp [group]; omega, group ++ ls, pads,
      by rw [hencode, hspelled, List.append_assoc], hpads, ?_, ?_⟩
    · intro l hl
      rcases List.mem_append.mp hl with hl | hl
      · exact hgroup l hl
      · exact hls l hl
    · intro n hn
      cases ls with
      | nil =>
        have hzero : pads = 0 := by
          rw [hspelled] at hgroups
          simp at hgroups
          omega
        rw [hzero]
        exact Nat.mod_one n
      | cons l ls =>
        refine hlast n ?_
        rwa [List.getLast?_append, List.getLast?_cons, Option.some_or, ← List.getLast?_cons] at hn

theorem decode_padded : ∀ (ls : List Char) (pads : Nat), (ls.length + pads) % 4 = 0 → pads ≤ 2 →
    (∀ c ∈ ls, ∃ n, sextet? c = some n) →
    (∀ n, ls.getLast?.bind sextet? = some n → n % Nat.pow 4 pads = 0) →
    ∃ bs, decode (ls ++ List.replicate pads '=') = some bs
  | [], pads, hgroups, hpads, _, _ => by
    obtain rfl : pads = 0 := by simp at hgroups; omega
    exact ⟨[], rfl⟩
  | [_], pads, hgroups, hpads, _, _ => by
    simp at hgroups
    omega
  | [p, q], pads, hgroups, hpads, hls, hlast => by
    obtain rfl : pads = 2 := by simp at hgroups; omega
    obtain ⟨x, hx⟩ := hls p (by simp)
    obtain ⟨y, hy⟩ := hls q (by simp)
    have hzero : y % 16 = 0 := hlast y hy
    refine ⟨[.ofNat (x * 4 + y / 16)], ?_⟩
    show decode [p, q, '=', '='] = _
    simp [decode, hx, hy, hzero]
  | [p, q, r], pads, hgroups, hpads, hls, hlast => by
    obtain rfl : pads = 1 := by simp at hgroups; omega
    obtain ⟨x, hx⟩ := hls p (by simp)
    obtain ⟨y, hy⟩ := hls q (by simp)
    obtain ⟨z, hz⟩ := hls r (by simp)
    have hzero : z % 4 = 0 := hlast z hz
    have hr : r ≠ '=' := by
      rintro rfl
      cases hz
    refine ⟨[.ofNat (x * 4 + y / 16), .ofNat (y % 16 * 16 + z / 4)], ?_⟩
    show decode [p, q, r, '='] = _
    rw [decode.eq_3 p q r hr]
    simp [hx, hy, hz, hzero]
  | p :: q :: r :: s :: ls, pads, hgroups, hpads, hls, hlast => by
    obtain ⟨x, hp⟩ := hls p (by simp)
    obtain ⟨y, hq⟩ := hls q (by simp)
    obtain ⟨z, hr⟩ := hls r (by simp)
    obtain ⟨w, hs⟩ := hls s (by simp)
    obtain ⟨hx, rfl⟩ := letter_of_sextet? hp
    obtain ⟨hy, rfl⟩ := letter_of_sextet? hq
    obtain ⟨hz, rfl⟩ := letter_of_sextet? hr
    obtain ⟨hw, rfl⟩ := letter_of_sextet? hs
    obtain ⟨bs, hbs⟩ := decode_padded ls pads (by simp at hgroups; omega) hpads
      (fun c hc => hls c (by simp [hc])) fun n hn => by
        cases ls with
        | nil => cases hn
        | cons l ls =>
          refine hlast n ?_
          rwa [List.getLast?_cons_cons, List.getLast?_cons_cons, List.getLast?_cons_cons,
            List.getLast?_cons_cons]
    show ∃ bs, decode (letter x :: letter y :: letter z :: letter w ::
      (ls ++ List.replicate pads '=')) = some bs
    rw [decode_group hx hy hz hw, hbs]
    exact ⟨_, rfl⟩

/-- What is read are the canonical texts. -/
theorem exists_decode_iff (cs : List Char) : (∃ bs, decode cs = some bs) ↔ Canonical cs := by
  constructor
  · rintro ⟨bs, h⟩
    rw [← encode_of_decode h]
    exact canonical_encode bs
  · rintro ⟨hgroups, ls, pads, rfl, hpads, hls, hlast⟩
    rw [List.length_append, List.length_replicate] at hgroups
    exact decode_padded ls pads hgroups hpads hls hlast

end HazardDispatch.Base64
