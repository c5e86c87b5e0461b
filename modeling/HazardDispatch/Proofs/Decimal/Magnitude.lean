import HazardDispatch.Decimal.Binary64
import Mathlib.Algebra.GroupWithZero.Nat

/-!
# How large a double can be

`Below k x` says that the double `x` is finite and of absolute value below `2 ^ k`. Rounding keeps it
but for one power of two, so sums, products and quotients of such doubles are such doubles
(`Below.add`, `Below.mul`, `Below.div`), whatever their signs and last digits. What it is good for is
`Below.binary`: the exact value of such a double has a small exponent.

A double is unpacked into mantissa and exponent, computed with, rounded, and packed again; each of
these steps has its lemma.
-/

namespace HazardDispatch

open Float.Model (UnpackedFloat Format totalExponent)
open Float.Model.UnpackedFloat

namespace Magnitude

/-! ## mantissas and exponents -/

theorem total_le {m j : Nat} {e k : Int} (hm : m < 2 ^ j) (hj : 1 ≤ j) (h : j + e ≤ k) :
    totalExponent m e ≤ k := by
  have hlog : m.log2 + 1 ≤ j := by
    by_cases hz : m = 0
    · rw [hz]
      exact hj
    · exact (Nat.log2_lt hz).mpr hm
  unfold totalExponent
  omega

theorem shiftLeft_lt (m s : Nat) : m <<< s < 2 ^ (m.log2 + 1 + s) := by
  rw [Nat.shiftLeft_eq, Nat.pow_add]
  exact Nat.mul_lt_mul_of_pos_right Nat.lt_log2_self (Nat.two_pow_pos s)

/-! ## rounding -/

theorem mantissa_shiftRight (em : ExtendedMantissa) (n : Nat) :
    (em >>> n).mantissa = em.mantissa / 2 ^ n := by
  induction n with
  | zero => exact (Nat.div_one _).symm
  | succ n ih =>
    show (em >>> n).mantissa / 2 = _
    rw [ih, Nat.div_div_eq_div_mul, Nat.pow_succ]

theorem mantissa_ofMantissaAndAccuracy (m : Nat) (acc : Accuracy) :
    (ExtendedMantissa.ofMantissaAndAccuracy m acc).mantissa = m := by
  cases acc with
  | exact => rfl
  | inexact o => cases o <;> rfl

theorem roundedMantissa_le (em : ExtendedMantissa) : em.roundedMantissa ≤ em.mantissa + 1 := by
  unfold ExtendedMantissa.roundedMantissa Accuracy.roundToNearestEven
  split <;> omega

theorem le_roundedMantissa (em : ExtendedMantissa) : em.mantissa ≤ em.roundedMantissa := by
  unfold ExtendedMantissa.roundedMantissa Accuracy.roundToNearestEven
  split <;> omega

/-- The places that a mantissa is shifted by for its target exponent. -/
def places (m : Nat) (e : Int) : Nat := (max (totalExponent m e - 53) (-1074) - e).toNat

theorem shiftToTargetExponent_spec (m : Nat) (e : Int) (acc : Accuracy) :
    (shiftToTargetExponent Format.binary64 m e acc).1.mantissa = m / 2 ^ places m e ∧
      (shiftToTargetExponent Format.binary64 m e acc).2 = e + places m e := by
  refine ⟨?_, rfl⟩
  show (ExtendedMantissa.ofMantissaAndAccuracy m acc >>> places m e).mantissa = _
  rw [mantissa_shiftRight, mantissa_ofMantissaAndAccuracy]

/-- Shifting to the target exponent leaves fewer than `j` bits. -/
theorem shifted_lt {m : Nat} {e k : Int} (h : totalExponent m e ≤ k) (hk : -1073 ≤ k) :
    ∃ j : Nat, m / 2 ^ places m e < 2 ^ j ∧ 1 ≤ j ∧ j + (e + places m e) ≤ k := by
  have hm : m < 2 ^ (m.log2 + 1) := Nat.lt_log2_self
  have htotal : totalExponent m e = m.log2 + 1 + e := rfl
  have hplaces : (places m e : Int) = max (max (totalExponent m e - 53) (-1074) - e) 0 := by
    unfold places
    omega
  generalize places m e = s at hplaces
  by_cases hs : s ≤ m.log2
  · refine ⟨m.log2 + 1 - s, ?_, by omega, by omega⟩
    rw [Nat.div_lt_iff_lt_mul (Nat.two_pow_pos s), ← Nat.pow_add]
    have hsum : m.log2 + 1 - s + s = m.log2 + 1 := by omega
    rwa [hsum]
  · refine ⟨1, ?_, Nat.le_refl 1, by omega⟩
    rw [Nat.div_lt_iff_lt_mul (Nat.two_pow_pos s), ← Nat.pow_add]
    exact Nat.lt_of_lt_of_le hm (Nat.pow_le_pow_right (by decide) (by omega))

/-- The number is finite and below `2 ^ k`. -/
def Unpacked (k : Int) : UnpackedFloat → Prop
  | .zero _ => True
  | .finite _ m e _ => totalExponent m e ≤ k
  | _ => False

theorem Unpacked.mono {k k' : Int} {x : UnpackedFloat} (h : Unpacked k x) (hk : k ≤ k') :
    Unpacked k' x := by
  cases x with
  | zero => trivial
  | finite _ m e _ => exact Int.le_trans h hk
  | infinity => exact h
  | notANumber => exact h

theorem unpacked_dite {k : Int} {p : Prop} [Decidable p] {x : p → UnpackedFloat}
    {y : ¬ p → UnpackedFloat} (hx : ∀ h, Unpacked k (x h)) (hy : ∀ h, Unpacked k (y h)) :
    Unpacked k (dite p x y) := by
  split
  · exact hx _
  · exact hy _

theorem unpacked_round {m : Nat} {e k : Int} (s : Sign) (acc : Accuracy)
    (h : totalExponent m e ≤ k) (hk : -1073 ≤ k) :
    Unpacked (k + 1) (roundWithAccuracy Format.binary64 s m e acc) := by
  obtain ⟨hmantissa, hexponent⟩ := shiftToTargetExponent_spec m e acc
  unfold roundWithAccuracy
  generalize shiftToTargetExponent Format.binary64 m e acc = shifted at hmantissa hexponent
  obtain ⟨em, e₁⟩ := shifted
  replace hmantissa : em.mantissa = m / 2 ^ places m e := hmantissa
  replace hexponent : e₁ = e + places m e := hexponent
  have hrounded : totalExponent em.roundedMantissa e₁ ≤ k + 1 := by
    obtain ⟨j, hlt, -, hj⟩ := shifted_lt h hk
    have hle := roundedMantissa_le em
    refine total_le (j := j + 1) ?_ (by omega) (by omega)
    rw [Nat.pow_succ]
    omega
  obtain ⟨j, hlt, hpos, hj⟩ := shifted_lt hrounded (by omega)
  obtain ⟨hmantissa', hexponent'⟩ := shiftToTargetExponent_spec em.roundedMantissa e₁ .exact
  show Unpacked (k + 1) (dite _ _ _)
  refine unpacked_dite (fun _ => trivial) fun _ => ?_
  show totalExponent (shiftToTargetExponent Format.binary64 em.roundedMantissa e₁ .exact).1.mantissa
    (shiftToTargetExponent Format.binary64 em.roundedMantissa e₁ .exact).2 ≤ k + 1
  rw [hmantissa', hexponent']
  exact total_le hlt hpos hj

/-! ## arithmetic -/

section
variable {k l : Int} {x y : UnpackedFloat}

theorem total_mul {m₁ m₂ : Nat} {e₁ e₂ : Int} (h₁ : totalExponent m₁ e₁ ≤ k)
    (h₂ : totalExponent m₂ e₂ ≤ l) : totalExponent (m₁ * m₂) (e₁ + e₂) ≤ k + l := by
  have ht₁ : totalExponent m₁ e₁ = m₁.log2 + 1 + e₁ := rfl
  have ht₂ : totalExponent m₂ e₂ = m₂.log2 + 1 + e₂ := rfl
  refine total_le (j := (m₁.log2 + 1) + (m₂.log2 + 1)) ?_ (by omega) (by omega)
  rw [Nat.pow_add]
  exact Nat.mul_lt_mul'' Nat.lt_log2_self Nat.lt_log2_self

theorem Unpacked.mul (hx : Unpacked k x) (hy : Unpacked l y) (hk : -1073 ≤ k + l) :
    Unpacked (k + l + 1) (UnpackedFloat.mul Format.binary64 x y) := by
  cases x with
  | infinity => exact hx.elim
  | notANumber => exact hx.elim
  | zero s =>
    cases y with
    | infinity => exact hy.elim
    | notANumber => exact hy.elim
    | zero => trivial
    | finite => trivial
  | finite s₁ m₁ e₁ pos₁ =>
    cases y with
    | infinity => exact hy.elim
    | notANumber => exact hy.elim
    | zero => trivial
    | finite s₂ m₂ e₂ pos₂ => exact unpacked_round _ _ (total_mul hx hy) hk

/-- The number is finite, and `2 ^ (l - 1)` or more. -/
def AtLeast (l : Int) : UnpackedFloat → Prop
  | .finite _ m e _ => l ≤ totalExponent m e
  | _ => False

instance (l : Int) : DecidablePred (AtLeast l) := fun
  | .finite _ m e _ => inferInstanceAs (Decidable (l ≤ totalExponent m e))
  | .zero _ => inferInstanceAs (Decidable False)
  | .infinity _ => inferInstanceAs (Decidable False)
  | .notANumber => inferInstanceAs (Decidable False)

/-- The bits of a quotient, and one if the dividend has fewer than the divisor. -/
theorem total_div {m₁ m₂ s : Nat} {e : Int} (pos₂ : 0 < m₂)
    (h : (m₁.log2 : Int) + 1 + s - m₂.log2 + e ≤ k) (h' : 1 + e ≤ k) :
    totalExponent ((m₁ <<< s) / m₂) e ≤ k := by
  let j := max 1 (m₁.log2 + 1 + s - m₂.log2)
  refine total_le (j := j) ?_ (Nat.le_max_left ..) (by omega)
  rw [Nat.div_lt_iff_lt_mul pos₂]
  calc m₁ <<< s < 2 ^ (m₁.log2 + 1 + s) := shiftLeft_lt m₁ s
    _ ≤ 2 ^ (j + m₂.log2) := Nat.pow_le_pow_right (by decide) (by omega)
    _ = 2 ^ j * 2 ^ m₂.log2 := Nat.pow_add ..
    _ ≤ 2 ^ j * m₂ := Nat.mul_le_mul_left _ (Nat.log2_self_le (Nat.ne_of_gt pos₂))

theorem Unpacked.div (hx : Unpacked k x) (hy : AtLeast l y) (hk : -1074 ≤ k - l) :
    Unpacked (k - l + 2) (UnpackedFloat.div Format.binary64 x y) := by
  cases y with
  | infinity => exact hy.elim
  | notANumber => exact hy.elim
  | zero => exact hy.elim
  | finite s₂ m₂ e₂ pos₂ =>
    cases x with
    | infinity => exact hx.elim
    | notANumber => exact hx.elim
    | zero => trivial
    | finite s₁ m₁ e₁ pos₁ =>
      have ht₁ : totalExponent m₁ e₁ = m₁.log2 + 1 + e₁ := rfl
      have ht₂ : totalExponent m₂ e₂ = m₂.log2 + 1 + e₂ := rfl
      have hx : totalExponent m₁ e₁ ≤ k := hx
      have hy : l ≤ totalExponent m₂ e₂ := hy
      let target := min (e₁ - e₂)
        (max (totalExponent m₁ e₁ - totalExponent m₂ e₂ - 53) (-1074))
      let shift := (e₁ - e₂ - target).toNat
      have hquotient : totalExponent ((m₁ <<< shift) / m₂) target ≤ k - l + 1 :=
        total_div pos₂ (by omega) (by omega)
      have hround := unpacked_round (s₁ / s₂)
        (accuracyOfFraction ((m₁ <<< shift) % m₂) m₂) hquotient (by omega)
      exact hround.mono (by omega)

theorem decreaseExponent_lt {m : Nat} {e e' : Int} (h : totalExponent m e ≤ k) (he : e' ≤ e) :
    (decreaseExponent m e e').1 < 2 ^ (k - e').toNat := by
  have htotal : totalExponent m e = m.log2 + 1 + e := rfl
  exact Nat.lt_of_lt_of_le (shiftLeft_lt m (e - e').toNat)
    (Nat.pow_le_pow_right (by decide) (by omega))

/-- The target exponent may be smaller, with as many bits more. -/
theorem unpacked_roundExact {m : Nat} {e : Int} (s : Sign) (h : totalExponent m e ≤ k)
    (hk : -1073 ≤ k) : Unpacked (k + 1) (UnpackedFloat.round Format.binary64 s m e) := by
  have htotal : totalExponent m e = m.log2 + 1 + e := rfl
  let target := Format.binary64.targetExponent (totalExponent m e)
  refine unpacked_round s .exact (total_le (shiftLeft_lt m (e - target).toNat) (by omega) ?_) hk
  show ((m.log2 + 1 + (e - target).toNat : Nat) : Int) + (e - ((e - target).toNat : Nat)) ≤ k
  omega

theorem unpacked_normalize {m : Int} {e : Int} (s : Sign) (h : totalExponent m.natAbs e ≤ k)
    (hk : -1073 ≤ k) : Unpacked (k + 1) (UnpackedFloat.normalize Format.binary64 m e s) := by
  unfold UnpackedFloat.normalize
  split
  · have hnat : (-m).toNat = m.natAbs := by
      have := Int.compare_eq_lt.mp ‹_›
      omega
    exact unpacked_roundExact _ (hnat ▸ h) hk
  · trivial
  · have hnat : m.toNat = m.natAbs := by
      have := Int.compare_eq_gt.mp ‹_›
      omega
    exact unpacked_roundExact _ (hnat ▸ h) hk

theorem natAbs_apply (s : Sign) (n : Nat) : (s.apply n).natAbs = n := by
  cases s with
  | positive => rfl
  | negative => exact Int.natAbs_neg n

theorem Unpacked.add (hx : Unpacked k x) (hy : Unpacked k y) (hk : -1073 ≤ k) :
    Unpacked (k + 2) (UnpackedFloat.add Format.binary64 x y) := by
  cases x with
  | infinity => exact hx.elim
  | notANumber => exact hx.elim
  | zero s =>
    cases y with
    | infinity => exact hy.elim
    | notANumber => exact hy.elim
    | zero t =>
      show Unpacked _ (if s == t then _ else _)
      split <;> trivial
    | finite => exact Unpacked.mono hy (by omega)
  | finite s₁ m₁ e₁ pos₁ =>
    cases y with
    | infinity => exact hy.elim
    | notANumber => exact hy.elim
    | zero => exact Unpacked.mono hx (by omega)
    | finite s₂ m₂ e₂ pos₂ =>
      have ht₁ : totalExponent m₁ e₁ = m₁.log2 + 1 + e₁ := rfl
      have hx : totalExponent m₁ e₁ ≤ k := hx
      let e := min e₁ e₂
      let n₁ := (decreaseExponent m₁ e₁ e).1
      let n₂ := (decreaseExponent m₂ e₂ e).1
      have hn₁ : n₁ < 2 ^ (k - e).toNat := decreaseExponent_lt hx (Int.min_le_left _ _)
      have hn₂ : n₂ < 2 ^ (k - e).toNat := decreaseExponent_lt hy (Int.min_le_right _ _)
      have hsum : (s₁.apply n₁ + s₂.apply n₂).natAbs < 2 ^ ((k - e).toNat + 1) := by
        have hle := Int.natAbs_add_le (s₁.apply n₁) (s₂.apply n₂)
        rw [natAbs_apply, natAbs_apply] at hle
        rw [Nat.pow_succ]
        omega
      have htotal : totalExponent (s₁.apply n₁ + s₂.apply n₂).natAbs e ≤ k + 1 :=
        total_le hsum (by omega) (by omega)
      exact (unpacked_normalize .positive htotal (by omega)).mono (by omega)

theorem unpacked_ofNat {n j : Nat} (h : n < 2 ^ j) (hj : 1 ≤ j) :
    Unpacked (j + 1) (UnpackedFloat.ofNat Format.binary64 n) :=
  unpacked_normalize (k := j) .positive (total_le h hj (by omega)) (by omega)

end

/-! ## packing -/

section
variable {k : Int}

theorem toNat_append_one (v : BitVec 52) : (1#1 ++ v).toNat = 2 ^ 52 + v.toNat := by
  rw [BitVec.toNat_append]
  exact (Nat.shiftLeft_add_eq_or_of_lt v.isLt 1).symm

/-- What is unpacked is below `2 ^ k` exactly if the field for the exponent says so. -/
theorem unpacked_unpack_iff (hk : -1022 ≤ k) (b : BitVec Format.binary64.numBits) :
    Unpacked k (UnpackedFloat.unpack Format.binary64 b) ↔
      (unpackExponent b).toNat ≠ 2047 ∧ ((unpackExponent b).toNat : Int) - 1022 ≤ k := by
  have hmax (v : BitVec 11) : v = -1#11 ↔ v.toNat = 2047 := by
    rw [← BitVec.toNat_inj]
    rfl
  have hzero (v : BitVec 11) : v = 0#11 ↔ v.toNat = 0 := by
    rw [← BitVec.toNat_inj]
    rfl
  unfold UnpackedFloat.unpack
  dsimp only
  generalize unpackExponent b = field
  have hmantissa : (unpackMantissa b).toNat < 2 ^ 52 := (unpackMantissa b).isLt
  by_cases hfield : field = -1#11
  · rw [if_pos hfield]
    refine iff_of_false ?_ fun h => h.1 ((hmax _).mp hfield)
    split <;> exact id
  · rw [if_neg hfield]
    rw [hmax] at hfield
    by_cases hsmall : field = 0#11
    · rw [if_pos hsmall]
      rw [hzero] at hsmall
      refine iff_of_true (unpacked_dite (fun _ => trivial) fun _ => ?_) ⟨hfield, by omega⟩
      refine total_le (j := 52) hmantissa (by decide) ?_
      show (52 : Int) + ((field.toNat : Int) - (1023 + 52) + 1) ≤ k
      omega
    · rw [if_neg hsmall]
      have happend := toNat_append_one (unpackMantissa b)
      have hlog : (1#1 ++ unpackMantissa b).toNat.log2 = 52 := by
        rw [happend, Nat.log2_eq_iff (by omega)]
        omega
      have htotal : totalExponent (1#1 ++ unpackMantissa b).toNat
          ((field.toNat : Int) - (1023 + 52)) = (field.toNat : Int) - 1022 := by
        unfold totalExponent
        omega
      show totalExponent (1#1 ++ unpackMantissa b).toNat ((field.toNat : Int) - (1023 + 52)) ≤ k ↔ _
      rw [htotal]
      exact (and_iff_right hfield).symm

theorem unpackExponent_toBits (x : Float) :
    (@unpackExponent Format.binary64 x.toModel.toBits.toBitVec).toNat
      = x.toBits.toNat / 2 ^ 52 % 2 ^ 11 := by
  show (x.toBits.toBitVec.extractLsb 62 52).toNat = _
  rw [BitVec.extractLsb_toNat, Nat.shiftRight_eq_div_pow]
  rfl

/-- A packed exponent is found in its field. -/
theorem packed_exponent (s : Sign) (m : BitVec 52) {n : Nat} (hn : n < 2047)
    (hle : (n : Int) - 1022 ≤ k) :
    let field := unpackExponent (packComponents Format.binary64 s (BitVec.ofNat 11 n) m)
    field.toNat ≠ 2047 ∧ (field.toNat : Int) - 1022 ≤ k := by
  intro field
  have hfield : field = BitVec.ofNat 11 n := unpackExponent_packComponents
  have hnat : field.toNat = n := by
    rw [hfield, BitVec.toNat_ofNat, Nat.mod_eq_of_lt (show n < 2 ^ 11 by omega)]
  omega

theorem unpacked_pack {x : UnpackedFloat} (hx : Unpacked k x) (hk : -1022 ≤ k) (hk' : k ≤ 900) :
    Unpacked k (UnpackedFloat.unpack Format.binary64 (UnpackedFloat.pack Format.binary64 x)) := by
  rw [unpacked_unpack_iff hk]
  cases x with
  | infinity => exact hx.elim
  | notANumber => exact hx.elim
  | zero s => exact packed_exponent s 0 (n := 0) (by decide) (by omega)
  | finite s m e pos =>
    have htotal : totalExponent m e = m.log2 + 1 + e := rfl
    have hx : totalExponent m e ≤ k := hx
    let biased := (e + 1023 + 52).toNat
    have hpack : UnpackedFloat.pack Format.binary64 (.finite s m e pos) =
        if 2048 ≤ biased + 1 then packedInfinity Format.binary64 s
        else if m.log2 + 1 = 53 then
          packComponents Format.binary64 s (BitVec.ofNat 11 biased) (BitVec.ofNat 52 m)
        else packComponents Format.binary64 s 0#11 (BitVec.ofNat 52 m) := rfl
    rw [hpack, if_neg (by omega)]
    split
    · exact packed_exponent s _ (n := biased) (by omega) (by omega)
    · exact packed_exponent s _ (n := 0) (by decide) (by omega)

end

end Magnitude

/-! ## doubles -/

theorem Decimal.Binary64.ofFloat?_eq (x : Float) :
    ofFloat? x = if x.toBits.toNat / 2 ^ 52 % 2 ^ 11 = 2047 then none
      else if x.toBits.toNat / 2 ^ 52 % 2 ^ 11 = 0 then
        some ⟨decide (2 ^ 63 ≤ x.toBits.toNat), x.toBits.toNat % 2 ^ 52, -1074⟩
      else some ⟨decide (2 ^ 63 ≤ x.toBits.toNat), 2 ^ 52 + x.toBits.toNat % 2 ^ 52,
        ((x.toBits.toNat / 2 ^ 52 % 2 ^ 11 : Nat) : Int) - 1075⟩ := rfl

/-- The double is finite and below `2 ^ k`. -/
def Below (k : Int) (x : Float) : Prop := Magnitude.Unpacked k x.toModel.unpack

namespace Below

variable {k l : Int} {x y : Float}

theorem mono (h : Below k x) (hk : k ≤ l) : Below l x := Magnitude.Unpacked.mono h hk

theorem add (hx : Below k x) (hy : Below k y) (hk : -1022 ≤ k) (hk' : k ≤ 800) :
    Below (k + 2) (x + y) :=
  Magnitude.unpacked_pack (Magnitude.Unpacked.add hx hy (by omega)) (by omega) (by omega)

theorem mul (hx : Below k x) (hy : Below l y) (hk : -1022 ≤ k + l) (hk' : k + l ≤ 800) :
    Below (k + l + 1) (x * y) :=
  Magnitude.unpacked_pack (Magnitude.Unpacked.mul hx hy (by omega)) (by omega) (by omega)

theorem div (hx : Below k x) (hy : Magnitude.AtLeast l y.toModel.unpack) (hk : -1022 ≤ k - l)
    (hk' : k - l ≤ 800) : Below (k - l + 2) (x / y) :=
  Magnitude.unpacked_pack (Magnitude.Unpacked.div hx hy (by omega)) (by omega) (by omega)

theorem ofNat {n j : Nat} (h : n < 2 ^ j) (hj : 1 ≤ j) (hj' : j ≤ 53) :
    Below (j + 3) (Float.ofNat n) := by
  have hn : n < 2 ^ 53 := Nat.lt_of_lt_of_le h (Nat.pow_le_pow_right (by decide) hj')
  have hproduct : Float.ofNat n = n.toUInt64.toFloat * Float.exactlyRepresentablePowersOfTen[0] :=
    dif_pos ⟨hn, Nat.zero_le _⟩
  have hword : n.toUInt64.toNat = n := by
    show n % 2 ^ 64 = n
    omega
  have hfactor : Below (j + 1) n.toUInt64.toFloat := by
    refine Magnitude.unpacked_pack ?_ (by omega) (by omega)
    show Magnitude.Unpacked (j + 1) (UnpackedFloat.ofNat Format.binary64 n.toUInt64.toNat)
    rw [hword]
    exact Magnitude.unpacked_ofNat h hj
  have hone : Below 1 Float.exactlyRepresentablePowersOfTen[0] :=
    (Magnitude.unpacked_unpack_iff (by decide) _).mpr (by decide)
  rw [hproduct]
  exact (hfactor.mul hone (by omega) (by omega)).mono (by omega)

theorem binary (h : Below k x) (hk : -1021 ≤ k) :
    ∃ b, Decimal.Binary64.ofFloat? x = some b ∧ b.mantissa < 2 ^ 53 ∧ b.exponent ≤ k - 53 := by
  have hfield := (Magnitude.unpacked_unpack_iff (by omega) x.toModel.toBits.toBitVec).mp h
  rw [Magnitude.unpackExponent_toBits] at hfield
  have hfraction : x.toBits.toNat % 2 ^ 52 < 2 ^ 52 := Nat.mod_lt _ (by decide)
  rw [Decimal.Binary64.ofFloat?_eq, if_neg hfield.1]
  split
  · exact ⟨_, rfl, by simp only; omega, by simp only; omega⟩
  · exact ⟨_, rfl, by simp only; omega, by simp only; omega⟩

end Below

theorem Decimal.Binary64.ofFloat?_of_isNaN {x : Float} (h : x.isNaN = true) : ofFloat? x = none := by
  have hnan : x.toModel.unpack.isNaN = true := h
  have hunpacked : ¬ Magnitude.Unpacked 1100 x.toModel.unpack := by
    cases hx : x.toModel.unpack with
    | infinity s => exact id
    | notANumber => exact id
    | zero s =>
      rw [hx] at hnan
      cases hnan
    | finite s m e pos =>
      rw [hx] at hnan
      cases hnan
  have hfield := mt (Magnitude.unpacked_unpack_iff (by decide) x.toModel.toBits.toBitVec).mpr hunpacked
  rw [Magnitude.unpackExponent_toBits] at hfield
  have hall : x.toBits.toNat / 2 ^ 52 % 2 ^ 11 = 2047 := by omega
  rw [ofFloat?_eq, if_pos hall]

end HazardDispatch
