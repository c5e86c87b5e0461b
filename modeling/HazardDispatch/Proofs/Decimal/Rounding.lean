import HazardDispatch.Proofs.Decimal.Magnitude
import Mathlib.Algebra.Order.Field.Power
import Mathlib.Data.Rat.Floor
import Mathlib.Tactic.Linarith
import Mathlib.Tactic.Positivity
import Mathlib.Tactic.Ring

/-!
# Rounding passes no double

A number that is not above a double is not above it either once it is rounded, and one that is not
below a double is not below it. So a sum, a product or a quotient of doubles is bounded by any double
that bounds the exact result (`UpTo.add`, `UpTo.div`, `from_ofScientific`), with no error term.

The reason is that doubles near each other are whole multiples of the same unit. Where rounding adds
one unit to what is left of a number, the number was strictly between two multiples, and a double above
it is at least the next one (`next_le`). Where it drops bits, no double is among what is dropped
(`le_shifted`).
-/

namespace HazardDispatch

open Float.Model (UnpackedFloat Format totalExponent)
open Float.Model.UnpackedFloat

namespace Rounding

open Magnitude (places)

/-! ## doubles and their neighbours -/

/-- The number is a double, if not too large. -/
def IsDouble (q : ℚ) : Prop := ∃ (m : ℕ) (t : ℤ), m < 2 ^ 53 ∧ -1074 ≤ t ∧ q = m * 2 ^ t

theorem two_zpow_pos (t : ℤ) : (0 : ℚ) < 2 ^ t := zpow_pos (by norm_num) t

theorem two_zpow_add (s t : ℤ) : (2 : ℚ) ^ (s + t) = 2 ^ s * 2 ^ t := zpow_add₀ (by norm_num) s t

theorem isDouble_natCast {n : ℕ} (h : n < 2 ^ 53) : IsDouble n := ⟨n, 0, h, by decide, by simp⟩

/-- A double above a multiple of the unit `2 ^ f` is at least the next multiple. -/
theorem next_le {q : ℚ} (hq : IsDouble q) {n : ℕ} {f : ℤ} (hf : f = -1074 ∨ 2 ^ 52 ≤ n)
    (h : (n : ℚ) * 2 ^ f < q) : ((n + 1 : ℕ) : ℚ) * 2 ^ f ≤ q := by
  obtain ⟨m, t, hm, ht, rfl⟩ := hq
  have hft : f ≤ t := by
    rcases hf with rfl | hn
    · exact ht
    · have hlow : (2 : ℚ) ^ (52 : ℤ) * 2 ^ f ≤ n * 2 ^ f := by
        refine mul_le_mul_of_nonneg_right ?_ (two_zpow_pos f).le
        exact_mod_cast hn
      have hhigh : (m : ℚ) * 2 ^ t < 2 ^ (53 : ℤ) * 2 ^ t := by
        refine mul_lt_mul_of_pos_right ?_ (two_zpow_pos t)
        exact_mod_cast hm
      have hlt := (hlow.trans_lt h).trans hhigh
      rw [← two_zpow_add, ← two_zpow_add, zpow_lt_zpow_iff_right₀ (by norm_num)] at hlt
      omega
  have hunit : (m : ℚ) * 2 ^ t = ((m * 2 ^ (t - f).toNat : ℕ) : ℚ) * 2 ^ f := by
    have hsum : t = ((t - f).toNat : ℤ) + f := by omega
    conv_lhs => rw [hsum, two_zpow_add]
    push_cast
    rw [zpow_natCast]
    ring
  rw [hunit] at h ⊢
  have hlt : n < m * 2 ^ (t - f).toNat := by
    exact_mod_cast lt_of_mul_lt_mul_right h (two_zpow_pos f).le
  refine mul_le_mul_of_nonneg_right ?_ (two_zpow_pos f).le
  exact_mod_cast hlt

/-! ## shifting -/

/-- A shift that loses no bit leaves nothing to round. -/
theorem shiftRight_exact {m n : ℕ} (h : 2 ^ n ∣ m) :
    ExtendedMantissa.ofMantissaAndAccuracy m .exact >>> n = ⟨m / 2 ^ n, false, false⟩ := by
  induction n with
  | zero => simp [HShiftRight.hShiftRight, Nat.repeat, ExtendedMantissa.ofMantissaAndAccuracy]
  | succ n ih =>
    have hn : 2 ^ n ∣ m := (pow_dvd_pow 2 (Nat.le_succ n)).trans h
    have heven : m / 2 ^ n % 2 = 0 := by
      obtain ⟨k, rfl⟩ := h
      rw [pow_succ, mul_assoc, Nat.mul_div_cancel_left _ (Nat.two_pow_pos n), Nat.mul_mod_right]
    show (ExtendedMantissa.ofMantissaAndAccuracy m .exact >>> n).shiftRightOne = _
    rw [ih hn, ExtendedMantissa.shiftRightOne, heven, Nat.div_div_eq_div_mul, ← pow_succ]
    rfl

/-- The unit of the shifted mantissa. -/
def unit (m : ℕ) (e : ℤ) : ℤ := e + places m e

theorem le_unit (m : ℕ) (e : ℤ) : -1074 ≤ unit m e := by
  unfold unit places
  omega

/-- The shifted mantissa has all its bits, unless the unit is the least one. -/
theorem shifted_full {m : ℕ} {e : ℤ} (h : 0 < places m e ∨ e ≤ max (totalExponent m e - 53) (-1074)) :
    unit m e = -1074 ∨ 2 ^ 52 ≤ m / 2 ^ places m e := by
  have htotal : totalExponent m e = m.log2 + 1 + e := rfl
  have hunit : unit m e = max (totalExponent m e - 53) (-1074) := by
    unfold unit places at *
    omega
  by_cases hleast : unit m e = -1074
  · exact .inl hleast
  right
  have hlog : m.log2 = 52 + places m e := by
    unfold unit at hunit hleast
    omega
  have hm : m ≠ 0 := by
    rintro rfl
    simp at hlog
    omega
  rw [Nat.le_div_iff_mul_le (Nat.two_pow_pos _), ← pow_add, ← hlog]
  exact Nat.log2_self_le hm

theorem value_shifted (m n : ℕ) (e : ℤ) :
    ((m / 2 ^ n : ℕ) : ℚ) * 2 ^ (e + n) ≤ m * 2 ^ e ∧
      (¬ 2 ^ n ∣ m → ((m / 2 ^ n : ℕ) : ℚ) * 2 ^ (e + n) < m * 2 ^ e) := by
  have hunits : ((m / 2 ^ n : ℕ) : ℚ) * 2 ^ (e + n) = ((m / 2 ^ n * 2 ^ n : ℕ) : ℚ) * 2 ^ e := by
    rw [two_zpow_add, zpow_natCast]
    push_cast
    ring
  have hle : m / 2 ^ n * 2 ^ n ≤ m := Nat.div_mul_le_self m _
  rw [hunits]
  refine ⟨mul_le_mul_of_nonneg_right (by exact_mod_cast hle) (two_zpow_pos e).le, fun hdvd => ?_⟩
  refine mul_lt_mul_of_pos_right ?_ (two_zpow_pos e)
  have hne : m / 2 ^ n * 2 ^ n ≠ m := fun heq => hdvd ⟨m / 2 ^ n, by rw [mul_comm, heq]⟩
  exact_mod_cast Nat.lt_of_le_of_ne hle hne

theorem shifted_lt (m : ℕ) (e : ℤ) : m / 2 ^ places m e < 2 ^ 53 := by
  have htotal : totalExponent m e = m.log2 + 1 + e := rfl
  rw [Nat.div_lt_iff_lt_mul (Nat.two_pow_pos _), ← pow_add]
  refine lt_of_lt_of_le Nat.lt_log2_self (Nat.pow_le_pow_right (by decide) ?_)
  unfold places
  omega

/-- A shift that drops bits passes no double. -/
theorem le_shifted {d : ℚ} {m : ℕ} {e : ℤ} (hd : IsDouble d)
    (hfull : unit m e = -1074 ∨ 2 ^ 52 ≤ m / 2 ^ places m e) (h : d ≤ m * 2 ^ e) :
    d ≤ ((m / 2 ^ places m e : ℕ) : ℚ) * 2 ^ unit m e := by
  by_contra hlt
  have hnext := next_le hd hfull (not_le.mp hlt)
  have hbelow : (m : ℚ) * 2 ^ e < ((m / 2 ^ places m e + 1 : ℕ) : ℚ) * 2 ^ unit m e := by
    have hm : m < (m / 2 ^ places m e + 1) * 2 ^ places m e :=
      (Nat.div_lt_iff_lt_mul (Nat.two_pow_pos _)).mp (Nat.lt_succ_self _)
    calc (m : ℚ) * 2 ^ e < (((m / 2 ^ places m e + 1) * 2 ^ places m e : ℕ) : ℚ) * 2 ^ e := by
          refine mul_lt_mul_of_pos_right ?_ (two_zpow_pos e)
          exact_mod_cast hm
      _ = ((m / 2 ^ places m e + 1 : ℕ) : ℚ) * 2 ^ unit m e := by
          rw [unit, two_zpow_add, zpow_natCast]
          push_cast
          ring
  exact absurd (hnext.trans h) (not_le.mpr hbelow)

/-! ## rounding -/

/-- The rounded mantissa. It may have one bit more than fits, and is shifted again. -/
def rounded (m : ℕ) (e : ℤ) (acc : Accuracy) : ℕ :=
  (ExtendedMantissa.ofMantissaAndAccuracy m acc >>> places m e).roundedMantissa

theorem le_rounded (m : ℕ) (e : ℤ) (acc : Accuracy) : m / 2 ^ places m e ≤ rounded m e acc := by
  have hrounded := Magnitude.le_roundedMantissa
    (ExtendedMantissa.ofMantissaAndAccuracy m acc >>> places m e)
  rwa [Magnitude.mantissa_shiftRight, Magnitude.mantissa_ofMantissaAndAccuracy] at hrounded

theorem rounded_le_succ (m : ℕ) (e : ℤ) (acc : Accuracy) : rounded m e acc ≤ m / 2 ^ places m e + 1 := by
  have hrounded := Magnitude.roundedMantissa_le
    (ExtendedMantissa.ofMantissaAndAccuracy m acc >>> places m e)
  rwa [Magnitude.mantissa_shiftRight, Magnitude.mantissa_ofMantissaAndAccuracy] at hrounded

theorem finite_congr {s : Sign} {m m' : ℕ} {e : ℤ} {pos : 0 < m} {pos' : 0 < m'} (h : m = m') :
    UnpackedFloat.finite s m e pos = .finite s m' e pos' := by
  subst h
  rfl

theorem round_cases (m : ℕ) (e : ℤ) (acc : Accuracy) :
    let r := rounded m e acc
    let f := unit m e
    (r / 2 ^ places r f = 0 ∧ roundWithAccuracy Format.binary64 .positive m e acc = .zero .positive) ∨
      ∃ pos, roundWithAccuracy Format.binary64 .positive m e acc
        = .finite .positive (r / 2 ^ places r f) (unit r f) pos := by
  intro r f
  have hmantissa := (Magnitude.shiftToTargetExponent_spec r f .exact).1
  by_cases hnone : r / 2 ^ places r f = 0
  · exact .inl ⟨hnone, dif_pos (hmantissa.trans hnone)⟩
  · have hfinite : roundWithAccuracy Format.binary64 .positive m e acc
        = .finite .positive (shiftToTargetExponent Format.binary64 r f .exact).1.mantissa _ _ :=
      dif_neg fun h => hnone (hmantissa.symm.trans h)
    exact .inr ⟨Nat.pos_of_ne_zero hnone, hfinite.trans (finite_congr hmantissa)⟩

/-- A number that is not exact is above its mantissa, which has bits enough. -/
structure Bounded (q : ℚ) (m : ℕ) (e : ℤ) (acc : Accuracy) : Prop where
  le : (m : ℚ) * 2 ^ e ≤ q
  lt : acc ≠ .exact → (m : ℚ) * 2 ^ e < q ∧ e ≤ max (totalExponent m e - 53) (-1074)

theorem Bounded.rounded_le {q : ℚ} {m : ℕ} {e : ℤ} {acc : Accuracy} (h : Bounded q m e acc)
    (hq : IsDouble q) : (rounded m e acc : ℚ) * 2 ^ unit m e ≤ q := by
  obtain ⟨hle, hlt⟩ := value_shifted m (places m e) e
  by_cases hexact : acc = .exact ∧ 2 ^ places m e ∣ m
  · obtain ⟨rfl, hdvd⟩ := hexact
    rw [rounded, shiftRight_exact hdvd]
    exact hle.trans h.le
  · have hbetween : ((m / 2 ^ places m e : ℕ) : ℚ) * 2 ^ unit m e < q := by
      by_cases hacc : acc = .exact
      · exact (hlt fun hdvd => hexact ⟨hacc, hdvd⟩).trans_le h.le
      · exact hle.trans_lt (h.lt hacc).1
    have hfull : 0 < places m e ∨ e ≤ max (totalExponent m e - 53) (-1074) := by
      by_cases hacc : acc = .exact
      · left
        by_contra hzero
        have hnone : places m e = 0 := by omega
        exact hexact ⟨hacc, by rw [hnone]; exact one_dvd m⟩
      · exact .inr (h.lt hacc).2
    refine le_trans ?_ (next_le hq (shifted_full hfull) hbetween)
    refine mul_le_mul_of_nonneg_right ?_ (two_zpow_pos _).le
    exact_mod_cast rounded_le_succ m e acc

/-! ## what is not above a number -/

/-- The number is finite, has no minus sign and is not above `q`. -/
def UpTo (q : ℚ) : UnpackedFloat → Prop
  | .zero s => s = .positive ∧ 0 ≤ q
  | .finite s m e _ => s = .positive ∧ -1074 ≤ e ∧ (m : ℚ) * 2 ^ e ≤ q
  | _ => False

section
variable {p q : ℚ} {x y : UnpackedFloat}

theorem UpTo.nonneg (h : UpTo q x) : 0 ≤ q := by
  cases x with
  | infinity => exact h.elim
  | notANumber => exact h.elim
  | zero s => exact h.2
  | finite s m e pos => exact le_trans (by positivity) h.2.2

theorem UpTo.mono (h : UpTo p x) (hpq : p ≤ q) : UpTo q x := by
  cases x with
  | infinity => exact h
  | notANumber => exact h
  | zero s => exact ⟨h.1, h.2.trans hpq⟩
  | finite s m e pos => exact ⟨h.1, h.2.1, h.2.2.trans hpq⟩

theorem upTo_round {m : ℕ} {e : ℤ} {acc : Accuracy} (h : Bounded q m e acc) (hq : IsDouble q) :
    UpTo q (roundWithAccuracy Format.binary64 .positive m e acc) := by
  have hrounded := h.rounded_le hq
  rcases round_cases m e acc with ⟨-, hround⟩ | ⟨pos, hround⟩
  · rw [hround]
    exact ⟨rfl, le_trans (by positivity) hrounded⟩
  · rw [hround]
    exact ⟨rfl, le_unit _ _, (value_shifted _ _ _).1.trans hrounded⟩

theorem bounded_exact {m : ℕ} {e : ℤ} (h : (m : ℚ) * 2 ^ e ≤ q) : Bounded q m e .exact :=
  ⟨h, fun hne => absurd rfl hne⟩

theorem UpTo.mul (hx : UpTo p x) (hy : UpTo q y) (hpq : IsDouble (p * q)) :
    UpTo (p * q) (UnpackedFloat.mul Format.binary64 x y) := by
  have hnonneg := mul_nonneg hx.nonneg hy.nonneg
  cases x with
  | infinity => exact hx.elim
  | notANumber => exact hx.elim
  | zero s =>
    cases y with
    | infinity => exact hy.elim
    | notANumber => exact hy.elim
    | zero t =>
      obtain ⟨⟨rfl, -⟩, rfl, -⟩ := And.intro hx hy
      exact ⟨rfl, hnonneg⟩
    | finite t m e pos =>
      obtain ⟨⟨rfl, -⟩, rfl, -⟩ := And.intro hx hy
      exact ⟨rfl, hnonneg⟩
  | finite s m e pos =>
    cases y with
    | infinity => exact hy.elim
    | notANumber => exact hy.elim
    | zero t =>
      obtain ⟨⟨rfl, -⟩, rfl, -⟩ := And.intro hx hy
      exact ⟨rfl, hnonneg⟩
    | finite t m' e' pos' =>
      obtain ⟨⟨rfl, -, hx⟩, rfl, -, hy⟩ := And.intro hx hy
      refine upTo_round (bounded_exact ?_) hpq
      calc ((m * m' : ℕ) : ℚ) * 2 ^ (e + e') = (m * 2 ^ e) * (m' * 2 ^ e') := by
            rw [two_zpow_add]
            push_cast
            ring
        _ ≤ p * q := mul_le_mul hx hy (by positivity) (le_trans (by positivity) hx)

/-- The number is finite and positive, and not below `d`. -/
def From (d : ℚ) : UnpackedFloat → Prop
  | .finite s m e _ => s = .positive ∧ d ≤ m * 2 ^ e
  | _ => False

theorem From.mono {c d : ℚ} (h : From d x) (hcd : c ≤ d) : From c x := by
  cases x with
  | infinity => exact h
  | notANumber => exact h
  | zero => exact h
  | finite s m e pos => exact ⟨h.1, hcd.trans h.2⟩

/-- A quotient that is not exact has bits enough. -/
theorem total_quotient {m₁ m₂ s : ℕ} (hm₁ : m₁ ≠ 0) (hm₂ : m₂ ≠ 0) (t : ℤ) :
    (m₁.log2 : ℤ) + s - m₂.log2 + t ≤ totalExponent ((m₁ <<< s) / m₂) t := by
  have htotal : totalExponent ((m₁ <<< s) / m₂) t = ((m₁ <<< s) / m₂).log2 + 1 + t := rfl
  by_cases hfew : m₁.log2 + s < m₂.log2 + 1
  · omega
  have hpower : 2 ^ (m₁.log2 + s - (m₂.log2 + 1)) ≤ (m₁ <<< s) / m₂ := by
    rw [Nat.le_div_iff_mul_le (Nat.pos_of_ne_zero hm₂), Nat.shiftLeft_eq]
    calc 2 ^ (m₁.log2 + s - (m₂.log2 + 1)) * m₂
        ≤ 2 ^ (m₁.log2 + s - (m₂.log2 + 1)) * 2 ^ (m₂.log2 + 1) :=
          Nat.mul_le_mul_left _ Nat.lt_log2_self.le
      _ = 2 ^ (m₁.log2 + s) := by rw [← pow_add]; congr 1; omega
      _ = 2 ^ m₁.log2 * 2 ^ s := pow_add ..
      _ ≤ m₁ * 2 ^ s := Nat.mul_le_mul_right _ (Nat.log2_self_le hm₁)
  have hne : (m₁ <<< s) / m₂ ≠ 0 := Nat.ne_of_gt (lt_of_lt_of_le (Nat.two_pow_pos _) hpower)
  have hlog := (Nat.le_log2 hne).mpr hpower
  omega

theorem bounded_quotient {d : ℚ} {m₁ m₂ : ℕ} {e₁ e₂ : ℤ} (hm₁ : 0 < m₁) (hm₂ : 0 < m₂) (hd : 0 < d)
    (hpq : p ≤ q * d) (h₁ : (m₁ : ℚ) * 2 ^ e₁ ≤ p) (h₂ : d ≤ (m₂ : ℚ) * 2 ^ e₂) :
    let quotient := divCore Format.binary64 m₁ e₁ m₂ e₂
    Bounded q quotient.1 quotient.2.1 quotient.2.2 := by
  have ht₁ : totalExponent m₁ e₁ = m₁.log2 + 1 + e₁ := rfl
  have ht₂ : totalExponent m₂ e₂ = m₂.log2 + 1 + e₂ := rfl
  let t := min (e₁ - e₂) (max (totalExponent m₁ e₁ - totalExponent m₂ e₂ - 53) (-1074))
  let s := (e₁ - e₂ - t).toNat
  show Bounded q ((m₁ <<< s) / m₂) t (accuracyOfFraction ((m₁ <<< s) % m₂) m₂)
  have hs : e₁ - e₂ = s + t := by omega
  have hdivisor : (0 : ℚ) < m₂ * 2 ^ e₂ := hd.trans_le h₂
  have hq : 0 ≤ q := by
    by_contra hneg
    have hprod := mul_neg_of_neg_of_pos (not_le.mp hneg) hd
    exact absurd (h₁.trans hpq) (not_le.mpr (hprod.trans_le (by positivity)))
  have hdividend : ((m₁ <<< s : ℕ) : ℚ) * 2 ^ t * 2 ^ e₂ ≤ q * (m₂ * 2 ^ e₂) := by
    calc ((m₁ <<< s : ℕ) : ℚ) * 2 ^ t * 2 ^ e₂ = m₁ * 2 ^ e₁ := by
          have he : e₁ = s + t + e₂ := by omega
          rw [Nat.shiftLeft_eq, he, two_zpow_add, two_zpow_add, zpow_natCast]
          push_cast
          ring
      _ ≤ q * d := h₁.trans hpq
      _ ≤ q * (m₂ * 2 ^ e₂) := mul_le_mul_of_nonneg_left h₂ hq
  have hquotient : (((m₁ <<< s) / m₂ : ℕ) : ℚ) * 2 ^ t * (m₂ * 2 ^ e₂)
      = (((m₁ <<< s) / m₂ * m₂ : ℕ) : ℚ) * 2 ^ t * 2 ^ e₂ := by
    push_cast
    ring
  constructor
  · refine le_of_mul_le_mul_right ?_ hdivisor
    rw [hquotient]
    refine le_trans ?_ hdividend
    gcongr
    exact_mod_cast Nat.div_mul_le_self _ _
  · intro hacc
    constructor
    · refine lt_of_mul_lt_mul_right ?_ hdivisor.le
      rw [hquotient]
      refine lt_of_lt_of_le ?_ hdividend
      have hrest : (m₁ <<< s) % m₂ ≠ 0 := fun hzero => hacc (if_pos hzero)
      have hlt : (m₁ <<< s) / m₂ * m₂ < m₁ <<< s := by
        have hsum := Nat.div_add_mod' (m₁ <<< s) m₂
        omega
      gcongr
    · have htotal := total_quotient (s := s) hm₁.ne' hm₂.ne' t
      omega

theorem UpTo.div {d : ℚ} (hx : UpTo p x) (hy : From d y) (hd : 0 < d) (hpq : p ≤ q * d)
    (hq : IsDouble q) : UpTo q (UnpackedFloat.div Format.binary64 x y) := by
  cases y with
  | infinity => exact hy.elim
  | notANumber => exact hy.elim
  | zero => exact hy.elim
  | finite t m' e' pos' =>
    obtain ⟨rfl, hy⟩ := hy
    cases x with
    | infinity => exact hx.elim
    | notANumber => exact hx.elim
    | zero s =>
      obtain ⟨rfl, hp⟩ := hx
      exact ⟨rfl, le_of_mul_le_mul_right (by linarith) hd⟩
    | finite s m e pos =>
      obtain ⟨rfl, -, hx⟩ := hx
      exact upTo_round (bounded_quotient pos pos' hd hpq hx hy) hq

theorem value_shiftLeft (m : ℕ) {e f : ℤ} (h : f ≤ e) :
    ((m <<< (e - f).toNat : ℕ) : ℚ) * 2 ^ f = m * 2 ^ e := by
  have he : e = (e - f).toNat + f := by omega
  conv_rhs => rw [he, two_zpow_add, zpow_natCast]
  rw [Nat.shiftLeft_eq]
  push_cast
  ring

theorem upTo_roundExact {m : ℕ} {e : ℤ} (h : (m : ℚ) * 2 ^ e ≤ q) (hq : IsDouble q) :
    UpTo q (UnpackedFloat.round Format.binary64 .positive m e) := by
  let f := min e (Format.binary64.targetExponent (totalExponent m e))
  have hk : e - f = (e - Format.binary64.targetExponent (totalExponent m e)).toNat := by omega
  have hmantissa : (decreaseExponent m e (Format.binary64.targetExponent (totalExponent m e))).1
      = m <<< (e - f).toNat := by
    rw [hk, Int.toNat_natCast]
    rfl
  have hexponent : (decreaseExponent m e (Format.binary64.targetExponent (totalExponent m e))).2
      = f := by
    show e - ((e - Format.binary64.targetExponent (totalExponent m e)).toNat : ℤ) = f
    omega
  show UpTo q (roundWithAccuracy Format.binary64 .positive (decreaseExponent m e _).1
    (decreaseExponent m e _).2 .exact)
  rw [hmantissa, hexponent]
  refine upTo_round (bounded_exact ?_) hq
  rwa [value_shiftLeft m (min_le_left _ _)]

theorem upTo_normalize {m : ℕ} {e : ℤ} (h : (m : ℚ) * 2 ^ e ≤ q) (hq : IsDouble q) :
    UpTo q (UnpackedFloat.normalize Format.binary64 m e .positive) := by
  unfold UnpackedFloat.normalize
  split
  · have := Int.compare_eq_lt.mp ‹_›
    omega
  · exact ⟨rfl, le_trans (by positivity) h⟩
  · exact upTo_roundExact h hq

theorem UpTo.add {r : ℚ} (hx : UpTo p x) (hy : UpTo q y) (hsum : p + q ≤ r) (hr : IsDouble r) :
    UpTo r (UnpackedFloat.add Format.binary64 x y) := by
  have hp := hx.nonneg
  have hq := hy.nonneg
  cases x with
  | infinity => exact hx.elim
  | notANumber => exact hx.elim
  | zero s =>
    cases y with
    | infinity => exact hy.elim
    | notANumber => exact hy.elim
    | zero t =>
      obtain ⟨⟨rfl, -⟩, rfl, -⟩ := And.intro hx hy
      exact ⟨rfl, by linarith⟩
    | finite t m e pos => exact UpTo.mono hy (by linarith)
  | finite s m e pos =>
    cases y with
    | infinity => exact hy.elim
    | notANumber => exact hy.elim
    | zero t => exact UpTo.mono hx (by linarith)
    | finite t m' e' pos' =>
      obtain ⟨⟨rfl, -, hx⟩, rfl, -, hy⟩ := And.intro hx hy
      let f := min e e'
      show UpTo r (UnpackedFloat.normalize Format.binary64
        (((m <<< (e - f).toNat : ℕ) : ℤ) + ((m' <<< (e' - f).toNat : ℕ) : ℤ)) f .positive)
      rw [← Nat.cast_add]
      refine upTo_normalize ?_ hr
      rw [Nat.cast_add, add_mul, value_shiftLeft m (min_le_left _ _),
        value_shiftLeft m' (min_le_right _ _)]
      linarith

theorem upTo_ofNat {n : ℕ} (h : (n : ℚ) ≤ q) (hq : IsDouble q) :
    UpTo q (UnpackedFloat.ofNat Format.binary64 n) :=
  upTo_normalize (by simpa using h) hq

/-- The number is scaled first, so that its product with the power of ten has bits enough. -/
theorem ofScientific_eq_round {n k : ℕ} (hn : 0 < n) (hk : k ≤ 2048) :
    UnpackedFloat.ofScientific Format.binary64 n k
      = roundWithAccuracy Format.binary64 .positive (n <<< 53 * 10 ^ k) (-53) .exact := by
  have hlarge : ¬ (k : ℤ) > 2 ^ Format.binary64.exponentBits := by
    show ¬ (k : ℤ) > 2048
    omega
  have hsmall : ¬ (k : ℤ) < -(2 ^ Format.binary64.exponentBits + (n.log2 : ℤ)) := by
    show ¬ (k : ℤ) < -(2048 + (n.log2 : ℤ))
    omega
  unfold UnpackedFloat.ofScientific
  rw [dif_neg hn.ne', if_neg hlarge, if_neg hsmall, if_pos (Int.natCast_nonneg k)]
  rfl

theorem value_scaled (n k : ℕ) : ((n <<< 53 * 10 ^ k : ℕ) : ℚ) * 2 ^ (-53 : ℤ) = n * 10 ^ k := by
  have hvalue := value_shiftLeft n (e := 0) (f := -53) (by decide)
  rw [zpow_zero, mul_one] at hvalue
  have hshift : ((n <<< 53 : ℕ) : ℚ) * 2 ^ (-53 : ℤ) = n := hvalue
  rw [Nat.cast_mul, mul_right_comm, hshift, Nat.cast_pow]
  rfl

theorem upTo_ofScientific {n k : ℕ} (hn : 0 < n) (hk : k ≤ 2048) (h : (n : ℚ) * 10 ^ k ≤ q)
    (hq : IsDouble q) : UpTo q (UnpackedFloat.ofScientific Format.binary64 n k) := by
  rw [ofScientific_eq_round hn hk]
  exact upTo_round (bounded_exact ((value_scaled n k).trans_le h)) hq

theorem from_round {d : ℚ} {m : ℕ} {e : ℤ} (hd : IsDouble d) (hpos : 0 < d)
    (hplaces : 0 < places m e) (h : d ≤ m * 2 ^ e) :
    ∃ m' e' pos, roundWithAccuracy Format.binary64 .positive m e .exact = .finite .positive m' e' pos ∧
      d ≤ m' * 2 ^ e' ∧ m' < 2 ^ 53 ∧ (e' = -1074 ∨ 2 ^ 52 ≤ m') := by
  let r := rounded m e .exact
  let f := unit m e
  have hr : m / 2 ^ places m e ≤ r := le_rounded m e .exact
  have hfull : f = -1074 ∨ 2 ^ 52 ≤ m / 2 ^ places m e := shifted_full (.inl hplaces)
  have hrounded : d ≤ (r : ℚ) * 2 ^ f := by
    refine (le_shifted hd hfull h).trans (mul_le_mul_of_nonneg_right ?_ (two_zpow_pos _).le)
    exact_mod_cast hr
  have hfull' : unit r f = -1074 ∨ 2 ^ 52 ≤ r / 2 ^ places r f := by
    refine shifted_full (.inr ?_)
    have htotal : totalExponent r f = r.log2 + 1 + f := rfl
    rcases hfull with hleast | hbits
    · omega
    · have hlog : 52 ≤ r.log2 := (Nat.le_log2 (by omega)).mpr (hbits.trans hr)
      omega
  have hfinal : d ≤ ((r / 2 ^ places r f : ℕ) : ℚ) * 2 ^ unit r f := le_shifted hd hfull' hrounded
  rcases round_cases m e .exact with ⟨hnone, -⟩ | ⟨pos, hround⟩
  · have hzero : r / 2 ^ places r f = 0 := hnone
    rw [hzero, Nat.cast_zero, zero_mul] at hfinal
    exact absurd hpos (not_lt.mpr hfinal)
  · exact ⟨_, _, pos, hround, hfinal, shifted_lt r f, hfull'⟩

end

/-! ## packing -/

/-- The value of the fields for the exponent and the mantissa. -/
def fieldValue (exponent mantissa : ℕ) : ℚ :=
  if exponent = 0 then mantissa * 2 ^ (-1074 : ℤ)
  else ((2 ^ 52 + mantissa : ℕ) : ℚ) * 2 ^ ((exponent : ℤ) - 1075)

section
variable {q : ℚ}

/-- What the fields of a double stand for. -/
inductive Unpacks (b : BitVec Format.binary64.numBits) : UnpackedFloat → Prop
  | infinity (hfield : (unpackExponent b).toNat = 2047) (s : Sign) : Unpacks b (.infinity s)
  | notANumber (hfield : (unpackExponent b).toNat = 2047) : Unpacks b .notANumber
  | zero (hfield : (unpackExponent b).toNat ≠ 2047)
      (hvalue : fieldValue (unpackExponent b).toNat (unpackMantissa b).toNat = 0) :
      Unpacks b (.zero (Sign.ofBitVec (unpackSign b)))
  | finite (hfield : (unpackExponent b).toNat ≠ 2047) (m : ℕ) (e : ℤ) (pos : 0 < m)
      (hvalue : fieldValue (unpackExponent b).toNat (unpackMantissa b).toNat = m * 2 ^ e)
      (hleast : -1074 ≤ e) (hfull : e = -1074 ∨ 2 ^ 52 ≤ m) :
      Unpacks b (.finite (Sign.ofBitVec (unpackSign b)) m e pos)

theorem unpacks (b : BitVec Format.binary64.numBits) :
    Unpacks b (UnpackedFloat.unpack Format.binary64 b) := by
  have hmax (v : BitVec 11) : v = -1#11 ↔ v.toNat = 2047 := by
    rw [← BitVec.toNat_inj]
    rfl
  have hzero {n : ℕ} (v : BitVec n) : v = 0#n ↔ v.toNat = 0 := by
    rw [← BitVec.toNat_inj, BitVec.toNat_ofNat, Nat.zero_mod]
  unfold UnpackedFloat.unpack
  dsimp only
  by_cases hfield : unpackExponent b = -1#11
  · rw [if_pos hfield]
    rw [hmax] at hfield
    by_cases hnone : unpackMantissa b = 0#52
    · rw [if_pos hnone]
      exact .infinity hfield _
    · rw [if_neg hnone]
      exact .notANumber hfield
  · rw [if_neg hfield]
    rw [hmax] at hfield
    by_cases hsmall : unpackExponent b = 0#11
    · rw [if_pos hsmall]
      rw [hzero] at hsmall
      have hvalue : fieldValue (unpackExponent b).toNat (unpackMantissa b).toNat
          = (unpackMantissa b).toNat * 2 ^ (-1074 : ℤ) := if_pos hsmall
      by_cases hnone : unpackMantissa b = 0#52
      · rw [dif_pos hnone]
        rw [hzero] at hnone
        refine .zero hfield ?_
        rw [hvalue, hnone, Nat.cast_zero, zero_mul]
      · rw [dif_neg hnone]
        have hexponent : ((unpackExponent b).toNat : ℤ) - (1023 + 52) + 1 = -1074 := by omega
        refine .finite hfield _ _ _ (hvalue.trans ?_) hexponent.ge (.inl hexponent)
        show _ = ((unpackMantissa b).toNat : ℚ) * 2 ^ (((unpackExponent b).toNat : ℤ) - (1023 + 52) + 1)
        rw [hexponent]
    · rw [if_neg hsmall]
      rw [hzero] at hsmall
      have happend := Magnitude.toNat_append_one (unpackMantissa b)
      refine .finite hfield _ _ _ ?_ ?_ (.inr ?_)
      · rw [fieldValue, if_neg hsmall, ← happend]
        rfl
      · show -1074 ≤ ((unpackExponent b).toNat : ℤ) - (1023 + 52)
        omega
      · exact (Nat.le_add_right _ _).trans_eq happend.symm

theorem sign_positive_iff (v : BitVec 1) : Sign.ofBitVec v = .positive ↔ v = 0#1 := by
  unfold Sign.ofBitVec
  split <;> simp_all

theorem upTo_unpack_iff (b : BitVec Format.binary64.numBits) :
    UpTo q (UnpackedFloat.unpack Format.binary64 b) ↔
      unpackSign b = 0#1 ∧ (unpackExponent b).toNat ≠ 2047 ∧
        fieldValue (unpackExponent b).toNat (unpackMantissa b).toNat ≤ q := by
  rw [← sign_positive_iff]
  have hcases := unpacks b
  generalize UnpackedFloat.unpack Format.binary64 b = x at hcases ⊢
  cases hcases with
  | infinity hfield => exact iff_of_false id fun h => h.2.1 hfield
  | notANumber hfield => exact iff_of_false id fun h => h.2.1 hfield
  | zero hfield hvalue =>
    rw [hvalue]
    exact and_congr_right fun _ => (and_iff_right hfield).symm
  | finite hfield m e pos hvalue hleast =>
    rw [hvalue]
    exact and_congr_right fun _ => and_congr_left' (iff_of_true hleast hfield)

theorem from_unpack {d : ℚ} (hd : 0 < d) {b : BitVec Format.binary64.numBits}
    (hsign : unpackSign b = 0#1) (hfield : (unpackExponent b).toNat ≠ 2047)
    (h : d ≤ fieldValue (unpackExponent b).toNat (unpackMantissa b).toNat) :
    From d (UnpackedFloat.unpack Format.binary64 b) := by
  have hcases := unpacks b
  generalize UnpackedFloat.unpack Format.binary64 b = x at hcases ⊢
  cases hcases with
  | infinity hmax => exact absurd hmax hfield
  | notANumber hmax => exact absurd hmax hfield
  | zero _ hvalue => exact absurd (h.trans_eq hvalue) (not_le.mpr hd)
  | finite _ m e pos hvalue => exact ⟨(sign_positive_iff _).mpr hsign, h.trans_eq hvalue⟩

/-- An unpacked mantissa has all its bits, unless the exponent is the least one. -/
theorem unpack_full {b : BitVec Format.binary64.numBits} {s : Sign} {m : ℕ} {e : ℤ} {pos : 0 < m}
    (h : UnpackedFloat.unpack Format.binary64 b = .finite s m e pos) : e = -1074 ∨ 2 ^ 52 ≤ m := by
  have hcases := unpacks b
  rw [h] at hcases
  cases hcases with
  | finite _ _ _ _ _ _ hfull => exact hfull

theorem unpackSign_packComponents {f : Format} (s : Sign) (e : BitVec f.exponentBits)
    (m : BitVec f.mantissaBitsWithoutImplicit) : unpackSign (packComponents f s e m) = s.toBitVec := by
  refine BitVec.eq_of_getLsbD_eq fun i hi => ?_
  obtain rfl : i = 0 := by omega
  delta unpackSign packComponents
  simp [BitVec.getLsbD_append, BitVec.getElem_append]

theorem toNat_field {n : ℕ} (hn : n < 2047) : (BitVec.ofNat 11 n).toNat = n := by
  rw [BitVec.toNat_ofNat, Nat.mod_eq_of_lt (show n < 2 ^ 11 by omega)]

theorem upTo_packComponents {n : ℕ} (hn : n < 2047) (v : BitVec 52) (h : fieldValue n v.toNat ≤ q) :
    UpTo q (UnpackedFloat.unpack Format.binary64
      (packComponents Format.binary64 .positive (BitVec.ofNat 11 n) v)) := by
  rw [upTo_unpack_iff, unpackSign_packComponents, unpackExponent_packComponents,
    unpackMantissa_packComponents, toNat_field hn]
  exact ⟨rfl, hn.ne, h⟩

theorem from_packComponents {d : ℚ} (hd : 0 < d) {n : ℕ} (hn : n < 2047) (v : BitVec 52)
    (h : d ≤ fieldValue n v.toNat) :
    From d (UnpackedFloat.unpack Format.binary64
      (packComponents Format.binary64 .positive (BitVec.ofNat 11 n) v)) := by
  refine from_unpack hd (unpackSign_packComponents _ _ _) ?_ ?_
  · rw [unpackExponent_packComponents, toNat_field hn]
    exact hn.ne
  · rwa [unpackExponent_packComponents, unpackMantissa_packComponents, toNat_field hn]

theorem pack_finite {m : ℕ} {e : ℤ} (pos : 0 < m) (hleast : -1074 ≤ e) (he : e ≤ 971) :
    ∃ n < 2047, ∃ v : BitVec 52, UnpackedFloat.pack Format.binary64 (.finite .positive m e pos)
        = packComponents Format.binary64 .positive (BitVec.ofNat 11 n) v ∧
      fieldValue n v.toNat ≤ m * 2 ^ e ∧
      (m < 2 ^ 53 → e = -1074 ∨ 2 ^ 52 ≤ m → fieldValue n v.toNat = m * 2 ^ e) := by
  let biased := (e + 1023 + 52).toNat
  have hpack : UnpackedFloat.pack Format.binary64 (.finite .positive m e pos) =
      if 2048 ≤ biased + 1 then packedInfinity Format.binary64 .positive
      else if m.log2 + 1 = 53 then
        packComponents Format.binary64 .positive (BitVec.ofNat 11 biased) (BitVec.ofNat 52 m)
      else packComponents Format.binary64 .positive 0#11 (BitVec.ofNat 52 m) := rfl
  have hfield : (BitVec.ofNat 52 m).toNat = m % 2 ^ 52 := BitVec.toNat_ofNat ..
  rw [hpack, if_neg (by omega)]
  by_cases hlog : m.log2 + 1 = 53
  · have hbits : 2 ^ 52 ≤ m ∧ m < 2 ^ 53 := by
      have hlow := Nat.log2_self_le pos.ne'
      have hhigh : m < 2 ^ (m.log2 + 1) := Nat.lt_log2_self
      have heq : m.log2 = 52 := by omega
      rw [heq] at hlow hhigh
      exact ⟨hlow, hhigh⟩
    have hvalue : fieldValue biased (BitVec.ofNat 52 m).toNat = m * 2 ^ e := by
      have hm : 2 ^ 52 + m % 2 ^ 52 = m := by omega
      have hexponent : (biased : ℤ) - 1075 = e := by omega
      rw [fieldValue, if_neg (by omega), hfield, hm, hexponent]
    rw [if_pos hlog]
    exact ⟨biased, by omega, _, rfl, hvalue.le, fun _ _ => hvalue⟩
  · have hvalue : fieldValue 0 (BitVec.ofNat 52 m).toNat
        = ((m % 2 ^ 52 : ℕ) : ℚ) * 2 ^ (-1074 : ℤ) := by
      rw [fieldValue, if_pos rfl, hfield]
    rw [if_neg hlog]
    refine ⟨0, by decide, _, rfl, ?_, fun hm hfull => ?_⟩
    · rw [hvalue]
      gcongr
      · exact Nat.mod_le m _
      · norm_num
    · have hsmall : m < 2 ^ 52 := by
        by_contra hbig
        have heq : m.log2 = 52 := (Nat.log2_eq_iff pos.ne').mpr ⟨not_lt.mp hbig, hm⟩
        omega
      have hexponent : e = -1074 := by omega
      rw [hvalue, Nat.mod_eq_of_lt hsmall, hexponent]

theorem UpTo.pack {x : UnpackedFloat} (hx : UpTo q x) (hq : q < 2 ^ 900) :
    UpTo q (UnpackedFloat.unpack Format.binary64 (UnpackedFloat.pack Format.binary64 x)) := by
  have hnonneg := hx.nonneg
  cases x with
  | infinity => exact hx.elim
  | notANumber => exact hx.elim
  | zero s =>
    obtain ⟨rfl, -⟩ := hx
    exact upTo_packComponents (n := 0) (by decide) 0 (by simpa [fieldValue] using hnonneg)
  | finite s m e pos =>
    obtain ⟨rfl, hleast, hx⟩ := hx
    have he : e < 900 := by
      have hpower : (2 : ℚ) ^ e < 2 ^ (900 : ℤ) := by
        refine lt_of_le_of_lt ?_ (hx.trans_lt (by exact_mod_cast hq))
        exact le_mul_of_one_le_left (two_zpow_pos e).le (by exact_mod_cast pos)
      exact (zpow_lt_zpow_iff_right₀ (by norm_num)).mp hpower
    obtain ⟨n, hn, v, hpack, hle, -⟩ := pack_finite pos hleast (by omega)
    rw [hpack]
    exact upTo_packComponents hn v (hle.trans hx)

/-- A number that has the bits it should have is packed as it is. -/
theorem from_pack {d : ℚ} (hd : 0 < d) {m : ℕ} {e : ℤ} (pos : 0 < m) (h : d ≤ m * 2 ^ e)
    (hm : m < 2 ^ 53) (hfull : e = -1074 ∨ 2 ^ 52 ≤ m) (hleast : -1074 ≤ e)
    (hmax : (m : ℚ) * 2 ^ e < 2 ^ (1024 : ℤ)) :
    From d (UnpackedFloat.unpack Format.binary64
      (UnpackedFloat.pack Format.binary64 (.finite .positive m e pos))) := by
  have he : e ≤ 971 := by
    rcases hfull with rfl | hbits
    · decide
    · have hpower : (2 : ℚ) ^ (52 + e) < 2 ^ (1024 : ℤ) := by
        refine lt_of_le_of_lt ?_ hmax
        rw [two_zpow_add]
        refine mul_le_mul_of_nonneg_right ?_ (two_zpow_pos e).le
        exact_mod_cast hbits
      rw [zpow_lt_zpow_iff_right₀ (by norm_num)] at hpower
      omega
  obtain ⟨n, hn, v, hpack, -, heq⟩ := pack_finite pos hleast he
  rw [hpack]
  exact from_packComponents hd hn v (h.trans_eq (heq hm hfull).symm)

theorem isDouble_max : IsDouble ((2 ^ 53 - 1 : ℕ) * 2 ^ (971 : ℤ)) :=
  ⟨2 ^ 53 - 1, 971, by decide, by decide, rfl⟩

/-- A power of ten is not below a double that it was not below before it was rounded. -/
theorem from_ofScientific {d : ℚ} {k : ℕ} (hk : k ≤ 308) (hd : IsDouble d) (hpos : 0 < d)
    (h : d ≤ 10 ^ k) :
    From d (UnpackedFloat.unpack Format.binary64
      (UnpackedFloat.pack Format.binary64 (UnpackedFloat.ofScientific Format.binary64 1 k))) := by
  let m := 1 <<< 53 * 10 ^ k
  have hround : UnpackedFloat.ofScientific Format.binary64 1 k
      = roundWithAccuracy Format.binary64 .positive m (-53) .exact :=
    ofScientific_eq_round Nat.one_pos (by omega)
  have hvalue : (m : ℚ) * 2 ^ (-53 : ℤ) = 10 ^ k := by
    rw [value_scaled, Nat.cast_one, one_mul]
  have hplaces : 0 < places m (-53) := by
    have hbits : 2 ^ 53 ≤ m := Nat.le_mul_of_pos_right _ (Nat.pow_pos (by decide))
    have hlog : 53 ≤ m.log2 := (Nat.le_log2 (by omega)).mpr hbits
    have htotal : totalExponent m (-53) = m.log2 + 1 + -53 := rfl
    unfold places
    omega
  have hmax : (10 : ℚ) ^ k ≤ (2 ^ 53 - 1 : ℕ) * 2 ^ (971 : ℤ) := by
    have hpower : 10 ^ 308 ≤ (2 ^ 53 - 1) * 2 ^ 971 := by decide +kernel
    calc (10 : ℚ) ^ k ≤ 10 ^ 308 := pow_le_pow_right₀ (by norm_num) hk
      _ ≤ (2 ^ 53 - 1 : ℕ) * 2 ^ (971 : ℤ) := by exact_mod_cast hpower
  have hbelow := upTo_round (bounded_exact (hvalue.trans_le hmax)) isDouble_max
  obtain ⟨m', e', pos, hfinite, hle, hm, hfull⟩ :=
    from_round hd hpos hplaces (h.trans_eq hvalue.symm)
  rw [hfinite] at hbelow
  rw [hround, hfinite]
  refine from_pack hpos pos hle hm hfull hbelow.2.1 (hbelow.2.2.trans_lt ?_)
  calc ((2 ^ 53 - 1 : ℕ) : ℚ) * 2 ^ (971 : ℤ) < 2 ^ (53 : ℤ) * 2 ^ (971 : ℤ) := by
        refine mul_lt_mul_of_pos_right ?_ (two_zpow_pos 971)
        norm_num
    _ = 2 ^ (1024 : ℤ) := (two_zpow_add 53 971).symm

end

end Rounding

/-! ## doubles -/

/-- The double is finite, has no minus sign and is not above `q`. -/
def AtMost (q : ℚ) (x : Float) : Prop := Rounding.UpTo q x.toModel.unpack

namespace AtMost

open Rounding (IsDouble From)

variable {p q r : ℚ} {x y : Float}

theorem mono (h : AtMost p x) (hpq : p ≤ q) : AtMost q x := Rounding.UpTo.mono h hpq

theorem add (hx : AtMost p x) (hy : AtMost q y) (hsum : p + q ≤ r) (hr : IsDouble r)
    (hlt : r < 2 ^ 900) : AtMost r (x + y) :=
  Rounding.UpTo.pack (Rounding.UpTo.add hx hy hsum hr) hlt

theorem div {d : ℚ} (hx : AtMost p x) (hy : From d y.toModel.unpack) (hd : 0 < d) (hpq : p ≤ q * d)
    (hq : IsDouble q) (hlt : q < 2 ^ 900) : AtMost q (x / y) :=
  Rounding.UpTo.pack (Rounding.UpTo.div hx hy hd hpq hq) hlt

theorem mul (hx : AtMost p x) (hy : AtMost q y) (hpq : IsDouble (p * q)) (hlt : p * q < 2 ^ 900) :
    AtMost (p * q) (x * y) :=
  Rounding.UpTo.pack (Rounding.UpTo.mul hx hy hpq) hlt

theorem ofNat {n : ℕ} (hn : (n : ℚ) ≤ q) (hq : IsDouble q) (hlt : q < 2 ^ 900) :
    AtMost q (Float.ofNat n) := by
  have hone : q * 1 = q := mul_one q
  by_cases hsmall : n < 2 ^ 53
  · have hproduct : Float.ofNat n = n.toUInt64.toFloat * Float.exactlyRepresentablePowersOfTen[0] :=
      dif_pos ⟨hsmall, Nat.zero_le _⟩
    have hword : n.toUInt64.toNat = n := by
      show n % 2 ^ 64 = n
      omega
    have hfactor : AtMost q n.toUInt64.toFloat := by
      refine Rounding.UpTo.pack ?_ hlt
      show Rounding.UpTo q (UnpackedFloat.ofNat Format.binary64 n.toUInt64.toNat)
      rw [hword]
      exact Rounding.upTo_ofNat hn hq
    have hunit : AtMost 1 Float.exactlyRepresentablePowersOfTen[0] := by
      refine (Rounding.upTo_unpack_iff _).mpr ⟨by decide, by decide, ?_⟩
      show Rounding.fieldValue 1023 0 ≤ 1
      norm_num [Rounding.fieldValue]
    rw [hproduct, ← hone]
    exact hfactor.mul hunit (hone.symm ▸ hq) (hone.symm ▸ hlt)
  · have hslow : (Float.ofNat n).toModel.unpack = UnpackedFloat.unpack Format.binary64
        (UnpackedFloat.pack Format.binary64
          (UnpackedFloat.ofScientific Format.binary64 n (0 : ℕ))) := by
      have hdecimal : Float.ofNat n = Float.ofModel (Float.Model.ofScientific n 0) :=
        dif_neg fun h => hsmall h.1
      rw [hdecimal]
      rfl
    have hpower : (n : ℚ) * 10 ^ 0 = n := by rw [pow_zero, mul_one]
    have hpos : 0 < n := by omega
    rw [AtMost, hslow]
    exact (Rounding.upTo_ofScientific hpos (Nat.zero_le _) (hpower.trans_le hn) hq).pack hlt

/-- The exact value. -/
theorem binary (h : AtMost q x) :
    ∃ b, Decimal.Binary64.ofFloat? x = some b ∧ b.negative = false ∧
      (b.mantissa : ℚ) * 2 ^ b.exponent ≤ q ∧ b.mantissa < 2 ^ 53 ∧
      (b.exponent = -1074 ∨ 2 ^ 52 ≤ b.mantissa) := by
  have hbits := x.toBits.toNat_lt
  obtain ⟨hsign, hfield, hvalue⟩ :=
    (Rounding.upTo_unpack_iff x.toModel.toBits.toBitVec).mp h
  rw [Magnitude.unpackExponent_toBits] at hfield hvalue
  have hmantissa : (@unpackMantissa Format.binary64 x.toModel.toBits.toBitVec).toNat
      = x.toBits.toNat % 2 ^ 52 := by
    show (x.toBits.toBitVec.extractLsb 51 0).toNat = _
    rw [BitVec.extractLsb_toNat]
    rfl
  have hnegative : ¬ 2 ^ 63 ≤ x.toBits.toNat := by
    have hzero : (x.toBits.toBitVec.extractLsb 63 63).toNat = 0 := congrArg BitVec.toNat hsign
    rw [BitVec.extractLsb_toNat, Nat.shiftRight_eq_div_pow] at hzero
    have hword : x.toBits.toBitVec.toNat = x.toBits.toNat := rfl
    omega
  rw [hmantissa] at hvalue
  have hfraction : x.toBits.toNat % 2 ^ 52 < 2 ^ 52 := Nat.mod_lt _ (by decide)
  rw [Decimal.Binary64.ofFloat?_eq, if_neg hfield]
  unfold Rounding.fieldValue at hvalue
  by_cases hleast : x.toBits.toNat / 2 ^ 52 % 2 ^ 11 = 0
  · rw [if_pos hleast] at hvalue ⊢
    exact ⟨_, rfl, decide_eq_false hnegative, hvalue, by simp only; omega, .inl rfl⟩
  · rw [if_neg hleast] at hvalue ⊢
    exact ⟨_, rfl, decide_eq_false hnegative, hvalue, by simp only; omega, .inr (by simp only; omega)⟩

/-! ### the order -/

theorem of_beq_zero (h : AtMost p x) (hzero : (x == 0) = true) (hq : 0 ≤ q) : AtMost q x := by
  have hmodel : UnpackedFloat.beq x.toModel.unpack (.zero .positive) = true := hzero
  unfold AtMost at h ⊢
  cases hx : x.toModel.unpack with
  | infinity => exact (hx ▸ h).elim
  | notANumber => exact (hx ▸ h).elim
  | zero s =>
    rw [hx] at h
    exact ⟨h.1, hq⟩
  | finite s m e pos =>
    rw [hx] at hmodel
    cases s <;> cases hmodel

theorem zero_le (h : AtMost q x) : (0 : Float) ≤ x := by
  have hmodel : UnpackedFloat.le (.zero .positive) x.toModel.unpack = true := by
    unfold AtMost at h
    cases hx : x.toModel.unpack with
    | infinity => exact (hx ▸ h).elim
    | notANumber => exact (hx ▸ h).elim
    | zero s => rfl
    | finite s m e pos =>
      rw [hx] at h
      obtain ⟨rfl, -⟩ := h
      rfl
  exact decide_eq_true hmodel

/-- With all bits of the mantissa, the exponents are compared before the mantissas. -/
theorem le_finite {m : ℕ} {e : ℤ} {pos : 0 < m} (h : AtMost (m * 2 ^ e) x)
    (hy : y.toModel.unpack = .finite .positive m e pos) (hm : m < 2 ^ 53) (he : -1074 ≤ e) : x ≤ y := by
  have hmodel : UnpackedFloat.le x.toModel.unpack (.finite .positive m e pos) = true := by
    unfold AtMost at h
    cases hx : x.toModel.unpack with
    | infinity => exact (hx ▸ h).elim
    | notANumber => exact (hx ▸ h).elim
    | zero s => rfl
    | finite s m' e' pos' =>
      have hfull := Rounding.unpack_full hx
      rw [hx] at h
      obtain ⟨rfl, -, hle⟩ := h
      show Ordering.isLE ((compare e' e).then (compare m' m)) = true
      rcases lt_trichotomy e' e with hlt | rfl | hgt
      · rw [Int.compare_eq_lt.mpr hlt]
        rfl
      · have hmm : m' ≤ m := by
          exact_mod_cast le_of_mul_le_mul_right hle (Rounding.two_zpow_pos e')
        rw [Int.compare_eq_eq.mpr rfl]
        exact Nat.isLE_compare.mpr hmm
      · -- a full mantissa with a greater exponent is a greater number
        have hnext : (2 : ℚ) ^ (53 : ℤ) * 2 ^ e ≤ m' * 2 ^ e' := by
          have hbits : 2 ^ 52 ≤ m' := by omega
          calc (2 : ℚ) ^ (53 : ℤ) * 2 ^ e = 2 ^ (52 : ℤ) * 2 ^ (e + 1) := by
                rw [← Rounding.two_zpow_add, ← Rounding.two_zpow_add]
                congr 1
                ring
            _ ≤ m' * 2 ^ e' := by
                have hpower : (2 : ℚ) ^ (e + 1) ≤ 2 ^ e' := zpow_le_zpow_right₀ (by norm_num) hgt
                gcongr
                exact_mod_cast hbits
        have hbelow : (m : ℚ) * 2 ^ e < 2 ^ (53 : ℤ) * 2 ^ e := by
          refine mul_lt_mul_of_pos_right ?_ (Rounding.two_zpow_pos e)
          exact_mod_cast hm
        exact absurd (hnext.trans hle) (not_le.mpr hbelow)
  rw [← hy] at hmodel
  exact decide_eq_true hmodel

end AtMost
end HazardDispatch
