import HazardDispatch.Proofs.Decimal.Readback
import HazardDispatch.Proofs.Decimal.Rounding

/-!
# A time within the hour is read within the hour

What is written for a double is its shortest decimal, no more and no less
(`Numeral.amount_ofFloat?`), and that may be above the double. It is not above another double that
the first one is below: the shortest decimal is at most half a unit off, and there is a whole unit in
between (`Binary64.amount_shortest_le`). The same holds each time the reader rounds (`AtMost`), so a
time of at most an hour is read as one (`Json.asFloat_seconds`).
-/

namespace HazardDispatch

theorem zpow_mul_toNat {a : ℚ} (ha : a ≠ 0) (t : ℤ) : a ^ t * a ^ (-t).toNat = a ^ t.toNat := by
  rw [← zpow_natCast, ← zpow_natCast, ← zpow_add₀ ha]
  congr 1
  omega

namespace Decimal

/-! ## digits -/

/-- What a decimal amounts to. -/
def Scaled.amount (s : Scaled) : ℚ := s.digits * 10 ^ s.exponent

theorem value_replicate_zero (n : ℕ) : value (List.replicate n Digit.zero) = 0 := by
  induction n with
  | zero => rfl
  | succ n ih =>
    rw [List.replicate_succ, value_cons, ih]
    exact Nat.zero_mul _

theorem value_append_zeros (ds : List Digit) (n : ℕ) :
    (value (ds ++ List.replicate n Digit.zero) : ℚ) = value ds * 10 ^ (n : ℤ) := by
  rw [value_append, value_replicate_zero, List.length_replicate, zpow_natCast]
  push_cast
  ring

theorem ten_zpow_add (s t : ℤ) : (10 : ℚ) ^ (s + t) = 10 ^ s * 10 ^ t := zpow_add₀ (by norm_num) s t

/-- Zeros that are left out at the end count in the exponent. -/
theorem Scaled.amount_leading (s : Scaled) :
    (value s.leading.1 : ℚ) * 10 ^ (s.leading.2 + 1 - s.leading.1.length) = s.amount := by
  let zeros := ((Decimal.digits s.digits).reverse.takeWhile (· == Digit.zero)).reverse
  have hsplit : s.leading.1 ++ zeros = Decimal.digits s.digits := by
    show (List.dropWhile _ _).reverse ++ (List.takeWhile _ _).reverse = _
    rw [← List.reverse_append, List.takeWhile_append_dropWhile, List.reverse_reverse]
  have hzeros : zeros = List.replicate zeros.length Digit.zero := by
    refine List.eq_replicate_iff.mpr ⟨rfl, fun d hd => ?_⟩
    have hzero := List.mem_takeWhile_imp (p := (· == Digit.zero)) (List.mem_reverse.mp hd)
    exact beq_iff_eq.mp hzero
  have hplace : s.leading.2 + 1 - s.leading.1.length = zeros.length + s.exponent := by
    have hlength := congrArg List.length hsplit
    rw [List.length_append] at hlength
    show s.exponent + (Decimal.digits s.digits).length - 1 + 1 - s.leading.1.length = _
    omega
  have hvalue := value_append_zeros s.leading.1 zeros.length
  rw [← hzeros, hsplit, value_digits] at hvalue
  rw [amount, hvalue, hplace, ten_zpow_add]
  ring

namespace Numeral

/-- What a numeral amounts to, but for the sign. -/
def amount (n : Numeral) : ℚ := value (n.whole ++ n.fraction) * 10 ^ (n.power - n.fraction.length)

theorem amount_positional (ds : List Digit) (e : ℤ) :
    (value ((positional ds e).1 ++ (positional ds e).2) : ℚ) * 10 ^ (-((positional ds e).2.length : ℤ))
      = value ds * 10 ^ (e + 1 - ds.length) := by
  unfold positional
  split
  · next hneg =>
    have hvalue : value ([Digit.zero] ++ (List.replicate (-e - 1).toNat Digit.zero ++ ds))
        = value ds := by
      rw [← List.append_assoc, value_append, ← List.replicate_one, ← List.replicate_add,
        value_replicate_zero, Nat.zero_mul, Nat.zero_add]
    have hplace : (-((List.replicate (-e - 1).toNat Digit.zero ++ ds).length : ℤ))
        = e + 1 - ds.length := by
      simp
      omega
    dsimp only
    rw [hvalue, hplace]
  · next hnonneg =>
    let n := e.toNat + 1
    show (value (ds.take n ++ List.replicate (n - ds.length) Digit.zero ++ ds.drop n) : ℚ)
      * 10 ^ (-((ds.drop n).length : ℤ)) = _
    rcases Nat.lt_or_ge n ds.length with hlong | hshort
    · have hnone : n - ds.length = 0 := by omega
      rw [hnone, List.replicate_zero, List.append_nil, List.take_append_drop, List.length_drop]
      congr 2
      omega
    · rw [List.take_of_length_le hshort, List.drop_eq_nil_of_le hshort, List.append_nil,
        value_append_zeros, List.length_nil, Nat.cast_zero, neg_zero, zpow_zero, mul_one]
      congr 2
      omega

/-- A zero after the point that stands for nothing. -/
theorem amount_pointZero (negative : Bool) (ds : List Digit) (n : ℕ) :
    (⟨negative, ds, List.replicate n Digit.zero, none⟩ : Numeral).amount = value ds := by
  show (value (ds ++ List.replicate n Digit.zero) : ℚ)
    * 10 ^ ((0 : ℤ) - ((List.replicate n Digit.zero).length : ℕ)) = _
  rw [value_append_zeros, List.length_replicate, mul_assoc, ← ten_zpow_add, add_sub_cancel, zpow_zero,
    mul_one]

theorem amount_scientific (negative : Bool) {ds : List Digit} (hne : ds ≠ []) (e : ℤ) :
    (⟨negative, ds.take 1, ds.drop 1, some ⟨decide (e < 0), Decimal.digits e.natAbs⟩⟩ : Numeral).amount
      = value ds * 10 ^ (e + 1 - ds.length) := by
  have hpos := List.length_pos_iff.mpr hne
  have hpower : (if decide (e < 0) then -(value (Decimal.digits e.natAbs) : ℤ)
      else value (Decimal.digits e.natAbs)) = e := by
    rw [value_digits]
    split
    · next hneg =>
      have := of_decide_eq_true hneg
      omega
    · next hnonneg =>
      have : ¬ e < 0 := by simpa using hnonneg
      omega
  show (value (ds.take 1 ++ ds.drop 1) : ℚ) * 10 ^ ((if decide (e < 0) then
    -(value (Decimal.digits e.natAbs) : ℤ) else value (Decimal.digits e.natAbs))
      - (ds.drop 1).length) = _
  rw [hpower, List.take_append_drop, List.length_drop]
  congr 2
  omega

/-- The numeral of a double amounts to its shortest decimal. -/
theorem amount_ofFloat? {f : Format} {x : Float} {b : Binary64} {n : Numeral}
    (hb : Binary64.ofFloat? x = some b) (h : ofFloat? f x = some n) :
    n.negative = b.negative ∧
      n.amount = if b.mantissa = 0 then 0 else (b.shortest f.tie).amount := by
  have hzeros : (if f.pointZero then [Digit.zero] else [])
      = List.replicate (if f.pointZero then 1 else 0) Digit.zero := by split <;> rfl
  unfold ofFloat? at h
  rw [hb] at h
  dsimp only [Option.bind_eq_bind, Option.bind_some] at h
  rw [hzeros] at h
  by_cases hzero : b.mantissa = 0
  · rw [if_pos hzero] at h ⊢
    obtain rfl := Option.some.inj h
    refine ⟨rfl, ?_⟩
    rw [amount_pointZero]
    rfl
  · obtain ⟨d, rest, hds, -⟩ := Scaled.head?_leading
      (Binary64.digits_shortest f.tie (Nat.pos_of_ne_zero hzero))
    have hne : (b.shortest f.tie).leading.1 ≠ [] := by
      rw [hds]
      exact List.cons_ne_nil d rest
    have hamount := (b.shortest f.tie).amount_leading
    rw [if_neg hzero] at h ⊢
    rw [← hamount]
    generalize (b.shortest f.tie).leading = l at h hne
    let p := positional l.1 l.2
    have hplain : (⟨b.negative, p.1, if p.2.isEmpty then
        List.replicate (if f.pointZero then 1 else 0) Digit.zero else p.2, none⟩ : Numeral).amount
        = value l.1 * 10 ^ (l.2 + 1 - l.1.length) := by
      have hpositional := amount_positional l.1 l.2
      rw [← hpositional]
      split
      · next hempty =>
        have hnil : (positional l.1 l.2).2 = [] := by simpa using hempty
        rw [amount_pointZero, hnil]
        simp [p]
      · show (value (p.1 ++ p.2) : ℚ) * 10 ^ ((0 : ℤ) - p.2.length) = _
        rw [zero_sub]
    have hpower := amount_scientific b.negative hne l.2
    split at h
    · obtain rfl := Option.some.inj h
      exact ⟨rfl, hplain⟩
    · split at h
      · obtain rfl := Option.some.inj h
        exact ⟨rfl, hplain⟩
      · obtain rfl := Option.some.inj h
        exact ⟨rfl, hpower⟩

end Numeral

/-! ## the shortest decimal -/

namespace Binary64

open Rounding (IsDouble two_zpow_pos)

variable {b : Binary64} {q : ℚ}

/-- A grid point in the span is at most half a unit above the double. -/
theorem le_of_contains {k : ℤ} {c : ℕ} (h : (b.span k).contains c) :
    (c : ℚ) * 10 ^ k ≤ (b.mantissa + 1 / 2) * 2 ^ b.exponent := by
  have hhigh : c * (4 * 2 ^ (-b.exponent).toNat * 10 ^ k.toNat)
      ≤ (4 * b.mantissa + 2) * (2 ^ b.exponent.toNat * 10 ^ (-k).toNat) :=
    (Span.bounds_of_contains h).2
  have htwo := zpow_mul_toNat (a := 2) (by norm_num) b.exponent
  have hten := zpow_mul_toNat (a := 10) (by norm_num) k
  have hcast : (c : ℚ) * (4 * 2 ^ (-b.exponent).toNat * 10 ^ k.toNat)
      ≤ (4 * b.mantissa + 2) * (2 ^ b.exponent.toNat * 10 ^ (-k).toNat) := by
    exact_mod_cast hhigh
  rw [← htwo, ← hten] at hcast
  have hscale : (0 : ℚ) < 4 * 2 ^ (-b.exponent).toNat * 10 ^ (-k).toNat := by positivity
  refine le_of_mul_le_mul_right ?_ hscale
  linarith

theorem ten_zpow_le {e : ℤ} (he : e ≤ 0) : (10 : ℚ) ^ e ≤ 2 ^ e := by
  obtain ⟨n, rfl⟩ : ∃ n : ℕ, e = -(n : ℤ) := ⟨(-e).toNat, by omega⟩
  rw [zpow_neg, zpow_neg, zpow_natCast, zpow_natCast]
  refine inv_anti₀ (by positivity) ?_
  gcongr
  norm_num

/-- The shortest decimal of a double is not above a double that is greater. -/
theorem amount_shortest_le (tie : Tie) (hfull : b.exponent = -1074 ∨ 2 ^ 52 ≤ b.mantissa)
    (he : b.exponent ≤ 0) (h : (b.mantissa : ℚ) * 2 ^ b.exponent < q) (hq : IsDouble q) :
    (b.shortest tie).amount ≤ q := by
  rcases shortest_cases tie b with ⟨c, k, hc, heq⟩ | heq
  · rw [heq]
    calc (c : ℚ) * 10 ^ k ≤ (b.mantissa + 1 / 2) * 2 ^ b.exponent := le_of_contains hc
      _ ≤ ((b.mantissa + 1 : ℕ) : ℚ) * 2 ^ b.exponent := by
          refine mul_le_mul_of_nonneg_right ?_ (two_zpow_pos b.exponent).le
          push_cast
          linarith
      _ ≤ q := Rounding.next_le hq hfull h
  · rw [heq]
    calc (b.mantissa : ℚ) * 10 ^ b.exponent ≤ b.mantissa * 2 ^ b.exponent :=
          mul_le_mul_of_nonneg_left (ten_zpow_le he) (by positivity)
      _ ≤ q := h.le

/-- A time within the hour has many places after the point. -/
theorem exponent_le (hfull : b.exponent = -1074 ∨ 2 ^ 52 ≤ b.mantissa)
    (h : (b.mantissa : ℚ) * 2 ^ b.exponent ≤ 3600) : b.exponent ≤ -41 := by
  rcases hfull with hleast | hfull
  · omega
  · have hpower : (2 : ℚ) ^ (52 + b.exponent) < 2 ^ (12 : ℤ) := by
      rw [Rounding.two_zpow_add]
      calc (2 : ℚ) ^ (52 : ℤ) * 2 ^ b.exponent ≤ b.mantissa * 2 ^ b.exponent := by
            refine mul_le_mul_of_nonneg_right ?_ (two_zpow_pos b.exponent).le
            exact_mod_cast hfull
        _ < 2 ^ (12 : ℤ) := lt_of_le_of_lt h (by norm_num)
    rw [zpow_lt_zpow_iff_right₀ (by norm_num)] at hpower
    omega

theorem isDouble_hour : IsDouble 3600 := Rounding.isDouble_natCast (n := 3600) (by decide)

/-- An hour has one double. -/
theorem eq_hour (hfull : b.exponent = -1074 ∨ 2 ^ 52 ≤ b.mantissa) (hm : b.mantissa < 2 ^ 53)
    (h : (b.mantissa : ℚ) * 2 ^ b.exponent = 3600) :
    b = ⟨b.negative, 3600 * 2 ^ 41, -41⟩ := by
  have hhigh : (2 : ℚ) ^ (11 : ℤ) < 2 ^ (53 + b.exponent) := by
    rw [Rounding.two_zpow_add]
    calc (2 : ℚ) ^ (11 : ℤ) < b.mantissa * 2 ^ b.exponent := by rw [h]; norm_num
      _ < 2 ^ (53 : ℤ) * 2 ^ b.exponent := by
          refine mul_lt_mul_of_pos_right ?_ (two_zpow_pos b.exponent)
          exact_mod_cast hm
  rw [zpow_lt_zpow_iff_right₀ (by norm_num)] at hhigh
  have hexponent : b.exponent = -41 := by
    have := exponent_le hfull h.le
    omega
  rw [hexponent] at h
  have hmantissa : b.mantissa = 3600 * 2 ^ 41 := by
    have : (b.mantissa : ℚ) = 3600 * 2 ^ 41 := by
      rw [← h, mul_assoc, ← zpow_natCast, ← Rounding.two_zpow_add]
      norm_num
    exact_mod_cast this
  rw [← hmantissa, ← hexponent]

theorem amount_shortest_hour (hfull : b.exponent = -1074 ∨ 2 ^ 52 ≤ b.mantissa)
    (hm : b.mantissa < 2 ^ 53) (h : (b.mantissa : ℚ) * 2 ^ b.exponent ≤ 3600) :
    (b.shortest .even).amount ≤ 3600 := by
  rcases h.lt_or_eq with hlt | heq
  · have hexponent := exponent_le hfull h
    exact amount_shortest_le .even hfull (by omega) hlt isDouble_hour
  · have hshortest : shortest .even ⟨false, 3600 * 2 ^ 41, -41⟩ = ⟨36, 2⟩ := by decide +kernel
    rw [eq_hour hfull hm heq]
    show (shortest .even ⟨false, 3600 * 2 ^ 41, -41⟩).amount ≤ 3600
    rw [hshortest]
    norm_num [Scaled.amount]

end Binary64

/-! ## reading -/

namespace Numeral

open Rounding (IsDouble From)

/-- Whether a positive number is at least `d`, by whole numbers. -/
def reaches (d : ℕ) : Float.Model.UnpackedFloat → Bool
  | .finite .positive m e _ => decide (d * 2 ^ (-e).toNat ≤ m * 2 ^ e.toNat)
  | _ => false

theorem from_of_reaches {d : ℕ} {x : Float.Model.UnpackedFloat} (h : reaches d x = true) :
    From d x := by
  cases x with
  | infinity => cases h
  | notANumber => cases h
  | zero => cases h
  | finite s m e pos =>
    cases s with
    | negative => cases h
    | positive =>
      have hle : ((d * 2 ^ (-e).toNat : ℕ) : ℚ) ≤ ((m * 2 ^ e.toNat : ℕ) : ℚ) := by
        exact_mod_cast of_decide_eq_true h
      have htwo := zpow_mul_toNat (a := 2) (by norm_num) e
      refine ⟨rfl, le_of_mul_le_mul_right ?_ (show (0 : ℚ) < 2 ^ (-e).toNat by positivity)⟩
      push_cast at hle
      rwa [mul_assoc, htwo]

theorem reaches_tenPower : ∀ n < 23, reaches (10 ^ n) (tenPower n).toModel.unpack = true := by
  decide +kernel

theorem from_tenPower {d : ℚ} {n : ℕ} (hn : n ≤ 308) (hd : IsDouble d) (hpos : 0 < d)
    (h : d ≤ 10 ^ n) : From d (tenPower n).toModel.unpack := by
  by_cases hsmall : n < 23
  · have hreaches := from_of_reaches (reaches_tenPower n hsmall)
    exact hreaches.mono (by exact_mod_cast h)
  · have hdecimal : tenPower n = Float.ofModel (Float.Model.ofScientific 1 n) :=
      dif_neg fun hfew => hsmall (Nat.lt_succ_of_le hfew.2)
    rw [hdecimal]
    exact Rounding.from_ofScientific hn hd hpos h

/-- A few bits, with up to nineteen places, are a double. -/
theorem isDouble_shifted {m : ℕ} (hm : m * 5 ^ 19 < 2 ^ 53) (s n : ℕ) :
    IsDouble ((m * 2 ^ s) * 10 ^ min n 19) := by
  refine ⟨m * 5 ^ min n 19, s + min n 19, ?_, by omega, ?_⟩
  · have hfive : 5 ^ min n 19 ≤ 5 ^ 19 := Nat.pow_le_pow_right (by decide) (Nat.min_le_right n 19)
    exact (Nat.mul_le_mul_left m hfive).trans_lt hm
  · have hten : (10 : ℚ) ^ min n 19 = 5 ^ min n 19 * 2 ^ min n 19 := by
      rw [← mul_pow]
      norm_num
    rw [hten, Rounding.two_zpow_add, zpow_natCast, zpow_natCast]
    push_cast
    ring

theorem isDouble_tenPower (n : ℕ) : IsDouble (10 ^ min n 19) := by
  simpa using isDouble_shifted (m := 1) (by decide) 0 n

theorem isDouble_hour_shifted (n : ℕ) : IsDouble (3600 * 10 ^ min n 19) := by
  have hshifted := isDouble_shifted (m := 225) (by decide) 4 n
  norm_num at hshifted
  exact hshifted

theorem hour_shifted_lt (n : ℕ) : (3600 * 10 ^ min n 19 : ℚ) < 2 ^ 900 := by
  have hpower : (10 : ℚ) ^ min n 19 ≤ 10 ^ 19 := pow_le_pow_right₀ (by norm_num) (by omega)
  calc (3600 * 10 ^ min n 19 : ℚ) ≤ 3600 * 10 ^ 19 := by gcongr
    _ < 2 ^ 100 := by norm_num
    _ ≤ 2 ^ 900 := pow_le_pow_right₀ (by norm_num) (by decide)

theorem hour_le_shifted (n : ℕ) : (3600 : ℚ) ≤ 3600 * 10 ^ min n 19 :=
  le_mul_of_one_le_right (by norm_num) (one_le_pow₀ (by norm_num))

theorem atMost_division {x : Float} {n : ℕ} (hn : n ≤ 308) (h : AtMost (3600 * 10 ^ min n 19) x) :
    AtMost 3600 (x / tenPower n) := by
  have hplaces : (10 : ℚ) ^ min n 19 ≤ 10 ^ n :=
    pow_le_pow_right₀ (by norm_num) (Nat.min_le_left n 19)
  have hdivisor := from_tenPower hn (isDouble_tenPower n) (by positivity) hplaces
  exact h.div hdivisor (by positivity) le_rfl Binary64.isDouble_hour
    ((hour_le_shifted n).trans_lt (hour_shifted_lt n))

/-- A first step that leads to the hour leaves the next steps within it. -/
theorem atMost_shrink {x : Float} {n : ℕ} (h : AtMost (3600 * 10 ^ min n 19) x) :
    AtMost 3600 (shrink x n) := by
  induction x, n using shrink.induct with
  | case1 x n hn =>
    rw [shrink, if_pos hn]
    exact atMost_division hn h
  | case2 x n hn hzero =>
    rw [shrink, if_neg hn, if_pos hzero]
    exact h.of_beq_zero hzero (by norm_num)
  | case3 x n hn hzero ih =>
    have hstep : min n 19 = min 308 19 := by omega
    rw [hstep] at h
    rw [shrink, if_neg hn, if_neg hzero]
    exact ih ((atMost_division (Nat.le_refl 308) h).mono (hour_le_shifted (n - 308)))

theorem Divided.atMost {n : Numeral} (h : n.Divided) (hplus : n.negative = false)
    (hle : n.amount ≤ 3600) : ∃ y, n.float? = some y ∧ AtMost 3600 y := by
  obtain ⟨s, j, i, hread, hs, -, hplaces, hdigits⟩ := h.float?
  rw [hplus] at hread
  have hpower : n.power - n.fraction.length = -((j + i : ℕ) : ℤ) := by omega
  have hvalue : (value (n.whole ++ n.fraction) : ℚ) ≤ 3600 * 10 ^ (j + i) := by
    rw [amount, hpower, zpow_neg, zpow_natCast, ← div_eq_mul_inv, div_le_iff₀ (by positivity)] at hle
    exact hle
  have hword : s ≤ 3600 * 10 ^ j := by
    have hscaled : s * 10 ^ i ≤ 3600 * 10 ^ j * 10 ^ i := by
      rw [mul_assoc, ← pow_add]
      exact hdigits.trans (by exact_mod_cast hvalue)
    exact Nat.le_of_mul_le_mul_right hscaled (by positivity)
  -- a word has no more than twenty digits, so it is enough to look at nineteen places
  have hfew : s ≤ 3600 * 10 ^ min j 19 := by
    rcases Nat.le_total j 19 with hj | hj
    · rwa [Nat.min_eq_left hj]
    · rw [Nat.min_eq_right hj]
      have : Word64.bound ≤ 3600 * 10 ^ 19 := by decide
      omega
  refine ⟨_, hread, atMost_shrink (AtMost.ofNat ?_ (isDouble_hour_shifted j) (hour_shifted_lt j))⟩
  exact_mod_cast hfew

/-- A double within the hour has a numeral, and it is read within the hour. -/
theorem ofFloat?_atMost {x : Float} (hbelow : Below 17 x) (h : AtMost 3600 x) :
    ∃ n, ofFloat? Json.floatFormat x = some n ∧ ∃ y, n.float? = some y ∧ AtMost 3600 y := by
  obtain ⟨b, hb, hplus, hle, hm, hfull⟩ := h.binary
  obtain ⟨n, hn, hdivided⟩ := ofFloat?_of_below hbelow
  obtain ⟨hsign, hamount⟩ := amount_ofFloat? hb hn
  have hhour : n.amount ≤ 3600 := by
    rw [hamount]
    split
    · norm_num
    · exact Binary64.amount_shortest_hour hfull hm hle
  exact ⟨n, hn, hdivided.atMost (hsign.trans hplus) hhour⟩

end Numeral
end Decimal

/-! ## times -/

open Rounding (From)

theorem Duration.atMost_seconds {d : Duration} (h : d.nanos ≤ (Duration.ofSeconds 3600).nanos) :
    AtMost 3600 d.seconds := by
  have hlimit : d.nanos ≤ 3600 * 1000000000 := h
  let whole := d.nanos / nanosPerSecond
  let rest := d.nanos % nanosPerSecond
  have hsplit : whole * 1000000000 + rest = d.nanos := Nat.div_add_mod' d.nanos nanosPerSecond
  have hrest : rest < 1000000000 := Nat.mod_lt d.nanos (by decide)
  have hbillion : From ((1000000000 : ℕ) : ℚ) (1e9 : Float).toModel.unpack :=
    Decimal.Numeral.from_of_reaches (by decide +kernel)
  have hdigits {n : ℕ} (hn : n ≤ 1000000000) : AtMost n (Float.ofNat n) := by
    refine AtMost.ofNat le_rfl (Rounding.isDouble_natCast (by omega)) ?_
    have hlt : (n : ℚ) < 2 ^ 30 := by exact_mod_cast (show n < 2 ^ 30 by omega)
    exact hlt.trans_le (pow_le_pow_right₀ (by norm_num) (by decide))
  show AtMost 3600 (Float.ofNat whole + Float.ofNat rest / 1e9)
  have hlt : (3600 : ℚ) < 2 ^ 900 :=
    (Decimal.Numeral.hour_le_shifted 0).trans_lt (Decimal.Numeral.hour_shifted_lt 0)
  by_cases hzero : rest = 0
  · have hnone : AtMost 0 (Float.ofNat rest / 1e9) := by
      refine (hdigits hrest.le).div hbillion (by norm_num) ?_
        (Rounding.isDouble_natCast (n := 0) (by decide)) ?_
      · simp [hzero]
      · positivity
    refine (hdigits (by omega)).add hnone ?_ Decimal.Binary64.isDouble_hour hlt
    have hwhole : whole ≤ 3600 := by omega
    simpa using (show (whole : ℚ) ≤ 3600 by exact_mod_cast hwhole)
  · have hpart : AtMost 1 (Float.ofNat rest / 1e9) := by
      refine (hdigits hrest.le).div hbillion (by norm_num) ?_
        (Rounding.isDouble_natCast (n := 1) (by decide)) ?_
      · rw [one_mul]
        exact_mod_cast hrest.le
      · exact one_lt_pow₀ (by norm_num) (by decide)
    refine (hdigits (by omega)).add hpart ?_ Decimal.Binary64.isDouble_hour hlt
    have hwhole : whole + 1 ≤ 3600 := by omega
    exact_mod_cast hwhole

/-- A time of at most an hour is read as a time of at most an hour. -/
theorem Json.asFloat_seconds {d : Duration} (h : d.nanos ≤ (Duration.ofSeconds 3600).nanos) :
    ∃ y, (Json.float d.seconds).asFloat = .ok y ∧ AtMost 3600 y := by
  obtain ⟨n, hn, y, hy, hle⟩ :=
    Decimal.Numeral.ofFloat?_atMost (Duration.below_seconds h) (Duration.atMost_seconds h)
  refine ⟨y, ?_, hle⟩
  rw [Json.float, hn]
  dsimp only
  rw [Json.asFloat, hy]

end HazardDispatch
