import HazardDispatch.Proofs.Decimal.Magnitude
import HazardDispatch.Proofs.Json.Values
import HazardDispatch.Time.Duration
import Mathlib.Data.List.DropRight
import Mathlib.Tactic.GCongr
import Mathlib.Tactic.Positivity
import Mathlib.Tactic.Ring

/-!
# Times that are written read back

Not every double that is written in decimal reads back as one: the reader scales by powers of ten, and
may leave the range on the way. A number of seconds that a task can take does read back
(`Json.float_seconds`). It is below `2 ^ 17`, so its digits start before the sixteenth place
(`Binary64.leading_shortest`); then the digits before the point fit into a word, what is left to do is
to divide, and a quotient is never out of range (`Numeral.Divided.float?`).

Which digits are chosen, and which double is read for them, does not matter here. Whatever is written
for a double can be spelled (`Json.written_float`).
-/

namespace HazardDispatch.Decimal

/-! ## how many digits -/

theorem length_digits_le {n j : Nat} (hj : 1 ≤ j) (h : n < 10 ^ j) : (digits n).length ≤ j := by
  induction n using digits.induct generalizing j with
  | case1 n hlt =>
    rw [digits, dif_pos hlt]
    exact hj
  | case2 n hge ih =>
    obtain ⟨i, rfl⟩ : ∃ i, j = i + 1 := ⟨j - 1, by omega⟩
    have hi : 1 ≤ i := by
      by_contra hzero
      have : i = 0 := by omega
      subst this
      omega
    rw [Nat.pow_succ] at h
    have hrest := ih hi (by omega)
    rw [digits, dif_neg hge]
    simp
    omega

theorem value_append (ds es : List Digit) :
    value (ds ++ es) = value ds * 10 ^ es.length + value es := by
  induction es using List.reverseRecOn with
  | nil => simp
  | append_singleton es d ih =>
    rw [← List.append_assoc, value_concat, value_concat, ih, List.length_append, List.length_singleton,
      Nat.pow_succ]
    ring

theorem value_cons (d : Digit) (ds : List Digit) :
    value (d :: ds) = d.val * 10 ^ ds.length + value ds := by
  have hone : value [d] = d.val := by simp [value]
  rw [← List.singleton_append, value_append, hone]

theorem Span.contains_of_neighbour? {s : Span} {tie : Tie} {c : Nat}
    (h : s.neighbour? tie = some c) : s.contains c := by
  unfold Span.neighbour? at h
  dsimp only at h
  split at h
  · cases h
    assumption
  · cases h
    assumption
  · cases h
  · next hlow hhigh =>
    split at h
    · cases h
      exact hlow
    · split at h
      · cases h
        exact hhigh
      · cases tie with
        | up =>
          cases h
          exact hhigh
        | even =>
          dsimp only at h
          split at h <;> cases h
          · exact hlow
          · exact hhigh

theorem Span.bounds_of_contains {s : Span} {c : Nat} (h : s.contains c) :
    s.low ≤ c * s.denominator ∧ c * s.denominator ≤ s.high := by
  unfold Span.contains at h
  split at h
  · simpa using h
  · simp only [Bool.and_eq_true, decide_eq_true_eq] at h
    omega

namespace Binary64

variable {b : Binary64}

/-- What is chosen lies in the span of the double, or is the double itself. -/
theorem shortest_cases (tie : Tie) (b : Binary64) :
    (∃ c k, (b.span k).contains c ∧ b.shortest tie = ⟨c, k⟩) ∨
      b.shortest tie = ⟨b.mantissa, b.exponent⟩ := by
  unfold shortest
  dsimp only
  cases hfound : (List.range 17).findSome? fun n : Nat =>
      ((b.span (b.leadingExponent - n)).neighbour? tie).map fun c =>
        (⟨c, b.leadingExponent - n⟩ : Scaled) with
  | none => exact .inr rfl
  | some d =>
    obtain ⟨n, -, hn⟩ := List.exists_of_findSome?_eq_some hfound
    obtain ⟨c, hc, rfl⟩ := Option.map_eq_some_iff.mp hn
    exact .inl ⟨c, _, Span.contains_of_neighbour? hc, rfl⟩

theorem pos_of_contains (hpos : 0 < b.mantissa) {k : Int} {c : Nat} (h : (b.span k).contains c) :
    0 < c := by
  have hlow := (Span.bounds_of_contains h).1
  have hnum : 0 < 2 ^ b.exponent.toNat * 10 ^ (-k).toNat := by positivity
  have hgap : 0 < (4 * b.mantissa - if b.narrowBelow then 1 else 2) := by split <;> omega
  have hone : 0 < (b.span k).low := Nat.mul_pos hgap hnum
  by_contra hzero
  have : c = 0 := by omega
  subst this
  omega

/-- A grid point in the span of a small double has few digits. -/
theorem length_of_contains (hpos : 0 < b.mantissa) (hm : b.mantissa < 2 ^ 53)
    (he : b.exponent ≤ -36) {k : Int} {c : Nat} (h : (b.span k).contains c) :
    k + (digits c).length ≤ 6 := by
  have hc := pos_of_contains hpos h
  have hhigh : c * (4 * 2 ^ (-b.exponent).toNat * 10 ^ k.toNat)
      ≤ (4 * b.mantissa + 2) * (2 ^ b.exponent.toNat * 10 ^ (-k).toNat) :=
    (Span.bounds_of_contains h).2
  have hwhole : b.exponent.toNat = 0 := by omega
  have hshift : 2 ^ 36 ≤ 2 ^ (-b.exponent).toNat := Nat.pow_le_pow_right (by decide) (by omega)
  rw [hwhole, Nat.pow_zero, Nat.one_mul] at hhigh
  have hsmall : c * 10 ^ k.toNat < 10 ^ 6 * 10 ^ (-k).toNat := by
    have hleft : 2 ^ 38 * (c * 10 ^ k.toNat) ≤ c * (4 * 2 ^ (-b.exponent).toNat * 10 ^ k.toNat) := by
      calc 2 ^ 38 * (c * 10 ^ k.toNat) = c * (4 * 2 ^ 36 * 10 ^ k.toNat) := by ring
        _ ≤ _ := by gcongr
    have hright : (4 * b.mantissa + 2) * 10 ^ (-k).toNat ≤ 2 ^ 55 * 10 ^ (-k).toNat := by
      gcongr
      omega
    have hten : 0 < 10 ^ (-k).toNat := by positivity
    omega
  by_cases hk : 0 ≤ k
  · have hzero : (-k).toNat = 0 := by omega
    rw [hzero, Nat.pow_zero, Nat.mul_one] at hsmall
    have hk6 : k.toNat < 6 := by
      rw [← Nat.pow_lt_pow_iff_right (show 1 < 10 by decide)]
      calc 10 ^ k.toNat ≤ c * 10 ^ k.toNat := Nat.le_mul_of_pos_left _ hc
        _ < 10 ^ 6 := hsmall
    have hlt : c < 10 ^ (6 - k.toNat) := by
      refine Nat.lt_of_mul_lt_mul_right (a := 10 ^ k.toNat) ?_
      rw [← Nat.pow_add, Nat.sub_add_cancel (by omega)]
      exact hsmall
    have := length_digits_le (by omega) hlt
    omega
  · have hzero : k.toNat = 0 := by omega
    rw [hzero, Nat.pow_zero, Nat.mul_one, ← Nat.pow_add] at hsmall
    have := length_digits_le (by omega) hsmall
    omega

theorem digits_shortest (tie : Tie) (hpos : 0 < b.mantissa) : (b.shortest tie).digits ≠ 0 := by
  rcases shortest_cases tie b with ⟨c, k, hc, heq⟩ | heq
  · rw [heq]
    exact Nat.ne_of_gt (pos_of_contains hpos hc)
  · rw [heq]
    exact Nat.ne_of_gt hpos

/-- The digits of a small double start before the sixteenth place. -/
theorem leading_shortest (tie : Tie) (hpos : 0 < b.mantissa) (hm : b.mantissa < 2 ^ 53)
    (he : b.exponent ≤ -36) :
    (b.shortest tie).exponent + (digits (b.shortest tie).digits).length ≤ 6 := by
  rcases shortest_cases tie b with ⟨c, k, hc, heq⟩ | heq
  · rw [heq]
    exact length_of_contains hpos hm he hc
  · rw [heq]
    have hlt : b.mantissa < 10 ^ 16 := by omega
    have := length_digits_le (by decide) hlt
    simp only
    omega

end Binary64

/-- Zeros at the end are left out, never the first digit. -/
theorem Scaled.head?_leading {s : Scaled} (h : s.digits ≠ 0) :
    ∃ d ds, s.leading.1 = d :: ds ∧ d ≠ Digit.zero := by
  have hkept : s.leading.1 = (Decimal.digits s.digits).rdropWhile (· == Digit.zero) := rfl
  obtain ⟨d, ds, hds⟩ := List.exists_cons_of_ne_nil (digits_ne_nil s.digits)
  have hd : d ≠ Digit.zero := by
    intro hzero
    have := head?_digits h
    rw [hds, hzero] at this
    exact this rfl
  rw [hds] at hkept
  cases hlead : s.leading.1 with
  | nil =>
    rw [hlead] at hkept
    have := List.rdropWhile_eq_nil_iff.mp hkept.symm d List.mem_cons_self
    exact absurd (beq_iff_eq.mp this) hd
  | cons d' ds' =>
    have hprefix : d' :: ds' <+: d :: ds := by
      rw [← hlead, hkept]
      exact List.rdropWhile_prefix _ _
    obtain rfl : d' = d := (List.cons_prefix_cons.mp hprefix).1
    exact ⟨d', ds', rfl, hd⟩

/-! ## reading -/

namespace Numeral

theorem gather_of_small {s : Nat} {ds : List Digit} (h : (s + 1) * 10 ^ ds.length ≤ Word64.bound) :
    ∃ t, gather s ds = (t, []) ∧ t + 1 ≤ (s + 1) * 10 ^ ds.length := by
  induction ds generalizing s with
  | nil => exact ⟨s, rfl, by simp⟩
  | cons d ds ih =>
    have hd := d.isLt
    have hten : 0 < 10 ^ ds.length := by positivity
    have hstep : (s * 10 + d.val + 1) * 10 ^ ds.length ≤ (s + 1) * 10 ^ (d :: ds).length := by
      rw [List.length_cons, Nat.pow_succ]
      calc (s * 10 + d.val + 1) * 10 ^ ds.length ≤ ((s + 1) * 10) * 10 ^ ds.length := by
            gcongr
            omega
        _ = _ := by ring
    have hlt : s * 10 + d.val < Word64.bound := by
      have : s * 10 + d.val + 1 ≤ (s * 10 + d.val + 1) * 10 ^ ds.length :=
        Nat.le_mul_of_pos_right _ hten
      omega
    obtain ⟨t, ht, hle⟩ := ih (Nat.le_trans hstep h)
    refine ⟨t, ?_, Nat.le_trans hle hstep⟩
    rw [gather, if_pos hlt, ht]

/-- What is gathered, with zeros for the digits that are left, is not above the number. -/
theorem gather_le {s : Nat} (ds : List Digit) (hs : s < Word64.bound) :
    (gather s ds).1 < Word64.bound ∧ (gather s ds).2.length ≤ ds.length ∧
      (gather s ds).1 * 10 ^ (gather s ds).2.length ≤ s * 10 ^ ds.length + value ds := by
  induction ds generalizing s with
  | nil => exact ⟨hs, Nat.le_refl 0, by simp [gather]⟩
  | cons d ds ih =>
    rw [gather]
    split
    · next hlt =>
      obtain ⟨hbound, hlength, hle⟩ := ih hlt
      refine ⟨hbound, Nat.le_succ_of_le hlength, hle.trans_eq ?_⟩
      rw [value_cons, List.length_cons, Nat.pow_succ]
      ring
    · exact ⟨hs, Nat.le_refl _, Nat.le_add_right _ _⟩

theorem length_gather_lt {s : Nat} {ds : List Digit} (hne : ds ≠ [])
    (h : s * 10 + 9 < Word64.bound) : (gather s ds).2.length < ds.length := by
  obtain ⟨d, ds, rfl⟩ := List.exists_cons_of_ne_nil hne
  have hd := d.isLt
  have hlt : s * 10 + d.val < Word64.bound := by omega
  have hrest := (gather_le ds hlt).2.1
  rw [gather, if_pos hlt, List.length_cons]
  omega

/-- The power of ten that is written, zero if there is none. -/
def power (n : Numeral) : Int :=
  n.exponent.elim 0 fun e => if e.negative then -(value e.digits : Int) else value e.digits

/-- The numeral has few digits before the point, of which the last is not the end of it. -/
structure Divided (n : Numeral) : Prop where
  whole : n.whole.length ≤ 16
  rest : (n.exponent = none ∧ n.fraction ≠ []) ∨
    ∃ e, n.exponent = some e ∧ e.negative = true ∧ 0 < value e.digits

/-- It is read by a division, of a word that is not above its digits. -/
theorem Divided.float? {n : Numeral} (h : n.Divided) :
    ∃ s j i : Nat, n.float? = some (if n.negative then -shrink (Float.ofNat s) j else
        shrink (Float.ofNat s) j) ∧ s < Word64.bound ∧ 0 < j ∧
      (j + i : Int) = n.fraction.length - n.power ∧ s * 10 ^ i ≤ value (n.whole ++ n.fraction) := by
  have hfits : (0 + 1) * 10 ^ n.whole.length ≤ 10 ^ 16 := by
    rw [Nat.zero_add, Nat.one_mul]
    exact Nat.pow_le_pow_right (by decide) h.whole
  obtain ⟨t, ht, htop⟩ := gather_of_small (Nat.le_trans hfits (by decide))
  have hwhole := (gather_le n.whole (show 0 < Word64.bound by decide)).2.2
  rw [ht] at hwhole
  have hroom : t * 10 + 9 < Word64.bound := by
    have : Word64.bound = 18446744073709551616 := rfl
    omega
  obtain ⟨hbound, hrest, hle⟩ := gather_le n.fraction (show t < Word64.bound by omega)
  let s := (gather t n.fraction).1
  let i := (gather t n.fraction).2.length
  have hscaled : s * 10 ^ i ≤ value (n.whole ++ n.fraction) := by
    refine hle.trans ?_
    rw [value_append]
    gcongr
    simpa using hwhole
  have hdivision (e : Int) (he : e < 0) : scale? (Float.ofNat s) e
      = some (shrink (Float.ofNat s) e.natAbs) := if_pos he
  unfold Numeral.float?
  rw [ht]
  rcases h.rest with ⟨hnone, hne⟩ | ⟨e, hsome, hminus, hpos⟩
  · have hmore := length_gather_lt hne hroom
    have hpoint : ((([] : List Digit).length : Int) - (n.fraction.length - i : Nat)) < 0 := by
      simp
      omega
    have hpower : n.power = 0 := by rw [power, hnone]; rfl
    refine ⟨s, n.fraction.length - i, i, ?_, hbound, by omega, by omega, hscaled⟩
    rw [hnone]
    dsimp only
    rw [hdivision _ hpoint]
    simp
  · have hpoint : ((([] : List Digit).length : Int) - (n.fraction.length - i : Nat)
        - (value e.digits : Nat)) < 0 := by
      simp
      omega
    have habs : ((([] : List Digit).length : Int) - (n.fraction.length - i : Nat)
        - (value e.digits : Nat)).natAbs = n.fraction.length - i + value e.digits := by
      simp
      omega
    have hpower : n.power = -(value e.digits : Int) := by
      rw [power, hsome]
      exact if_pos hminus
    refine ⟨s, n.fraction.length - i + value e.digits, i, ?_, hbound, by omega, by omega, hscaled⟩
    rw [hsome]
    dsimp only
    rw [if_pos hminus, hdivision _ hpoint, habs]
    rfl

/-! ## writing -/

theorem positional_whole {d : Digit} (hd : d ≠ Digit.zero) (ds : List Digit) (e : Int) :
    (positional (d :: ds) e).1 ≠ [] ∧
      ((positional (d :: ds) e).1.head? = some Digit.zero →
        (positional (d :: ds) e).1.length = 1) := by
  unfold positional
  split
  · simp
  · have hsplit : (d :: ds).take (e.toNat + 1) = d :: ds.take e.toNat := rfl
    dsimp only
    rw [hsplit]
    exact ⟨by simp, fun hhead => absurd (Option.some.inj hhead) hd⟩

theorem length_positional (d : Digit) (ds : List Digit) {e : Int} (he : e < 16) :
    (positional (d :: ds) e).1.length ≤ 16 := by
  unfold positional
  split
  · simp
  · simp
    omega

/-- What is written for a double can be spelled. -/
theorem written_ofFloat? {f : Format} {x : Float} {n : Numeral} (h : ofFloat? f x = some n) :
    n.Written := by
  obtain ⟨b, -, h⟩ := Option.bind_eq_some_iff.mp h
  by_cases hzero : b.mantissa = 0
  · rw [if_pos hzero] at h
    obtain rfl := Option.some.inj h
    exact ⟨by simp, by simp, by simp⟩
  · obtain ⟨d, ds, hds, hd⟩ := Scaled.head?_leading
      (Binary64.digits_shortest f.tie (Nat.pos_of_ne_zero hzero))
    have hplain (e : Int) (fraction : List Digit) :
        (⟨b.negative, (positional (d :: ds) e).1, fraction, none⟩ : Numeral).Written :=
      ⟨(positional_whole hd ds e).1, (positional_whole hd ds e).2, by simp⟩
    have hpower (e : Int) :
        (⟨b.negative, [d], ds, some ⟨decide (e < 0), digits e.natAbs⟩⟩ : Numeral).Written := by
      refine ⟨by simp, by simp, fun x hx => ?_⟩
      obtain rfl := Option.some.inj hx
      exact digits_ne_nil _
    rw [if_neg hzero] at h
    dsimp only at h
    rw [hds] at h
    repeat' split at h
    all_goals obtain rfl := Option.some.inj h
    all_goals first | exact hplain _ _ | exact hpower _

theorem ofFloat?_of_below {x : Float} (h : Below 17 x) :
    ∃ n, ofFloat? Json.floatFormat x = some n ∧ n.Divided := by
  obtain ⟨b, hb, hm, he⟩ := h.binary (by decide)
  by_cases hzero : b.mantissa = 0
  · refine ⟨⟨b.negative, [Digit.zero], [Digit.zero], none⟩, ?_, by simp, .inl ⟨rfl, by simp⟩⟩
    simp [ofFloat?, hb, hzero, Json.floatFormat]
  · have hpos := Nat.pos_of_ne_zero hzero
    have hplace := Binary64.leading_shortest .even hpos hm (by omega)
    obtain ⟨d, ds, hds, hd⟩ := Scaled.head?_leading (Binary64.digits_shortest .even hpos)
    generalize hexp : (b.shortest .even).leading.2 = e
    have he16 : e < 16 := by
      have : (b.shortest .even).leading.2 = (b.shortest .even).exponent
        + (Decimal.digits (b.shortest .even).digits).length - 1 := rfl
      omega
    have hlead : (b.shortest .even).leading = (d :: ds, e) := by rw [← hds, ← hexp]
    by_cases hinside : -5 ≤ e ∧ e < 16
    · let fraction := (positional (d :: ds) e).2
      refine ⟨⟨b.negative, (positional (d :: ds) e).1,
        if fraction.isEmpty then [Digit.zero] else fraction, none⟩, ?_,
        length_positional d ds he16, .inl ⟨rfl, ?_⟩⟩
      · simp [ofFloat?, hb, hzero, Json.floatFormat, hlead, hinside, fraction]
      · dsimp only
        split
        · simp
        · next hfull => simpa using hfull
    · have hneg : e < 0 := by omega
      refine ⟨⟨b.negative, [d], ds, some ⟨decide (e < 0), Decimal.digits e.natAbs⟩⟩, ?_, by simp,
        .inr ⟨_, rfl, decide_eq_true hneg, ?_⟩⟩
      · simp [ofFloat?, hb, hzero, Json.floatFormat, hlead, hinside]
      · rw [value_digits]
        omega

end Numeral
end Decimal

/-! ## times -/

theorem Duration.below_seconds {d : Duration} (h : d.nanos ≤ (Duration.ofSeconds 3600).nanos) :
    Below 17 d.seconds := by
  have hlimit : (Duration.ofSeconds 3600).nanos = 3600 * nanosPerSecond := rfl
  have hnanos : nanosPerSecond = 1000000000 := rfl
  have hwhole : d.nanos / nanosPerSecond < 2 ^ 12 := by
    rw [hnanos]
    omega
  have hrest : d.nanos % nanosPerSecond < 2 ^ 30 := by
    rw [hnanos]
    omega
  have hbillion : Magnitude.AtLeast 30 (1e9 : Float).toModel.unpack := by decide
  have hquotient := (Below.ofNat hrest (by decide) (by decide)).div hbillion (by decide) (by decide)
  have hsum := (Below.ofNat hwhole (by decide) (by decide)).add (hquotient.mono (by decide))
    (by decide) (by decide)
  exact hsum

/-- Whatever is written for a double can be spelled. -/
theorem Json.written_float (x : Float) : (Json.float x).Written := by
  unfold Json.float
  cases hn : Decimal.Numeral.ofFloat? Json.floatFormat x with
  | none => trivial
  | some n => exact Decimal.Numeral.written_ofFloat? hn

/-- A time of at most an hour can be spelled, and is read as some time. -/
theorem Json.float_seconds {d : Duration} (h : d.nanos ≤ (Duration.ofSeconds 3600).nanos) :
    (Json.float d.seconds).Written ∧ ∃ y, (Json.float d.seconds).asFloat = .ok y := by
  obtain ⟨n, hn, hdivided⟩ := Decimal.Numeral.ofFloat?_of_below (Duration.below_seconds h)
  obtain ⟨s, j, i, hread, -⟩ := hdivided.float?
  refine ⟨written_float _, ?_⟩
  rw [Json.float, hn]
  dsimp only
  rw [Json.asFloat, hread]
  exact ⟨_, rfl⟩

end HazardDispatch
