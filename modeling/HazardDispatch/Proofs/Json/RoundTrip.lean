import HazardDispatch.Json.Parser
import HazardDispatch.Json.Printer

/-!
# What is written as JSON reads back

`Json.Written j` says that the tree `j` is one that compact text can spell: strings in pieces that
mean what they are, numerals with digits where there have to be some, nothing cut short. Its text
reads back as the same tree, with whatever follows left untouched (`Json.value_render`).

The induction is over the tree, with one case for each way to write a value. A list takes the reader
two steps of fuel for each item and a text has at least one symbol for each, so fuel of twice the
length of the text carries the induction.
-/

namespace HazardDispatch

open Decimal (Digit Numeral Exponent)

/-! ## strings -/

/-- The piece stands for what is read for its text. -/
def Piece.Written : Piece → Prop
  | .plain (.char c) => Piece.isPlain (.char c) ∧ c ≠ '"' ∧ c ≠ '\\'
  | .plain (.stray _) => False
  | .short l c => Piece.short? l = some c
  | .unit n => n < 65536

def Body.Written (b : Body) : Prop := ∀ p ∈ b, p.Written

theorem Hex.value?_digit {n : Nat} (h : n < 16) : Hex.value? (Hex.digit n) = some n := by
  decide +revert

theorem Piece.unit?_hex {n : Nat} (h : n < 65536) :
    Piece.unit? (.char (Hex.digit (n / 4096 % 16))) (.char (Hex.digit (n / 256 % 16)))
      (.char (Hex.digit (n / 16 % 16))) (.char (Hex.digit (n % 16))) = some n := by
  have hvalue (k : Nat) : Hex.value? (Hex.digit (k % 16)) = some (k % 16) :=
    Hex.value?_digit (Nat.mod_lt _ (by decide))
  simp only [Piece.unit?, Symbol.char?, Option.bind_some, hvalue, Option.bind_eq_bind,
    Option.pure_def, Option.some.injEq]
  omega

/-- A string is read up to its closing quote. -/
theorem Body.scan_render {b : Body} (h : b.Written) (r : List Symbol) :
    Body.scan ((b.flatMap Piece.render).map .char ++ .char '"' :: r) = some (b, r) := by
  induction b with
  | nil => rfl
  | cons p b ih =>
    have hrest := ih fun q hq => h q (List.mem_cons_of_mem _ hq)
    have hp := h p List.mem_cons_self
    cases p with
    | plain s =>
      cases s with
      | stray a => exact hp.elim
      | char c =>
        obtain ⟨hplain, hquote, hslash⟩ := hp
        show Body.scan (.char c :: ((b.flatMap Piece.render).map .char ++ .char '"' :: r)) = _
        rw [Body.scan, if_pos hplain, hrest, Option.map_some]
        · exact fun heq => hquote (Symbol.char.inj heq)
        · exact fun a b c d r heq => (hslash (Symbol.char.inj heq)).elim
        · exact fun l r heq => (hslash (Symbol.char.inj heq)).elim
        · exact fun heq => hslash (Symbol.char.inj heq)
    | short l c =>
      have hl : l ≠ 'u' := by
        rintro rfl
        cases hp
      show Body.scan (.char '\\' :: .char l :: ((b.flatMap Piece.render).map .char ++ .char '"' :: r))
        = _
      rw [Body.scan, show Piece.short? l = some c from hp, Option.bind_some, hrest, Option.map_some]
      exact fun _ _ _ _ _ _ heq => hl heq
    | unit n =>
      show Body.scan (.char '\\' :: .char 'u' :: .char _ :: .char _ :: .char _ :: .char _ ::
        ((b.flatMap Piece.render).map .char ++ .char '"' :: r)) = _
      rw [Body.scan, Piece.unit?_hex hp, Option.bind_some, hrest, Option.map_some]

/-! ## numerals -/

/-- The numeral has digits where some have to stand, and no leading zero. -/
structure Decimal.Numeral.Written (n : Numeral) : Prop where
  whole : n.whole ≠ []
  noZero : n.whole.head? = some Digit.zero → n.whole.length = 1
  exponent : ∀ e ∈ n.exponent, e.digits ≠ []

/-- No numeral goes on here: the text is over, or a separator or a bracket comes. -/
def Ends (r : List Symbol) : Prop :=
  ∀ a ∈ r.head?, a = .char ',' ∨ a = .char ']' ∨ a = .char '}'

theorem Decimal.Digit.ofChar?_char (d : Digit) : Digit.ofChar? d.char = some d := by
  decide +revert

theorem Decimal.Digit.char_cases (d : Digit) : d.char = '0' ∨ d.char = '1' ∨ d.char = '2' ∨
    d.char = '3' ∨ d.char = '4' ∨ d.char = '5' ∨ d.char = '6' ∨ d.char = '7' ∨ d.char = '8' ∨
    d.char = '9' := by
  decide +revert

theorem Decimal.Digit.char_ne_minus (d : Digit) : d.char ≠ '-' := by
  decide +revert

theorem Decimal.Digit.char_ne_closing (d : Digit) : d.char ≠ ']' := by
  decide +revert

theorem scanDigits_text {ds : List Digit} {r : List Symbol}
    (stop : ∀ a ∈ r.head?, a.char?.bind Digit.ofChar? = none) :
    scanDigits ((Decimal.text ds).map .char ++ r) = (ds, r) := by
  rw [Decimal.text, List.map_map]
  exact Text.takeValues_append (fun a => a.char?.bind Digit.ofChar?) (Symbol.char ∘ Digit.char)
    Digit.ofChar?_char ds r stop

theorem scanDigits1_text {ds : List Digit} {r : List Symbol} (h : ds ≠ [])
    (stop : ∀ a ∈ r.head?, a.char?.bind Digit.ofChar? = none) :
    scanDigits1 ((Decimal.text ds).map .char ++ r) = some (ds, r) := by
  rw [scanDigits1, scanDigits_text stop]
  cases ds with
  | nil => exact absurd rfl h
  | cons d ds => rfl

theorem Ends.noDigit {r : List Symbol} (h : Ends r) :
    ∀ a ∈ r.head?, a.char?.bind Digit.ofChar? = none := by
  intro a ha
  rcases h a ha with rfl | rfl | rfl <;> rfl

theorem scanExponent_text {e : Option Exponent} {r : List Symbol} (h : ∀ x ∈ e, x.digits ≠ [])
    (hr : Ends r) : scanExponent ((Numeral.exponentText e).map .char ++ r) = some (e, r) := by
  cases e with
  | none =>
    show scanExponent r = some (none, r)
    cases r with
    | nil => rfl
    | cons a r => rcases hr a rfl with rfl | rfl | rfl <;> rfl
  | some e =>
    obtain ⟨negative, ds⟩ := e
    have hds := scanDigits1_text (h _ rfl) hr.noDigit
    cases negative with
    | true =>
      show scanPower (.char '-' :: ((Decimal.text ds).map .char ++ r)) = _
      simp only [scanPower, scanSign, hds, Option.map_some]
    | false =>
      show scanPower (.char '+' :: ((Decimal.text ds).map .char ++ r)) = _
      simp only [scanPower, scanSign, hds, Option.map_some]

/-- What stands before an exponent or after one is no digit. -/
theorem noDigit_exponent (e : Option Exponent) {r : List Symbol} (hr : Ends r) :
    ∀ a ∈ ((Numeral.exponentText e).map Symbol.char ++ r).head?,
      a.char?.bind Digit.ofChar? = none := by
  cases e with
  | none => exact hr.noDigit
  | some e => exact fun a ha => Option.some.inj ha ▸ rfl

theorem scanFraction_text {ds : List Digit} (e : Option Exponent) {r : List Symbol} (hr : Ends r) :
    scanFraction ((Numeral.fractionText ds).map .char ++ ((Numeral.exponentText e).map .char ++ r))
      = some (ds, (Numeral.exponentText e).map .char ++ r) := by
  cases ds with
  | nil =>
    show scanFraction ((Numeral.exponentText e).map .char ++ r) = _
    cases e with
    | some e => rfl
    | none =>
      cases r with
      | nil => rfl
      | cons a r => rcases hr a rfl with rfl | rfl | rfl <;> rfl
  | cons d ds => exact scanDigits1_text (List.cons_ne_nil d ds) (noDigit_exponent e hr)

theorem noDigit_fraction (ds : List Digit) (e : Option Exponent) {r : List Symbol} (hr : Ends r) :
    ∀ a ∈ ((Numeral.fractionText ds).map Symbol.char
      ++ ((Numeral.exponentText e).map Symbol.char ++ r)).head?,
      a.char?.bind Digit.ofChar? = none := by
  cases ds with
  | nil => exact noDigit_exponent e hr
  | cons d ds => exact fun a ha => Option.some.inj ha ▸ rfl

theorem scanUnsigned_text {n : Numeral} (h : n.Written) {r : List Symbol} (hr : Ends r) :
    scanUnsigned n.negative ((Decimal.text n.whole).map .char
      ++ ((Numeral.fractionText n.fraction).map .char
        ++ ((Numeral.exponentText n.exponent).map .char ++ r))) = some (n, r) := by
  have hwhole := scanDigits1_text h.whole (noDigit_fraction n.fraction n.exponent hr)
  have hzero : ¬ (n.whole.head? = some Digit.zero ∧ 1 < n.whole.length) := fun ⟨hhead, hlength⟩ =>
    Nat.ne_of_gt hlength (h.noZero hhead)
  simp only [scanUnsigned, scanWhole, hwhole, Option.bind_some, if_neg hzero, Option.bind_eq_bind,
    scanFraction_text n.exponent hr, scanExponent_text h.exponent hr, Option.pure_def]

theorem Decimal.Numeral.map_text (n : Numeral) (r : List Symbol) :
    n.text.map .char ++ r = (if n.negative then [.char '-'] else [])
      ++ ((Decimal.text n.whole).map .char ++ ((fractionText n.fraction).map .char
        ++ ((exponentText n.exponent).map .char ++ r))) := by
  rw [text]
  cases n.negative <;> simp

theorem scanNumeral_text {n : Numeral} (h : n.Written) {r : List Symbol} (hr : Ends r) :
    scanNumeral (n.text.map .char ++ r) = some (n, r) := by
  have hscan := scanUnsigned_text h hr
  rw [n.map_text]
  cases hneg : n.negative with
  | true =>
    rw [hneg] at hscan
    exact hscan
  | false =>
    rw [hneg] at hscan
    obtain ⟨d, ds, hds⟩ := List.exists_cons_of_ne_nil h.whole
    rw [← hscan, hds]
    show scanNumeral (.char d.char :: _) = scanUnsigned false (.char d.char :: _)
    rw [scanNumeral]
    exact fun _ heq => d.char_ne_minus (Symbol.char.inj (List.cons.inj heq).1)

/-! ## values -/

namespace Json

mutual

/-- The tree is one that a text can spell. -/
def Written : Json → Prop
  | .null => True
  | .bool _ => True
  | .num n => n.Written
  | .str b => b.Written
  | .arr items closed => closed = true ∧ WrittenItems items
  | .obj members closed => closed = true ∧ WrittenMembers members
  | .broken => False

def WrittenItems : List Json → Prop
  | [] => True
  | j :: js => Written j ∧ WrittenItems js

def WrittenMembers : List (Body × Json) → Prop
  | [] => True
  | (k, j) :: ms => k.Written ∧ Written j ∧ WrittenMembers ms

end

theorem value_numeral {n : Numeral} (h : n.Written) {r : List Symbol} (hr : Ends r) (k : Nat) :
    value (k + 1) (n.text.map .char ++ r) = (.num n, r) := by
  have hscan := scanNumeral_text h hr
  have hhead : ∃ c t, n.text.map Symbol.char ++ r = .char c :: t ∧
      (c = '-' ∨ ∃ d : Digit, c = d.char) := by
    rw [n.map_text]
    obtain ⟨d, ds, hds⟩ := List.exists_cons_of_ne_nil h.whole
    cases n.negative with
    | true => exact ⟨'-', _, rfl, .inl rfl⟩
    | false =>
      rw [hds]
      exact ⟨d.char, _, rfl, .inr ⟨d, rfl⟩⟩
  obtain ⟨c, t, heq, hc⟩ := hhead
  rw [heq] at hscan ⊢
  rcases hc with rfl | ⟨d, rfl⟩
  · simp [value, skipBlank, hscan]
  · rcases d.char_cases with h | h | h | h | h | h | h | h | h | h <;> rw [h] at hscan ⊢ <;>
      simp [value, skipBlank, hscan]

theorem value_str {b : Body} (h : b.Written) (r : List Symbol) (k : Nat) :
    value (k + 1) (b.render.map .char ++ r) = (.str b, r) := by
  have hscan := Body.scan_render h r
  have hmap : b.render.map Symbol.char ++ r
      = .char '"' :: ((b.flatMap Piece.render).map .char ++ .char '"' :: r) := by
    simp [Body.render]
  have hquote (t : List Symbol) : skipBlank (.char '"' :: t) = .char '"' :: t := rfl
  rw [hmap, value]
  simp only [hquote, hscan]

/-- No text of a value starts with a blank or a bracket that closes. -/
theorem render_head {j : Json} (h : j.Written) (r : List Symbol) :
    ∃ c t, j.render.map Symbol.char ++ r = .char c :: t ∧ skipBlank (.char c :: t) = .char c :: t ∧
      c ≠ ']' := by
  cases j with
  | null => exact ⟨'n', _, rfl, rfl, by decide⟩
  | bool b => cases b <;> exact ⟨_, _, rfl, rfl, by decide⟩
  | num n =>
    obtain ⟨d, ds, hds⟩ := List.exists_cons_of_ne_nil (Numeral.Written.whole h)
    rw [render, n.map_text]
    cases n.negative with
    | true => exact ⟨'-', _, rfl, rfl, by decide⟩
    | false =>
      rw [hds]
      refine ⟨d.char, _, rfl, ?_, d.char_ne_closing⟩
      rcases d.char_cases with h | h | h | h | h | h | h | h | h | h <;> rw [h] <;> rfl
  | str b => exact ⟨'"', _, rfl, rfl, by decide⟩
  | arr items closed => exact ⟨'[', _, rfl, rfl, by decide⟩
  | obj members closed => exact ⟨'\x7b', _, rfl, rfl, by decide⟩
  | broken => exact h.elim

/-- The fuel for a text is not used up before it. -/
theorem exists_fuel {j : Json} {n : Nat} (h : j.Written) (hn : 2 * j.render.length ≤ n) :
    ∃ k, n = k + 1 := by
  cases n with
  | succ k => exact ⟨k, rfl⟩
  | zero =>
    obtain ⟨c, t, heq, -, -⟩ := render_head h []
    have hnil : j.render = [] := List.length_eq_zero_iff.mp (by omega)
    rw [hnil] at heq
    cases heq

theorem renderItems_head {j : Json} {js : List Json} (h : WrittenItems (j :: js)) (r : List Symbol) :
    let s := (renderItems (j :: js)).map Symbol.char ++ r
    skipBlank s = s ∧ ∀ t, s ≠ .char ']' :: t := by
  have hsplit : ∃ t, renderItems (j :: js) = render j ++ t := by
    cases js with
    | nil => exact ⟨[], (List.append_nil _).symm⟩
    | cons j' js => exact ⟨_, rfl⟩
  obtain ⟨t, ht⟩ := hsplit
  obtain ⟨c, u, heq, hblank, hclosing⟩ := render_head h.1 (t.map .char ++ r)
  rw [ht, List.map_append, List.append_assoc, heq]
  exact ⟨hblank, fun v hv => hclosing (Symbol.char.inj (List.cons.inj hv).1)⟩

theorem renderMembers_head (m : Body × Json) (ms : List (Body × Json)) :
    ∃ s, renderMembers (m :: ms) = '"' :: s := by
  obtain ⟨k, j⟩ := m
  cases ms with
  | nil => exact ⟨_, rfl⟩
  | cons m' ms => exact ⟨_, rfl⟩

theorem value_arr {items : List Json} {s u : List Symbol} {k : Nat}
    (hopen : skipBlank s = s ∧ ∀ t, s ≠ .char ']' :: t)
    (h : elements k s = (items, true, u)) : value (k + 1) (.char '[' :: s) = (.arr items true, u) := by
  have hbracket : skipBlank (.char '[' :: s) = .char '[' :: s := rfl
  rw [value]
  simp only [hbracket, hopen.1]
  split
  · next t => exact absurd rfl (hopen.2 t)
  · rw [h]

theorem value_obj {members : List (Body × Json)} {s u : List Symbol} {k : Nat}
    (h : entries k (.char '"' :: s) = (members, true, u)) :
    value (k + 1) (.char '\x7b' :: .char '"' :: s) = (.obj members true, u) := by
  have hvalue : value (k + 1) (.char '\x7b' :: .char '"' :: s)
      = (.obj (entries k (.char '"' :: s)).1 (entries k (.char '"' :: s)).2.1,
        (entries k (.char '"' :: s)).2.2) := rfl
  rw [hvalue, h]

theorem elements_succ {j : Json} {s r : List Symbol} {k : Nat} (hj : j.Written)
    (h : value k s = (j, r)) : elements (k + 1) s = match skipBlank r with
      | .char ',' :: t => let (js, closed, u) := elements k t; (j :: js, closed, u)
      | .char ']' :: t => ([j], true, t)
      | _ => ([j], false, []) := by
  rw [elements, h]
  cases j with
  | broken => exact hj.elim
  | _ => rfl

theorem entries_succ {key : Body} {j : Json} {s r : List Symbol} {k : Nat} (hkey : key.Written)
    (hj : j.Written) (h : value k s = (j, r)) :
    entries (k + 1) (key.render.map .char ++ .char ':' :: s) = match skipBlank r with
      | .char ',' :: t => let (ms, closed, u) := entries k t; ((key, j) :: ms, closed, u)
      | .char '\x7d' :: t => ([(key, j)], true, t)
      | _ => ([(key, j)], false, []) := by
  have hmap : key.render.map Symbol.char ++ .char ':' :: s
      = .char '"' :: ((key.flatMap Piece.render).map .char ++ .char '"' :: .char ':' :: s) := by
    simp [Body.render]
  have hscan := Body.scan_render hkey (.char ':' :: s)
  have hcolon : skipBlank (.char ':' :: s) = .char ':' :: s := rfl
  have hquote (t : List Symbol) : skipBlank (.char '"' :: t) = .char '"' :: t := rfl
  rw [hmap, entries]
  simp only [hquote, hscan, hcolon, h]
  cases j with
  | broken => exact hj.elim
  | _ => rfl

mutual

/-- The text of a value is read as the value. -/
theorem value_render : (j : Json) → j.Written → ∀ {n : Nat} {r : List Symbol},
    2 * j.render.length ≤ n → Ends r → value n (j.render.map .char ++ r) = (j, r)
  | .null, h, n, r, hn, _ => by
    obtain ⟨k, rfl⟩ := exists_fuel h hn
    rfl
  | .bool true, h, n, r, hn, _ => by
    obtain ⟨k, rfl⟩ := exists_fuel h hn
    rfl
  | .bool false, h, n, r, hn, _ => by
    obtain ⟨k, rfl⟩ := exists_fuel h hn
    rfl
  | .num d, h, n, r, hn, hr => by
    obtain ⟨k, rfl⟩ := exists_fuel h hn
    exact value_numeral h hr k
  | .str b, h, n, r, hn, _ => by
    obtain ⟨k, rfl⟩ := exists_fuel (j := .str b) h hn
    exact value_str h r k
  | .arr [] closed, h, n, r, hn, _ => by
    obtain ⟨k, rfl⟩ := exists_fuel (j := .arr [] closed) h hn
    rw [h.1]
    rfl
  | .arr (j :: js) closed, h, n, r, hn, _ => by
    obtain ⟨k, rfl⟩ := exists_fuel (j := .arr (j :: js) closed) h hn
    obtain ⟨rfl, hitems⟩ := h
    have hrender : (render (.arr (j :: js) true)).map Symbol.char ++ r
        = .char '[' :: ((renderItems (j :: js)).map .char ++ .char ']' :: r) := by
      simp [render]
    have hlength : (render (.arr (j :: js) true)).length = (renderItems (j :: js)).length + 2 := by
      simp [render]
    rw [hrender]
    exact value_arr (renderItems_head hitems _) (elements_renderItems (j :: js) hitems (by simp)
      (by omega))
  | .obj [] closed, h, n, r, hn, _ => by
    obtain ⟨k, rfl⟩ := exists_fuel (j := .obj [] closed) h hn
    rw [h.1]
    rfl
  | .obj (m :: ms) closed, h, n, r, hn, _ => by
    obtain ⟨k, rfl⟩ := exists_fuel (j := .obj (m :: ms) closed) h hn
    obtain ⟨rfl, hmembers⟩ := h
    have hrender : (render (.obj (m :: ms) true)).map Symbol.char ++ r
        = .char '\x7b' :: ((renderMembers (m :: ms)).map .char ++ .char '\x7d' :: r) := by
      simp [render]
    have hlength : (render (.obj (m :: ms) true)).length = (renderMembers (m :: ms)).length + 2 := by
      simp [render]
    have hentries := entries_renderMembers (m :: ms) hmembers (n := k) (r := r) (by simp)
      (by omega)
    obtain ⟨s, hs⟩ := renderMembers_head m ms
    rw [hrender]
    rw [hs] at hentries ⊢
    exact value_obj hentries
  | .broken, h, _, _, _, _ => h.elim

theorem elements_renderItems : (js : List Json) → WrittenItems js → ∀ {n : Nat} {r : List Symbol},
    js ≠ [] → 2 * (renderItems js).length + 1 ≤ n →
    elements n ((renderItems js).map .char ++ .char ']' :: r) = (js, true, r)
  | [], _, _, _, hne, _ => absurd rfl hne
  | [j], h, n, r, _, hn => by
    obtain ⟨k, rfl⟩ : ∃ k, n = k + 1 := ⟨n - 1, by omega⟩
    rw [renderItems] at hn ⊢
    have hvalue := value_render j h.1 (n := k) (r := .char ']' :: r) (by omega)
      fun a ha => .inr (.inl (Option.some.inj ha).symm)
    rw [elements_succ h.1 hvalue]
    rfl
  | j :: j' :: js, h, n, r, _, hn => by
    obtain ⟨k, rfl⟩ : ∃ k, n = k + 1 := ⟨n - 1, by omega⟩
    have hrender : renderItems (j :: j' :: js) = render j ++ ',' :: renderItems (j' :: js) := rfl
    rw [hrender, List.length_append, List.length_cons] at hn
    have hvalue := value_render j h.1 (n := k)
      (r := .char ',' :: ((renderItems (j' :: js)).map .char ++ .char ']' :: r)) (by omega)
      fun a ha => .inl (Option.some.inj ha).symm
    have hrest := elements_renderItems (j' :: js) h.2 (n := k) (r := r) (List.cons_ne_nil _ _)
      (by omega)
    rw [hrender, List.map_append, List.append_assoc]
    refine (elements_succ h.1 hvalue).trans ?_
    show (let (js, closed, u) := elements k _; (j :: js, closed, u)) = _
    rw [hrest]

theorem entries_renderMembers : (ms : List (Body × Json)) → WrittenMembers ms →
    ∀ {n : Nat} {r : List Symbol}, ms ≠ [] → 2 * (renderMembers ms).length + 1 ≤ n →
    entries n ((renderMembers ms).map .char ++ .char '\x7d' :: r) = (ms, true, r)
  | [], _, _, _, hne, _ => absurd rfl hne
  | [(key, j)], h, n, r, _, hn => by
    obtain ⟨k, rfl⟩ : ∃ k, n = k + 1 := ⟨n - 1, by omega⟩
    rw [renderMembers, List.length_append, List.length_cons] at hn
    have hvalue := value_render j h.2.1 (n := k) (r := .char '\x7d' :: r) (by omega)
      fun a ha => .inr (.inr (Option.some.inj ha).symm)
    rw [renderMembers, List.map_append, List.append_assoc]
    refine (entries_succ h.1 h.2.1 hvalue).trans ?_
    rfl
  | (key, j) :: m :: ms, h, n, r, _, hn => by
    obtain ⟨k, rfl⟩ : ∃ k, n = k + 1 := ⟨n - 1, by omega⟩
    have hrender : renderMembers ((key, j) :: m :: ms)
        = key.render ++ ':' :: (render j ++ ',' :: renderMembers (m :: ms)) := by
      simp [renderMembers]
    rw [hrender, List.length_append, List.length_cons, List.length_append, List.length_cons] at hn
    have hvalue := value_render j h.2.1 (n := k)
      (r := .char ',' :: ((renderMembers (m :: ms)).map .char ++ .char '\x7d' :: r)) (by omega)
      fun a ha => .inl (Option.some.inj ha).symm
    have hrest := entries_renderMembers (m :: ms) h.2.2 (n := k) (r := r) (List.cons_ne_nil _ _)
      (by omega)
    rw [hrender, List.map_append, List.append_assoc, List.map_cons, List.map_append,
      List.cons_append, List.append_assoc]
    refine (entries_succ h.1 h.2.1 hvalue).trans ?_
    show (let (ms, closed, u) := entries k _; ((key, j) :: ms, closed, u)) = _
    rw [hrest]

end

/-- A whole text is read as the document that it was written for. -/
theorem ofSymbols_render {j : Json} (h : j.Written) :
    Document.ofSymbols (j.render.map .char) = ⟨j, false⟩ := by
  have hvalue := value_render j h (n := 2 * j.render.length + 2) (r := []) (by omega)
    fun a ha => nomatch ha
  rw [List.append_nil] at hvalue
  rw [Document.ofSymbols, parse, List.length_map, hvalue]
  rfl

end Json
end HazardDispatch
