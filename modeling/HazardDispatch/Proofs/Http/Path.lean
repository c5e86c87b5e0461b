import HazardDispatch.Http.Url
import HazardDispatch.Proofs.Text.Percent
import Mathlib.Data.List.TakeWhile

/-!
# The segments of a target

Which route a request takes depends on the segments of its target only, and these depend on a part of
the address only: `Url.named`, what is left of the characters after the authority when those that do
not count are dropped, a query or a fragment is cut off and backslashes are slashes. The segments are
those between its slashes, with the dots walked and percent-encoded (`segments?_target`).
-/

namespace HazardDispatch

/-! ## cutting at separators -/

namespace Text

variable {sep : Char}

theorem pieces_cons {c : Char} (h : c ≠ sep) (cs : List Char) :
    ∃ p ps, pieces sep cs = p :: ps ∧ pieces sep (c :: cs) = (c :: p) :: ps := by
  obtain ⟨p, ps, hp⟩ := List.exists_cons_of_ne_nil (pieces_ne_nil sep cs)
  refine ⟨p, ps, hp, ?_⟩
  rw [pieces, if_neg h, hp]

theorem pieces_append_sep (a b : List Char) :
    pieces sep (a ++ sep :: b) = pieces sep a ++ pieces sep b := by
  induction a with
  | nil => simp [pieces]
  | cons c a ih =>
    by_cases hc : c = sep
    · rw [List.cons_append, pieces, if_pos hc, pieces, if_pos hc, ih, List.cons_append]
    · obtain ⟨p, ps, hp, hcons⟩ := pieces_cons hc a
      obtain ⟨q, qs, hq, hcons'⟩ := pieces_cons hc (a ++ sep :: b)
      rw [hp] at ih
      obtain ⟨rfl, rfl⟩ := List.cons.inj (ih.symm.trans hq)
      rw [List.cons_append, hcons', hcons]
      rfl

theorem pieces_of_not_mem {cs : List Char} (h : sep ∉ cs) : pieces sep cs = [cs] := by
  induction cs with
  | nil => rfl
  | cons c cs ih =>
    have hc : c ≠ sep := fun hc => h (hc ▸ List.mem_cons_self)
    rw [pieces, if_neg hc, ih fun hcs => h (List.mem_cons_of_mem _ hcs)]

theorem pieces_intercalate {ps : List (List Char)} (hne : ps ≠ []) (h : ∀ p ∈ ps, sep ∉ p) :
    pieces sep ([sep].intercalate ps) = ps := by
  induction ps with
  | nil => exact absurd rfl hne
  | cons p ps ih =>
    have hp := pieces_of_not_mem (h p List.mem_cons_self)
    cases ps with
    | nil => simpa [List.intercalate] using hp
    | cons q qs =>
      rw [List.intercalate_cons_cons, List.append_assoc, List.singleton_append, pieces_append_sep, hp,
        ih (List.cons_ne_nil q qs) fun r hr => h r (List.mem_cons_of_mem _ hr)]
      rfl

theorem of_mem_pieces {cs p : List Char} (h : p ∈ pieces sep cs) : sep ∉ p ∧ p.Sublist cs := by
  induction cs generalizing p with
  | nil =>
    rw [pieces, List.mem_singleton] at h
    subst h
    exact ⟨List.not_mem_nil, List.Sublist.refl _⟩
  | cons c cs ih =>
    by_cases hc : c = sep
    · rw [pieces, if_pos hc, List.mem_cons] at h
      rcases h with rfl | h
      · exact ⟨List.not_mem_nil, List.nil_sublist _⟩
      · exact ⟨(ih h).1, (ih h).2.trans (List.sublist_cons_self c cs)⟩
    · obtain ⟨q, qs, hq, hcons⟩ := pieces_cons hc cs
      rw [hcons, List.mem_cons] at h
      rcases h with rfl | h
      · have hin := ih (hq ▸ List.mem_cons_self)
        exact ⟨by simpa [Ne.symm hc] using hin.1, hin.2.cons_cons c⟩
      · have hin := ih (hq ▸ List.mem_cons_of_mem _ h)
        exact ⟨hin.1, hin.2.trans (List.sublist_cons_self c cs)⟩

end Text

/-! ## routes -/

namespace Http

section
variable {s : String} {p : Part} {ps : List Part} {segs r : List (List Char)}

theorem matchParts_nil_iff : matchParts [] segs = some r ↔ segs = [] ∧ r = [] := by
  cases segs with
  | nil => simp [matchParts, eq_comm]
  | cons seg segs => simp [matchParts]

theorem matchParts_fixed_iff :
    matchParts (.fixed s :: ps) segs = some r ↔
      ∃ rest, segs = s.toList :: rest ∧ matchParts ps rest = some r := by
  cases segs with
  | nil => simp [matchParts]
  | cons seg segs =>
    rw [matchParts]
    split
    · next h => simp [h]
    · next h => simp [Ne.symm h]

theorem matchParts_any_iff : matchParts (.any :: p :: ps) segs = some r ↔
    ∃ seg rest r', segs = seg :: rest ∧ r = seg :: r' ∧ matchParts (p :: ps) rest = some r' := by
  cases segs with
  | nil => simp [matchParts]
  | cons seg segs =>
    rw [matchParts, Option.map_eq_some_iff]
    · constructor
      · rintro ⟨r', hr', rfl⟩
        exact ⟨seg, segs, r', rfl, rfl, hr'⟩
      · rintro ⟨_, _, r', h, rfl, hr'⟩
        cases h
        exact ⟨r', hr', rfl⟩
    · exact nofun

end

end Http

namespace Http.Url

open Percent (encode encoded read)

/-! ## walking the dots -/

/-- The segments above the next one, when `s` has been walked. -/
def stepped (above : List (List Char)) (s : List Char) : List (List Char) :=
  if isDotDot s then above.tail else if isDot s then above else encode keptInPath s :: above

theorem walk_append (above xs : List (List Char)) {ys : List (List Char)} (hys : ys ≠ []) :
    walk above (xs ++ ys) = walk (xs.foldl stepped above) ys := by
  induction xs generalizing above with
  | nil => rfl
  | cons x xs ih =>
    obtain ⟨z, zs, hz⟩ := List.exists_cons_of_ne_nil (List.append_ne_nil_of_right_ne_nil xs hys)
    rw [List.foldl_cons, ← ih, List.cons_append, hz, walk, stepped]
    · split
      · rfl
      · split <;> rfl
    · exact List.cons_ne_nil z zs

/-- The segment is walked as it is. -/
def IsName (s : List Char) : Prop := isDot s = false ∧ isDotDot s = false

instance : DecidablePred IsName := fun s =>
  inferInstanceAs (Decidable (isDot s = false ∧ isDotDot s = false))

theorem toNat_toLower (c : Char) :
    c.toLower.toNat = if 65 ≤ c.toNat ∧ c.toNat ≤ 90 then c.toNat + 32 else c.toNat := by
  delta Char.toLower
  split
  · next h =>
    have hlow : 65 ≤ c.toNat := h.1
    have hhigh : c.toNat ≤ 90 := h.2
    rw [if_pos ⟨hlow, hhigh⟩]
    show (c.val + 32).toNat = _
    rw [UInt32.toNat_add]
    show (c.toNat + 32) % _ = _
    omega
  · next h =>
    rw [if_neg]
    exact h

/-- Only letters are the same in small letters as others. -/
theorem eq_of_toLower {c d : Char} (h : c.toLower = d) (hd : d.toNat < 97) : c = d := by
  have hnat := toNat_toLower c
  rw [h] at hnat
  apply Char.toNat_inj.mp
  split at hnat <;> omega

theorem escaped_of_toLower {s : List Char} (h : ['%', '2', 'e'] <:+: s.map Char.toLower) :
    Percent.Escaped s := by
  obtain ⟨front, back, h⟩ := h
  obtain ⟨l, r, rfl, hl, -⟩ := List.map_eq_append_iff.mp h.symm
  obtain ⟨l₁, l₂, rfl, -, hl₂⟩ := List.map_eq_append_iff.mp hl
  obtain ⟨a, as, rfl, ha, has⟩ := List.map_eq_cons_iff.mp hl₂
  obtain ⟨b, bs, rfl, hb, hbs⟩ := List.map_eq_cons_iff.mp has
  obtain ⟨e, rfl, he⟩ := List.map_eq_singleton_iff.mp hbs
  obtain rfl := eq_of_toLower ha (by decide)
  obtain rfl := eq_of_toLower hb (by decide)
  have hdigit : Percent.IsDigit e := by
    have hnat := toNat_toLower e
    rw [he] at hnat
    have h101 : 'e'.toNat = 101 := rfl
    rw [h101] at hnat
    rw [Percent.IsDigit, Hex.value?]
    split at hnat <;> grind
  exact ⟨'2', e, rfl, hdigit, l₁, r, by simp⟩

theorem isName_of_not_escaped {s : List Char} (h : ¬ Percent.Escaped s) (hdot : s ≠ ['.'])
    (hdots : s ≠ ['.', '.']) : IsName s := by
  have hone {c : Char} (hc : c.toLower = '.') : c = '.' := eq_of_toLower hc (by decide)
  have hnone : ¬ ['%', '2', 'e'] <:+: s.map Char.toLower := fun hin => h (escaped_of_toLower hin)
  constructor
  · rw [Bool.eq_false_iff]
    intro hs
    simp only [isDot, Bool.or_eq_true, beq_iff_eq] at hs
    rcases hs with hs | hs
    · obtain ⟨c, rfl, hc⟩ := List.map_eq_singleton_iff.mp hs
      obtain rfl := hone hc
      exact hdot rfl
    · exact hnone (hs ▸ List.infix_refl _)
  · rw [Bool.eq_false_iff]
    intro hs
    simp only [isDotDot, Bool.or_eq_true, beq_iff_eq] at hs
    rcases hs with ((hs | hs) | hs) | hs
    · obtain ⟨c, cs, rfl, hc, hcs⟩ := List.map_eq_cons_iff.mp hs
      obtain ⟨d, rfl, hd⟩ := List.map_eq_singleton_iff.mp hcs
      obtain rfl := hone hc
      obtain rfl := hone hd
      exact hdots rfl
    · exact hnone (hs ▸ ⟨['.'], [], rfl⟩)
    · exact hnone (hs ▸ ⟨[], ['.'], rfl⟩)
    · exact hnone (hs ▸ ⟨[], "%2e".toList, rfl⟩)

theorem walk_of_isName (above : List (List Char)) {segs : List (List Char)} (h : ∀ s ∈ segs, IsName s) :
    walk above segs = above.reverse ++ segs.map (encode keptInPath) := by
  induction segs generalizing above with
  | nil => rw [walk, List.map_nil, List.append_nil]
  | cons s segs ih =>
    obtain ⟨hdot, hdots⟩ := h s List.mem_cons_self
    cases segs with
    | nil => simp [walk, hdot, hdots]
    | cons t segs =>
      rw [walk, hdots, hdot, if_neg Bool.false_ne_true, if_neg Bool.false_ne_true,
        ih _ fun u hu => h u (List.mem_cons_of_mem _ hu)]
      · simp
      · exact List.cons_ne_nil t segs

theorem mem_stepped {above : List (List Char)} {s p : List Char} (h : p ∈ stepped above s) :
    p ∈ above ∨ IsName s ∧ p = encode keptInPath s := by
  unfold stepped at h
  split at h
  · exact .inl (List.mem_of_mem_tail h)
  · next hdots =>
    split at h
    · exact .inl h
    · next hdot =>
      rcases List.mem_cons.mp h with rfl | h
      · exact .inr ⟨⟨Bool.eq_false_iff.mpr hdot, Bool.eq_false_iff.mpr hdots⟩, rfl⟩
      · exact .inl h

theorem walk_cons_cons (above : List (List Char)) (s t : List Char) (segs : List (List Char)) :
    walk above (s :: t :: segs) = walk (stepped above s) (t :: segs) := by
  exact walk_append above [s] (List.cons_ne_nil t segs)

/-- The last segment is walked like the others, but dots leave it open. -/
theorem walk_singleton (above : List (List Char)) (s : List Char) :
    walk above [s] = (stepped above s).reverse ∨ walk above [s] = (stepped above s).reverse ++ [[]] := by
  rw [walk, stepped]
  split
  · exact .inr rfl
  · split
    · exact .inr rfl
    · exact .inl (by simp)

theorem mem_walk {above segs : List (List Char)} {p : List Char} (h : p ∈ walk above segs) :
    p ∈ above ∨ p = [] ∨ ∃ s ∈ segs, IsName s ∧ p = encode keptInPath s := by
  induction segs generalizing above with
  | nil => exact .inl (List.mem_reverse.mp h)
  | cons s segs ih =>
    have hstep (hp : p ∈ stepped above s) :
        p ∈ above ∨ p = [] ∨ ∃ t ∈ s :: segs, IsName t ∧ p = encode keptInPath t :=
      (mem_stepped hp).imp_right fun hname => .inr ⟨s, List.mem_cons_self, hname⟩
    cases segs with
    | nil =>
      rcases walk_singleton above s with hwalk | hwalk <;> rw [hwalk] at h
      · exact hstep (List.mem_reverse.mp h)
      · rcases List.mem_append.mp h with h | h
        · exact hstep (List.mem_reverse.mp h)
        · exact .inr (.inl (List.mem_singleton.mp h))
    | cons t segs =>
      rw [walk_cons_cons] at h
      rcases ih h with h | h | ⟨u, hu, hname⟩
      · exact hstep h
      · exact .inr (.inl h)
      · exact .inr (.inr ⟨u, List.mem_cons_of_mem _ hu, hname⟩)

theorem walk_ne_nil (above : List (List Char)) {segs : List (List Char)} (h : segs ≠ []) :
    walk above segs ≠ [] := by
  induction segs generalizing above with
  | nil => exact absurd rfl h
  | cons s segs ih =>
    cases segs with
    | nil =>
      rw [walk]
      split
      · simp
      · split <;> simp
    | cons t segs =>
      rw [walk_cons_cons]
      exact ih _ (List.cons_ne_nil t segs)

/-! ## what stands in a segment -/

/-- The character ends a segment. -/
def IsEnd (c : Char) : Prop := c = '/' ∨ c = '?' ∨ c = '#'

theorem keptInPath_of_isDigit {c : Char} (h : Percent.IsDigit c) : keptInPath c = true := by
  have hall : ∀ n < 128, Percent.IsDigit (Char.ofNat n) → keptInPath (Char.ofNat n) = true := by
    decide +kernel
  rw [← Char.ofNat_toNat c] at h ⊢
  exact hall c.toNat (Percent.lt_of_isDigit (Char.ofNat_toNat c ▸ h)) h

/-- What is asked for stands for the same as what was written. -/
theorem read_encode (s : List Char) : read (encode keptInPath s) = read s :=
  Percent.read_encode (by decide) (fun _ => keptInPath_of_isDigit) s

theorem not_isEnd_encode {s : List Char} (h : '/' ∉ s) {c : Char} (hc : c ∈ encode keptInPath s) :
    ¬ IsEnd c := by
  obtain ⟨d, hd, hc⟩ := List.mem_flatMap.mp hc
  split at hc
  · next hkept =>
    rw [List.mem_singleton] at hc
    subst hc
    rintro (rfl | rfl | rfl)
    · exact h hd
    · exact absurd hkept (by decide)
    · exact absurd hkept (by decide)
  · obtain ⟨b, -, hb⟩ := List.mem_flatMap.mp hc
    have hcapital {n : Nat} (hn : n < 16) : ¬ IsEnd (Hex.capital n) := by
      unfold IsEnd
      interval_cases n <;> decide
    have hlt := b.toNat_lt
    simp only [Percent.ofByte, List.mem_cons, List.not_mem_nil, or_false] at hb
    rcases hb with rfl | rfl | rfl
    · unfold IsEnd
      decide
    · exact hcapital (by omega)
    · exact hcapital (by omega)

theorem not_isEnd_walk {cs p : List Char} (h : p ∈ walk [] (Text.pieces '/' cs)) {c : Char}
    (hc : c ∈ p) : ¬ IsEnd c := by
  rcases mem_walk h with h | rfl | ⟨s, hs, -, rfl⟩
  · cases h
  · cases hc
  · exact not_isEnd_encode (Text.of_mem_pieces hs).1 hc

/-! ## the target -/

def slashed (cs : List Char) : List Char := cs.map fun c => if c = '\\' then '/' else c

theorem slashed_eq {cs : List Char} (h : '\\' ∉ cs) : slashed cs = cs := by
  have hmap : slashed cs = cs.map fun c => c := by
    refine List.map_congr_left fun c hc => if_neg ?_
    rintro rfl
    exact h hc
  rw [hmap, List.map_id']

/-- Parts without a slash have lost no backslash. -/
theorem sublist_of_slashed {p cs : List Char} (h : p.Sublist (slashed cs)) (hp : '/' ∉ p) :
    p.Sublist cs ∧ '\\' ∉ p := by
  obtain ⟨q, hq, rfl⟩ := List.sublist_map_iff.mp h
  have hback : '\\' ∉ q := fun hback => hp (List.mem_map.mpr ⟨_, hback, if_pos rfl⟩)
  have heq : (q.map fun c => if c = '\\' then '/' else c) = q := slashed_eq hback
  rw [heq]
  exact ⟨hq, hback⟩

def heeded (cs : List Char) : List Char := cs.filter (!isIgnored ·)

def trimmed (cs : List Char) : List Char :=
  (cs.reverse.dropWhile fun c => decide (c.toNat ≤ 0x20)).reverse

def named (cs : List Char) : List Char := slashed (pathOf (trimmed (heeded cs)))

/-- One slash at the front does not count. -/
def unslashed (cs : List Char) : List Char :=
  match cs with
  | '/' :: r => r
  | r => r

/-- The segments of the path that the characters after an authority ask for. -/
def asked (cs : List Char) : List (List Char) := walk [] (Text.pieces '/' (unslashed (named cs)))

theorem takeWhile_path (cs : List Char) :
    (cs.takeWhile (· != '#')).takeWhile (· != '?') = cs.takeWhile fun c => c != '?' && c != '#' := by
  rw [List.takeWhile_takeWhile]
  simp only [Bool.decide_and, Bool.decide_eq_true]

theorem targetOf_eq (cs : List Char) : ∃ query : List Char,
    (query = [] ∨ ∃ q, query = '?' :: q) ∧
    (targetOf (String.ofList cs)).toList = '/' :: List.intercalate ['/'] (asked cs) ++ query := by
  rw [targetOf, String.toList_ofList, String.toList_ofList]
  rw [asked, named, pathOf, ← takeWhile_path]
  refine ⟨?query, ?starts, ?target⟩
  case target => exact rfl
  split
  · exact .inr ⟨_, rfl⟩
  · exact .inl rfl

theorem not_isEnd_intercalate {segs : List (List Char)} (h : ∀ s ∈ segs, ∀ c ∈ s, ¬ IsEnd c) {c : Char}
    (hc : c ∈ ['/'].intercalate segs) : c = '/' ∨ ¬ IsEnd c := by
  induction segs with
  | nil => cases hc
  | cons s segs ih =>
    cases segs with
    | nil => exact .inr (h s List.mem_cons_self c (by simpa [List.intercalate] using hc))
    | cons t segs =>
      rw [List.intercalate_cons_cons, List.append_assoc, List.singleton_append, List.mem_append,
        List.mem_cons] at hc
      rcases hc with hc | hc | hc
      · exact .inr (h s List.mem_cons_self c hc)
      · exact .inl hc
      · exact ih (fun u hu => h u (List.mem_cons_of_mem _ hu)) hc

theorem segments?_targetOf (cs : List Char) :
    segments? (pathOf (targetOf (String.ofList cs)).toList) = some (asked cs) := by
  have hends : ∀ p ∈ asked cs, ∀ c ∈ p, ¬ IsEnd c := fun p hp c hc => not_isEnd_walk hp hc
  have hne : asked cs ≠ [] := walk_ne_nil [] (Text.pieces_ne_nil '/' (unslashed (named cs)))
  obtain ⟨query, hquery, htarget⟩ := targetOf_eq cs
  have hkeep : ∀ c ∈ '/' :: List.intercalate ['/'] (asked cs), (c != '?' && c != '#') = true := by
    intro c hc
    rcases List.mem_cons.mp hc with rfl | hc
    · decide
    · rcases not_isEnd_intercalate hends hc with rfl | hend
      · decide
      · simp only [IsEnd, not_or] at hend
        simp [hend.2.1, hend.2.2]
  have hpath : pathOf (targetOf (String.ofList cs)).toList
      = '/' :: List.intercalate ['/'] (asked cs) := by
    rw [htarget, pathOf, List.takeWhile_append_of_pos hkeep]
    rcases hquery with rfl | ⟨q, rfl⟩ <;> simp
  rw [hpath, segments?, Text.pieces_intercalate hne fun p hp hc => hends p hp _ hc (.inl rfl)]

/-! ## an address with a path joined to it -/

theorem heeded_append (xs ys : List Char) : heeded (xs ++ ys) = heeded xs ++ heeded ys :=
  List.filter_append ..

theorem heeded_eq {cs : List Char} (h : ∀ c ∈ cs, isIgnored c = false) : heeded cs = cs := by
  rw [heeded, List.filter_eq_self]
  intro c hc
  rw [h c hc]
  rfl

theorem heeded_heeded (cs : List Char) : heeded (heeded cs) = heeded cs :=
  heeded_eq fun c hc => by simpa using (List.mem_filter.mp hc).2

theorem trimmed_append (xs : List Char) {c : Char} (hc : 0x20 < c.toNat) (ys : List Char) :
    trimmed (xs ++ c :: ys) = xs ++ c :: trimmed ys := by
  have hstop : (c :: xs.reverse).dropWhile (fun c => decide (c.toNat ≤ 0x20)) = c :: xs.reverse := by
    rw [List.dropWhile_cons_of_neg]
    simpa using hc
  rw [trimmed, trimmed, List.reverse_append, List.reverse_cons, List.append_assoc,
    List.singleton_append, List.dropWhile_append, hstop]
  split
  · next hempty =>
    rw [List.isEmpty_iff.mp hempty]
    simp
  · simp

/-- Something after these characters is not part of the path. -/
def Stops (cs : List Char) : Prop := '?' ∈ cs ∨ '#' ∈ cs

theorem pathOf_append_of_stops {xs : List Char} (h : Stops xs) (ys : List Char) :
    pathOf (xs ++ ys) = pathOf xs := by
  rw [pathOf, pathOf, List.takeWhile_append, if_neg]
  intro hlength
  have hall := List.takeWhile_eq_self_iff.mp (List.takeWhile_prefix _ |>.eq_of_length hlength)
  rcases h with h | h
  · exact absurd (hall _ h) (by decide)
  · exact absurd (hall _ h) (by decide)

theorem pathOf_append {xs : List Char} (h : ¬ Stops xs) (ys : List Char) :
    pathOf (xs ++ ys) = xs ++ pathOf ys := by
  rw [pathOf, List.takeWhile_append_of_pos]
  · rfl
  · intro c hc
    rw [Bool.and_eq_true, bne_iff_ne, bne_iff_ne]
    exact ⟨fun hc' => h (.inl (hc' ▸ hc)), fun hc' => h (.inr (hc' ▸ hc))⟩

theorem pathOf_eq {cs : List Char} (h : ¬ Stops cs) : pathOf cs = cs := by
  have happend := pathOf_append h []
  rwa [List.append_nil, pathOf, pathOf, List.takeWhile_nil, List.append_nil] at happend

theorem asked_append {front : List Char} (hends : ∀ c ∈ front.head?, endsAuthority c = true)
    (hheeded : ∀ c ∈ front, isIgnored c = false) :
    (∀ cs cs', asked (front ++ '/' :: cs) = asked (front ++ '/' :: cs')) ∨
      ∃ above, ∀ cs, asked (front ++ '/' :: cs) = walk above (Text.pieces '/' (named cs)) := by
  have htrimmed (cs : List Char) :
      trimmed (heeded (front ++ '/' :: cs)) = front ++ '/' :: trimmed (heeded cs) := by
    rw [heeded_append, heeded_eq hheeded]
    exact trimmed_append front (by decide) _
  by_cases hstops : Stops front
  · refine .inl fun cs cs' => ?_
    rw [asked, asked, named, named, htrimmed, htrimmed, pathOf_append_of_stops hstops,
      pathOf_append_of_stops hstops]
  have hnamed (cs : List Char) : named (front ++ '/' :: cs) = slashed front ++ '/' :: named cs := by
    rw [named, htrimmed, pathOf_append hstops, slashed, List.map_append]
    rfl
  right
  cases front with
  | nil => exact ⟨[], fun cs => by rw [asked, hnamed]; rfl⟩
  | cons c front =>
    have hslash : slashed (c :: front) = '/' :: slashed front := by
      have hc : c = '/' ∨ c = '\\' := by
        have hends := hends c rfl
        simp only [endsAuthority, Bool.or_eq_true, beq_iff_eq] at hends
        rcases hends with ((hc | hc) | hc) | hc
        · exact .inl hc
        · exact absurd (.inl (hc ▸ List.mem_cons_self)) hstops
        · exact absurd (.inr (hc ▸ List.mem_cons_self)) hstops
        · exact .inr hc
      rcases hc with rfl | rfl <;> rfl
    refine ⟨(Text.pieces '/' (slashed front)).foldl stepped [], fun cs => ?_⟩
    rw [asked, hnamed, hslash, ← walk_append _ _ (Text.pieces_ne_nil _ _), ← Text.pieces_append_sep]
    rfl

def rest (address : String) : List Char := (afterScheme address).dropWhile (!endsAuthority ·)

def isSlash (c : Char) : Bool := c == '/' || c == '\\'

/-- The address that is joined to `base` has no scheme, or no authority of its own, or else the part
after the authority of the joint address ends in what is joined. -/
theorem rest_append (base : List Char) :
    (∀ cs, ':' ∉ heeded cs → rest (String.ofList (base ++ '/' :: cs)) = []) ∨
    (∀ cs, rest (String.ofList (base ++ '/' :: cs))
      = ((heeded cs).dropWhile isSlash).dropWhile (!endsAuthority ·)) ∨
    ∃ front, (∀ c ∈ front.head?, endsAuthority c = true) ∧ (∀ c ∈ front, isIgnored c = false) ∧
      ∀ cs, rest (String.ofList (base ++ '/' :: cs)) = front ++ '/' :: heeded cs := by
  have hrest (cs : List Char) : rest (String.ofList (base ++ '/' :: cs))
      = ((((heeded base ++ '/' :: heeded cs).dropWhile (· != ':')).drop 1).dropWhile isSlash).dropWhile
        (!endsAuthority ·) := by
    have hheeded : heeded (base ++ '/' :: cs) = heeded base ++ '/' :: heeded cs :=
      heeded_append base ('/' :: cs)
    rw [← hheeded, rest, afterScheme, String.toList_ofList]
    rfl
  simp only [hrest]
  cases hscheme : (heeded base).dropWhile (· != ':') with
  | nil =>
    refine .inl fun cs hcs => ?_
    have hnone : (heeded base ++ '/' :: heeded cs).dropWhile (· != ':') = [] := by
      rw [List.dropWhile_append, hscheme, List.isEmpty_nil, if_pos rfl, List.dropWhile_eq_nil_iff]
      intro c hc
      rw [bne_iff_ne]
      rintro rfl
      exact (List.mem_cons.mp hc).elim (by decide) hcs
    rw [hnone]
    rfl
  | cons colon after =>
    right
    have hafter (cs : List Char) : ((heeded base ++ '/' :: heeded cs).dropWhile (· != ':')).drop 1
        = after ++ '/' :: heeded cs := by
      rw [List.dropWhile_append, hscheme]
      rfl
    have hsplit (cs : List Char) : (after ++ '/' :: heeded cs).dropWhile isSlash =
        if (after.dropWhile isSlash).isEmpty then ('/' :: heeded cs).dropWhile isSlash
        else after.dropWhile isSlash ++ '/' :: heeded cs := List.dropWhile_append
    simp only [hafter, hsplit]
    cases hhost : after.dropWhile isSlash with
    | nil => exact .inl fun cs => rfl
    | cons c host =>
      refine .inr ⟨(c :: host).dropWhile (!endsAuthority ·), ?_, ?_, fun cs => ?_⟩
      · intro d hd
        have hnot := List.head?_dropWhile_not (!endsAuthority ·) (c :: host)
        rw [Option.mem_def.mp hd] at hnot
        simpa using hnot
      · intro d hd
        have hhost : c :: host <:+ after := hhost ▸ List.dropWhile_suffix _
        have hbase : colon :: after <:+ heeded base := hscheme ▸ List.dropWhile_suffix _
        have hd : d ∈ heeded base := hbase.subset
          (List.mem_cons_of_mem _ (hhost.subset ((List.dropWhile_suffix _).subset hd)))
        simpa using (List.mem_filter.mp hd).2
      · rw [List.isEmpty_cons, if_neg Bool.false_ne_true, List.dropWhile_append]
        split
        · next hempty => rw [List.isEmpty_iff.mp hempty]; rfl
        · rfl

end Http.Url
end HazardDispatch
