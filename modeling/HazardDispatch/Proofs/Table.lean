import HazardDispatch.Table
import Mathlib.Algebra.GroupWithZero.Nat

/-!
# Looking up in sorted tables

What `get?` finds after each operation, for all keys at once, and the entries of a table as its
graph: since the keys are increasing, a pair is an entry exactly when `get?` finds it.
-/

namespace HazardDispatch.Table

open Std

theorem contains_eq_false_iff {κ α : Type} [Ord κ] (t : Table κ α) (k : κ) :
    t.contains k = false ↔ t.get? k = none := by
  rw [contains, Option.isSome_eq_false_iff, Option.isNone_iff_eq_none]

section
variable {κ α : Type} [Ord κ] [TransOrd κ] [LawfulEqOrd κ] [DecidableEq κ]

theorem get?_put (t : Table κ α) (k k' : κ) (v : α) :
    (t.put k v).get? k' = if k' = k then some v else t.get? k' := by
  by_cases h : k' = k
  · rw [if_pos h, h, get?_put_self]
  · rw [if_neg h, get?_put_of_ne t v h]

theorem get?_erase (t : Table κ α) (k k' : κ) :
    (t.erase k).get? k' = if k' = k then none else t.get? k' := by
  by_cases h : k' = k
  · rw [if_pos h, h, get?_erase_self]
  · rw [if_neg h, get?_erase_of_ne t h]

end

theorem get?_mapValues {κ α β : Type} [Ord κ] (t : Table κ α) (f : α → β) (k : κ) :
    (t.mapValues f).get? k = (t.get? k).map f := by
  rw [get?, mapValues, List.find?_map, get?, Option.map_map, Option.map_map]
  rfl

/-! ## entries -/

section
variable {κ α : Type} [Ord κ]

/-- With increasing keys, the first entry that has a key is the only one. -/
theorem find?_of_mem [TransOrd κ] {es : List (κ × α)}
    (hs : es.Pairwise fun a b => compare a.1 b.1 = .lt) {k : κ} {v : α} (h : (k, v) ∈ es) :
    es.find? (fun e => compare k e.1 == .eq) = some (k, v) := by
  induction es with
  | nil => exact absurd h List.not_mem_nil
  | cons e es ih =>
    rw [List.pairwise_cons] at hs
    rcases List.mem_cons.mp h with rfl | h
    · rw [List.find?_cons_of_pos]
      simp
    · have hlt : compare e.1 k = .lt := hs.1 (k, v) h
      rw [List.find?_cons_of_neg]
      · exact ih hs.2 h
      · rw [OrientedCmp.gt_of_lt hlt]
        simp

theorem mem_entries_iff [TransOrd κ] [LawfulEqOrd κ] (t : Table κ α) {k : κ} {v : α} :
    (k, v) ∈ t.entries ↔ t.get? k = some v := by
  constructor
  · intro h
    rw [get?, find?_of_mem t.sorted h]
    rfl
  · intro h
    obtain ⟨e, he, rfl⟩ := Option.map_eq_some_iff.mp h
    have hk : k = e.1 := by simpa using List.find?_some he
    rw [hk]
    exact List.mem_of_find?_eq_some he

theorem mem_keys_iff [TransOrd κ] [LawfulEqOrd κ] (t : Table κ α) {k : κ} :
    k ∈ t.keys ↔ t.get? k ≠ none := by
  rw [Option.ne_none_iff_exists', keys, List.mem_map]
  constructor
  · rintro ⟨e, he, rfl⟩
    exact ⟨e.2, t.mem_entries_iff.mp he⟩
  · rintro ⟨v, hv⟩
    exact ⟨(k, v), t.mem_entries_iff.mpr hv, rfl⟩

theorem nodup_keys [TransOrd κ] (t : Table κ α) : t.keys.Nodup := by
  rw [keys, List.nodup_iff_pairwise_ne, List.pairwise_map]
  refine t.sorted.imp fun {a b} hlt he => ?_
  rw [he, ReflOrd.compare_self] at hlt
  cases hlt

end

/-! ## filling -/

section
variable {κ α : Type} [Ord κ] [TransOrd κ]

theorem putEntry_of_lt {es : List (κ × α)} {k : κ} {v : α} (h : ∀ e ∈ es, compare e.1 k = .lt) :
    putEntry k v es = es ++ [(k, v)] := by
  induction es with
  | nil => rfl
  | cons e es ih =>
    have hgt : compare k e.1 = .gt := OrientedCmp.gt_of_lt (h e List.mem_cons_self)
    have hrest := ih fun e' he' => h e' (List.mem_cons_of_mem _ he')
    simp [putEntry, hgt, hrest]

theorem entries_foldl_put {es : List (κ × α)} (t : Table κ α)
    (h : (t.entries ++ es).Pairwise fun a b => compare a.1 b.1 = .lt) :
    (es.foldl (fun t e => t.put e.1 e.2) t).entries = t.entries ++ es := by
  induction es generalizing t with
  | nil => simp
  | cons e es ih =>
    have hput : (t.put e.1 e.2).entries = t.entries ++ [e] :=
      putEntry_of_lt fun e' he' => (List.pairwise_append.mp h).2.2 e' he' e List.mem_cons_self
    have hsplit : t.entries ++ e :: es = (t.put e.1 e.2).entries ++ es := by simp [hput]
    rw [hsplit] at h ⊢
    exact ih _ h

@[simp] theorem ofEntries_entries (t : Table κ α) : ofEntries t.entries = t := by
  apply Table.ext
  exact entries_foldl_put empty t.sorted

end

/-! ## sums -/

section
variable {κ α : Type} [Ord κ] [TransOrd κ]

omit [TransOrd κ] in
theorem find?_of_lt_all {es : List (κ × α)} {k : κ} (h : ∀ e ∈ es, compare k e.1 = .lt) :
    es.find? (fun e => compare k e.1 == .eq) = none := by
  rw [List.find?_eq_none]
  intro e he
  rw [h e he]
  decide

theorem sum_putEntry {es : List (κ × α)} (hs : es.Pairwise fun a b => compare a.1 b.1 = .lt)
    (k : κ) (v : α) (f : α → Nat) :
    ((putEntry k v es).map fun e => f e.2).sum
        + ((es.find? fun e => compare k e.1 == .eq).map (·.2)).elim 0 f
      = (es.map fun e => f e.2).sum + f v := by
  induction es with
  | nil => simp [putEntry]
  | cons e es ih =>
    rw [List.pairwise_cons] at hs
    rw [putEntry]
    cases hc : compare k e.1 with
    | lt =>
      have hnone : (e :: es).find? (fun e => compare k e.1 == .eq) = none := by
        refine find?_of_lt_all fun x hx => ?_
        rcases List.mem_cons.mp hx with rfl | hx
        · exact hc
        · exact TransCmp.lt_trans hc (hs.1 x hx)
      rw [hnone]
      simp only [List.map_cons, List.sum_cons, Option.map_none, Option.elim_none]
      omega
    | eq =>
      rw [List.find?_cons_of_pos (by rw [hc]; decide)]
      simp only [List.map_cons, List.sum_cons, Option.map_some, Option.elim_some]
      omega
    | gt =>
      rw [List.find?_cons_of_neg (by rw [hc]; decide)]
      have hrest := ih hs.2
      simp only [List.map_cons, List.sum_cons]
      omega

/-- A sum over all values changes by what the new value has more than the old one. -/
theorem sum_values_put (t : Table κ α) (k : κ) (v : α) (f : α → Nat) :
    ((t.put k v).values.map f).sum + (t.get? k).elim 0 f = (t.values.map f).sum + f v := by
  have h := sum_putEntry t.sorted k v f
  simp only [values, List.map_map]
  exact h

end

/-! ## new keys -/

/-- There are more names than any list has. -/
theorem exists_not_mem_names (names : List String) : ∃ s, s ∉ names := by
  have hlong : ∃ n, ∀ s ∈ names, s.length < n := by
    induction names with
    | nil => exact ⟨0, fun s hs => absurd hs List.not_mem_nil⟩
    | cons s names ih =>
      obtain ⟨n, hn⟩ := ih
      refine ⟨n + s.length + 1, fun s' hs' => ?_⟩
      rcases List.mem_cons.mp hs' with rfl | hs'
      · omega
      · have := hn s' hs'
        omega
  obtain ⟨n, hn⟩ := hlong
  refine ⟨String.ofList (List.replicate n 'a'), fun hmem => ?_⟩
  have hlt := hn _ hmem
  simp at hlt

/-- A table whose keys are names lacks one, which may be none of the given ones either. -/
theorem exists_new_key {κ α : Type} [Ord κ] [TransOrd κ] [LawfulEqOrd κ] {name : String → κ}
    (text : κ → String) (h : ∀ s, text (name s) = s) (t : Table κ α) (used : List κ) :
    ∃ k, t.get? k = none ∧ k ∉ used := by
  obtain ⟨s, hs⟩ := exists_not_mem_names ((t.keys ++ used).map text)
  have hnew : name s ∉ t.keys ++ used := fun hmem => hs (h s ▸ List.mem_map_of_mem hmem)
  refine ⟨name s, ?_, fun hmem => hnew (List.mem_append_right _ hmem)⟩
  cases hget : t.get? (name s) with
  | none => rfl
  | some v =>
    have hkey : name s ∈ t.keys := List.mem_map.mpr ⟨(name s, v), (mem_entries_iff t).mpr hget, rfl⟩
    exact absurd (List.mem_append_left _ hkey) hnew

end HazardDispatch.Table
