import HazardDispatch.Proofs.Table
import Mathlib.Algebra.BigOperators.Group.List.Basic
import Mathlib.Data.List.Sort

/-!
# Tables that gather items by a key

Accounts are kept by key: bytes by operation, figures by source, ruptures by group. Each item that
comes in changes the value at its own key only. `t.Gathers key P xs` says what such a table holds after
the items `xs`: the keys are those of the items, and the value at a key satisfies `P` together with the
items that have this key, in the order in which they came.

One more item is one `put` (`Gathers.put`). If `P` leaves no choice and does not look at the order, the
table does not depend on the order of the items either (`Gathers.eq_of_perm`).
-/

namespace HazardDispatch.Table

open Std

section
variable {κ α β : Type} [Ord κ] [TransOrd κ] [LawfulEqOrd κ]

theorem ext_get? {t t' : Table κ α} (h : ∀ k, t.get? k = t'.get? k) : t = t' := by
  have hirrefl : Std.Irrefl fun a b : κ × α => compare a.1 b.1 = .lt := by
    refine ⟨fun a ha => ?_⟩
    rw [ReflOrd.compare_self] at ha
    cases ha
  have hantisymm : Std.Antisymm fun a b : κ × α => compare a.1 b.1 = .lt := by
    refine ⟨fun a b hab hba => ?_⟩
    rw [OrientedCmp.gt_of_lt hab] at hba
    cases hba
  apply Table.ext
  apply List.Pairwise.eq_of_mem_iff t.sorted t'.sorted
  rintro ⟨k, v⟩
  rw [mem_entries_iff, mem_entries_iff, h k]

variable [DecidableEq κ]

structure Gathers (t : Table κ α) (key : β → κ) (P : α → List β → Prop) (xs : List β) : Prop where
  listed : ∀ k, t.get? k ≠ none ↔ k ∈ xs.map key
  gathered : ∀ k v, t.get? k = some v → P v (xs.filter fun x => key x = k)

variable {t t' : Table κ α} {key : β → κ} {P : α → List β → Prop} {xs xs' : List β}

omit [TransOrd κ] [LawfulEqOrd κ] in
theorem gathers_empty : (empty : Table κ α).Gathers key P [] where
  listed k := by simp
  gathered k v hv := by simp at hv

omit [TransOrd κ] [LawfulEqOrd κ] in
/-- What is not listed has no items. -/
theorem Gathers.filter_eq_nil (h : t.Gathers key P xs) {k : κ} (hk : t.get? k = none) :
    xs.filter (fun x => key x = k) = [] := by
  rw [List.filter_eq_nil_iff]
  intro x hx hkey
  have hmem : k ∈ xs.map key := List.mem_map.mpr ⟨x, hx, of_decide_eq_true hkey⟩
  exact (h.listed k).mpr hmem hk

omit [TransOrd κ] [LawfulEqOrd κ] in
/-- A start that is right for no items is right for a key that is not listed. -/
theorem Gathers.getD (h : t.Gathers key P xs) {a : α} (ha : P a []) (k : κ) :
    P ((t.get? k).getD a) (xs.filter fun x => key x = k) := by
  cases hk : t.get? k with
  | none =>
    rw [h.filter_eq_nil hk]
    exact ha
  | some v => exact h.gathered k v hk

/-- One more item. -/
theorem Gathers.put (h : t.Gathers key P xs) {x : β} {v : α}
    (hv : P v (xs.filter (fun y => key y = key x) ++ [x])) :
    (t.put (key x) v).Gathers key P (xs ++ [x]) := by
  constructor
  · intro k
    rw [get?_put, List.map_append, List.mem_append]
    by_cases hk : k = key x
    · simp [hk]
    · simp [hk, h.listed k]
  · intro k w hw
    rw [get?_put] at hw
    by_cases hk : k = key x
    · subst hk
      rw [if_pos rfl] at hw
      obtain rfl := Option.some.inj hw
      simpa using hv
    · rw [if_neg hk] at hw
      have hrest := h.gathered k w hw
      simpa [Ne.symm hk] using hrest

omit [Ord κ] [TransOrd κ] [LawfulEqOrd κ] in
/-- Items of different keys are counted apart. -/
theorem sum_filter_keys {ks : List κ} (g : β → Nat) (hks : ks.Nodup) (hall : ∀ x ∈ xs, key x ∈ ks) :
    (ks.map fun k => ((xs.filter fun x => key x = k).map g).sum).sum = (xs.map g).sum := by
  induction xs with
  | nil => simp
  | cons x xs ih =>
    have hrest := ih fun x' hx' => hall x' (List.mem_cons_of_mem _ hx')
    have hhead : (ks.map fun k => if key x = k then g x else 0).sum = g x := by
      rw [List.sum_map_eq_nsmul_single (key x) _ fun k hne _ => if_neg (Ne.symm hne),
        List.count_eq_one_of_mem hks (hall x List.mem_cons_self), if_pos rfl, one_nsmul]
    have hsplit : ∀ k, (((x :: xs).filter fun x => key x = k).map g).sum
        = (if key x = k then g x else 0) + ((xs.filter fun x => key x = k).map g).sum := by
      intro k
      by_cases hk : key x = k <;> simp [hk]
    simp only [hsplit]
    rw [List.sum_map_add, hhead, hrest, List.map_cons, List.sum_cons]

/-- With a sum at every key, the values have the sum of all items. -/
theorem Gathers.sum_values (h : t.Gathers key P xs) {f : α → Nat} {g : β → Nat}
    (hP : ∀ v ys, P v ys → f v = (ys.map g).sum) : (t.values.map f).sum = (xs.map g).sum := by
  have hvalues : t.values.map f
      = t.keys.map fun k => ((xs.filter fun x => key x = k).map g).sum := by
    rw [values, keys, List.map_map, List.map_map]
    apply List.map_congr_left
    rintro ⟨k, v⟩ he
    exact hP v _ (h.gathered k v ((mem_entries_iff _).mp he))
  rw [hvalues]
  refine sum_filter_keys g t.nodup_keys fun x hx => ?_
  exact t.mem_keys_iff.mpr ((h.listed _).mpr (List.mem_map_of_mem hx))

/-- With the values determined by the items of a key in any order, so is the table by all items. -/
theorem Gathers.eq_of_perm (h : t.Gathers key P xs) (h' : t'.Gathers key P xs') (hp : xs.Perm xs')
    (huniq : ∀ k v v', P v (xs.filter fun x => key x = k) → P v' (xs'.filter fun x => key x = k) →
      v = v') : t = t' := by
  apply ext_get?
  intro k
  have hlisted : t.get? k ≠ none ↔ t'.get? k ≠ none := by
    rw [h.listed, h'.listed, (hp.map key).mem_iff]
  cases hk : t.get? k with
  | none =>
    rw [hk] at hlisted
    exact (not_not.mp (hlisted.not.mp (not_not.mpr rfl))).symm
  | some v =>
    obtain ⟨v', hv'⟩ := Option.ne_none_iff_exists'.mp (hlisted.mp (hk ▸ Option.some_ne_none v))
    rw [hv', huniq k v v' (h.gathered k v hk) (h'.gathered k v' hv')]

end

end HazardDispatch.Table
