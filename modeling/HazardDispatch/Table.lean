/-!
# Sorted tables

A finite map as a list of entries in increasing order of their keys. The order is part of the type,
so two tables with the same entries are equal, and what is listed from a table does not depend on
the order in which it was filled.

* `get? k`      the value at a key;
* `put k v`     sets the value at a key;
* `erase k`     removes a key;
* `ofEntries`   fills an empty table from the left, so that the last value of a key stays.

Main statements: `get?_put_self`, `get?_put_of_ne`, `get?_erase_self`, `get?_erase_of_ne`.
-/

namespace HazardDispatch

open Std

/-- Entries with increasing keys. -/
@[ext] structure Table (κ α : Type) [Ord κ] where
  entries : List (κ × α)
  sorted : entries.Pairwise fun a b => compare a.1 b.1 = .lt

namespace Table

variable {κ α β : Type} [Ord κ]

def empty : Table κ α := ⟨[], .nil⟩

instance : Inhabited (Table κ α) := ⟨empty⟩

instance [DecidableEq κ] [DecidableEq α] : DecidableEq (Table κ α) := fun a b =>
  decidable_of_iff (a.entries = b.entries) ⟨fun h => Table.ext h, fun h => h ▸ rfl⟩

instance [Repr κ] [Repr α] : Repr (Table κ α) := ⟨fun t n => reprPrec t.entries n⟩

def keys (t : Table κ α) : List κ := t.entries.map (·.1)

def values (t : Table κ α) : List α := t.entries.map (·.2)

def size (t : Table κ α) : Nat := t.entries.length

def get? (t : Table κ α) (k : κ) : Option α :=
  (t.entries.find? fun e => compare k e.1 == .eq).map (·.2)

def contains (t : Table κ α) (k : κ) : Bool := (t.get? k).isSome

/-- The entries with the value at a key set. -/
def putEntry (k : κ) (v : α) : List (κ × α) → List (κ × α)
  | [] => [(k, v)]
  | e :: es =>
    match compare k e.1 with
    | .lt => (k, v) :: e :: es
    | .eq => (k, v) :: es
    | .gt => e :: putEntry k v es

theorem mem_putEntry {k : κ} {v : α} {es : List (κ × α)} {x : κ × α}
    (h : x ∈ putEntry k v es) : x = (k, v) ∨ x ∈ es := by
  induction es with
  | nil => simpa [putEntry] using h
  | cons e es ih =>
    rw [putEntry] at h
    split at h <;> simp only [List.mem_cons] at h ⊢
    · exact h
    · rcases h with h | h
      · exact .inl h
      · exact .inr (.inr h)
    · rcases h with h | h
      · exact .inr (.inl h)
      · rcases ih h with h | h
        · exact .inl h
        · exact .inr (.inr h)

theorem sorted_putEntry [TransOrd κ] (k : κ) (v : α) (es : List (κ × α))
    (h : es.Pairwise fun a b => compare a.1 b.1 = .lt) :
    (putEntry k v es).Pairwise fun a b => compare a.1 b.1 = .lt := by
  induction es with
  | nil => simp [putEntry]
  | cons e es ih =>
    rw [List.pairwise_cons] at h
    rw [putEntry]
    split
    · next c =>
      refine .cons (fun x hx => ?_) (.cons h.1 h.2)
      rcases List.mem_cons.mp hx with rfl | hx
      · exact c
      · exact TransCmp.lt_trans c (h.1 x hx)
    · next c => exact .cons (fun x hx => TransCmp.lt_of_eq_of_lt c (h.1 x hx)) h.2
    · next c =>
      refine .cons (fun x hx => ?_) (ih h.2)
      rcases mem_putEntry hx with rfl | hx
      · exact OrientedCmp.lt_of_gt c
      · exact h.1 x hx

def put [TransOrd κ] (t : Table κ α) (k : κ) (v : α) : Table κ α :=
  ⟨putEntry k v t.entries, sorted_putEntry k v t.entries t.sorted⟩

/-- The table with the value at a key changed; `f` gets nothing if there is none yet. -/
def alter [TransOrd κ] (t : Table κ α) (k : κ) (f : Option α → α) : Table κ α :=
  t.put k (f (t.get? k))

/-- The table with the value at a key changed, if there is one. -/
def modify [TransOrd κ] (t : Table κ α) (k : κ) (f : α → α) : Table κ α :=
  match t.get? k with
  | some v => t.put k (f v)
  | none => t

def erase (t : Table κ α) (k : κ) : Table κ α :=
  ⟨t.entries.filter fun e => compare k e.1 != .eq, t.sorted.filter _⟩

/-- The table with `f` applied to every value. -/
def mapValues (t : Table κ α) (f : α → β) : Table κ β :=
  ⟨t.entries.map fun e => (e.1, f e.2), by
    rw [List.pairwise_map]; exact t.sorted⟩

/-- The table of a list of entries; the last value of a key stays. -/
def ofEntries [TransOrd κ] (es : List (κ × α)) : Table κ α :=
  es.foldl (fun t e => t.put e.1 e.2) empty

/-! ## looking up -/

@[simp] theorem get?_empty (k : κ) : (empty : Table κ α).get? k = none := rfl

@[simp] theorem get?_put_self [TransOrd κ] (t : Table κ α) (k : κ) (v : α) :
    (t.put k v).get? k = some v := by
  obtain ⟨es, hs⟩ := t
  simp only [get?, put]
  clear hs
  induction es with
  | nil => simp [putEntry]
  | cons e es ih =>
    rw [putEntry]
    split
    · simp
    · simp
    · next c => simp [c, ih]

theorem get?_put_of_ne [TransOrd κ] [LawfulEqOrd κ] (t : Table κ α) {k k' : κ} (v : α)
    (h : k' ≠ k) : (t.put k v).get? k' = t.get? k' := by
  obtain ⟨es, hs⟩ := t
  have hk : (compare k' k == .eq) = false := by
    rw [beq_eq_false_iff_ne]
    exact fun c => h (LawfulEqCmp.eq_of_compare c)
  simp only [get?, put]
  clear hs
  induction es with
  | nil => simp [putEntry, hk]
  | cons e es ih =>
    rw [putEntry]
    split
    · simp [List.find?_cons, hk]
    · next c =>
      obtain rfl : k = e.1 := LawfulEqCmp.eq_of_compare c
      simp [hk]
    · next c =>
      simp only [List.find?_cons]
      split <;> simp_all

@[simp] theorem get?_erase_self (t : Table κ α) (k : κ) : (t.erase k).get? k = none := by
  simp only [get?, erase, List.find?_filter]
  rw [Option.map_eq_none_iff, List.find?_eq_none]
  intro x _
  simp

theorem get?_erase_of_ne [TransOrd κ] [LawfulEqOrd κ] (t : Table κ α) {k k' : κ} (h : k' ≠ k) :
    (t.erase k).get? k' = t.get? k' := by
  simp only [get?, erase, List.find?_filter]
  congr 2
  funext e
  by_cases c : compare k' e.1 = .eq
  · have hk : compare k e.1 ≠ .eq := by
      intro d
      exact h ((LawfulEqCmp.eq_of_compare c).trans (LawfulEqCmp.eq_of_compare d).symm)
    simp [c, hk]
  · simp [c]

end Table
end HazardDispatch
