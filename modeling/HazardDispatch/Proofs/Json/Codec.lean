import HazardDispatch.Proofs.Decimal.Readback
import HazardDispatch.Proofs.Json.Values
import HazardDispatch.Proofs.Table
import Mathlib.Data.List.Forall2

/-!
# Values and their text

`j.Spells read a` is the law of a codec at one value: the tree `j` can be written as a text, and it is
read as `a`. So what is read in the text of `j` is `a` (`Spells.reread`).

There is one lemma for each kind of leaf, for options, lists and tables, and `Record.Spells` joins the
fields of a record one by one, in the order in which they are written; the law of a message is put
together from the laws of its fields. In a list or a table a value may come back as another one
(`f a` for `a`), which is how a figure that is no number is told apart from the others.

A double need not come back as it was; `Json.Exact` says of one double that it does.
-/

namespace HazardDispatch

namespace Json

/-- The tree can be written, and is read as `a`. -/
structure Spells {α : Type} (j : Json) (read : Reader α) (a : α) : Prop where
  written : j.Written
  reads : read j = .ok a

/-- What is read in the text of a tree. -/
def reread {α : Type} (j : Json) (read : Reader α) : Except DecodeError α :=
  (Document.ofBytes (Utf8.bytes j.compact)).read read

/-- What is written for the double is read as the same double. -/
def Exact (x : Float) : Prop := (float x).asFloat = .ok x

section
variable {α β : Type} {j : Json} {read : Reader α} {a : α}

theorem Spells.decode (h : j.Spells read a) : (Payload.ofValue j).decode read = .ok a :=
  (Payload.decode_ofValue h.written read).trans h.reads

theorem Spells.reread (h : j.Spells read a) : j.reread read = .ok a := h.decode

theorem Spells.map (h : j.Spells read a) (f : α → β) : j.Spells (fun j => (read j).map f) (f a) :=
  ⟨h.written, by rw [h.reads, Except.map]⟩

end

/-- A double is exact if it is what its numeral is read as. -/
theorem exact_of_numeral {x : Float} {n : Decimal.Numeral}
    (hn : Decimal.Numeral.ofFloat? floatFormat x = some n) (hx : n.float? = some x) : Exact x := by
  rw [Exact, float, hn]
  dsimp only
  rw [asFloat, hx]

theorem exact_eight : Exact 8 := by
  refine exact_of_numeral (n := ⟨false, [8], [0], none⟩) (by decide +kernel) ?_
  have hscale : Decimal.Numeral.scale? (Float.ofNat 80) (-1) = some 8 := by
    rw [Decimal.Numeral.scale?, if_pos (by decide), Decimal.Numeral.shrink, if_pos (by decide)]
    decide +kernel
  exact congrArg (Option.map id) hscale

/-! ## leaves -/

theorem spells_text (s : String) : (text s).Spells asText s := ⟨written_text s, asText_text s⟩

theorem spells_char (c : Char) : (text c.toString).Spells asChar c :=
  ⟨written_text _, asChar_text c⟩

theorem spells_bool (b : Bool) : (bool b).Spells asBool b := ⟨trivial, rfl⟩

theorem spells_nat {n bound : Nat} (h : n < bound) : (nat n).Spells (asNat bound) n :=
  ⟨written_nat n, asNat_nat h⟩

theorem spells_word32 (w : UInt32) : (nat w.toNat).Spells asWord32 w := by
  have h := (spells_nat w.toNat_lt).map UInt32.ofNat
  rwa [UInt32.ofNat_toNat] at h

theorem spells_word64 (w : UInt64) : (nat w.toNat).Spells asWord64 w :=
  ⟨written_nat _, asWord64_nat w⟩

theorem spells_float {x : Float} (h : Exact x) : (float x).Spells asFloat x :=
  ⟨written_float x, h⟩

theorem spells_oneOf {α : Type} {names : List (String × α)} {name : String} {a : α}
    (h : names.lookup name = some a) : (text name).Spells (oneOf names) a := by
  refine ⟨written_text name, ?_⟩
  simp only [oneOf, variant, text, spelled_ofText, bind, Except.bind, h, Option.map_some, bare]

/-! ## options, lists and tables -/

section
variable {α β κ : Type} {read : Reader β} {write : α → Json} {f : α → β}

theorem spells_none : (option write none).Spells (asOption read) none := ⟨trivial, rfl⟩

/-- What is written for a value that is there must not be `null`. -/
theorem spells_some {a : α} {b : β} (h : (write a).Spells read b) (hnull : write a ≠ .null) :
    (option write (some a)).Spells (asOption read) (some b) := by
  refine ⟨h.written, ?_⟩
  have hread : asOption read (write a) = (read (write a)).map some := by
    cases hw : write a with
    | null => exact absurd hw hnull
    | bool b => rfl
    | num n => rfl
    | str b => rfl
    | arr items closed => rfl
    | obj members closed => rfl
    | broken => rfl
  rw [option, hread, h.reads, Except.map]

theorem spells_forall₂ {as : List α} {bs : List β}
    (h : List.Forall₂ (fun a b => (write a).Spells read b) as bs) :
    (list (as.map write)).Spells (asList read) bs where
  written := by
    refine written_list fun j hj => ?_
    induction h with
    | nil => cases hj
    | cons hab _ ih =>
      rcases List.mem_cons.mp hj with rfl | hj
      · exact hab.written
      · exact ih hj
  reads := by
    show asListItems read true (as.map write) = .ok bs
    induction h with
    | nil => rfl
    | cons hab _ ih =>
      rw [List.map_cons, asListItems, hab.reads, ih]
      rfl

theorem spells_list {as : List α} (h : ∀ a ∈ as, (write a).Spells read (f a)) :
    (list (as.map write)).Spells (asList read) (as.map f) :=
  spells_forall₂ (List.forall₂_map_right_iff.mpr (List.forall₂_same.mpr h))

variable {readKey : Body → Except DecodeError κ} {key : κ → String}

theorem spells_map {es : List (κ × α)} (hkey : ∀ k, readKey (Body.ofText (key k)) = .ok k)
    (h : ∀ e ∈ es, (write e.2).Spells read (f e.2)) :
    (Json.record (es.map fun e => (key e.1, write e.2))).Spells (asMap readKey read)
      (es.map fun e => (e.1, f e.2)) where
  written := written_record fun m hm => by
    obtain ⟨e, he, rfl⟩ := List.mem_map.mp hm
    exact (h e he).written
  reads := by
    show asEntries readKey read true ((es.map fun e => (key e.1, write e.2)).map fun m =>
      (Body.ofText m.1, m.2)) = .ok (es.map fun e => (e.1, f e.2))
    induction es with
    | nil => rfl
    | cons e es ih =>
      have hrest := ih fun e' he' => h e' (List.mem_cons_of_mem _ he')
      rw [List.map_cons, List.map_cons, asEntries, hkey, (h e List.mem_cons_self).reads, hrest]
      rfl

/-- The keys of a table are told apart by their texts, so no entry is lost. -/
theorem spells_table [Ord κ] [Std.TransOrd κ] {t : Table κ α}
    (hkey : ∀ k, readKey (Body.ofText (key k)) = .ok k)
    (h : ∀ e ∈ t.entries, (write e.2).Spells read (f e.2)) :
    (Json.record (t.entries.map fun e => (key e.1, write e.2))).Spells
      (fun j => (asMap readKey read j).map Table.ofEntries) (t.mapValues f) := by
  have hentries := (spells_map hkey h).map Table.ofEntries
  rwa [show t.entries.map (fun e => (e.1, f e.2)) = (t.mapValues f).entries from rfl,
    Table.ofEntries_entries] at hentries

end

/-! What comes back as it was. -/

section
variable {α κ : Type} {read : Reader α} {write : α → Json} {readKey : Body → Except DecodeError κ}
  {key : κ → String}

theorem spells_list_self {as : List α} (h : ∀ a ∈ as, (write a).Spells read a) :
    (list (as.map write)).Spells (asList read) as := by
  have hlist := spells_list (f := id) h
  rwa [List.map_id] at hlist

theorem spells_table_self [Ord κ] [Std.TransOrd κ] {t : Table κ α}
    (hkey : ∀ k, readKey (Body.ofText (key k)) = .ok k)
    (h : ∀ e ∈ t.entries, (write e.2).Spells read e.2) :
    (Json.record (t.entries.map fun e => (key e.1, write e.2))).Spells
      (fun j => (asMap readKey read j).map Table.ofEntries) t := by
  have hmap := (spells_map (f := id) hkey h).map Table.ofEntries
  rwa [show t.entries.map (fun e => (e.1, id e.2)) = t.entries from List.map_id _,
    Table.ofEntries_entries] at hmap

end
end Json

/-! ## records -/

namespace Record

/-- The members can be written, and are the fields of `a` in their order; some may be left out. -/
structure Spells {α : Type} (r : Record α) (ms : List (String × Json)) (a : α) : Prop where
  written : ∀ m ∈ ms, m.2.Written
  reads : r.Reads ms a

section
variable {α β : Type} {before : Record (β → α)} {f : Field β} {ms : List (String × Json)}
  {make : β → α} {b : β}

theorem spells_build (a : α) : (Record.build a).Spells [] a := ⟨by simp, .build a⟩

theorem Spells.field {j : Json} (h : before.Spells ms make) (value : j.Spells f.read b)
    (new : f.name ∉ before.names) : (before.field f).Spells (ms ++ [(f.name, j)]) (make b) where
  written m hm := by
    rcases List.mem_append.mp hm with hm | hm
    · exact h.written m hm
    · obtain rfl := List.mem_singleton.mp hm
      exact value.written
  reads := h.reads.field value.reads new

theorem Spells.absent (h : before.Spells ms make) (default : f.absent = some b)
    (new : f.name ∉ before.names) : (before.field f).Spells ms (make b) :=
  ⟨h.written, h.reads.absent default new⟩

theorem Spells.read {r : Record α} {a : α} (h : r.Spells ms a) :
    (Json.record ms).Spells r.read a :=
  ⟨Json.written_record h.written, h.reads.read⟩

end
end Record
end HazardDispatch
