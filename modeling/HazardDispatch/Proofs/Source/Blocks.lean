import HazardDispatch.Proofs.Source.Plan
import Mathlib.Data.List.Chain

/-!
# The blocks of a list

Cutting a list goes on from an open block, whose weight is counted in a word that stops at the
greatest one (`Filled`). What is true of the open block is true of every block in the end: it is a
single item or within the limit (`fits_of_mem_blocks`). A block is closed for one reason only, that
the next item does not go into it, so a block and the first item of the next one are always above
the limit (`isChain_blocks`).

Two blocks that follow each other therefore outweigh the limit together, and half the number of the
blocks times the limit is less than what the list weighs (`half_length_blocks`).

No other split of the list has fewer blocks. The blocks of two splits can be compared one by one: a
block that is closed for the one reason reaches at least as far as the block of any other split that
began no later (`suffix_of_full`), so after as many blocks no more is left
(`length_le_of_isChain_full`).
-/

namespace HazardDispatch.Split

variable {α : Type} {weight : α → UInt64} {limit : UInt64}

def load (weight : α → UInt64) (items : List α) : Nat := Word64.natSum (items.map weight)

@[simp] theorem load_nil : load weight [] = 0 := rfl

@[simp] theorem load_cons (x : α) (xs : List α) :
    load weight (x :: xs) = (weight x).toNat + load weight xs := rfl

@[simp] theorem load_append (xs ys : List α) :
    load weight (xs ++ ys) = load weight xs + load weight ys := by
  simp [load, Word64.natSum]

theorem load_flatten (bs : List (List α)) :
    load weight bs.flatten = (bs.map (load weight)).sum := by
  induction bs with
  | nil => rfl
  | cons b bs ih => simp [ih]

/-! ## the open block -/

/-- The word is the weight of the block, as far as a word goes. -/
def Filled (weight : α → UInt64) (block : List α) (filled : UInt64) : Prop :=
  filled.toNat = min (load weight block) Word64.greatest

theorem filled_nil : Filled weight [] 0 := rfl

theorem Filled.push {block : List α} {filled : UInt64} (h : Filled weight block filled) (x : α) :
    Filled weight (block ++ [x]) (Word64.satAdd filled (weight x)) := by
  have hstep := Word64.toNat_satAdd filled (weight x)
  unfold Filled at h ⊢
  simp only [load_append, load_cons, load_nil, hstep, h]
  omega

theorem filled_singleton (x : α) : Filled weight [x] (Word64.satAdd 0 (weight x)) :=
  filled_nil.push x

/-- The block is an item by itself, or its weight is counted as within the limit. -/
def Fits (limit : UInt64) (weight : α → UInt64) (block : List α) : Prop :=
  block.length ≤ 1 ∨ min (load weight block) Word64.greatest ≤ limit.toNat

theorem fits_of_mem_blocksFrom {items block b : List α} {filled : UInt64}
    (hfilled : Filled weight block filled) (hfits : Fits limit weight block)
    (h : b ∈ blocksFrom limit weight block filled items) : Fits limit weight b := by
  induction items generalizing block filled with
  | nil =>
    rw [blocksFrom] at h
    split at h
    · cases h
    · obtain rfl := List.mem_singleton.mp h
      exact hfits
  | cons x xs ih =>
    rw [blocksFrom] at h
    split at h
    · rcases List.mem_cons.mp h with rfl | h
      · exact hfits
      · exact ih (filled_singleton x) (.inl (Nat.le_refl 1)) h
    · next hstays =>
      refine ih (hfilled.push x) ?_ h
      simp only [Bool.and_eq_true, Bool.not_eq_true', List.isEmpty_eq_false_iff,
        decide_eq_true_eq, not_and, UInt64.not_lt] at hstays
      rcases block.eq_nil_or_concat with rfl | ⟨ys, y, rfl⟩
      · exact .inl (Nat.le_refl 1)
      · have hle := UInt64.le_iff_toNat_le.mp (hstays (by simp))
        rw [hfilled.push x] at hle
        exact .inr hle

/-- A block is a single item, or it is within the limit. -/
theorem fits_of_mem_blocks {items b : List α} (h : b ∈ blocks limit weight items) :
    Fits limit weight b :=
  fits_of_mem_blocksFrom filled_nil (.inl (Nat.zero_le 1)) h

theorem load_le_of_mem_blocks {items b : List α} (h : b ∈ blocks limit weight items) :
    load weight b ≤ load weight items := by
  have hflat : (blocks limit weight items).flatten = items :=
    flatten_blocksFrom limit weight items [] 0
  obtain ⟨before, after, hsplit⟩ := List.append_of_mem h
  rw [← hflat, hsplit]
  simp
  omega

/-- Within the limit in full: nothing is cut off where a word holds the weight of the list, or
where the limit is less than the greatest word. -/
theorem load_le_limit_of_mem_blocks {items b : List α} (h : b ∈ blocks limit weight items)
    (hexact : limit.toNat < Word64.greatest ∨ load weight items < Word64.bound) :
    b.length ≤ 1 ∨ load weight b ≤ limit.toNat := by
  have hle := load_le_of_mem_blocks h
  have hgreatest : Word64.greatest + 1 = Word64.bound := rfl
  rcases fits_of_mem_blocks h with hone | hmin
  · exact .inl hone
  · right
    omega

/-! ## blocks that follow each other -/

/-- The first item of the second block does not go into the first one. -/
def Full (limit : UInt64) (weight : α → UInt64) (b c : List α) : Prop :=
  ∃ x, c.head? = some x ∧ limit.toNat < load weight b + (weight x).toNat

theorem Full.lt_load {b c : List α} (h : Full limit weight b c) :
    limit.toNat < load weight b + load weight c := by
  obtain ⟨x, hx, hlt⟩ := h
  obtain ⟨ys, rfl⟩ := List.head?_eq_some_iff.mp hx
  rw [load_cons]
  omega

/-- The first block is the open one, with what is put into it. -/
theorem isPrefix_of_mem_head {items block b : List α} {filled : UInt64}
    (h : b ∈ (blocksFrom limit weight block filled items).head?) : block <+: b := by
  induction items generalizing block filled with
  | nil =>
    rw [blocksFrom] at h
    split at h
    · cases h
    · cases h
      exact List.prefix_rfl
  | cons x xs ih =>
    rw [blocksFrom] at h
    split at h
    · cases h
      exact List.prefix_rfl
    · exact (List.prefix_append block [x]).trans (ih h)

theorem isChain_blocksFrom {items block : List α} {filled : UInt64}
    (hfilled : Filled weight block filled) :
    (blocksFrom limit weight block filled items).IsChain (Full limit weight) := by
  induction items generalizing block filled with
  | nil =>
    rw [blocksFrom]
    split
    · exact .nil
    · exact .singleton block
  | cons x xs ih =>
    rw [blocksFrom]
    split
    · next hcloses =>
      refine List.isChain_cons.mpr ⟨?_, ih (filled_singleton x)⟩
      intro c hc
      obtain ⟨ys, rfl⟩ := isPrefix_of_mem_head hc
      refine ⟨x, rfl, ?_⟩
      simp only [Bool.and_eq_true, decide_eq_true_eq] at hcloses
      have hlt := UInt64.lt_iff_toNat_lt.mp hcloses.2
      rw [hfilled.push x, load_append, load_cons, load_nil] at hlt
      omega
    · exact ih (hfilled.push x)

/-- A block is closed only if the next item does not go into it. -/
theorem isChain_blocks (items : List α) :
    (blocks limit weight items).IsChain (Full limit weight) :=
  isChain_blocksFrom filled_nil

/-! ## how many blocks there are -/

/-- Pair the terms up: each pair is above `m`. -/
theorem half_length_mul_le_sum {m : Nat} {ws : List Nat} (h : ws.IsChain fun a b => m < a + b) :
    ws.length / 2 * (m + 1) ≤ ws.sum := by
  induction ws using List.twoStepInduction with
  | nil => simp
  | singleton a => simp
  | cons_cons a b ws ih _ =>
    rw [List.isChain_cons_cons] at h
    have hrest := ih h.2.of_cons
    have hhalf : (a :: b :: ws).length / 2 = ws.length / 2 + 1 := by
      simp only [List.length_cons]
      omega
    have hpair : m < a + b := h.1
    simp only [hhalf, List.sum_cons, Nat.add_mul]
    omega

/-- Every second block and the one after it take more than the limit off the weight of the list. -/
theorem half_length_blocks (items : List α) :
    (blocks limit weight items).length / 2 * (limit.toNat + 1) ≤ load weight items := by
  have hflat : (blocks limit weight items).flatten = items :=
    flatten_blocksFrom limit weight items [] 0
  have hloads : ((blocks limit weight items).map (load weight)).IsChain
      fun a b => limit.toNat < a + b := by
    rw [List.isChain_map]
    exact (isChain_blocks items).imp fun _ _ hfull => hfull.lt_load
  have hsum := half_length_mul_le_sum hloads
  rw [List.length_map, ← load_flatten, hflat] at hsum
  exact hsum

/-! ## the fewest blocks -/

/-- The block may be made: it is a single item, or it is within the limit. -/
structure Admissible (limit : UInt64) (weight : α → UInt64) (block : List α) : Prop where
  ne_nil : block ≠ []
  fits : block.length ≤ 1 ∨ load weight block ≤ limit.toNat

/-- A way to cut the items into blocks that may be made. -/
structure Splits (limit : UInt64) (weight : α → UInt64) (items : List α) (bs : List (List α)) :
    Prop where
  whole : bs.flatten = items
  admissible : ∀ b ∈ bs, Admissible limit weight b

theorem splits_blocks {items : List α}
    (hexact : limit.toNat < Word64.greatest ∨ load weight items < Word64.bound) :
    Splits limit weight items (blocks limit weight items) where
  whole := flatten_blocksFrom limit weight items [] 0
  admissible _ hb :=
    ⟨ne_nil_of_mem_blocksFrom limit weight hb, load_le_limit_of_mem_blocks hb hexact⟩

theorem le_load_of_mem (weight : α → UInt64) {b : List α} {x : α} (h : x ∈ b) :
    (weight x).toNat ≤ load weight b := by
  obtain ⟨before, after, rfl⟩ := List.append_of_mem h
  rw [load_append, load_cons]
  omega

/-- An item that is above the limit goes with no other. -/
theorem Admissible.eq_singleton {b : List α} {x : α} (h : Admissible limit weight b) (hx : x ∈ b)
    (hheavy : limit < weight x) : b = [x] := by
  have hload := le_load_of_mem weight hx
  have hlt := UInt64.lt_iff_toNat_lt.mp hheavy
  have hpos := List.length_pos_of_ne_nil h.ne_nil
  have hfits := h.fits
  have hone : b.length = 1 := by omega
  obtain ⟨y, rfl⟩ := List.length_eq_one_iff.mp hone
  rw [List.mem_singleton.mp hx]

/-- A block does not go on with the item that it was closed for. -/
theorem not_admissible_of_full {front b rest : List α} {x : α} (hb : b ≠ [])
    (hfull : limit.toNat < load weight b + (weight x).toNat) :
    ¬ Admissible limit weight (front ++ b ++ x :: rest) := by
  intro h
  have hpos := List.length_pos_of_ne_nil hb
  have hfits := h.fits
  simp only [List.length_append, List.length_cons, load_append, load_cons] at hfits
  omega

/-- Of two blocks, the one that began no later and takes no more reaches as far as the other. -/
theorem suffix_of_full {b c rest : List α} {bs : List (List α)} (hb : b ≠ [])
    (hfull : (b :: bs).IsChain (Full limit weight)) (hc : Admissible limit weight c)
    (hbegan : b ++ bs.flatten <:+ c ++ rest) : bs.flatten <:+ rest := by
  cases bs with
  | nil => exact List.nil_suffix
  | cons b' bs =>
    obtain ⟨x, hx, hlt⟩ := (List.isChain_cons_cons.mp hfull).1
    obtain ⟨ys, rfl⟩ := List.head?_eq_some_iff.mp hx
    obtain ⟨front, hfront⟩ := hbegan
    rw [← List.append_assoc] at hfront
    rcases List.append_eq_append_iff.mp hfront with ⟨more, hmore, hrest⟩ | ⟨between, -, hrest⟩
    · cases more with
      | nil => exact hrest ▸ List.suffix_rfl
      | cons y more =>
        -- `c` would hold all of `b` and the item that `b` was closed for
        obtain rfl : x = y := (List.cons.inj hrest).1
        rw [hmore] at hc
        exact absurd hc (not_admissible_of_full hb hlt)
    · rw [hrest]
      exact List.suffix_append between _

/-- Blocks that take no more are no more than the blocks of any split of as many items. -/
theorem length_le_of_isChain_full {bs cs : List (List α)} (hne : ∀ b ∈ bs, b ≠ [])
    (hfull : bs.IsChain (Full limit weight)) (hcs : ∀ c ∈ cs, Admissible limit weight c)
    (hbegan : bs.flatten <:+ cs.flatten) : bs.length ≤ cs.length := by
  induction cs generalizing bs with
  | nil =>
    cases bs with
    | nil => exact Nat.le_refl 0
    | cons b bs =>
      have hnil : b ++ bs.flatten = [] := List.suffix_nil.mp hbegan
      exact absurd (List.append_eq_nil_iff.mp hnil).1 (hne b List.mem_cons_self)
  | cons c cs ih =>
    cases bs with
    | nil => exact Nat.zero_le _
    | cons b bs =>
      have hrest : bs.flatten <:+ cs.flatten :=
        suffix_of_full (hne b List.mem_cons_self) hfull (hcs c List.mem_cons_self) hbegan
      have hle := ih (fun b hb => hne b (List.mem_cons_of_mem _ hb)) hfull.of_cons
        (fun c hc => hcs c (List.mem_cons_of_mem _ hc)) hrest
      exact Nat.succ_le_succ hle

/-- Where the weights are counted in full, the blocks split the list, an item above the limit is alone,
a block is closed only for an item that does not go into it, and no split of the list has fewer
blocks. -/
theorem blocks_fewest (items : List α)
    (hexact : limit.toNat < Word64.greatest ∨ load weight items < Word64.bound) :
    Splits limit weight items (blocks limit weight items) ∧
      (∀ b ∈ blocks limit weight items, ∀ x ∈ b, limit < weight x → b = [x]) ∧
      (blocks limit weight items).IsChain (Full limit weight) ∧
      ∀ bs, Splits limit weight items bs → (blocks limit weight items).length ≤ bs.length := by
  have hsplits : Splits limit weight items (blocks limit weight items) := splits_blocks hexact
  have hchain : (blocks limit weight items).IsChain (Full limit weight) := isChain_blocks items
  refine ⟨hsplits, fun b hb x hx hheavy => ?_, hchain, fun bs hbs => ?_⟩
  · exact (hsplits.admissible b hb).eq_singleton hx hheavy
  · have hne : ∀ b ∈ blocks limit weight items, b ≠ [] := fun b hb => (hsplits.admissible b hb).ne_nil
    have hwhole : (blocks limit weight items).flatten = bs.flatten :=
      hsplits.whole.trans hbs.whole.symm
    exact length_le_of_isChain_full hne hchain hbs.admissible (hwhole ▸ List.suffix_rfl)

/-- Six weights, one of them above the limit and one that is zero. -/
def sixWeights : List UInt64 := [4, 6, 50, 0, 10, 1]

theorem blocks_fewest_sixWeights :
    (10 : UInt64).toNat < Word64.greatest ∧
      blocks 10 id sixWeights = [[4, 6], [50], [0, 10], [1]] ∧
      ∀ bs, Splits 10 id sixWeights bs → 4 ≤ bs.length := by
  have hexact : (10 : UInt64).toNat < Word64.greatest := by decide
  have hfewest : ∀ bs, Splits 10 id sixWeights bs → (blocks 10 id sixWeights).length ≤ bs.length :=
    (blocks_fewest sixWeights (.inl hexact)).2.2.2
  exact ⟨hexact, by decide, hfewest⟩

/-! ## the limit -/

/-- With the limit, `tasks` blocks hold the total. -/
theorem total_le_mul_limit (total : UInt64) (tasks : Nat) :
    total.toNat ≤ max tasks 1 * (Split.limit total tasks).toNat := by
  let n := max tasks 1
  have hn : 1 ≤ n := Nat.le_max_right tasks 1
  let q := (total.toNat + n - 1) / n
  have hceil : total.toNat ≤ n * q := by
    have hdiv : n * q + (total.toNat + n - 1) % n = total.toNat + n - 1 :=
      Nat.div_add_mod (total.toNat + n - 1) n
    have hmod : (total.toNat + n - 1) % n < n := Nat.mod_lt _ hn
    omega
  have hfits : max q 1 < 2 ^ 64 := by
    have hsmall : q < total.toNat + 1 := by
      apply Nat.div_lt_of_lt_mul
      have hmul : 1 * total.toNat ≤ n * total.toNat := Nat.mul_le_mul_right _ hn
      rw [Nat.mul_add]
      omega
    have htotal : total.toNat < 2 ^ 64 := total.toNat_lt
    omega
  have hnat : (Split.limit total tasks).toNat = max q 1 := UInt64.toNat_ofNat_of_lt' hfits
  rw [hnat]
  exact hceil.trans (Nat.mul_le_mul_left n (Nat.le_max_left q 1))

end HazardDispatch.Split
