import HazardDispatch.Proofs.Report.Counters
import HazardDispatch.Source.Plan
import Mathlib.Data.List.Nodup

/-!
# Planning loses no source

A source in its group is a pair of the group's number and the source (`placed`). Cutting a source model
into blocks keeps the list of these pairs as it is, order included (`flatMap_blocks`); what is true of
their names, groups, ruptures and weights is read off that one equation.

If the weights of all sources have a sum then there is a plan (`ofGroups_eq_ok`): one task for each
block, under names of their own (`taskId_injective`).
-/

namespace HazardDispatch

/-! ## sums of words -/

namespace Word64

def natSum (ws : List UInt64) : Nat := (ws.map UInt64.toNat).sum

theorem foldlM_add? {ws : List UInt64} {a : UInt64} (h : a.toNat + natSum ws < bound) :
    ∃ w, ws.foldlM add? a = .ok w ∧ w.toNat = a.toNat + natSum ws := by
  induction ws generalizing a with
  | nil => exact ⟨a, rfl, by simp [natSum]⟩
  | cons b ws ih =>
    have hcons : natSum (b :: ws) = b.toNat + natSum ws := by simp [natSum]
    have hstep : a.toNat + b.toNat < bound := by omega
    have hadd := toNat_add_of_lt hstep
    obtain ⟨w, hw, hnat⟩ := ih (a := a + b) (by omega)
    refine ⟨w, ?_, by omega⟩
    rw [List.foldlM_cons, add?_of_lt hstep]
    exact hw

theorem sum?_of_lt {ws : List UInt64} (h : natSum ws < bound) :
    ∃ w, sum? ws = .ok w ∧ w.toNat = natSum ws := by
  have hfits : (0 : UInt64).toNat + natSum ws < bound := by simpa using h
  obtain ⟨w, hw, hnat⟩ := foldlM_add? hfits
  exact ⟨w, hw, by simpa using hnat⟩

end Word64

/-! ## blocks -/

namespace Split

variable {α : Type} (limit : UInt64) (weight : α → UInt64)

theorem flatten_blocksFrom (items block : List α) (filled : UInt64) :
    (blocksFrom limit weight block filled items).flatten = block ++ items := by
  induction items generalizing block filled with
  | nil =>
    rw [blocksFrom]
    split
    · next h => simpa using h
    · simp
  | cons x xs ih =>
    rw [blocksFrom]
    split
    · simp [ih]
    · simp [ih]

theorem ne_nil_of_mem_blocksFrom {items block : List α} {filled : UInt64} {b : List α}
    (h : b ∈ blocksFrom limit weight block filled items) : b ≠ [] := by
  induction items generalizing block filled with
  | nil =>
    rw [blocksFrom] at h
    split at h
    · cases h
    · next hne =>
      obtain rfl := List.mem_singleton.mp h
      simpa using hne
  | cons x xs ih =>
    rw [blocksFrom] at h
    split at h
    · next hne =>
      rcases List.mem_cons.mp h with rfl | h
      · simp at hne
        exact hne.1
      · exact ih h
    · exact ih h

end Split

/-- The sources with the numbers of their groups. -/
def placed (groups : List SourceGroup) : List (UInt32 × SourceSpec) :=
  groups.flatMap fun g => g.sources.map (g.id, ·)

namespace Plan

theorem flatten_groupBlocks (limit : UInt64) (g : SourceGroup) :
    (groupBlocks limit g).flatten = g.sources := by
  unfold groupBlocks
  split
  · next h =>
    have : g.sources = [] := by simpa using h
    simp [this]
  · split
    · simp
    · exact Split.flatten_blocksFrom limit SourceSpec.weight g.sources [] 0

theorem ne_nil_of_mem_groupBlocks {limit : UInt64} {g : SourceGroup} {b : List SourceSpec}
    (h : b ∈ groupBlocks limit g) : b ≠ [] := by
  unfold groupBlocks at h
  split at h
  · cases h
  · next hne =>
    split at h
    · obtain rfl := List.mem_singleton.mp h
      simpa using hne
    · exact Split.ne_nil_of_mem_blocksFrom limit SourceSpec.weight h

theorem ne_nil_of_mem_blocks {limit : UInt64} {groups : List SourceGroup}
    {b : UInt32 × List SourceSpec} (h : b ∈ blocks limit groups) : b.2 ≠ [] := by
  obtain ⟨g, -, hb⟩ := List.mem_flatMap.mp h
  obtain ⟨ss, hss, rfl⟩ := List.mem_map.mp hb
  exact ne_nil_of_mem_groupBlocks hss

/-- The blocks hold the sources of the model in their groups, in the order of the model. -/
theorem flatMap_blocks (limit : UInt64) (groups : List SourceGroup) :
    ((blocks limit groups).flatMap fun b => b.2.map (b.1, ·)) = placed groups := by
  have hgroup (g : SourceGroup) :
      (((groupBlocks limit g).map (g.id, ·)).flatMap fun b => b.2.map (b.1, ·))
        = g.sources.map (g.id, ·) := by
    rw [← flatten_groupBlocks limit g, List.map_flatten, List.flatMap_map, List.flatMap_def]
  rw [blocks, placed, List.flatMap_assoc]
  simp only [hgroup]

/-! ## names -/

theorem text_injective {ds ds' : List Decimal.Digit} (h : Decimal.text ds = Decimal.text ds') :
    ds = ds' := by
  have hchar : Function.Injective Decimal.Digit.char := by
    intro d d' hd
    decide +revert
  exact List.map_injective_iff.mpr hchar h

theorem value_replicate_append (n : Nat) (ds : List Decimal.Digit) :
    Decimal.value (List.replicate n Decimal.Digit.zero ++ ds) = Decimal.value ds := by
  induction n with
  | zero => rfl
  | succ n ih => exact ih

theorem taskId_injective (op : Operation) : Function.Injective (taskId op) := by
  intro i j h
  have htext : Decimal.padded 4 i = Decimal.padded 4 j := by
    have := congrArg (fun t => t.text.toList) h
    simpa [taskId, String.toList_inj] using this
  have hdigits := text_injective (String.ofList_injective htext)
  have hvalue := congrArg Decimal.value hdigits
  simpa [value_replicate_append, Decimal.value_digits] using hvalue

/-! ## the plan -/

/-- The task is to run the operation on the sources of the block. -/
structure TaskFor (op : Operation) (b : UInt32 × List SourceSpec) (t : Task) : Prop where
  operation : t.operation = op
  groupId : t.groupId = b.1
  payload : t.payload = .ofValue (SourceSpec.listToJson b.2)

def weights (b : UInt32 × List SourceSpec) : List UInt64 := b.2.map SourceSpec.weight

theorem tasksFrom_eq_ok (op : Operation) (seed : UInt64) (now : Instant) (index : Nat)
    {bs : List (UInt32 × List SourceSpec)} (h : ∀ b ∈ bs, Word64.natSum (weights b) < Word64.bound) :
    ∃ ts, tasksFrom op seed now index bs = .ok ts ∧ List.Forall₂ (TaskFor op) bs ts ∧
      ts.map (·.id) = (List.range' index bs.length).map (taskId op) := by
  induction bs generalizing index with
  | nil => exact ⟨[], rfl, .nil, rfl⟩
  | cons b bs ih =>
    obtain ⟨group, block⟩ := b
    obtain ⟨w, hw, -⟩ := Word64.sum?_of_lt (h _ List.mem_cons_self)
    obtain ⟨ts, hts, hfor, hids⟩ := ih (index + 1) fun b hb => h b (List.mem_cons_of_mem _ hb)
    let t : Task := { id := taskId op index, operation := op, groupId := group
                      seed := seed + .ofNat index, weight := w
                      payload := .ofValue (SourceSpec.listToJson block), createdAt := now }
    have htask : task op seed now index group block = .ok t := by
      have hsum : Word64.sum? (block.map SourceSpec.weight) = .ok w := hw
      rw [task, hsum]
      rfl
    refine ⟨t :: ts, ?_, .cons ⟨rfl, rfl, rfl⟩ hfor, ?_⟩
    · rw [tasksFrom, htask, hts]
      rfl
    · rw [List.map_cons, hids, List.length_cons, List.range'_succ, List.map_cons]

def totalWeight (groups : List SourceGroup) : Nat :=
  Word64.natSum ((placed groups).map fun p => p.2.weight)

theorem natSum_le_of_mem {α : Type} {f : α → List UInt64} {as : List α} {a : α} (h : a ∈ as) :
    Word64.natSum (f a) ≤ Word64.natSum (as.flatMap f) := by
  obtain ⟨before, after, rfl⟩ := List.append_of_mem h
  simp [Word64.natSum]
  omega

theorem mapM_weight {groups : List SourceGroup} (h : totalWeight groups < Word64.bound) :
    ∃ ws, groups.mapM SourceGroup.weight = .ok ws ∧ Word64.natSum ws = totalWeight groups := by
  induction groups with
  | nil => exact ⟨[], rfl, rfl⟩
  | cons g groups ih =>
    have hcons : totalWeight (g :: groups)
        = Word64.natSum (g.sources.map SourceSpec.weight) + totalWeight groups := by
      simp [totalWeight, placed, Word64.natSum, Function.comp_def]
    obtain ⟨ws, hws, hsum⟩ := ih (by omega)
    have hfits : Word64.natSum (g.sources.map SourceSpec.weight) < Word64.bound := by omega
    obtain ⟨w, hw, hnat⟩ := Word64.sum?_of_lt hfits
    refine ⟨w :: ws, ?_, ?_⟩
    · have hg : g.weight = .ok w := hw
      rw [List.mapM_cons, hg, hws]
      rfl
    · rw [hcons, ← hnat, ← hsum]
      simp [Word64.natSum]

/-- A source model whose weights have a sum has a plan: a task for each block, each under a name of its
own. -/
theorem ofGroups_eq_ok {groups : List SourceGroup} (op : Operation) (tasks : Nat) (seed : UInt64)
    (now : Instant) (h : totalWeight groups < Word64.bound) :
    ∃ p, ofGroups groups op tasks seed now = .ok p ∧
      List.Forall₂ (TaskFor op) (blocks p.limit groups) p.tasks ∧ (p.tasks.map (·.id)).Nodup := by
  obtain ⟨ws, hws, hsum⟩ := mapM_weight h
  have hfits : Word64.natSum ws < Word64.bound := by omega
  obtain ⟨total, htotal, -⟩ := Word64.sum?_of_lt hfits
  let limit := Split.limit total tasks
  have hblock : ∀ b ∈ blocks limit groups, Word64.natSum (weights b) < Word64.bound := by
    intro b hb
    have hle : Word64.natSum (weights b) ≤ Word64.natSum ((blocks limit groups).flatMap weights) :=
      natSum_le_of_mem hb
    have hflat : (blocks limit groups).flatMap weights = (placed groups).map fun p => p.2.weight := by
      rw [← flatMap_blocks limit groups, List.map_flatMap]
      simp only [List.map_map]
      rfl
    rw [hflat] at hle
    exact Nat.lt_of_le_of_lt hle h
  obtain ⟨ts, hts, hfor, hids⟩ := tasksFrom_eq_ok op seed now 0 hblock
  let p : Plan := { limit, tasks := ts, numSources := ((blocks limit groups).flatMap (·.2)).length }
  refine ⟨p, ?_, hfor, ?_⟩
  · rw [ofGroups, hws]
    show (do let total ← Word64.sum? ws; _) = _
    rw [htotal]
    show (do let tasks ← tasksFrom op seed now 0 (blocks limit groups); _) = _
    rw [hts]
    rfl
  · show (ts.map (·.id)).Nodup
    rw [hids]
    exact List.Nodup.map (taskId_injective op) List.nodup_range'

end Plan
end HazardDispatch
