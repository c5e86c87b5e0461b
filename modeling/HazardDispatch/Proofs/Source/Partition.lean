import HazardDispatch.Proofs.Source.Blocks
import HazardDispatch.Proofs.Source.Output

/-!
# A plan is a partition of the source model

The weights of all sources have a sum or they have none. If they have none there is no plan; if
they have one there is, and it is nothing but the sources of the groups, cut (`Partition`,
`ofGroups_partitions`). Each group is cut by itself (`Cut`): a group whose sources exclude one
another stays in one piece, the others are cut into pieces within the limit, except for sources
that are above it alone. Each piece is the payload of one task, whose name and seed follow from its
position (`Carries`).

The limit is what one of `n` tasks has to hold at least. Two pieces of a group that follow each
other outweigh it together, so that there are no more than `n - 1` such pairs in all groups, and at
most one piece of each group is left over (`length_tasks_le`).
-/

namespace HazardDispatch

/-! ## sums of words that leave the range -/

namespace Word64

theorem foldlM_add?_of_le {ws : List UInt64} {a : UInt64} (h : bound ≤ a.toNat + natSum ws) :
    ws.foldlM add? a = .error {} := by
  induction ws generalizing a with
  | nil =>
    have hlt := toNat_lt_bound a
    have hnil : natSum [] = 0 := rfl
    omega
  | cons b ws ih =>
    have hcons : natSum (b :: ws) = b.toNat + natSum ws := rfl
    rw [List.foldlM_cons]
    by_cases hstep : a.toNat + b.toNat < bound
    · rw [add?_of_lt hstep]
      refine ih ?_
      have hadd := toNat_add_of_lt hstep
      omega
    · rw [add?_of_le (Nat.not_lt.mp hstep)]
      rfl

theorem sum?_of_le {ws : List UInt64} (h : bound ≤ natSum ws) : sum? ws = .error {} := by
  refine foldlM_add?_of_le ?_
  show bound ≤ 0 + natSum ws
  omega

theorem toNat_of_sum? {ws : List UInt64} {w : UInt64} (h : sum? ws = .ok w) :
    w.toNat = natSum ws := by
  by_cases hfits : natSum ws < bound
  · obtain ⟨w', hw', hnat⟩ := sum?_of_lt hfits
    obtain rfl : w = w' := Except.ok.inj (h.symm.trans hw')
    exact hnat
  · rw [sum?_of_le (Nat.not_lt.mp hfits)] at h
    cases h

end Word64

theorem exists_ok_of_bind {ε α β : Type} {x : Except ε α} {f : α → Except ε β} {b : β}
    (h : x >>= f = .ok b) : ∃ a, x = .ok a ∧ f a = .ok b := by
  cases x with
  | error e => cases h
  | ok a => exact ⟨a, rfl, h⟩

/-! ## padded numbers -/

namespace Decimal

/-- The digits of the number, with zeros before them only as far as the width asks for. -/
structure Padded (width n : Nat) (ds : List Digit) : Prop where
  value : value ds = n
  wide : width ≤ ds.length
  plain : width < ds.length → ds.head? ≠ some Digit.zero

theorem padded_eq {width : Nat} (h : 0 < width) (n : Nat) :
    ∃ ds, Padded width n ds ∧ padded width n = String.ofList (text ds) := by
  let zeros := List.replicate (width - (digits n).length) Digit.zero
  have hlength : (zeros ++ digits n).length = width - (digits n).length + (digits n).length := by
    rw [List.length_append, List.length_replicate]
  refine ⟨zeros ++ digits n, ⟨?_, by omega, ?_⟩, rfl⟩
  · exact (Plan.value_replicate_append _ _).trans (value_digits n)
  · intro hwide
    have hnone : width - (digits n).length = 0 := by omega
    have hn : n ≠ 0 := by
      rintro rfl
      have hzero : (digits 0).length = 1 := by rw [digits, dif_pos (by decide)]; rfl
      omega
    show (List.replicate (width - (digits n).length) Digit.zero ++ digits n).head? ≠ _
    rw [hnone]
    exact head?_digits hn

end Decimal

namespace Plan

/-! ## the parts of a plan -/

theorem totalWeight_cons (g : SourceGroup) (groups : List SourceGroup) :
    totalWeight (g :: groups) = Split.load SourceSpec.weight g.sources + totalWeight groups := by
  simp [totalWeight, placed, Split.load, Word64.natSum, Function.comp_def]

theorem load_le_totalWeight {groups : List SourceGroup} {g : SourceGroup} (h : g ∈ groups) :
    Split.load SourceSpec.weight g.sources ≤ totalWeight groups := by
  obtain ⟨before, after, rfl⟩ := List.append_of_mem h
  induction before with
  | nil =>
    rw [List.nil_append, totalWeight_cons]
    omega
  | cons b before ih =>
    have hrest := ih (by simp)
    rw [List.cons_append, totalWeight_cons]
    omega

theorem natSum_of_mapM_weight {groups : List SourceGroup} {ws : List UInt64}
    (h : groups.mapM SourceGroup.weight = .ok ws) : Word64.natSum ws = totalWeight groups := by
  induction groups generalizing ws with
  | nil =>
    cases h
    rfl
  | cons g groups ih =>
    rw [List.mapM_cons] at h
    obtain ⟨w, hw, h⟩ := exists_ok_of_bind h
    obtain ⟨ws', hws', h⟩ := exists_ok_of_bind h
    cases h
    have hhead : w.toNat = Split.load SourceSpec.weight g.sources := Word64.toNat_of_sum? hw
    rw [totalWeight_cons, ← hhead, ← ih hws']
    rfl

theorem ofGroups_of_le {groups : List SourceGroup} (op : Operation) (tasks : Nat) (seed : UInt64)
    (now : Instant) (h : Word64.bound ≤ totalWeight groups) :
    ofGroups groups op tasks seed now = .error {} := by
  rw [ofGroups]
  cases hws : groups.mapM SourceGroup.weight with
  | error e => rfl
  | ok ws =>
    rw [← natSum_of_mapM_weight hws] at h
    show (Word64.sum? ws >>= _) = _
    rw [Word64.sum?_of_le h]
    rfl

theorem limit_and_tasksFrom {groups : List SourceGroup} {op : Operation} {tasks : Nat}
    {seed : UInt64} {now : Instant} {p : Plan} (h : ofGroups groups op tasks seed now = .ok p) :
    p.limit = Split.limit (.ofNat (totalWeight groups)) tasks ∧
      tasksFrom op seed now 0 (blocks p.limit groups) = .ok p.tasks := by
  rw [ofGroups] at h
  obtain ⟨ws, hws, h⟩ := exists_ok_of_bind h
  obtain ⟨total, htotal, h⟩ := exists_ok_of_bind h
  obtain ⟨ts, hts, h⟩ := exists_ok_of_bind h
  cases h
  have hnat : total.toNat = totalWeight groups :=
    (Word64.toNat_of_sum? htotal).trans (natSum_of_mapM_weight hws)
  refine ⟨?_, hts⟩
  rw [← hnat, UInt64.ofNat_toNat]

/-! ## groups cut into pieces -/

/-- The pieces that a group is cut into. -/
structure Cut (limit : UInt64) (g : SourceGroup) (bs : List (List SourceSpec)) : Prop where
  whole : bs.flatten = g.sources
  ne_nil : ∀ b ∈ bs, b ≠ []
  empty : g.sources = [] → bs = []
  together : g.mutex = true → g.sources ≠ [] → bs = [g.sources]
  within : g.mutex = false →
    ∀ b ∈ bs, b.length = 1 ∨ Split.load SourceSpec.weight b ≤ limit.toNat

theorem groupBlocks_cut (limit : UInt64) {g : SourceGroup}
    (h : Split.load SourceSpec.weight g.sources < Word64.bound) :
    Cut limit g (groupBlocks limit g) where
  whole := flatten_groupBlocks limit g
  ne_nil b hb := ne_nil_of_mem_groupBlocks hb
  empty hempty := by
    rw [groupBlocks, hempty]
    rfl
  together hmutex hne := by
    have hsome : g.sources.isEmpty = false := by simpa using hne
    rw [groupBlocks, hsome, hmutex]
    rfl
  within hmutex b hb := by
    have hne : b ≠ [] := ne_nil_of_mem_groupBlocks hb
    have hpos := List.length_pos_of_ne_nil hne
    rw [groupBlocks, hmutex] at hb
    split at hb
    · cases hb
    · have hfits := Split.load_le_limit_of_mem_blocks hb (.inr h)
      exact hfits.imp (fun hone => by omega) id

/-- The pieces of all groups with the groups that they belong to. -/
def pieces (cuts : List (SourceGroup × List (List SourceSpec))) : List (UInt32 × List SourceSpec) :=
  cuts.flatMap fun c => c.2.map (c.1.id, ·)

theorem pieces_groupBlocks (limit : UInt64) (groups : List SourceGroup) :
    pieces (groups.map fun g => (g, groupBlocks limit g)) = blocks limit groups := by
  rw [pieces, List.flatMap_map]
  rfl

/-! ## tasks for pieces -/

structure Carries (op : Operation) (seed : UInt64) (index : Nat) (piece : UInt32 × List SourceSpec)
    (t : Task) : Prop where
  id : ∃ ds, Decimal.Padded 4 index ds ∧
    t.id.text = op.name ++ "-" ++ String.ofList (Decimal.text ds)
  operation : t.operation = op
  groupId : t.groupId = piece.1
  seed : t.seed.toNat = (seed.toNat + index) % Word64.bound
  weight : t.weight.toNat = Split.load SourceSpec.weight piece.2
  payload : t.payload.decode SourceSpec.listOfJson = .ok piece.2

theorem carries_of_task {op : Operation} {seed : UInt64} {now : Instant} {index : Nat}
    {piece : UInt32 × List SourceSpec} {t : Task}
    (h : task op seed now index piece.1 piece.2 = .ok t) : Carries op seed index piece t := by
  rw [task] at h
  obtain ⟨w, hw, h⟩ := exists_ok_of_bind h
  cases h
  obtain ⟨ds, hpadded, htext⟩ := Decimal.padded_eq (show 0 < 4 by decide) index
  have hid : (taskId op index).text = op.name ++ "-" ++ String.ofList (Decimal.text ds) :=
    congrArg (op.name ++ "-" ++ ·) htext
  have hseed : (seed + UInt64.ofNat index).toNat = (seed.toNat + index) % Word64.bound := by
    rw [UInt64.toNat_add, UInt64.toNat_ofNat', Nat.add_mod_mod]
    rfl
  exact ⟨⟨ds, hpadded, hid⟩, rfl, rfl, hseed, Word64.toNat_of_sum? hw, decode_sources piece.2⟩

theorem task_of_tasksFrom {op : Operation} {seed : UInt64} {now : Instant} {index : Nat}
    {bs : List (UInt32 × List SourceSpec)} {ts : List Task}
    (h : tasksFrom op seed now index bs = .ok ts) :
    ts.length = bs.length ∧ ∀ (i : Nat) (b : UInt32 × List SourceSpec) (t : Task),
      bs[i]? = some b → ts[i]? = some t → task op seed now (index + i) b.1 b.2 = .ok t := by
  induction bs generalizing index ts with
  | nil =>
    cases h
    exact ⟨rfl, fun i b t hb => by cases hb⟩
  | cons b bs ih =>
    rw [tasksFrom] at h
    obtain ⟨t, ht, h⟩ := exists_ok_of_bind h
    obtain ⟨ts', hts', h⟩ := exists_ok_of_bind h
    cases h
    obtain ⟨hlength, hrest⟩ := ih hts'
    refine ⟨congrArg (· + 1) hlength, fun i b' t' hb ht' => ?_⟩
    cases i with
    | zero =>
      cases hb
      cases ht'
      exact ht
    | succ i =>
      rw [Nat.add_comm i 1, ← Nat.add_assoc]
      exact hrest i b' t' hb ht'

theorem mapM_decode {op : Operation} {bs : List (UInt32 × List SourceSpec)} {ts : List Task}
    (h : List.Forall₂ (TaskFor op) bs ts) :
    ts.mapM (fun t => t.payload.decode SourceSpec.listOfJson) = .ok (bs.map (·.2)) := by
  induction h with
  | nil => rfl
  | cons hfor _ ih =>
    rw [List.mapM_cons, hfor.payload, decode_sources, ih]
    rfl

/-- The plan is the sources of the groups, cut: its tasks are the pieces, in order. -/
structure Partition (groups : List SourceGroup) (op : Operation) (tasks : Nat) (seed : UInt64)
    (p : Plan) (cuts : List (SourceGroup × List (List SourceSpec))) : Prop where
  limit : p.limit = Split.limit (.ofNat (totalWeight groups)) tasks
  covers : cuts.map (·.1) = groups
  cut : ∀ c ∈ cuts, Cut p.limit c.1 c.2
  length : p.tasks.length = (pieces cuts).length
  carries : ∀ (i : Nat) (piece : UInt32 × List SourceSpec) (t : Task),
    (pieces cuts)[i]? = some piece → p.tasks[i]? = some t → Carries op seed i piece t
  ids : (p.tasks.map (·.id)).Nodup
  sources : ∃ bs, p.tasks.mapM (fun t => t.payload.decode SourceSpec.listOfJson) = .ok bs ∧
    bs.flatten = groups.flatMap (·.sources)

theorem flatten_map_blocks (limit : UInt64) (groups : List SourceGroup) :
    ((blocks limit groups).map (·.2)).flatten = groups.flatMap (·.sources) := by
  have hplaced := congrArg (List.map Prod.snd) (flatMap_blocks limit groups)
  simpa [placed, List.map_flatMap, Function.comp_def, List.flatMap_def] using hplaced

/-- There is a plan exactly if the weights of all sources have a sum, and it is a partition of the
sources. -/
theorem ofGroups_partitions (groups : List SourceGroup) (op : Operation) (tasks : Nat)
    (seed : UInt64) (now : Instant) :
    (Word64.bound ≤ totalWeight groups ∧ ofGroups groups op tasks seed now = .error {}) ∨
      (totalWeight groups < Word64.bound ∧ ∃ p cuts, ofGroups groups op tasks seed now = .ok p ∧
        Partition groups op tasks seed p cuts) := by
  rcases Nat.lt_or_ge (totalWeight groups) Word64.bound with hfits | hover
  · obtain ⟨p, hp, hfor, hids⟩ := ofGroups_eq_ok op tasks seed now hfits
    obtain ⟨hlimit, htasks⟩ := limit_and_tasksFrom hp
    obtain ⟨hlength, htask⟩ := task_of_tasksFrom htasks
    refine .inr ⟨hfits, p, groups.map fun g => (g, groupBlocks p.limit g), hp, ?_⟩
    refine ⟨hlimit, ?_, ?_, ?_, ?_, hids, ?_⟩
    · rw [List.map_map]
      exact List.map_id groups
    · intro c hc
      obtain ⟨g, hg, rfl⟩ := List.mem_map.mp hc
      exact groupBlocks_cut p.limit (Nat.lt_of_le_of_lt (load_le_totalWeight hg) hfits)
    · rw [pieces_groupBlocks, hlength]
    · rw [pieces_groupBlocks]
      intro i piece t hpiece ht
      have hi := htask i piece t hpiece ht
      rw [Nat.zero_add] at hi
      exact carries_of_task hi
    · exact ⟨_, mapM_decode hfor, flatten_map_blocks p.limit groups⟩
  · exact .inl ⟨hover, ofGroups_of_le op tasks seed now hover⟩

/-! ## how many tasks there are -/

theorem half_length_groupBlocks (limit : UInt64) (g : SourceGroup) :
    (groupBlocks limit g).length / 2 * (limit.toNat + 1)
      ≤ Split.load SourceSpec.weight g.sources := by
  unfold groupBlocks
  split
  · simp
  · split
    · simp
    · exact Split.half_length_blocks g.sources

theorem length_groupBlocks_le (limit : UInt64) (g : SourceGroup) :
    (groupBlocks limit g).length ≤ 2 * ((groupBlocks limit g).length / 2)
      + (if g.sources.isEmpty then 0 else 1) := by
  by_cases h : g.sources.isEmpty = true
  · rw [groupBlocks, if_pos h]
    simp
  · rw [if_neg h]
    omega

/-- The blocks of all groups are pairs that are above the limit, and at most one block for each
group. -/
theorem length_blocks_le (limit : UInt64) (groups : List SourceGroup) :
    ∃ pairs, (blocks limit groups).length
        ≤ 2 * pairs + groups.countP (fun g => !g.sources.isEmpty) ∧
      pairs * (limit.toNat + 1) ≤ totalWeight groups := by
  induction groups with
  | nil => exact ⟨0, Nat.le_refl 0, by simp⟩
  | cons g groups ih =>
    obtain ⟨pairs, hlength, hweight⟩ := ih
    refine ⟨(groupBlocks limit g).length / 2 + pairs, ?_, ?_⟩
    · have hhead := length_groupBlocks_le limit g
      have hblocks : (blocks limit (g :: groups)).length
          = (groupBlocks limit g).length + (blocks limit groups).length := by
        simp [blocks]
      rw [hblocks, List.countP_cons]
      cases hempty : g.sources.isEmpty
      all_goals simp only [hempty] at hhead ⊢; simp at hhead ⊢; omega
    · have hhead := half_length_groupBlocks limit g
      rw [totalWeight_cons, Nat.add_mul]
      exact Nat.add_le_add hhead hweight

/-- A plan for `n` tasks has at most `2 * (n - 1)` tasks and one for each group with sources. -/
theorem length_tasks_le {groups : List SourceGroup} (op : Operation) (tasks : Nat) (seed : UInt64)
    (now : Instant) (h : totalWeight groups < Word64.bound) :
    ∃ p, ofGroups groups op tasks seed now = .ok p ∧
      p.tasks.length ≤ 2 * (max tasks 1 - 1) + groups.countP fun g => !g.sources.isEmpty := by
  obtain ⟨p, hp, hfor, -⟩ := ofGroups_eq_ok op tasks seed now h
  refine ⟨p, hp, ?_⟩
  obtain ⟨hlimit, -⟩ := limit_and_tasksFrom hp
  obtain ⟨pairs, hlength, hweight⟩ := length_blocks_le p.limit groups
  have hhalf : pairs < max tasks 1 := by
    have htotal : (UInt64.ofNat (totalWeight groups)).toNat = totalWeight groups :=
      UInt64.toNat_ofNat_of_lt' h
    have hcover := Split.total_le_mul_limit (.ofNat (totalWeight groups)) tasks
    rw [htotal, ← hlimit] at hcover
    have hpos : 0 < max tasks 1 := by omega
    refine Nat.lt_of_mul_lt_mul_right (a := p.limit.toNat + 1) ?_
    calc pairs * (p.limit.toNat + 1) ≤ totalWeight groups := hweight
      _ ≤ max tasks 1 * p.limit.toNat := hcover
      _ < max tasks 1 * (p.limit.toNat + 1) := by
        rw [Nat.mul_add]
        omega
  rw [← hfor.length_eq]
  omega

def threeSources : List SourceGroup :=
  [{ id := 7, mutex := false
     sources := [⟨"a", 'P', 1, 1⟩, ⟨"b", 'A', 2, 1⟩, ⟨"c", 'P', 1, 1⟩] }]

theorem length_tasks_threeSources :
    totalWeight threeSources < Word64.bound ∧
      ∃ p, ofGroups threeSources .preclassical 2 42 ⟨0, 0⟩ = .ok p ∧
        p.tasks.length
          ≤ 2 * (max 2 1 - 1) + threeSources.countP fun g => !g.sources.isEmpty :=
  ⟨by decide, length_tasks_le .preclassical 2 42 ⟨0, 0⟩ (by decide)⟩

-- They come in three tasks, as many as the bound allows.
example :
    (ofGroups threeSources .preclassical 2 42 ⟨0, 0⟩).map (fun p => p.tasks.length) = .ok 3 := by
  rfl

end Plan
end HazardDispatch
