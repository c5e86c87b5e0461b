import HazardDispatch.Proofs.Report.Assembly
import HazardDispatch.Proofs.Worker.Executor

/-!
# From a source model to its report

A source model is planned, its tasks are executed, the results are assembled: the report lists each
group that has sources with the ruptures of all of them, and each source with the number of times that
it occurs, whatever the order of the results (`report_covers`).

Each stage hands on a list that is in step with the one before: blocks, tasks, results. Both sides of
an equation about the report are read off the first of them, which holds all sources in their groups
(`Plan.flatMap_blocks`). No counter of sites can overflow: a source takes a hundred bytes or more in the
payloads, and all payloads fit into memory.
-/

namespace HazardDispatch

/-! ## what is to be reported -/

/-- The numbers of the groups that have sources. -/
def filledGroups (groups : List SourceGroup) : List UInt32 :=
  (groups.filter fun g => !g.sources.isEmpty).map (·.id)

/-- The sources of all groups with that number. -/
def sourcesOf (groups : List SourceGroup) (id : UInt32) : List SourceSpec :=
  (groups.filter fun g => g.id = id).flatMap (·.sources)

def allSources (groups : List SourceGroup) : List SourceSpec := groups.flatMap (·.sources)

/-- The names of all sources, each as often as it occurs. -/
def sourceIds (groups : List SourceGroup) : List String := (allSources groups).map (·.sourceId)

/-- The report is one of the whole source model and of nothing else. -/
structure CompositeReport.Covers {F : Type} (groups : List SourceGroup) (r : CompositeReport F) :
    Prop where
  effRuptures : ∀ id, (r.effRuptures.get? id).map UInt64.toNat
    = if id ∈ filledGroups groups then some (ruptures (sourcesOf groups id)) else none
  sources : (r.slowestSources.map (·.sourceId)).Perm (sourceIds groups).dedup
  splits : ∀ s ∈ r.slowestSources, s.numSplit = (sourceIds groups).count s.sourceId
  total : ∃ n, r.totalEffRuptures = .ok n ∧ n.toNat = ruptures (allSources groups)

/-- The result is the success of an execution of the task that was not cancelled. -/
structure Executor.Completes {ρ : Type} (x : Executor ρ) (t : Task) (r : TaskResult) : Prop where
  taskId : r.taskId = t.id
  operation : r.operation = t.operation
  status : r.status = .success
  execution : ∃ start fin, x.execute (.forAttempt t r.attempt) none start = (.done r.payload, fin)

/-! ## sources in their groups -/

theorem map_snd_placed (groups : List SourceGroup) :
    (placed groups).map (·.2) = allSources groups := by
  simp [placed, allSources, List.map_flatMap, Function.comp_def]

theorem mem_map_fst_placed {groups : List SourceGroup} {id : UInt32} :
    id ∈ (placed groups).map (·.1) ↔ id ∈ filledGroups groups := by
  simp only [placed, filledGroups, List.map_flatMap, List.map_map, List.mem_flatMap, List.mem_map,
    List.mem_filter, Function.comp_apply]
  constructor
  · rintro ⟨g, hg, s, hs, rfl⟩
    refine ⟨g, ⟨hg, ?_⟩, rfl⟩
    have : g.sources ≠ [] := List.ne_nil_of_mem hs
    simpa using this
  · rintro ⟨g, ⟨hg, hne⟩, rfl⟩
    have : g.sources ≠ [] := by simpa using hne
    obtain ⟨s, ss, hs⟩ := List.exists_cons_of_ne_nil this
    exact ⟨g, hg, s, by simp [hs], rfl⟩

theorem map_snd_filter_placed (groups : List SourceGroup) (id : UInt32) :
    ((placed groups).filter fun p => p.1 = id).map (·.2) = sourcesOf groups id := by
  induction groups with
  | nil => rfl
  | cons g groups ih =>
    have hplaced : placed (g :: groups) = g.sources.map (g.id, ·) ++ placed groups := by
      simp [placed]
    rw [hplaced, List.filter_append, List.map_append, ih]
    by_cases hid : g.id = id
    · simp [sourcesOf, List.filter_map, Function.comp_def, hid]
    · simp [sourcesOf, List.filter_map, Function.comp_def, hid]

theorem ruptures_append (ss ss' : List SourceSpec) :
    ruptures (ss ++ ss') = ruptures ss + ruptures ss' := by
  simp [ruptures, Word64.natSum]

theorem ruptures_le_weights (ss : List SourceSpec) :
    ruptures ss ≤ Word64.natSum (ss.map SourceSpec.weight) := by
  induction ss with
  | nil => simp [ruptures, Word64.natSum]
  | cons s ss ih =>
    have hs := s.numRuptures_le_weight
    simp only [ruptures, Word64.natSum, List.map_cons, List.sum_cons] at ih ⊢
    omega

/-! ## the results of blocks -/

section
variable {bs : List (UInt32 × List SourceSpec)} {rs : List TaskResult}

/-- The sources of the blocks in their groups. -/
def spread (bs : List (UInt32 × List SourceSpec)) : List (UInt32 × SourceSpec) :=
  bs.flatMap fun b => b.2.map (b.1, ·)

theorem spread_cons (b : UInt32 × List SourceSpec) (bs : List (UInt32 × List SourceSpec)) :
    spread (b :: bs) = b.2.map (b.1, ·) ++ spread bs := List.flatMap_cons

theorem ruptures_spread_cons (b : UInt32 × List SourceSpec) (bs : List (UInt32 × List SourceSpec)) :
    ruptures ((spread (b :: bs)).map (·.2)) = ruptures b.2 + ruptures ((spread bs).map (·.2)) := by
  have hsources : (b.2.map (b.1, ·)).map (·.2) = b.2 := by
    simp [Function.comp_def]
  rw [spread_cons, List.map_append, ruptures_append, hsources]

/-- The result is a success that reports on the block. -/
structure Reported (b : UInt32 × List SourceSpec) (r : TaskResult) : Prop where
  success : r.isSuccess
  payload : r.payload.ReportsOn b

theorem Reported.output {b : UInt32 × List SourceSpec} {r : TaskResult} (h : Reported b r) :
    TaskOutput.Of b r.output := by
  obtain ⟨o, hdecode, ho⟩ := h.payload.output
  have : r.output = o := by rw [TaskResult.output, hdecode]
  rw [this]
  exact ho

theorem map_sourceId_timings {ss : List SourceSpec} {ts : List SourceTiming}
    (h : List.Forall₂ SourceTiming.Of ss ts) : ts.map (·.sourceId) = ss.map (·.sourceId) := by
  induction h with
  | nil => rfl
  | cons ht _ ih => rw [List.map_cons, List.map_cons, ht.sourceId, ih]

/-- The timings are those of the sources in the blocks. -/
theorem map_sourceId_outputs (h : List.Forall₂ Reported bs rs) :
    (rs.flatMap (·.output.timings)).map (·.sourceId) = (spread bs).map (·.2.sourceId) := by
  induction h with
  | nil => rfl
  | @cons b r bs rs hr _ ih =>
    rw [List.flatMap_cons, List.map_append, map_sourceId_timings hr.output.timings, ih, spread_cons,
      List.map_append, List.map_map]
    rfl

theorem Reported.entries {b : UInt32 × List SourceSpec} {r : TaskResult} (h : Reported b r) :
    ∃ n, r.output.effRuptures.entries = [(b.1, n)] ∧ n.toNat = ruptures b.2 := by
  obtain ⟨n, hn, hsum⟩ := h.output.effRuptures
  refine ⟨n, ?_, hsum⟩
  rw [hn]
  rfl

theorem mem_groups_outputs (h : List.Forall₂ Reported bs rs) (hne : ∀ b ∈ bs, b.2 ≠ [])
    (id : UInt32) : id ∈ (rs.flatMap (·.output.effRuptures.entries)).map (·.1)
      ↔ id ∈ (spread bs).map (·.1) := by
  induction h with
  | nil => simp [spread]
  | @cons b r bs rs hr _ ih =>
    obtain ⟨n, hn, -⟩ := hr.entries
    have hrest := ih fun b' hb' => hne b' (List.mem_cons_of_mem _ hb')
    have hb : id ∈ (b.2.map (b.1, ·)).map (·.1) ↔ id = b.1 := by
      obtain ⟨s, ss, hs⟩ := List.exists_cons_of_ne_nil (hne b List.mem_cons_self)
      simp [hs]
    rw [spread_cons, List.flatMap_cons, List.map_append, List.map_append, List.mem_append,
      List.mem_append, hb, hrest, hn]
    simp

/-- What is reported for a group is the ruptures of its sources in the blocks. -/
theorem sum_ruptures_outputs (h : List.Forall₂ Reported bs rs) (id : UInt32) :
    (((rs.flatMap (·.output.effRuptures.entries)).filter fun e => e.1 = id).map (·.2.toNat)).sum
      = ruptures (((spread bs).filter fun p => p.1 = id).map (·.2)) := by
  induction h with
  | nil => rfl
  | @cons b r bs rs hr _ ih =>
    obtain ⟨n, hn, hsum⟩ := hr.entries
    rw [List.flatMap_cons, hn, spread_cons, List.filter_append, List.filter_append, List.map_append,
      List.map_append, List.sum_append, ruptures_append, ← ih]
    congr 1
    by_cases hid : b.1 = id
    · simp [hid, hsum, List.filter_map, Function.comp_def]
    · simp [hid, List.filter_map, Function.comp_def, ruptures, Word64.natSum]

theorem sum_outputs (h : List.Forall₂ Reported bs rs) :
    ((rs.flatMap (·.output.effRuptures.entries)).map (·.2.toNat)).sum
      = ruptures ((spread bs).map (·.2)) := by
  induction h with
  | nil => rfl
  | @cons b r bs rs hr _ ih =>
    obtain ⟨n, hn, hsum⟩ := hr.entries
    rw [ruptures_spread_cons, ← ih, List.flatMap_cons, hn, ← hsum]
    simp

/-! ## room in the counters -/

theorem sites_le {ss : List SourceSpec} {ts : List SourceTiming}
    (h : List.Forall₂ SourceTiming.Of ss ts) (id : String) :
    Halting.total SourceTiming.adds ts (.sites id) ≤ 100 * ss.length := by
  induction h with
  | nil => simp [Halting.total]
  | @cons s t ss ts ht _ ih =>
    have hsites := ht.sites
    have hle : t.adds (.sites id) ≤ 100 := by
      simp only [SourceTiming.adds]
      split <;> omega
    simp only [Halting.total, List.length_cons]
    omega

theorem events_le {ss : List SourceSpec} {ts : List SourceTiming}
    (h : List.Forall₂ SourceTiming.Of ss ts) (id : String) :
    Halting.total SourceTiming.adds ts (.events id) ≤ ruptures ss := by
  induction h with
  | nil => simp [Halting.total]
  | @cons s t ss ts ht _ ih =>
    have hevents := ht.events
    have hle : t.adds (.events id) ≤ s.numRuptures.toNat := by
      simp only [SourceTiming.adds]
      split <;> omega
    rw [ruptures_cons]
    simp only [Halting.total]
    omega

/-- What the result of a block may add to a counter with its figures: a hundred sites for each source,
and as many events and ruptures as the sources have ruptures. -/
def share (b : UInt32 × List SourceSpec) : Counter → Nat
  | .sent _ => 0
  | .received _ => 0
  | .sites _ => 100 * b.2.length
  | .events _ => ruptures b.2
  | .ruptures _ => ruptures b.2

theorem Reported.adds_le {b : UInt32 × List SourceSpec} {r : TaskResult} (h : Reported b r)
    (k : Counter) : r.output.adds k ≤ share b k := by
  obtain ⟨n, hn, hsum⟩ := h.entries
  have hof := h.output.timings
  have hadds : r.output.adds k
      = Halting.total SourceTiming.adds r.output.timings k + groupAdds (b.1, n) k := by
    rw [TaskOutput.adds, hn]
    rfl
  have hzero (hk : ∀ t : SourceTiming, t.adds k = 0) :
      Halting.total SourceTiming.adds r.output.timings k = 0 := by
    simp [Halting.total_eq_sum, hk]
  rw [hadds]
  cases k with
  | sent op => simp [groupAdds, hzero fun t => rfl]
  | received op => simp [groupAdds, hzero fun t => rfl]
  | sites id => simpa [groupAdds, share] using sites_le hof id
  | events id => simpa [groupAdds, share] using events_le hof id
  | ruptures id =>
    rw [hzero fun t => rfl, Nat.zero_add]
    simp only [groupAdds, share]
    split <;> omega

theorem sum_adds_le (h : List.Forall₂ Reported bs rs) (k : Counter) :
    (rs.map fun r => r.output.adds k).sum ≤ (bs.map fun b => share b k).sum := by
  induction h with
  | nil => simp
  | cons hr _ ih =>
    have hle := hr.adds_le k
    simp only [List.map_cons, List.sum_cons]
    omega

theorem sum_ruptures (bs : List (UInt32 × List SourceSpec)) :
    (bs.map fun b => ruptures b.2).sum = ruptures ((spread bs).map (·.2)) := by
  induction bs with
  | nil => rfl
  | cons b bs ih =>
    rw [ruptures_spread_cons, ← ih, List.map_cons, List.sum_cons]

/-- The payloads of the tasks and of their results have a hundred bytes for each source. -/
theorem sum_sites_le {op : Operation} {ts : List Task} (hfor : List.Forall₂ (Plan.TaskFor op) bs ts)
    (h : List.Forall₂ Reported bs rs) : (bs.map fun b => 100 * b.2.length).sum
      ≤ (ts.map (·.payload.size)).sum + (rs.map (·.payload.size)).sum := by
  induction hfor generalizing rs with
  | nil => simp
  | @cons b t bs ts ht _ ih =>
    cases h with
    | cons hr hrest =>
      have htask := size_sources b.2
      rw [← ht.payload] at htask
      have hresult := hr.payload.size
      have := ih hrest
      simp only [List.map_cons, List.sum_cons]
      omega

theorem total_brings (rs : List TaskResult) (k : Counter) : Halting.total TaskResult.brings rs k
    = (rs.map fun r => r.moves k).sum + (rs.map fun r => r.output.adds k).sum := by
  rw [Halting.total_eq_sum]
  exact List.sum_map_add

theorem sum_moves_le (rs : List TaskResult) (k : Counter) :
    (rs.map fun r => r.moves k).sum ≤ match k with
      | .sent _ => (rs.map (·.bytesSent.toNat)).sum
      | .received _ => (rs.map (·.bytesReceived.toNat)).sum
      | _ => 0 := by
  induction rs with
  | nil => simp
  | cons r rs ih =>
    cases k with
    | sent op =>
      simp only [List.map_cons, List.sum_cons, TaskResult.moves] at ih ⊢
      split <;> omega
    | received op =>
      simp only [List.map_cons, List.sum_cons, TaskResult.moves] at ih ⊢
      split <;> omega
    | _ => simp [TaskResult.moves]

/-- No counter overflows, if the bytes moved have a sum and the payloads fit into memory. -/
theorem total_brings_lt {op : Operation} {ts : List Task} {rs' : List TaskResult}
    (hfor : List.Forall₂ (Plan.TaskFor op) bs ts) (h : List.Forall₂ Reported bs rs)
    (hperm : rs'.Perm rs) (hruptures : ruptures ((spread bs).map (·.2)) < Word64.bound)
    (hsent : (rs'.map (·.bytesSent.toNat)).sum < Word64.bound)
    (hreceived : (rs'.map (·.bytesReceived.toNat)).sum < Word64.bound)
    (hmemory : (ts.map (·.payload.size)).sum + (rs'.map (·.payload.size)).sum < Word64.bound)
    (k : Counter) : Halting.total TaskResult.brings rs' k < Word64.bound := by
  have hadds := sum_adds_le h k
  have hmoves := sum_moves_le rs' k
  have hsites := sum_sites_le hfor h
  rw [← (hperm.map fun r => r.output.adds k).sum_nat] at hadds
  rw [← (hperm.map fun r => r.payload.size).sum_nat] at hsites
  rw [← sum_ruptures] at hruptures
  rw [total_brings]
  cases k with
  | sent op | received op =>
    have hzero : (bs.map fun _ => 0).sum = 0 := by simp
    have hadds := Nat.le_zero.mp (Nat.le_trans hadds (Nat.le_of_eq hzero))
    dsimp only at hmoves
    omega
  | sites id | events id | ruptures id =>
    simp only [share] at hadds
    dsimp only at hmoves
    omega

end

/-! ## the report -/

namespace Assembler.Tables

variable {F : Type} {a : Assembler F} {rs : List TaskResult} {ts : List SourceTiming}
  {es : List (UInt32 × UInt64)}

/-- The sources of an account are those that it holds timings of. -/
theorem perm_sourceIds (h : Tables SourceInfo.Counts a rs ts es) :
    (a.sources.values.map (·.sourceId)).Perm (ts.map (·.sourceId)).dedup := by
  rw [SourceInfo.map_sourceId h.sources fun _ _ hs => hs,
    List.perm_ext_iff_of_nodup (Table.nodup_keys _) (List.nodup_dedup _)]
  intro id
  rw [List.mem_dedup, ← h.sources.listed id, Table.mem_keys_iff]

variable [Add F] [Scalar F]

/-- A report that has room for all sources lists each of them. -/
theorem slowestSources_perm (h : Tables SourceInfo.Counts a rs ts es)
    (hroom : (ts.map (·.sourceId)).dedup.length ≤ a.topK)
    (operations : Table Operation (OperationStats F)) :
    (a.report operations).slowestSources.Perm a.sources.values := by
  have hlength : (a.sources.values.mergeSort ranksBefore).length ≤ a.topK := by
    rw [List.length_mergeSort, ← List.length_map (f := fun s : SourceInfo F => s.sourceId),
      h.perm_sourceIds.length_eq]
    exact hroom
  show ((a.sources.values.mergeSort ranksBefore).take a.topK).Perm _
  rw [List.take_of_length_le hlength]
  exact List.mergeSort_perm _ _

theorem covers {groups : List SourceGroup} (h : Tables SourceInfo.Counts a rs ts es)
    (hids : (ts.map (·.sourceId)).Perm (sourceIds groups))
    (hgroups : ∀ id, id ∈ es.map (·.1) ↔ id ∈ filledGroups groups)
    (hsums : ∀ id, ((es.filter fun e => e.1 = id).map (·.2.toNat)).sum
      = ruptures (sourcesOf groups id))
    (htotal : (es.map (·.2.toNat)).sum = ruptures (allSources groups))
    (hlt : ruptures (allSources groups) < Word64.bound)
    (hroom : (sourceIds groups).dedup.length ≤ a.topK)
    (operations : Table Operation (OperationStats F)) : (a.report operations).Covers groups := by
  have hdedup : (ts.map (·.sourceId)).dedup.Perm (sourceIds groups).dedup := hids.dedup
  have hperm := h.slowestSources_perm (by rwa [hdedup.length_eq]) operations
  constructor
  · intro id
    show (a.effRuptures.get? id).map UInt64.toNat = _
    by_cases hid : id ∈ filledGroups groups
    · have hsome := (h.effRuptures.listed id).mpr ((hgroups id).mpr hid)
      obtain ⟨n, hn⟩ := Option.ne_none_iff_exists'.mp hsome
      have hcount : n.toNat = _ := h.effRuptures.gathered id n hn
      rw [if_pos hid, hn, Option.map_some, hcount, hsums]
    · have hnone : a.effRuptures.get? id = none := by
        by_contra hsome
        exact hid ((hgroups id).mp ((h.effRuptures.listed id).mp hsome))
      rw [if_neg hid, hnone, Option.map_none]
  · exact (hperm.map _).trans (h.perm_sourceIds.trans hdedup)
  · intro s hs
    have hvalue := hperm.mem_iff.mp hs
    obtain ⟨⟨id, s⟩, he, rfl⟩ := List.mem_map.mp hvalue
    have hcounts := h.sources.gathered id s ((Table.mem_entries_iff _).mp he)
    show s.numSplit = _
    rw [hcounts.numSplit, SourceInfo.Counts.sourceId hcounts, ← hids.count_eq,
      List.count_eq_countP, List.countP_map, List.countP_eq_length_filter]
    rfl
  · have hsum : Word64.natSum a.effRuptures.values = ruptures (allSources groups) :=
      (h.effRuptures.sum_values fun _ _ hn => hn).trans htotal
    have hfits : Word64.natSum a.effRuptures.values < Word64.bound := by
      rw [hsum]
      exact hlt
    obtain ⟨n, hn, hnat⟩ := Word64.sum?_of_lt hfits
    exact ⟨n, hn, by rw [hnat, hsum]⟩

end Assembler.Tables

/-! ## all results in one account -/

theorem exists_of_mem_right {α β : Type} {R : α → β → Prop} {as : List α} {bs : List β}
    (h : List.Forall₂ R as bs) {b : β} (hb : b ∈ bs) : ∃ a ∈ as, R a b := by
  induction h with
  | nil => cases hb
  | @cons a b' as bs hr _ ih =>
    rcases List.mem_cons.mp hb with rfl | hb
    · exact ⟨a, List.mem_cons_self, hr⟩
    · obtain ⟨a', ha', hr'⟩ := ih hb
      exact ⟨a', List.mem_cons_of_mem _ ha', hr'⟩

section
variable {F : Type} [Add F] [Scalar F] {bs : List (UInt32 × List SourceSpec)} {rs rs' : List TaskResult}

omit [Add F] [Scalar F] in
theorem firstSuccesses_of_reported (h : List.Forall₂ Reported bs rs)
    (ids : (rs.map (·.taskId)).Nodup) (hperm : rs'.Perm rs) (topK : Nat) :
    Assembler.FirstSuccesses (Assembler.empty topK : Assembler F) rs' := by
  refine ⟨?_, ?_, by simp [Assembler.empty]⟩
  · intro r hr
    obtain ⟨b, -, hb⟩ := exists_of_mem_right h (hperm.mem_iff.mp hr)
    exact hb.success
  · rw [(hperm.map _).nodup_iff]
    exact ids

/-- First successes that leave every counter in its range are taken in to the last. -/
theorem whole_of_brings_lt {topK : Nat}
    (hfirst : Assembler.FirstSuccesses (Assembler.empty topK : Assembler F) rs)
    (hlt : ∀ k, Halting.total TaskResult.brings rs k < Word64.bound) :
    (Halting.overList Assembler.absorb (Assembler.empty topK : Assembler F) rs).2 = none := by
  rw [(Assembler.absorbAll_adds hfirst).whole_iff]
  intro k
  have hzero : (Assembler.empty topK : Assembler F).count k = 0 := by
    cases k <;> rfl
  have := hlt k
  omega

theorem topK_absorbAll (topK : Nat) (rs : List TaskResult) :
    (Halting.overList Assembler.absorb (Assembler.empty topK : Assembler F) rs).1.topK = topK :=
  Halting.overList_keeps (P := fun a : Assembler F => a.topK = topK)
    (fun a r h => (a.topK_absorb r).trans h) rs rfl

/-- The results for the blocks of a source model, in any order, make a report that covers it. -/
theorem covers_absorbAll {groups : List SourceGroup} (hspread : spread bs = placed groups)
    (hne : ∀ b ∈ bs, b.2 ≠ []) (h : List.Forall₂ Reported bs rs) (hperm : rs'.Perm rs) {topK : Nat}
    (hfirst : Assembler.FirstSuccesses (Assembler.empty topK : Assembler F) rs')
    (hwhole : (Halting.overList Assembler.absorb (Assembler.empty topK : Assembler F) rs').2 = none)
    (hlt : ruptures (allSources groups) < Word64.bound)
    (hroom : (sourceIds groups).dedup.length ≤ topK)
    (operations : Table Operation (OperationStats F)) :
    ((Halting.overList Assembler.absorb (Assembler.empty topK : Assembler F) rs').1.report
      operations).Covers groups := by
  have htables := (Assembler.tables_empty topK).absorbAll SourceInfo.additive_counts hfirst hwhole
  rw [List.nil_append, List.nil_append, List.nil_append] at htables
  have htimings := hperm.flatMap_right (·.output.timings)
  have hentries := hperm.flatMap_right (·.output.effRuptures.entries)
  apply htables.covers
  · refine (htimings.map _).trans (.of_eq ?_)
    rw [map_sourceId_outputs h, hspread, sourceIds, ← map_snd_placed, List.map_map]
    rfl
  · intro id
    rw [(hentries.map _).mem_iff, mem_groups_outputs h hne, hspread, mem_map_fst_placed]
  · intro id
    rw [((hentries.filter _).map _).sum_nat, sum_ruptures_outputs h, hspread,
      map_snd_filter_placed]
  · rw [(hentries.map _).sum_nat, sum_outputs h, hspread, map_snd_placed]
  · exact hlt
  · rw [topK_absorbAll]
    exact hroom

end

/-! ## the whole way -/

section
variable {ρ : Type} {x : Executor ρ} {op : Operation} {bs : List (UInt32 × List SourceSpec)}
  {ts : List Task} {rs : List TaskResult}

/-- A task for a block is executed to its end. -/
theorem execute_task (hx : x.draws.InRange) (hop : op ≠ .readSourceModel)
    {b : UInt32 × List SourceSpec} {t : Task} (ht : Plan.TaskFor op b t)
    (hb : ruptures b.2 < Word64.bound) (attempt : UInt32) (start : Nat) :
    ∃ p fin, x.execute (.forAttempt t attempt) none start = (.done p, fin) ∧ p.ReportsOn b := by
  let req := ExecuteRequest.forAttempt t attempt
  have hoperation : req.operation ≠ .readSourceModel := by
    intro hread
    exact hop (ht.operation ▸ hread)
  have hpayload : req.payload = .ofValue (SourceSpec.listToJson b.2) := ht.payload
  have hgroup : req.groupId = b.1 := ht.groupId
  have hdone := x.execute_sources hx hoperation hpayload hb start
  rw [hgroup] at hdone
  exact hdone

theorem reported_of_completes (hx : x.draws.InRange) (hop : op ≠ .readSourceModel)
    (hfor : List.Forall₂ (Plan.TaskFor op) bs ts) (h : List.Forall₂ x.Completes ts rs)
    (hlt : ∀ b ∈ bs, ruptures b.2 < Word64.bound) : List.Forall₂ Reported bs rs := by
  induction hfor generalizing rs with
  | nil =>
    cases h
    exact .nil
  | @cons b t bs ts ht _ ih =>
    cases h with
    | @cons _ r _ rs hr hrest =>
      refine .cons ⟨isSuccess_iff.mpr hr.status, ?_⟩
        (ih hrest fun b' hb' => hlt b' (List.mem_cons_of_mem _ hb'))
      obtain ⟨start, fin, hrun⟩ := hr.execution
      obtain ⟨p, fin', hdone, hp⟩ := execute_task hx hop ht (hlt b List.mem_cons_self) r.attempt start
      rw [hrun] at hdone
      cases hdone
      exact hp

theorem map_taskId_completes (h : List.Forall₂ x.Completes ts rs) :
    rs.map (·.taskId) = ts.map (·.id) := by
  induction h with
  | nil => rfl
  | cons hr _ ih => rw [List.map_cons, List.map_cons, hr.taskId, ih]

theorem ruptures_le_of_mem {b : UInt32 × List SourceSpec} (h : b ∈ bs) :
    ruptures b.2 ≤ ruptures ((spread bs).map (·.2)) := by
  rw [← sum_ruptures]
  exact List.le_sum_of_mem (List.mem_map_of_mem h)

end

/-- A source model whose weights have a sum is planned, and each task of the plan is executed to its end.
From the results, in any order, a report is made without an overflow that covers the source model: as
long as the bytes moved have a sum, all payloads fit into memory, and the report has room for all
sources. -/
theorem report_covers {ρ F : Type} [Add F] [Sub F] [Mul F] [Div F] [Scalar F] {x : Executor ρ}
    (hx : x.draws.InRange) {op : Operation} (hop : op ≠ .readSourceModel) {groups : List SourceGroup}
    (hweight : Plan.totalWeight groups < Word64.bound) (tasks : Nat) (seed : UInt64) (now : Instant) :
    ∃ p, Plan.ofGroups groups op tasks seed now = .ok p ∧
      (∀ t ∈ p.tasks, ∀ attempt start, ∃ payload fin,
        x.execute (.forAttempt t attempt) none start = (.done payload, fin)) ∧
      ∀ results rs topK, List.Forall₂ x.Completes p.tasks results → rs.Perm results →
        (rs.map (·.bytesSent.toNat)).sum < Word64.bound →
        (rs.map (·.bytesReceived.toNat)).sum < Word64.bound →
        (p.tasks.map (·.payload.size)).sum + (rs.map (·.payload.size)).sum < Word64.bound →
        (sourceIds groups).dedup.length ≤ topK →
        let a := Halting.overList Assembler.absorb (Assembler.empty topK : Assembler F) rs
        a.2 = none ∧ ∀ operations, (a.1.report operations).Covers groups := by
  obtain ⟨p, hp, hfor, hids⟩ := Plan.ofGroups_eq_ok op tasks seed now hweight
  have hspread : spread (Plan.blocks p.limit groups) = placed groups :=
    Plan.flatMap_blocks p.limit groups
  have hall : (spread (Plan.blocks p.limit groups)).map (·.2) = allSources groups := by
    rw [hspread, map_snd_placed]
  have hlt : ruptures (allSources groups) < Word64.bound := by
    refine Nat.lt_of_le_of_lt (ruptures_le_weights _) ?_
    rw [← map_snd_placed, List.map_map]
    exact hweight
  have hblock : ∀ b ∈ Plan.blocks p.limit groups, ruptures b.2 < Word64.bound := by
    intro b hb
    have hle := ruptures_le_of_mem hb
    rw [hall] at hle
    omega
  refine ⟨p, hp, ?_, ?_⟩
  · intro t ht attempt start
    obtain ⟨b, hb, htask⟩ := exists_of_mem_right hfor ht
    obtain ⟨payload, fin, hdone, -⟩ := execute_task hx hop htask (hblock b hb) attempt start
    exact ⟨payload, fin, hdone⟩
  · intro results rs topK hresults hperm hsent hreceived hmemory hroom
    have hreported := reported_of_completes hx hop hfor hresults hblock
    have hids : (results.map (·.taskId)).Nodup := by
      rw [map_taskId_completes hresults]
      exact hids
    have hfirst := firstSuccesses_of_reported (F := F) hreported hids hperm topK
    have hwhole := whole_of_brings_lt hfirst
      (total_brings_lt hfor hreported hperm (hall ▸ hlt) hsent hreceived hmemory)
    have hne : ∀ b ∈ Plan.blocks p.limit groups, b.2 ≠ [] := fun b => Plan.ne_nil_of_mem_blocks
    exact ⟨hwhole, covers_absorbAll hspread hne hreported hperm hfirst hwhole hlt hroom⟩

def sameDraws : Random.Draws Unit :=
  ⟨fun s => (1.0, s), fun s => (7, s), fun s => (true, s)⟩

def instantExecutor : Executor Unit := { cost := .zero, draws := sameDraws, source := fun _ => () }

/-- A source model in which a group and a source occur twice, and a group has no sources. -/
def repeatedModel : List SourceGroup :=
  [⟨3, false, [⟨"a", 'P', 20, 1⟩]⟩, ⟨4, false, []⟩, ⟨3, true, [⟨"a", 'P', 5, 2⟩]⟩]

def repeatedTasks : List Task :=
  match Plan.ofGroups repeatedModel .classical 2 42 default with
  | .ok p => p.tasks
  | .error _ => []

def instantResult (t : Task) : TaskResult :=
  { taskId := t.id, attempt := 1, workerId := ⟨"w1"⟩, operation := t.operation, status := .success
    duration := 0, peakMemory := 0, bytesSent := 10, bytesReceived := 10
    payload := match instantExecutor.execute (.forAttempt t 1) none 0 with
      | (.done p, _) => p
      | _ => .empty }

theorem report_covers_repeatedModel :
    sameDraws.InRange ∧ Operation.classical ≠ .readSourceModel ∧
      Plan.totalWeight repeatedModel < Word64.bound ∧
      ∃ p results, Plan.ofGroups repeatedModel .classical 2 42 default = .ok p ∧
        List.Forall₂ instantExecutor.Completes p.tasks results ∧
        let a := Halting.overList Assembler.absorb (Assembler.empty 1 : Assembler Float) results.reverse
        a.2 = none ∧ (a.1.report .empty).Covers repeatedModel := by
  have hdraws : sameDraws.InRange := by
    intro s
    show 1 ≤ (7 : UInt64).toNat ∧ (7 : UInt64).toNat ≤ 100
    decide
  have hop : Operation.classical ≠ .readSourceModel := by decide
  have hweight : Plan.totalWeight repeatedModel < Word64.bound := by decide
  obtain ⟨p, hp, hdone, hcovers⟩ := report_covers (F := Float) (x := instantExecutor) hdraws hop hweight
    2 42 default
  have htasks : p.tasks = repeatedTasks := by
    rw [repeatedTasks, hp]
  have hresults : List.Forall₂ instantExecutor.Completes p.tasks (p.tasks.map instantResult) := by
    rw [List.forall₂_map_right_iff, List.forall₂_same]
    intro t ht
    obtain ⟨payload, fin, hrun⟩ := hdone t ht 1 0
    refine ⟨rfl, rfl, rfl, 0, fin, ?_⟩
    have hpayload : (instantResult t).payload = payload := by simp only [instantResult, hrun]
    rw [hpayload]
    exact hrun
  have hperm : (p.tasks.map instantResult).reverse.Perm (p.tasks.map instantResult) :=
    List.reverse_perm _
  obtain ⟨hwhole, hreport⟩ := hcovers _ _ 1 hresults hperm (by rw [htasks]; decide +kernel)
    (by rw [htasks]; decide +kernel) (by rw [htasks]; decide +kernel) (by decide)
  exact ⟨hdraws, hop, hweight, p, _, hp, hresults, hwhole, hreport .empty⟩

end HazardDispatch
