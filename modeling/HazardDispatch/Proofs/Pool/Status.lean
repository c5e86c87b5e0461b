import HazardDispatch.Pool.Probe
import HazardDispatch.Proofs.Table

/-!
# The status of every worker after each pool operation

One equation for each operation, for all workers at once: an operation changes the status of the
worker that it names and of no other. `acquireAvoiding_some` adds what is known of a worker that was
handed out: it was idle, and is busy now.
-/

namespace HazardDispatch

theorem WorkerStatus.acceptsTasks_iff {s : WorkerStatus} : s.acceptsTasks = true ↔ s = .idle := by
  cases s <;> decide

namespace Pool

theorem status?_eq (p : Pool) (w : WorkerId) : p.status? w = (p.workers.get? w).map (·.status) := rfl

theorem status?_of_entry {p : Pool} {w : WorkerId} {e : PoolEntry} (h : p.entry? w = some e) :
    p.status? w = some e.status := by
  rw [status?, h]; rfl

theorem entry?_of_status? {p : Pool} {w : WorkerId} {s : WorkerStatus} (h : p.status? w = some s) :
    ∃ e, p.entry? w = some e ∧ e.status = s :=
  Option.map_eq_some_iff.mp h

theorem mem_keys_of_status? {p : Pool} {w : WorkerId} {s : WorkerStatus} (h : p.status? w = some s) :
    w ∈ p.workers.keys := by
  obtain ⟨e, he, -⟩ := entry?_of_status? h
  exact p.workers.mem_keys_iff.mpr (Option.ne_none_iff_exists'.mpr ⟨e, he⟩)

theorem status?_setEntry (p : Pool) (w u : WorkerId) (e : PoolEntry) :
    (p.setEntry w e).status? u = if u = w then some e.status else p.status? u := by
  rw [status?_eq, setEntry, Table.get?_put, status?_eq]
  split <;> rfl

theorem status?_setEntry_same {p : Pool} {w : WorkerId} {e : PoolEntry} (u : WorkerId)
    (h : p.status? w = some e.status) : (p.setEntry w e).status? u = p.status? u := by
  rw [status?_setEntry]
  split
  · next hu => rw [hu, h]
  · rfl

theorem status?_erase (p : Pool) (w u : WorkerId) :
    status? { p with workers := p.workers.erase w } u = if u = w then none else p.status? u := by
  rw [status?_eq, Table.get?_erase, status?_eq]
  split <;> rfl

/-! ## registration -/

theorem status?_register (p : Pool) (h : WorkerHandle) (u : WorkerId) :
    (p.register h).pool.status? u
      = if u = h.workerId then some ((p.status? u).getD .idle) else p.status? u := by
  unfold register
  cases he : p.entry? h.workerId with
  | none =>
    show (p.setEntry h.workerId _).status? u = _
    rw [status?_setEntry]
    split
    · next hu => rw [hu, status?, he]; rfl
    · rfl
  | some e =>
    have hs := status?_of_entry he
    have hset : (p.setEntry h.workerId { e with address := h.address, probeFailures := 0 }).status? u
        = p.status? u := status?_setEntry_same u hs
    have hw : (if u = h.workerId then some ((p.status? u).getD .idle) else p.status? u)
        = p.status? u := by
      split
      · next hu => rw [hu, hs]; rfl
      · rfl
    rw [hw, ← hset]
    simp only []
    split <;> rfl

theorem status?_deregister (p : Pool) (w u : WorkerId) :
    (p.deregister w).pool.status? u = if u = w then none else p.status? u := by
  unfold deregister
  cases he : p.entry? w with
  | none =>
    show p.status? u = _
    split
    · next hu => rw [hu, status?, he]; rfl
    · rfl
  | some e => exact status?_erase p w u

/-! ## handing out and taking back -/

theorem mem_of_leastUsed {es : List (WorkerId × PoolEntry)} {x : WorkerId × PoolEntry}
    (h : leastUsed es = some x) : x ∈ es := by
  induction es generalizing x with
  | nil => cases h
  | cons e es ih =>
    rw [leastUsed] at h
    cases hl : leastUsed es with
    | none =>
      rw [hl] at h
      obtain rfl := Option.some.inj h
      exact List.mem_cons_self
    | some f =>
      rw [hl] at h
      simp only [] at h
      split at h
      · obtain rfl := Option.some.inj h
        exact List.mem_cons_of_mem _ (ih hl)
      · obtain rfl := Option.some.inj h
        exact List.mem_cons_self

theorem entry?_of_nextIdle {p : Pool} {skip : Option WorkerId} {w : WorkerId} {e : PoolEntry}
    (h : p.nextIdle skip = some (w, e)) : p.entry? w = some e ∧ e.status = .idle := by
  have hm := mem_of_leastUsed h
  rw [candidates, List.mem_filter, Bool.and_eq_true] at hm
  exact ⟨(Table.mem_entries_iff _).mp hm.1, WorkerStatus.acceptsTasks_iff.mp hm.2.1⟩

theorem acquireAvoiding_cases (p : Pool) (avoid : Option WorkerId) :
    (∃ w e log, p.entry? w = some e ∧ e.status = .idle ∧
      p.acquireAvoiding avoid = p.handOut w e log) ∨ p.acquireAvoiding avoid = ⟨none, p, []⟩ := by
  unfold acquireAvoiding
  cases hn : p.nextIdle avoid with
  | some x =>
    obtain ⟨he, hi⟩ := entry?_of_nextIdle hn
    exact .inl ⟨x.1, x.2, [], he, hi, rfl⟩
  | none =>
    cases avoid with
    | none => exact .inr rfl
    | some w =>
      simp only []
      cases he : p.entry? w with
      | none => exact .inr rfl
      | some e =>
        simp only []
        split
        · next hc =>
          rw [Bool.and_eq_true] at hc
          exact .inl ⟨w, e, _, he, WorkerStatus.acceptsTasks_iff.mp hc.1, rfl⟩
        · exact .inr rfl

/-- A worker is handed out only if it was idle, and is busy from then on. -/
theorem acquireAvoiding_some {p : Pool} {avoid : Option WorkerId} {h : WorkerHandle}
    (hh : (p.acquireAvoiding avoid).value = some h) :
    ∃ e, p.entry? h.workerId = some e ∧ e.status = .idle ∧
      (p.acquireAvoiding avoid).pool = p.setEntry h.workerId { e with status := .busy } := by
  rcases acquireAvoiding_cases p avoid with ⟨w, e, log, he, hi, heq⟩ | heq
  · rw [heq] at hh ⊢
    obtain rfl := Option.some.inj hh
    exact ⟨e, he, hi, rfl⟩
  · rw [heq] at hh
    cases hh

theorem status?_acquireAvoiding {p : Pool} {avoid : Option WorkerId} {h : WorkerHandle}
    (hh : (p.acquireAvoiding avoid).value = some h) (u : WorkerId) :
    (p.acquireAvoiding avoid).pool.status? u
      = if u = h.workerId then some .busy else p.status? u := by
  obtain ⟨e, -, -, hp⟩ := acquireAvoiding_some hh
  rw [hp, status?_setEntry]

theorem leastUsed_ne_none {es : List (WorkerId × PoolEntry)} (h : es ≠ []) :
    leastUsed es ≠ none := by
  cases es with
  | nil => exact absurd rfl h
  | cons e es =>
    rw [leastUsed]
    split
    · exact Option.some_ne_none e
    · split <;> exact Option.some_ne_none _

theorem nextIdle_ne_none {p : Pool} {skip : Option WorkerId} {w : WorkerId}
    (hw : p.status? w = some .idle) (hne : some w ≠ skip) : p.nextIdle skip ≠ none := by
  obtain ⟨e, he, hidle⟩ := entry?_of_status? hw
  have hmem : (w, e) ∈ p.candidates skip := by
    rw [candidates, List.mem_filter, hidle]
    exact ⟨(Table.mem_entries_iff _).mpr he, by simpa [WorkerStatus.acceptsTasks] using hne⟩
  exact leastUsed_ne_none (List.ne_nil_of_mem hmem)

theorem ne_of_nextIdle {p : Pool} {skip : Option WorkerId} {w : WorkerId} {e : PoolEntry}
    (h : p.nextIdle skip = some (w, e)) : skip ≠ some w := by
  have hm := mem_of_leastUsed h
  rw [candidates, List.mem_filter, Bool.and_eq_true, bne_iff_ne] at hm
  exact Ne.symm hm.2.2

theorem nextIdle_eq_none_iff {p : Pool} {skip : Option WorkerId} :
    p.nextIdle skip = none ↔ ∀ w, p.status? w = some .idle → skip = some w := by
  constructor
  · intro hn w hw
    exact Classical.byContradiction fun hne => nextIdle_ne_none hw (Ne.symm hne) hn
  · intro h
    cases hn : p.nextIdle skip with
    | none => rfl
    | some x =>
      obtain ⟨he, hidle⟩ := entry?_of_nextIdle (w := x.1) (e := x.2) hn
      have hskip := h x.1 (by rw [status?_of_entry he, hidle])
      exact absurd hskip (ne_of_nextIdle (w := x.1) (e := x.2) hn)

theorem othersLive_iff {p : Pool} {w : WorkerId} :
    p.othersLive w = true ↔ ∃ u, u ≠ w ∧ ∃ s, p.status? u = some s ∧ s.isLive = true := by
  rw [othersLive, List.any_eq_true]
  constructor
  · rintro ⟨x, hx, hlive⟩
    rw [Bool.and_eq_true, bne_iff_ne] at hlive
    exact ⟨x.1, hlive.1, x.2.status, status?_of_entry ((Table.mem_entries_iff _).mp hx), hlive.2⟩
  · rintro ⟨u, hne, s, hs, hlive⟩
    obtain ⟨e, he, rfl⟩ := entry?_of_status? hs
    refine ⟨(u, e), (Table.mem_entries_iff _).mpr he, ?_⟩
    rw [Bool.and_eq_true, bne_iff_ne]
    exact ⟨hne, hlive⟩

/-- A worker is refused just if every idle one is the avoided one, and that one is not the last that is
alive. -/
theorem acquireAvoiding_eq_none_iff {p : Pool} {avoid : Option WorkerId} :
    (p.acquireAvoiding avoid).value = none ↔ ∀ w, p.status? w = some .idle →
      avoid = some w ∧ ∃ u, u ≠ w ∧ ∃ s, p.status? u = some s ∧ s.isLive = true := by
  have hskip : p.nextIdle avoid = none ↔ _ := nextIdle_eq_none_iff
  unfold acquireAvoiding
  cases hn : p.nextIdle avoid with
  | some x =>
    refine iff_of_false (Option.some_ne_none _) fun h => ?_
    rw [hskip.mpr fun w hw => (h w hw).1] at hn
    cases hn
  | none =>
    have only := hskip.mp hn
    cases avoid with
    | none => exact iff_of_true rfl fun w hw => nomatch only w hw
    | some w =>
      have others (u : WorkerId) (hu : p.status? u = some .idle) : u = w :=
        (Option.some.inj (only u hu)).symm
      dsimp only
      cases he : p.entry? w with
      | none =>
        refine iff_of_true rfl fun u hu => ?_
        obtain ⟨e, he', -⟩ := entry?_of_status? hu
        rw [others u hu, he] at he'
        cases he'
      | some e =>
        dsimp only
        by_cases hidle : e.status = .idle
        · rw [hidle, WorkerStatus.acceptsTasks_iff.mpr rfl, Bool.true_and]
          have hw : p.status? w = some .idle := by rw [status?_of_entry he, hidle]
          cases hlive : p.othersLive w with
          | true =>
            refine iff_of_true rfl fun u hu => ?_
            obtain rfl := others u hu
            exact ⟨rfl, othersLive_iff.mp hlive⟩
          | false =>
            refine iff_of_false (Option.some_ne_none _) fun h => ?_
            rw [othersLive_iff.mpr (h w hw).2] at hlive
            cases hlive
        · have hbusy : e.status.acceptsTasks = false := by
            rw [Bool.eq_false_iff, Ne, WorkerStatus.acceptsTasks_iff]
            exact hidle
          rw [hbusy]
          refine iff_of_true rfl fun u hu => ?_
          rw [others u hu, status?_of_entry he] at hu
          exact absurd (Option.some.inj hu) hidle

/-- The avoided worker is handed out only while it alone is idle. -/
theorem idle_of_acquireAvoiding {p : Pool} {w u : WorkerId} {h : WorkerHandle}
    (hh : (p.acquireAvoiding (some w)).value = some h) (hw : h.workerId = w)
    (hu : p.status? u = some .idle) : u = w := by
  cases hn : p.nextIdle (some w) with
  | none => exact (Option.some.inj (nextIdle_eq_none_iff.mp hn u hu)).symm
  | some x =>
    unfold acquireAvoiding at hh
    rw [hn] at hh
    obtain rfl := Option.some.inj hh
    exact absurd (congrArg some hw.symm) (ne_of_nextIdle (w := x.1) (e := x.2) hn)

/-- While a worker is idle, whoever takes any worker gets one. -/
theorem acquireAvoiding_none_ne_none {p : Pool} {w : WorkerId} (h : p.status? w = some .idle) :
    (p.acquireAvoiding none).value ≠ none := by
  unfold acquireAvoiding
  split
  · exact Option.some_ne_none _
  · next hn => exact absurd hn (nextIdle_ne_none h (Option.some_ne_none w))

theorem idleCount_ne_zero {p : Pool} {w : WorkerId} (h : p.status? w = some .idle) :
    p.idleCount ≠ 0 := by
  obtain ⟨e, he, hidle⟩ := entry?_of_status? h
  have hmem : e ∈ p.workers.values :=
    List.mem_map.mpr ⟨(w, e), (Table.mem_entries_iff _).mpr he, rfl⟩
  rw [idleCount, count, Ne, List.countP_eq_zero]
  intro hall
  exact hall e hmem (by rw [hidle]; rfl)

theorem status?_release (p : Pool) (w u : WorkerId) :
    (p.release w).pool.status? u
      = if u = w ∧ p.status? w = some .busy then some .idle else p.status? u := by
  unfold release
  simp only []
  cases he : entry? { p with clock := p.clock + 1 } w with
  | none =>
    have hs : p.status? w = none := by rw [status?]; exact congrArg (Option.map _) he
    rw [if_neg (by rw [hs]; simp)]
    rfl
  | some e =>
    have hs : p.status? w = some e.status := status?_of_entry (p := p) he
    simp only []
    by_cases hb : e.status = .busy
    · rw [if_pos hb]
      show (setEntry { p with clock := p.clock + 1 } w _).status? u = _
      rw [status?_setEntry, hs, hb]
      simp only [and_true]
      rfl
    · rw [if_neg hb, if_neg]
      · rfl
      · rintro ⟨-, h⟩
        rw [hs] at h
        exact hb (Option.some.inj h)

/-! ## reachability -/

theorem status?_markUnreachable (p : Pool) (w u : WorkerId) :
    (p.markUnreachable w).pool.status? u
      = if u = w then (p.status? w).map fun _ => .unreachable else p.status? u := by
  unfold markUnreachable
  cases he : p.entry? w with
  | none =>
    show p.status? u = _
    split
    · next hu => rw [hu, status?, he]; rfl
    · rfl
  | some e =>
    have hs := status?_of_entry he
    simp only []
    by_cases hb : e.status = .unreachable
    · rw [if_pos hb, hs]
      show p.status? u = _
      split
      · next hu => rw [hu, hs, hb]; rfl
      · rfl
    · rw [if_neg hb, hs]
      exact status?_setEntry p w u _

theorem status?_restore (p : Pool) (w u : WorkerId) :
    (p.restore w).pool.status? u
      = if u = w ∧ p.status? w = some .unreachable then some .idle else p.status? u := by
  unfold restore
  cases he : p.entry? w with
  | none =>
    have hs : p.status? w = none := by rw [status?, he]; rfl
    rw [if_neg (by rw [hs]; simp)]
  | some e =>
    have hs := status?_of_entry he
    simp only []
    by_cases hb : e.status = .unreachable
    · rw [if_pos hb, hs, hb]
      simp only [and_true]
      exact status?_setEntry p w u _
    · rw [if_neg hb, if_neg]
      rintro ⟨-, h⟩
      rw [hs] at h
      exact hb (Option.some.inj h)

/-- A failed probe removes the worker or leaves its status alone. -/
theorem status?_recordProbeFailure (p : Pool) (w u : WorkerId) :
    (p.recordProbeFailure w).pool.status? u
      = if u = w ∧ (p.recordProbeFailure w).value = true then none else p.status? u := by
  unfold recordProbeFailure
  cases he : p.entry? w with
  | none => simp
  | some e =>
    have hs := status?_of_entry he
    simp only []
    by_cases ht : p.threshold ≤ e.probeFailures + 1
    · simp only [if_pos ht, and_true]
      exact status?_erase p w u
    · simp only [if_neg ht, Bool.false_eq_true, and_false, if_false]
      exact status?_setEntry_same u hs

/-! ## probing -/

theorem status?_of_mem_unreachable {p : Pool} {h : WorkerHandle} (hh : h ∈ p.unreachable) :
    p.status? h.workerId = some .unreachable := by
  rw [unreachable, handles, List.mem_filter] at hh
  obtain ⟨hmem, hstatus⟩ := hh
  obtain ⟨⟨w, e⟩, he, rfl⟩ := List.mem_map.mp hmem
  have hget : p.entry? w = some e := (Table.mem_entries_iff _).mp he
  have hs : e.status = .unreachable := by simpa [PoolEntry.handle] using hstatus
  exact (status?_of_entry hget).trans (congrArg some hs)

theorem nodup_unreachable (p : Pool) : (p.unreachable.map (·.workerId)).Nodup := by
  have hkeys : p.handles.map (·.workerId) = p.workers.keys := by
    rw [handles, List.map_map]
    rfl
  have hsub : (p.unreachable.map (·.workerId)).Sublist (p.handles.map (·.workerId)) :=
    List.filter_sublist.map _
  exact (hkeys ▸ p.workers.nodup_keys).sublist hsub

theorem status?_afterProbe_of_ne (p : Pool) (a : ProbeAnswer) {w u : WorkerId} (h : u ≠ w) :
    (p.afterProbe w a).pool.status? u = p.status? u := by
  unfold afterProbe
  cases a with
  | ok health =>
    simp only []
    split
    · exact (status?_restore p w u).trans (if_neg fun c => h c.1)
    · rfl
  | error e => exact (status?_recordProbeFailure p w u).trans (if_neg fun c => h c.1)

theorem status?_afterProbe_ne_busy (p : Pool) (a : ProbeAnswer) {w : WorkerId}
    (h : p.status? w ≠ some .busy) : (p.afterProbe w a).pool.status? w ≠ some .busy := by
  unfold afterProbe
  cases a with
  | ok health =>
    simp only []
    split
    · rw [status?_restore]
      split
      · exact fun c => nomatch c
      · exact h
    · exact h
  | error e =>
    show (p.recordProbeFailure w).pool.status? w ≠ _
    rw [status?_recordProbeFailure]
    split
    · exact fun c => nomatch c
    · exact h

end Pool
end HazardDispatch
