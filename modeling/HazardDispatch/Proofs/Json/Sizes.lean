import HazardDispatch.Proofs.Source.Output

/-!
# How long a payload is at least

A payload that lists sources, or timings of sources, takes 50 bytes for each of them and more
(`size_sources`, `size_output`): the names of the members alone are so long. So whatever fits into
memory does not list too many.
-/

namespace HazardDispatch

theorem Utf8.length_le_bytes (s : String) : s.toList.length ≤ (bytes s).length := by
  have hflat (cs : List Char) : cs.length ≤ (cs.flatMap String.utf8EncodeChar).length := by
    induction cs with
    | nil => simp
    | cons c cs ih =>
      have hc : 0 < (String.utf8EncodeChar c).length := by
        rw [String.length_utf8EncodeChar]
        exact c.utf8Size_pos
      rw [List.flatMap_cons, List.length_append, List.length_cons]
      omega
  exact hflat s.toList

theorem Payload.length_render_le_size (j : Json) : j.render.length ≤ (ofValue j).size := by
  have h := Utf8.length_le_bytes j.compact
  rwa [Json.compact, String.toList_ofList] at h

namespace Json

theorem length_render_pos {j : Json} (h : j.Written) : 1 ≤ j.render.length := by
  obtain ⟨k, hk⟩ := exists_fuel h (Nat.le_refl _)
  omega

theorem length_render_text (s : String) : 2 ≤ (text s).render.length := by
  simp [text, render, Body.render]

theorem length_render_list {js : List Json} {n : Nat} (h : ∀ j ∈ js, n ≤ j.render.length) :
    n * js.length ≤ (list js).render.length := by
  have hitems : n * js.length ≤ (renderItems js).length := by
    induction js with
    | nil => simp
    | cons j js ih =>
      have hhead := h j List.mem_cons_self
      have hrest := ih fun j' hj' => h j' (List.mem_cons_of_mem _ hj')
      rw [List.length_cons, Nat.mul_succ]
      cases js with
      | nil => simpa [renderItems] using hhead
      | cons j' js =>
        have hsplit : renderItems (j :: j' :: js) = render j ++ ',' :: renderItems (j' :: js) := rfl
        rw [hsplit, List.length_append]
        simp only [List.length_cons] at hrest ⊢
        omega
  simp [list, render]
  omega

theorem length_render_record (ms : List (String × Json)) :
    (ms.map fun m => (Body.ofText m.1).render.length + 1 + m.2.render.length).sum
      ≤ (record ms).render.length := by
  have hmembers : (ms.map fun m => (Body.ofText m.1).render.length + 1 + m.2.render.length).sum
      ≤ (renderMembers (ms.map fun m => (Body.ofText m.1, m.2))).length := by
    induction ms with
    | nil => simp
    | cons m ms ih =>
      cases ms with
      | nil =>
        simp [renderMembers]
        omega
      | cons m' ms =>
        simp only [List.map_cons, List.sum_cons] at ih ⊢
        rw [renderMembers]
        · simp only [List.length_append, List.length_cons]
          omega
        · simp
  have hrender : (record ms).render
      = '\x7b' :: renderMembers (ms.map fun m => (Body.ofText m.1, m.2)) ++ ['\x7d'] := rfl
  rw [hrender]
  simp only [List.length_append, List.length_cons]
  omega

end Json

theorem SourceSpec.length_render (s : SourceSpec) : 50 ≤ s.toJson.render.length := by
  have hid := Json.length_render_text s.sourceId
  have hcode := Json.length_render_text s.code.toString
  have hruptures := Json.length_render_pos (Json.written_nat s.numRuptures.toNat)
  have hdists := Json.length_render_pos (Json.written_nat s.numDists.toNat)
  have hrecord := Json.length_render_record [("source_id", .text s.sourceId),
    ("code", .text s.code.toString), ("num_ruptures", .nat s.numRuptures.toNat),
    ("num_dists", .nat s.numDists.toNat)]
  have hnames : (Body.ofText "source_id").render.length = 11 ∧ (Body.ofText "code").render.length = 6 ∧
      (Body.ofText "num_ruptures").render.length = 14 ∧
      (Body.ofText "num_dists").render.length = 11 := by decide
  simp only [List.map_cons, List.map_nil, List.sum_cons, List.sum_nil, hnames] at hrecord
  rw [toJson]
  omega

theorem SourceTiming.length_render {t : SourceTiming} (h : Json.Legible t.calcTime) :
    50 ≤ t.toJson.render.length := by
  have hid := Json.length_render_text t.sourceId
  have hcode := Json.length_render_text t.code.toString
  have hsites := Json.length_render_pos (Json.written_nat t.numSites.toNat)
  have htime := Json.length_render_pos h.1
  have hevents := Json.length_render_pos (Json.written_nat t.events.toNat)
  have hrecord := Json.length_render_record [("source_id", .text t.sourceId),
    ("code", .text t.code.toString), ("num_sites", .nat t.numSites.toNat),
    ("calc_time", .float t.calcTime), ("events", .nat t.events.toNat)]
  have hnames : (Body.ofText "source_id").render.length = 11 ∧ (Body.ofText "code").render.length = 6 ∧
      (Body.ofText "num_sites").render.length = 11 ∧ (Body.ofText "calc_time").render.length = 11 ∧
      (Body.ofText "events").render.length = 8 := by decide
  simp only [List.map_cons, List.map_nil, List.sum_cons, List.sum_nil, hnames] at hrecord
  rw [toJson]
  omega

theorem size_sources (ss : List SourceSpec) :
    50 * ss.length ≤ (Payload.ofValue (SourceSpec.listToJson ss)).size := by
  refine Nat.le_trans ?_ (Payload.length_render_le_size _)
  rw [SourceSpec.listToJson, ← List.length_map (f := SourceSpec.toJson)]
  apply Json.length_render_list
  intro j hj
  obtain ⟨s, -, rfl⟩ := List.mem_map.mp hj
  exact s.length_render

theorem size_output {o : TaskOutput} (h : ∀ t ∈ o.timings, Json.Legible t.calcTime) :
    50 * o.timings.length ≤ (Payload.ofValue o.toJson).size := by
  refine Nat.le_trans ?_ (Payload.length_render_le_size _)
  have htimings : 50 * o.timings.length
      ≤ (Json.list (o.timings.map SourceTiming.toJson)).render.length := by
    rw [← List.length_map (f := SourceTiming.toJson)]
    apply Json.length_render_list
    intro j hj
    obtain ⟨t, ht, rfl⟩ := List.mem_map.mp hj
    exact SourceTiming.length_render (h t ht)
  have hrecord := Json.length_render_record
    [("source_timings", .list (o.timings.map SourceTiming.toJson)),
      ("eff_ruptures", .groupCounts o.effRuptures)]
  simp only [List.map_cons, List.map_nil, List.sum_cons, List.sum_nil] at hrecord
  rw [TaskOutput.toJson]
  omega

end HazardDispatch
