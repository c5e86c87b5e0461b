import HazardDispatch.Proofs.Http.Path
import HazardDispatch.Wire.Client
import HazardDispatch.Worker.Server

/-!
# Which tasks a request to cancel names

The name of a task goes into the path of the request as it is. The worker finds the same name there
just when nothing in it means something else in an address, when it is `Plain` (`reaches_iff`). The
request for any other name stops nothing, in particular not the task that has it (`cancel_stops_iff`).

The address of the worker may be any at which its other two resources are found (`LeadsToWorker`). Then
it comes to the same as if the paths were asked for at the root of the server (`segments?_endpoint`).
-/

namespace HazardDispatch

open Http Http.Url

/-! ## the address of a worker -/

/-- Requests for the worker's fixed resources get there. -/
def WorkerHandle.LeadsToWorker (h : WorkerHandle) : Prop :=
  target (h.endpoint Paths.execute) = Paths.execute ∧ target (h.endpoint Paths.health) = Paths.health

def WorkerHandle.segments? (h : WorkerHandle) (path : String) : Option (List (List Char)) :=
  Http.segments? (pathOf (target (h.endpoint path)).toList)

namespace WorkerHandle

theorem segments?_eq (h : WorkerHandle) {path : String} {t : List Char}
    (hpath : path.toList.dropWhile (· == '/') = t) :
    h.segments? path = some (asked (rest (String.ofList
      ((h.address.toList.reverse.dropWhile (· == '/')).reverse ++ '/' :: t)))) := by
  rw [segments?, endpoint, join, hpath]
  exact segments?_targetOf _

theorem LeadsToWorker.segments? {h : WorkerHandle} (hleads : h.LeadsToWorker) {path : String}
    {t : List Char} (hpath : path.toList.dropWhile (· == '/') = t) :
    h.segments? path = some (walk [] (Text.pieces '/' (named t))) := by
  have hexecute : h.segments? Paths.execute = some ["v1".toList, "execute".toList] := by
    rw [WorkerHandle.segments?, hleads.1]
    decide
  have hhealth : h.segments? Paths.health = some ["v1".toList, "health".toList] := by
    rw [WorkerHandle.segments?, hleads.2]
    decide
  rw [segments?_eq h (t := "v1/execute".toList) (by decide), Option.some.injEq] at hexecute
  rw [segments?_eq h (t := "v1/health".toList) (by decide), Option.some.injEq] at hhealth
  rw [segments?_eq h hpath, Option.some.injEq]
  rcases rest_append (h.address.toList.reverse.dropWhile (· == '/')).reverse with
    hrest | hrest | ⟨front, hends, hheeded, hrest⟩
  · rw [hrest _ (by decide)] at hexecute
    exact absurd hexecute (by decide)
  · rw [hrest] at hexecute
    exact absurd hexecute (by decide)
  · rw [hrest] at hexecute hhealth ⊢
    rcases asked_append hends hheeded with hsame | ⟨above, hasked⟩
    · -- both paths would ask for the same
      rw [hsame _ (heeded "v1/health".toList), hhealth] at hexecute
      exact absurd hexecute (by decide)
    · have hpieces : Text.pieces '/' (named (heeded "v1/execute".toList))
          = ["v1".toList, "execute".toList] := by decide
      rw [hasked, hpieces, walk_of_isName _ (by decide)] at hexecute
      have hlength := congrArg List.length hexecute
      simp only [List.length_append, List.length_reverse, List.length_map, List.length_cons] at hlength
      have habove : above = [] := List.length_eq_zero_iff.mp (by omega)
      rw [hasked, habove, named, heeded_heeded]
      rfl

end WorkerHandle

/-! ## names -/

/-- The character has no meaning of its own in an address. -/
def IsPlainChar (c : Char) : Prop := c ∉ ['/', '\\', '?', '#', '\t', '\n', '\r']

instance : DecidablePred IsPlainChar := fun c =>
  inferInstanceAs (Decidable (c ∉ ['/', '\\', '?', '#', '\t', '\n', '\r']))

theorem plain_of_all {cs : List Char} (h : (cs.all fun c => decide (IsPlainChar c)) = true) :
    ∀ c ∈ cs, IsPlainChar c := fun c hc => of_decide_eq_true (List.all_eq_true.mp h c hc)

theorem isPlainChar_iff {c : Char} : IsPlainChar c ↔
    c ≠ '/' ∧ c ≠ '\\' ∧ (c ≠ '?' ∧ c ≠ '#') ∧ isIgnored c = false := by
  simp [IsPlainChar, isIgnored]
  tauto

/-- Nothing in the name means something else in an address: no slash or backslash, no start of a query
or a fragment, no character that is left out, and no percent sign with two hexadecimal digits. And it is
not one dot or two. -/
structure TaskId.Plain (id : TaskId) : Prop where
  chars : ∀ c ∈ id.text.toList, IsPlainChar c
  unescaped : ¬ Percent.Escaped id.text.toList
  name : id ≠ ⟨"."⟩ ∧ id ≠ ⟨".."⟩

/-- What ends up in the path for a name, with the end of the path. -/
def TaskId.inPath (id : TaskId) : List Char :=
  slashed (pathOf (heeded id.text.toList ++ "/cancel".toList))

/-- The segments of the path, before they are walked. -/
def TaskId.segments (id : TaskId) : List (List Char) :=
  "v1".toList :: "tasks".toList :: Text.pieces '/' id.inPath

theorem WorkerHandle.LeadsToWorker.segments?_cancel {h : WorkerHandle} (hleads : h.LeadsToWorker)
    (id : TaskId) : h.segments? (Paths.cancel id.text) = some (walk [] id.segments) := by
  have hpath : (Paths.cancel id.text).toList.dropWhile (· == '/')
      = "v1/tasks/".toList ++ (id.text.toList ++ "/cancel".toList) := by
    rw [Paths.cancel, String.toList_append, String.toList_append, List.append_assoc]
    rfl
  have htrimmed : trimmed (heeded ("v1/tasks/".toList ++ (id.text.toList ++ "/cancel".toList)))
      = "v1/tasks/".toList ++ (heeded id.text.toList ++ "/cancel".toList) := by
    rw [heeded_append, heeded_append, ← List.append_assoc, ← List.append_assoc]
    exact trimmed_append _ (c := '/') (by decide) "cancel".toList
  have hnamed : named ("v1/tasks/".toList ++ (id.text.toList ++ "/cancel".toList))
      = "v1".toList ++ '/' :: ("tasks".toList ++ '/' :: id.inPath) := by
    rw [named, htrimmed, pathOf_append (by unfold Stops; decide), slashed, List.map_append]
    rfl
  rw [hleads.segments? hpath, hnamed, Text.pieces_append_sep, Text.pieces_append_sep]
  rfl

namespace TaskId

theorem Plain.inPath {id : TaskId} (h : id.Plain) :
    id.inPath = id.text.toList ++ '/' :: "cancel".toList := by
  have hchars {c : Char} (hc : c ∈ id.text.toList) := isPlainChar_iff.mp (h.chars c hc)
  have hheeded : heeded id.text.toList = id.text.toList :=
    heeded_eq fun c hc => (hchars hc).2.2.2
  have hstops : ¬ Stops id.text.toList := by
    rintro (hc | hc)
    · exact (hchars hc).2.2.1.1 rfl
    · exact (hchars hc).2.2.1.2 rfl
  have hslashed : slashed id.text.toList = id.text.toList :=
    slashed_eq fun hc => (hchars hc).2.1 rfl
  rw [TaskId.inPath, hheeded, pathOf_append hstops, slashed, List.map_append]
  exact congrArg₂ _ hslashed rfl

theorem Plain.segments {id : TaskId} (h : id.Plain) : id.segments
    = ["v1".toList, "tasks".toList, id.text.toList, "cancel".toList] := by
  have hslash : '/' ∉ id.text.toList := fun hc => (isPlainChar_iff.mp (h.chars _ hc)).1 rfl
  rw [TaskId.segments, h.inPath, Text.pieces_append_sep, Text.pieces_of_not_mem hslash]
  rfl

theorem Plain.isName {id : TaskId} (h : id.Plain) : IsName id.text.toList := by
  refine isName_of_not_escaped h.unescaped (fun hdot => h.name.1 ?_) fun hdots => h.name.2 ?_
  · exact TaskId.ext (String.toList_inj.mp hdot)
  · exact TaskId.ext (String.toList_inj.mp hdots)

/-- The fixed segments and parts of the name are all that can be asked for. -/
theorem of_mem_segments {id : TaskId} {s : List Char} (h : s ∈ id.segments) :
    s ∈ ["v1".toList, "tasks".toList, "cancel".toList] ∨
      s.Sublist id.text.toList ∧ ∀ c ∈ s, IsPlainChar c := by
  have hpart {s : List Char} (hs : s ∈ Text.pieces '/' (slashed (pathOf (heeded id.text.toList)))) :
      s.Sublist id.text.toList ∧ ∀ c ∈ s, IsPlainChar c := by
    obtain ⟨hslash, hsub⟩ := Text.of_mem_pieces hs
    obtain ⟨hsub, hback⟩ := sublist_of_slashed hsub hslash
    refine ⟨hsub.trans ((List.takeWhile_sublist _).trans List.filter_sublist), fun c hc => ?_⟩
    have hpath := List.mem_takeWhile_imp (hsub.subset hc)
    have hheeded := (List.mem_filter.mp ((List.takeWhile_sublist _).subset (hsub.subset hc))).2
    rw [Bool.and_eq_true, bne_iff_ne, bne_iff_ne] at hpath
    exact isPlainChar_iff.mpr ⟨fun hc' => hslash (hc' ▸ hc), fun hc' => hback (hc' ▸ hc), hpath,
      by simpa using hheeded⟩
  rw [segments, List.mem_cons, List.mem_cons] at h
  rcases h with rfl | rfl | h
  · exact .inl (by simp)
  · exact .inl (by simp)
  by_cases hstops : Stops (heeded id.text.toList)
  · rw [TaskId.inPath, pathOf_append_of_stops hstops] at h
    exact .inr (hpart h)
  · have hinPath : id.inPath
        = slashed (pathOf (heeded id.text.toList)) ++ '/' :: "cancel".toList := by
      rw [TaskId.inPath, pathOf_append hstops, pathOf_eq hstops, slashed, List.map_append]
      rfl
    rw [hinPath, Text.pieces_append_sep, List.mem_append] at h
    rcases h with h | h
    · exact .inr (hpart h)
    · rw [Text.pieces_of_not_mem (by decide), List.mem_singleton] at h
      exact .inl (by simp [h])

end TaskId

/-! ## what the worker finds -/

theorem WorkerCall.matchParts_cancelRoute_iff {segs : List (List Char)} {seg : List Char} :
    matchParts cancelRoute segs = some [seg]
      ↔ segs = ["v1".toList, "tasks".toList, seg, "cancel".toList] := by
  simp only [cancelRoute, matchParts_fixed_iff, matchParts_any_iff, matchParts_nil_iff,
    List.cons.injEq]
  constructor
  · rintro ⟨_, rfl, _, rfl, seg', _, r, rfl, ⟨rfl, rfl⟩, _, rfl, rfl, -⟩
    rfl
  · rintro rfl
    exact ⟨_, rfl, _, rfl, _, _, _, rfl, ⟨rfl, rfl⟩, _, rfl, rfl, rfl⟩

theorem WorkerCall.resource_eq_cancel_iff {target : String} {seg : List Char} :
    resource target = some { Http.Resource.none with post := some (cancel seg) } ↔
      Http.segments? (pathOf target.toList)
        = some ["v1".toList, "tasks".toList, seg, "cancel".toList] := by
  constructor
  · intro h
    unfold resource at h
    split at h
    · cases h
    split at h
    · cases h
    split at h
    · next hroute =>
      cases h
      obtain ⟨segs, hsegs, hmatch⟩ := Option.bind_eq_some_iff.mp hroute
      rw [hsegs, WorkerCall.matchParts_cancelRoute_iff.mp hmatch]
    · cases h
  · intro h
    simp only [resource, matchRoute, h, Option.bind_some]
    rfl

theorem Http.parameter?_eq_some_iff {seg : List Char} {s : String} :
    Http.parameter? seg = some s ↔ Percent.encoded s.toList = Percent.read seg := by
  rw [Http.parameter?, Percent.decode?, Utf8.text?_eq_some_iff]
  show Percent.encoded s.toList = Percent.decodeBytes (Percent.encoded (String.ofList seg).toList) ↔ _
  rw [String.toList_ofList]
  exact Iff.rfl

/-- The worker finds the name of the task in a request to cancel it. -/
def WorkerHandle.Reaches (h : WorkerHandle) (id : TaskId) : Prop :=
  ∃ seg, WorkerCall.resource (Client.cancelRequest h id).target
      = some { Http.Resource.none with post := some (.cancel seg) } ∧
    Http.parameter? seg = some id.text

theorem TaskId.plain_of_asked {id : TaskId} {seg : List Char} (hseg : seg ∈ walk [] id.segments)
    (hname : Percent.encoded id.text.toList = Percent.read seg) : id.Plain := by
  rcases mem_walk hseg with hseg | rfl | ⟨s, hs, hisName, rfl⟩
  · cases hseg
  · have hempty : id.text.toList = [] := Percent.encoded_inj hname
    refine ⟨?_, Percent.not_escaped ?_, ?_, ?_⟩
    · simp [hempty]
    · simp [hempty]
    · rintro rfl
      cases hempty
    · rintro rfl
      cases hempty
  · rw [read_encode] at hname
    obtain ⟨heq, hunescaped, hchars⟩ : s = id.text.toList ∧ ¬ Percent.Escaped s ∧
        ∀ c ∈ s, IsPlainChar c := by
      rcases TaskId.of_mem_segments hs with hs | ⟨hsub, hchars⟩
      · have hfixed : ∀ s ∈ ["v1".toList, "tasks".toList, "cancel".toList],
            '%' ∉ s ∧ ∀ c ∈ s, IsPlainChar c := by
          simp only [List.forall_mem_cons]
          exact ⟨⟨by decide, plain_of_all (by decide)⟩, ⟨by decide, plain_of_all (by decide)⟩,
            ⟨by decide, plain_of_all (by decide)⟩, List.forall_mem_nil _⟩
        have hunescaped := Percent.not_escaped (hfixed s hs).1
        rw [Percent.read_eq hunescaped] at hname
        exact ⟨(Percent.encoded_inj hname).symm, hunescaped, (hfixed s hs).2⟩
      · obtain ⟨heq, hunescaped⟩ := Percent.eq_of_sublist hsub hname
        exact ⟨heq, hunescaped, hchars⟩
    subst heq
    refine ⟨hchars, hunescaped, ?_, ?_⟩
    · rintro rfl
      exact absurd hisName (by decide)
    · rintro rfl
      exact absurd hisName (by decide)

theorem WorkerHandle.LeadsToWorker.reaches_iff {h : WorkerHandle} (hleads : h.LeadsToWorker)
    (id : TaskId) : h.Reaches id ↔ id.Plain := by
  have hsegments := hleads.segments?_cancel id
  constructor
  · rintro ⟨seg, hresource, hparameter⟩
    have hwalk := hsegments.symm.trans (WorkerCall.resource_eq_cancel_iff.mp hresource)
    have hseg : seg ∈ walk [] id.segments := by
      rw [Option.some.inj hwalk]
      simp
    exact TaskId.plain_of_asked hseg (Http.parameter?_eq_some_iff.mp hparameter)
  · intro hplain
    refine ⟨Percent.encode keptInPath id.text.toList, ?_, ?_⟩
    · refine WorkerCall.resource_eq_cancel_iff.mpr (hsegments.trans ?_)
      rw [hplain.segments, walk_of_isName]
      · rfl
      · intro s hs
        simp only [List.mem_cons, List.not_mem_nil, or_false] at hs
        rcases hs with rfl | rfl | rfl | rfl
        · decide
        · decide
        · exact hplain.isName
        · decide
    · rw [Http.parameter?_eq_some_iff, read_encode, Percent.read_eq hplain.unescaped]

/-! ## the slot -/

namespace Slot

variable {s : Slot} {id : String} {e : Nat}

theorem handleExecute_of_running (hrunning : s.running = some ⟨id, e⟩) (body : List UInt8) :
    (s.handleExecute body).2.1 = s := by
  unfold handleExecute
  split
  · rfl
  · rw [claim, hrunning]

theorem cancel_same (hrunning : s.running = some ⟨id, e⟩) :
    s.cancel id = (true, { s with stopped := e :: s.stopped }) := by
  rw [cancel, hrunning]
  exact if_pos rfl

theorem cancel_other (hrunning : s.running = some ⟨id, e⟩) {other : String} (h : id ≠ other) :
    s.cancel other = (false, s) := by
  rw [cancel, hrunning]
  exact if_neg h

theorem pick_eq_cancel {target method : String} {resource : Http.Resource WorkerCall}
    {seg : List Char} {headOnly : Bool} (hresource : WorkerCall.resource target = some resource)
    (hpick : resource.pick method = some (.cancel seg, headOnly)) :
    resource = { Http.Resource.none with post := some (.cancel seg) } := by
  unfold WorkerCall.resource at hresource
  unfold Http.Resource.pick at hpick
  split at hresource
  · cases hresource
    split at hpick <;> cases hpick
  split at hresource
  · cases hresource
    split at hpick <;> cases hpick
  split at hresource
  · cases hresource
    split at hpick <;> cases hpick
    rfl
  · cases hresource

/-- Only a request that names the running task does anything to a slot that is claimed. -/
theorem handle_of_running (hrunning : s.running = some ⟨id, e⟩) (r : Http.Request)
    (hother : ∀ seg, WorkerCall.resource r.target
        = some { Http.Resource.none with post := some (.cancel seg) } → Http.parameter? seg ≠ some id) :
    (s.handle r).2.1 = s := by
  unfold handle
  split
  · rfl
  · next resource hresource =>
    split
    · rfl
    · split
      · rfl
      · exact handleExecute_of_running hrunning r.body
    · next seg headOnly hpick =>
      have hseg := hother seg (pick_eq_cancel hresource hpick ▸ hresource)
      unfold handleCancel
      split
      · rfl
      · next other hparameter =>
        rw [cancel_other hrunning fun h => hseg (h ▸ hparameter)]
    · rfl

end Slot

/-- The running task is told to stop just if its name is plain. Otherwise nothing is stopped. -/
theorem cancel_stops_iff (h : WorkerHandle) (hleads : h.LeadsToWorker) (id : TaskId) :
    (h.Reaches id ↔ id.Plain) ∧
    ∀ (s : Slot) (e : Nat), s.running = some ⟨id.text, e⟩ →
      (id.Plain → s.handle (Client.cancelRequest h id)
        = (.answered (.json 200 (CancelResponse.toJson ⟨id.text, true⟩)),
          { s with stopped := e :: s.stopped }, [⟨.info, "Cancel requested"⟩])) ∧
      (¬ id.Plain → (s.handle (Client.cancelRequest h id)).2.1 = s) := by
  have hreaches := hleads.reaches_iff id
  refine ⟨hreaches, fun s e hrunning => ⟨fun hplain => ?_, fun hplain => ?_⟩⟩
  · obtain ⟨seg, hresource, hparameter⟩ := hreaches.mpr hplain
    have hcancel : s.handleCancel seg
        = (.answered (.json 200 (CancelResponse.toJson ⟨id.text, true⟩)),
          { s with stopped := e :: s.stopped }, [⟨.info, "Cancel requested"⟩]) := by
      rw [Slot.handleCancel, hparameter]
      dsimp only
      rw [Slot.cancel_same hrunning]
      rfl
    unfold Slot.handle
    rw [hresource, ← hcancel]
    rfl
  · refine Slot.handle_of_running hrunning _ fun seg hresource hparameter => ?_
    exact hplain (hreaches.mp ⟨seg, hresource, hparameter⟩)

def overHttp : WorkerHandle := .new ⟨"w1"⟩ "http://w1:9000/" default

/-- A name with characters that are percent-encoded in a path. -/
def spacedName : TaskId := ⟨"größe ℵ:1"⟩

def claimedBy (id : TaskId) : Slot := { Slot.free ⟨"w1"⟩ with running := some ⟨id.text, 0⟩, begun := 1 }

theorem plain_spacedName : spacedName.Plain :=
  ⟨plain_of_all (by decide), Percent.not_escaped (by decide), by decide⟩

theorem cancel_stops_spacedName :
    overHttp.LeadsToWorker ∧ (claimedBy spacedName).running = some ⟨spacedName.text, 0⟩ ∧
      ((claimedBy spacedName).handle (Client.cancelRequest overHttp spacedName)).2.1.stopped = [0] := by
  have hleads : overHttp.LeadsToWorker := ⟨by decide +kernel, by decide +kernel⟩
  obtain ⟨-, hstops⟩ := cancel_stops_iff overHttp hleads spacedName
  refine ⟨hleads, rfl, ?_⟩
  rw [((hstops (claimedBy spacedName) 0 rfl).1 plain_spacedName)]
  rfl

/-- The name of this task makes two segments. -/
theorem not_reached_slash :
    overHttp.LeadsToWorker ∧ ¬ overHttp.Reaches ⟨"a/b"⟩ ∧
      (claimedBy ⟨"a/b"⟩).handle (Client.cancelRequest overHttp ⟨"a/b"⟩)
        = (.answered (.empty 404), claimedBy ⟨"a/b"⟩, []) := by
  have hresource : WorkerCall.resource (Client.cancelRequest overHttp ⟨"a/b"⟩).target = none := by
    decide +kernel
  refine ⟨⟨by decide +kernel, by decide +kernel⟩, ?_, ?_⟩
  · rintro ⟨seg, hseg, -⟩
    rw [hresource] at hseg
    cases hseg
  · rw [Slot.handle, hresource]

end HazardDispatch
