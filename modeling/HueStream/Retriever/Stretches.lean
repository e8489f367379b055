import HueStream.Retriever.Inversion

/-! # Events and pages as stretches of a run

The machine takes single items and single changes. `ParseJsonEvent` handles the changes of an event
in a fixed order of their kinds, with one check in between, and `OnGetResource` handles the items of
a page and may go on to the next resource: both are lists of inputs the machine takes one after
another. So what holds in every state the machine reaches holds after every page and every event. -/

namespace HueStream.Retriever

open HueStream.Data HueStream.Flow HueStream.Json HueStream.Lib

variable {ε : Context} {c c' : Cache} {n : JSONNode}

theorem foldlM_change {changes : List Change} (hfetched : c.resourceToGet = none)
    (h : changes.foldlM (handle ε) c = some c') :
    (changes.map Input.change).foldlM (step ε) c = some c' ∧ c'.resourceToGet = none := by
  induction changes generalizing c with
  | nil =>
    obtain rfl : c = c' := by simpa using h
    exact ⟨by simp, hfetched⟩
  | cons change changes ih =>
    rw [List.foldlM_cons, Option.bind_eq_bind, Option.bind_eq_some_iff] at h
    obtain ⟨c₁, hc₁, h⟩ := h
    obtain ⟨hrest, hnone⟩ := ih ((frame_of_handle hc₁).resourceToGet.trans hfetched) h
    refine ⟨?_, hnone⟩
    rw [List.map_cons, List.foldlM_cons]
    simpa [step, hfetched, hc₁] using hrest

theorem foldlM_item {items : List JSONNode} {resource : Resource}
    (hresource : c.resourceToGet = some resource)
    (h : items.foldlM (fun c item => handle ε c ⟨.add, resource, item⟩) c = some c') :
    (items.map Input.item).foldlM (step ε) c = some c' ∧ c'.resourceToGet = some resource := by
  induction items generalizing c with
  | nil =>
    obtain rfl : c = c' := by simpa using h
    exact ⟨by simp, hresource⟩
  | cons item items ih =>
    rw [List.foldlM_cons, Option.bind_eq_bind, Option.bind_eq_some_iff] at h
    obtain ⟨c₁, hc₁, h⟩ := h
    obtain ⟨hrest, hsome⟩ := ih ((frame_of_handle hc₁).resourceToGet.trans hresource) h
    refine ⟨?_, hsome⟩
    rw [List.map_cons, List.foldlM_cons]
    simpa [step, hresource, hc₁] using hrest

/-- **An event is a stretch of a run.** -/
theorem parseJsonEvent_stretch {changes : List (List (String × Resource × JSONNode))}
    (hfetched : c.resourceToGet = none) (hroot : n.isArray = true)
    (hchanges : n.asArray.mapM entryChanges = some changes)
    (h : parseJsonEvent ε c n = some c') :
    ∃ bridgeWasStreaming,
      ((earlyKinds.flatMap (changesOf changes.flatten)).map Input.change ++
        (changesOf changes.flatten .entertainmentConfiguration).map Input.change ++
        Input.streamCheck bridgeWasStreaming ::
        (changesOf changes.flatten .scene).map Input.change).foldlM (step ε) c = some c' ∧
      c'.resourceToGet = none := by
  simp only [parseJsonEvent, hroot, if_true, hchanges, Option.bind_eq_bind, Option.bind_some,
    Option.bind_eq_some_iff] at h
  obtain ⟨c₁, hearly, c₂, hec, hscene⟩ := h
  obtain ⟨hearly, hnone₁⟩ := foldlM_change hfetched hearly
  obtain ⟨hec, hnone₂⟩ := foldlM_change hnone₁ hec
  have hnone₃ : (reportDisconnected ε (c₁.bridge.isStreaming ε.settings) c₂).resourceToGet = none :=
    hnone₂
  obtain ⟨hscene, hnone⟩ := foldlM_change hnone₃ hscene
  refine ⟨c₁.bridge.isStreaming ε.settings, ?_, hnone⟩
  rw [List.foldlM_append, List.foldlM_append, hearly]
  simp only [Option.bind_eq_bind, Option.bind_some, hec, List.foldlM_cons]
  exact hscene

/-- **A page of the fetch is a stretch of a run.** -/
theorem onGetResource_stretch (h : onGetResource ε c n = some c') :
    ∃ data, n.find "data" = some data ∧
      (data.asArray.map Input.item ++
        if n.isAttributeSet "cursor" then [] else [Input.resourceDone]).foldlM (step ε) c =
        some c' := by
  simp only [onGetResource, Option.bind_eq_bind, Option.bind_eq_some_iff] at h
  obtain ⟨resource, hresource, data, hdata, c₁, hitems, h⟩ := h
  obtain ⟨hitems, hsome⟩ := foldlM_item hresource hitems
  refine ⟨data, hdata, ?_⟩
  rw [List.foldlM_append, hitems]
  split_ifs at h ⊢ with hcursor
  · simpa using h
  · simpa [step, hsome] using h

end HueStream.Retriever
