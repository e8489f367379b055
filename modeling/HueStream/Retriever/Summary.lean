import HueStream.Retriever.Channels

/-! # The summaries of the groups

`Summarised` says what the on state and the brightness of a group stand for. The parser of locations
and `UpdateLight` recompute both. Three changes leave a summary behind: a Zigbee update writes
reachable flags and recomputes nothing, the deletion of a light recomputes the on state only, and a
configuration without locations is added with the on state and the brightness a new group has. -/

namespace HueStream.Retriever

open HueStream.Data HueStream.Flow HueStream.Json HueStream.Lib

variable {ε : Context} {c c' : Cache} {n : JSONNode} {ts : List (Transition Cache Input)}

/-- The mean of a list; that of the empty list is zero. -/
def mean (values : List ℚ) : ℚ := values.sum / values.length

/-- The on state of a group says whether some reachable light is on, and its brightness is the mean
of the reachable lights, in hundredths. -/
def Summarised (group : Group) : Prop :=
  (group.onState = true ↔ ∃ light ∈ group.physicalLights, light.reachable = true ∧ light.on = true) ∧
    group.brightnessState =
      mean ((group.physicalLights.filter (·.reachable)).map (·.brightness)) / 100

/-- Every group of the bridge is summarised. -/
def GroupsSummarised (c : Cache) : Prop := ∀ group ∈ c.bridge.groups, Summarised group

/-- The summary of a list of lights, as the code computes it. -/
def summaryOf (lights : List Light) : Bool × ℚ :=
  (lights.any fun light => light.reachable && light.on, averageBrightness lights / 100)

/-- The light a Zigbee update is about and the reachable flag it carries. -/
def reachabilityUpdate (ε : Context) (c : Cache) (n : JSONNode) : Option (String × Bool) := do
  let id ← n.find "id"
  let _ ← c.allZigbeeConnectivityMap.lookup id.asString
  let status ← n.find "status"
  let lightId ← getLightIdFromZigbeeConnectivityId ε c.allDeviceMap id.asString
  if lightId = "" then none else some (lightId, decide (status.asString = "connected"))

/-- The changes that keep the groups summarised: a Zigbee update must not matter for the summary of
a group, a light that is deleted must leave the mean of every group as it was, and a configuration
that is added must have locations. -/
def keepsSummaries (ε : Context) (c : Cache) : Change → Bool
  | ⟨.update, .zigbeeConnectivity, n⟩ =>
    (reachabilityUpdate ε c n).all fun update => c.bridge.groups.all fun group =>
      summaryOf (setReachable update.1 update.2 group).physicalLights =
        summaryOf group.physicalLights
  | ⟨.delete, .light, n⟩ =>
    (n.find "id").all fun id => c.bridge.groups.all fun group =>
      averageBrightness (deleteLightInGroup id.asString group).physicalLights =
        averageBrightness group.physicalLights
  | ⟨.add, .entertainmentConfiguration, n⟩ =>
    (n.getAttributeValue "locations").isAttributeSet "service_locations"
  | _ => true

/-! ### One group -/

theorem averageBrightness_eq (lights : List Light) :
    averageBrightness lights = mean ((lights.filter (·.reachable)).map (·.brightness)) := by
  simp only [averageBrightness, mean, List.length_map]
  split_ifs with h
  · rfl
  · have hnil : lights.filter (·.reachable) = [] := by
      simpa using h
    simp [hnil]

/-- The code's summary is the one a group should have. -/
theorem summarised_iff {group : Group} :
    Summarised group ↔
      (group.onState, group.brightnessState) = summaryOf group.physicalLights := by
  simp only [Summarised, summaryOf, Prod.mk.injEq, averageBrightness_eq]
  refine and_congr_left fun _ => ?_
  have hany : (∃ light ∈ group.physicalLights, light.reachable = true ∧ light.on = true) ↔
      (group.physicalLights.any fun light => light.reachable && light.on) = true := by
    simp only [List.any_eq_true, Bool.and_eq_true]
  rw [hany]
  exact Bool.eq_iff_iff.symm

theorem summarised_updateLightInGroup (update : LightUpdate) (id : String) (group : Group) :
    Summarised (updateLightInGroup ε update id group).2 := summarised_iff.mpr rfl

theorem summarised_updateLightInGroups (id : String) {groups : List Group} :
    ∀ update, (∀ g ∈ groups, Summarised g) →
      ∀ g ∈ (updateLightInGroups ε id update groups).2.2, Summarised g := by
  induction groups with
  | nil => simp [updateLightInGroups]
  | cons group groups ih =>
    intro update h g hg
    simp only [List.mem_cons, forall_eq_or_imp] at h
    simp only [updateLightInGroups] at hg
    cases hlight : group.physicalLights.find? (fun l => l.id = id) with
    | none =>
      simp only [hlight, List.mem_cons] at hg
      rcases hg with rfl | hg
      · exact h.1
      · exact ih update h.2 g hg
    | some light =>
      simp only [hlight, List.mem_cons] at hg
      rcases hg with rfl | hg
      · exact summarised_updateLightInGroup _ _ _
      · exact ih _ h.2 g hg

theorem summarised_setReachable {lightId : String} {reachable : Bool} {group : Group}
    (hkeeps : summaryOf (setReachable lightId reachable group).physicalLights =
      summaryOf group.physicalLights) (h : Summarised group) :
    Summarised (setReachable lightId reachable group) := by
  rw [summarised_iff] at h ⊢
  rw [hkeeps]
  exact h

theorem summarised_deleteLightInGroup {id : String} {group : Group}
    (hkeeps : averageBrightness (deleteLightInGroup id group).physicalLights =
      averageBrightness group.physicalLights) (h : Summarised group) :
    Summarised (deleteLightInGroup id group) := by
  rcases deleteLightInGroup_cases id group with ⟨heq, -⟩ | ⟨i, light, -, -, heq⟩
  · rwa [heq]
  · rw [heq] at hkeeps ⊢
    rw [summarised_iff] at h ⊢
    have hbrightness := congrArg Prod.snd h
    simp only [summaryOf] at hbrightness
    simp only [summaryOf, hkeeps, ← hbrightness]
    rfl

/-- A configured group is summarised when it was so before, or when the event has locations. -/
theorem Configured.summarised {old new : Group} (hnew : Configured ε c n old new)
    (h : Summarised old ∨
      (n.getAttributeValue "locations").isAttributeSet "service_locations" = true) :
    Summarised new := by
  obtain ⟨lights, channels, hlights, -, -, -, -, hphysical, -, -, hsummary⟩ := hnew
  rw [summarised_iff, hsummary, hphysical]
  cases lights with
  | some lights => rfl
  | none =>
    rcases h with h | h
    · exact summarised_iff.mp h
    · rw [parseLights_eq_none hlights] at h
      contradiction

/-! ### Runs -/

theorem updateZigbeeConnectivity_groups (h : updateZigbeeConnectivity ε c n = some c') :
    c'.bridge.groups = c.bridge.groups ∨
    ∃ update, reachabilityUpdate ε c n = some update ∧
      c'.bridge.groups = c.bridge.groups.map (setReachable update.1 update.2) := by
  rcases updateZigbeeConnectivity_cases h with
    rfl | ⟨id, status, old, new, lightId, _, hid, hstatus, hold, -, hlight, rfl⟩
  · exact .inl rfl
  · by_cases hempty : lightId = ""
    · exact .inl (if_pos hempty)
    · refine .inr ⟨(lightId, decide (status.asString = "connected")), ?_, if_neg hempty⟩
      simp [reachabilityUpdate, hid, hstatus, hold, hlight, hempty]

theorem groupsSummarised_handle {change : Change} (hhandle : handle ε c change = some c')
    (hkeeps : keepsSummaries ε c change = true) (h : GroupsSummarised c) : GroupsSummarised c' := by
  by_cases htouches : change.touchesGroups = false
  · intro g hg
    rw [(frame_of_handle hhandle).groups htouches] at hg
    exact h g hg
  obtain ⟨eventType, resource, n⟩ := change
  cases resource <;> cases eventType <;> simp only [handle] at hhandle
  case zigbeeConnectivity.update =>
    rcases updateZigbeeConnectivity_groups hhandle with hgroups | ⟨update, hupdate, hgroups⟩
    · intro g hg
      rw [hgroups] at hg
      exact h g hg
    · simp only [keepsSummaries, hupdate, Option.all_some, List.all_eq_true,
        decide_eq_true_eq] at hkeeps
      intro g hg
      rw [hgroups] at hg
      obtain ⟨old, hold, rfl⟩ := List.mem_map.mp hg
      exact summarised_setReachable (hkeeps old hold) (h old hold)
  case light.update =>
    rcases updateLight_cases hhandle with rfl | ⟨id, _, update, _, _, groups, _, _, _, _, hgroups, rfl⟩
    · exact h
    · have := summarised_updateLightInGroups (ε := ε) id.asString update h
      rwa [hgroups] at this
  case light.delete =>
    obtain ⟨id, _, hid, rfl⟩ := deleteLight_cases hhandle
    simp only [keepsSummaries, hid, Option.all_some, List.all_eq_true, decide_eq_true_eq] at hkeeps
    intro g hg
    obtain ⟨old, hold, rfl⟩ := List.mem_map.mp hg
    exact summarised_deleteLightInGroup (hkeeps old hold) (h old hold)
  case entertainmentConfiguration.add =>
    obtain ⟨group, _, _, _, hgroup, -, rfl⟩ := addEntertainmentConfiguration_cases hhandle
    intro g hg
    rcases List.mem_append.mp hg with hg | hg
    · exact h g hg
    · obtain rfl := List.mem_singleton.mp hg
      exact hgroup.summarised (.inr hkeeps)
  case entertainmentConfiguration.update =>
    obtain ⟨id, hid, ⟨_, rfl⟩ | ⟨old, new, _, _, _, hold, hnew, -, rfl⟩⟩ :=
      updateEntertainmentConfiguration_cases hhandle
    · exact h
    · intro g hg
      rcases mem_modifyFirst hg with hg | ⟨-, -, rfl⟩
      · exact h g hg
      · exact hnew.summarised (.inl (h old (List.mem_of_find?_eq_some hold)))
  case entertainmentConfiguration.delete =>
    obtain ⟨id, _, hid, rfl⟩ := deleteEntertainmentConfiguration_cases hhandle
    exact fun g hg => h g (List.mem_of_mem_eraseP hg)
  all_goals simp [Change.touchesGroups] at htouches

theorem groupsSummarised_of_quiet (hquiet : Quiet c c') (h : GroupsSummarised c) :
    GroupsSummarised c' := by
  intro group hgroup
  have hmem : withoutOwnerName group ∈ c.bridge.groups.map withoutOwnerName :=
    hquiet.groups ▸ List.mem_map_of_mem hgroup
  obtain ⟨old, hold, heq⟩ := List.mem_map.mp hmem
  have hsummarised : Summarised (withoutOwnerName old) := h old hold
  rwa [heq] at hsummarised

/-- **The groups stay summarised** in every run whose changes all keep them so. -/
theorem groups_summarised (hrun : (retriever ε).Run ts c)
    (hkeeps : ∀ t ∈ ts, (changeOf t.before t.label).all (keepsSummaries ε t.before) = true) :
    GroupsSummarised c := by
  refine hrun.invariant_of (C := fun c input => (changeOf c input).all (keepsSummaries ε c) = true)
    (fun s hs => ?_) (fun s l s' hs hl h => ?_) hkeeps
  · intro group hgroup
    rw [hs.groups] at hgroup
    simp at hgroup
  · rcases step_cases hs with ⟨change, hchange, hhandle⟩ | ⟨-, hquiet⟩
    · exact groupsSummarised_handle hhandle (by simpa [hchange] using hl) h
    · exact groupsSummarised_of_quiet hquiet h

/-! ### A lamp that is lost -/

/-- A device with a light, its Zigbee connectivity and its entertainment service. -/
def lampDevice : JSONNode := .node [("id", .string "device"),
  ("product_data", .node [("model_id", .string "LCT015")]),
  ("services", .array [
    .node [("rid", .string "lamp"), ("rtype", .string "light")],
    .node [("rid", .string "zigbee"), ("rtype", .string "zigbee_connectivity")],
    .node [("rid", .string "entertainment"), ("rtype", .string "entertainment")]])]

/-- The status of the connectivity of the lamp. -/
def lampZigbee (status : String) : JSONNode :=
  .node [("id", .string "zigbee"), ("status", .string status)]

/-- The lamp, which is on. -/
def lamp : JSONNode := .node [("id", .string "lamp"), ("metadata", .node [("name", .string "lamp")]),
  ("on", .node [("on", .bool true)]), ("dimming", .node [("brightness", .number 100 "100")])]

/-- A zone with the lamp. -/
def lampZone : JSONNode := .node [("id", .string "zone"),
  ("children", .array [.node [("rid", .string "lamp"), ("rtype", .string "light")]])]

/-- An entertainment configuration with the lamp. -/
def lampConfiguration : JSONNode := .node [("id", .string "group"),
  ("locations", .node [("service_locations", .array [
    .node [("service", .node [("rid", .string "entertainment")])]])])]

/-- A fetch that finds the lamp, and these zones and configurations. -/
def fetchLamp (zones configurations : List JSONNode) : List Input :=
  [Input.item lampDevice, Input.resourceDone, Input.item (lampZigbee "connected"),
    Input.resourceDone, Input.resourceDone, Input.resourceDone, Input.item lamp,
    Input.resourceDone] ++ zones.map Input.item ++ [Input.resourceDone] ++
  configurations.map Input.item ++ [Input.resourceDone, Input.resourceDone]

theorem groups_summarised_lamp : ∃ ts c, (retriever {}).Run ts c ∧ GroupsSummarised c := by
  obtain ⟨ts, c, hrun, h⟩ := Machine.exists_run (M := retriever {}) (s := {})
    (fetchLamp [] [lampConfiguration] ++ [.change ⟨.update, .light, lamp⟩])
    (fun ts _ => ts.all fun t => (changeOf t.before t.label).all (keepsSummaries {} t.before))
    cleared_empty (by decide +kernel)
  exact ⟨ts, c, hrun, groups_summarised hrun fun t ht => List.all_eq_true.mp h t ht⟩

/-- After a fetch, the one lamp of a group is lost: the group stays on. -/
theorem exists_stale_summary :
    ∃ ts c, (retriever {}).Run ts c ∧ c.resourceToGet = none ∧ ¬ GroupsSummarised c := by
  obtain ⟨ts, c, hrun, h⟩ := Machine.exists_run (M := retriever {}) (s := {})
    (fetchLamp [] [lampConfiguration] ++
      [.change ⟨.update, .zigbeeConnectivity, lampZigbee "disconnected"⟩])
    (fun _ c => c.resourceToGet = none && c.bridge.groups.any fun group =>
      group.onState && group.physicalLights.all fun light => !light.reachable)
    cleared_empty (by decide +kernel)
  simp only [Bool.and_eq_true, decide_eq_true_eq, List.any_eq_true, List.all_eq_true,
    Bool.not_eq_true'] at h
  obtain ⟨hnone, group, hgroup, hon, hlost⟩ := h
  refine ⟨ts, c, hrun, hnone, fun hsummarised => ?_⟩
  obtain ⟨light, hlight, hreachable, -⟩ := (hsummarised group hgroup).1.mp hon
  rw [hlost light hlight] at hreachable
  contradiction

end HueStream.Retriever
