import HueStream.Retriever.Stretches

/-! # What happens to the groups

Five handlers write to groups. The three that follow a light leave everything but the physical
lights and the two summaries as it was (`configOf`); the other two are about entertainment
configurations, where `Configured` says what becomes of the group. `groups_of_handle` puts them
together: it is all an invariant of the groups has to look at. -/

namespace HueStream.Retriever

open HueStream.Data HueStream.Flow HueStream.Json HueStream.Lib

variable {ε : Context} {c c' : Cache} {n : JSONNode}

/-- A group without its physical lights and their summaries. -/
def configOf (group : Group) : Group :=
  { group with physicalLights := [], onState := true, brightnessState := 1 }

/-! ### Groups that follow a light -/

theorem configOf_setReachable (lightId : String) (reachable : Bool) (group : Group) :
    configOf (setReachable lightId reachable group) = configOf group := rfl

theorem configOf_updateLightInGroup (update : LightUpdate) (id : String) (group : Group) :
    configOf (updateLightInGroup ε update id group).2 = configOf group := rfl

theorem map_configOf_updateLightInGroups (id : String) (groups : List Group) :
    ∀ update, (updateLightInGroups ε id update groups).2.2.map configOf = groups.map configOf := by
  induction groups with
  | nil => intro update; rfl
  | cons group groups ih =>
    intro update
    simp only [updateLightInGroups]
    cases hlight : group.physicalLights.find? (fun l => l.id = id) with
    | none => simp only [List.map_cons, ih]
    | some light => simp only [List.map_cons, ih, configOf_updateLightInGroup]

/-- A group without one instance of a light, and with the new on state. -/
def withoutLight (group : Group) (i : ℕ) : Group :=
  (updateGroupOn { group with physicalLights := group.physicalLights.eraseIdx i }).2

/-- What `DeleteLight` makes of a group: nothing without the light, else a group that lacks one of its
instances, the last one, since every instance starts from the list the group had before. -/
theorem deleteLightInGroup_cases (id : String) (group : Group) :
    deleteLightInGroup id group = group ∧ (∀ light ∈ group.physicalLights, light.id ≠ id) ∨
    ∃ i light, group.physicalLights[i]? = some light ∧ light.id = id ∧
      deleteLightInGroup id group = withoutLight group i := by
  unfold deleteLightInGroup
  set write : Group → Light × ℕ → Group := fun g entry =>
    if entry.1.id = id then
      (updateGroupOn { g with physicalLights := group.physicalLights.eraseIdx entry.2 }).2
    else g with hwrite
  have hfold : ∀ entries : List (Light × ℕ),
      entries.foldl write group = group ∧ (∀ entry ∈ entries, entry.1.id ≠ id) ∨
      ∃ entry ∈ entries, entry.1.id = id ∧ entries.foldl write group = withoutLight group entry.2 := by
    intro entries
    induction entries using List.reverseRecOn with
    | nil => simp
    | append_singleton entries entry ih =>
      rw [List.foldl_append, List.foldl_cons, List.foldl_nil]
      by_cases hid : entry.1.id = id
      · refine .inr ⟨entry, by simp, hid, ?_⟩
        rcases ih with ⟨h, -⟩ | ⟨other, -, -, h⟩ <;> rw [h] <;> simp [hwrite, hid, withoutLight, updateGroupOn]
      · have hsame : ∀ g, write g entry = g := fun g => by simp [hwrite, hid]
        rw [hsame]
        rcases ih with ⟨h, hne⟩ | ⟨other, hother, hotherid, h⟩
        · refine .inl ⟨h, fun e he => ?_⟩
          rcases List.mem_append.mp he with he | he
          · exact hne e he
          · obtain rfl := List.mem_singleton.mp he
            exact hid
        · exact .inr ⟨other, by simp [hother], hotherid, h⟩
  rcases hfold group.physicalLights.zipIdx with ⟨h, hne⟩ | ⟨⟨light, i⟩, hmem, hid, h⟩
  · refine .inl ⟨h, fun light hlight => ?_⟩
    obtain ⟨i, hi⟩ := List.getElem?_of_mem hlight
    exact hne (light, i) (List.mk_mem_zipIdx_iff_getElem?.mpr hi)
  · exact .inr ⟨i, light, List.mk_mem_zipIdx_iff_getElem?.mp hmem, hid, h⟩

theorem configOf_deleteLightInGroup (id : String) (group : Group) :
    configOf (deleteLightInGroup id group) = configOf group := by
  rcases deleteLightInGroup_cases id group with ⟨h, -⟩ | ⟨i, light, -, -, h⟩ <;> rw [h]
  rfl

/-! ### All the groups -/

/-- **What a change can do to the groups.** -/
theorem groups_of_handle {change : Change} (h : handle ε c change = some c') :
    c'.bridge.groups.map configOf = c.bridge.groups.map configOf ∨
    change.resource = .entertainmentConfiguration ∧
      ((∃ group, Configured ε c change.node { id := change.node.deserializeString "id" } group ∧
          change.eventType = .add ∧ c'.bridge.groups = c.bridge.groups ++ [group]) ∨
        (∃ id old new, change.node.find "id" = some id ∧ change.eventType = .update ∧
          c.bridge.getGroupById id.asString = some old ∧ Configured ε c change.node old new ∧
          c'.bridge.groups =
            modifyFirst (fun g => g.id = id.asString) (fun _ => new) c.bridge.groups) ∨
        ∃ id, change.node.find "id" = some id ∧ change.eventType = .delete ∧
          c'.bridge.groups = c.bridge.groups.eraseP fun g => g.id = id.asString) := by
  have hframe := frame_of_handle h
  by_cases htouches : change.touchesGroups = false
  · rw [hframe.groups htouches]
    exact .inl rfl
  obtain ⟨eventType, resource, n⟩ := change
  cases resource <;> cases eventType <;> simp only [handle] at h
  case zigbeeConnectivity.update =>
    rcases updateZigbeeConnectivity_cases h with rfl | ⟨_, _, _, _, _, _, _, _, _, _, _, rfl⟩
    · exact .inl rfl
    · refine .inl ?_
      split_ifs
      · rfl
      · simp [List.map_map, Function.comp_def, configOf_setReachable]
  case light.update =>
    rcases updateLight_cases h with rfl | ⟨id, _, update, rest, updated, groups, _, _, _, _,
        hgroups, rfl⟩
    · exact .inl rfl
    · refine .inl ?_
      have := map_configOf_updateLightInGroups (ε := ε) id.asString c.bridge.groups update
      rwa [hgroups] at this
  case light.delete =>
    obtain ⟨_, _, _, rfl⟩ := deleteLight_cases h
    exact .inl (by simp [List.map_map, Function.comp_def, configOf_deleteLightInGroup])
  case entertainmentConfiguration.add =>
    obtain ⟨group, _, _, _, hgroup, -, rfl⟩ := addEntertainmentConfiguration_cases h
    exact .inr ⟨rfl, .inl ⟨group, hgroup, rfl, rfl⟩⟩
  case entertainmentConfiguration.update =>
    obtain ⟨id, hid, ⟨_, rfl⟩ | ⟨old, new, _, _, _, hold, hnew, -, rfl⟩⟩ :=
      updateEntertainmentConfiguration_cases h
    · exact .inl rfl
    · exact .inr ⟨rfl, .inr (.inl ⟨id, old, new, hid, rfl, hold, hnew, rfl⟩)⟩
  case entertainmentConfiguration.delete =>
    obtain ⟨id, _, hid, rfl⟩ := deleteEntertainmentConfiguration_cases h
    exact .inr ⟨rfl, .inr (.inr ⟨id, hid, rfl, rfl⟩)⟩
  all_goals simp [Change.touchesGroups] at htouches

end HueStream.Retriever
