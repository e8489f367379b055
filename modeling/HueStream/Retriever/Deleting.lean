import HueStream.Retriever.Summary

/-! # The deletion of a light

A light may stand in several groups and zones, and more than once in one of them. For every instance it finds
in a group `DeleteLight` makes a new list from the one the group had before, so that all instances but one
are back in the end; and it does not look at the zones. -/

namespace HueStream.Retriever

open HueStream.Data HueStream.Json HueStream.Lib

/-- The light has gone from all lists of physical lights, in which everything else is as before. -/
def LightGone (id : String) (c c' : Cache) : Prop :=
  c'.bridge.groups.map (·.physicalLights) =
      c.bridge.groups.map (fun group => group.physicalLights.filter (·.id ≠ id)) ∧
    c'.bridge.zones.map (·.physicalLights) =
      c.bridge.zones.map fun zone => zone.physicalLights.filter (·.id ≠ id)

/-- The deletion removes the light from everywhere. -/
def DeletesLight (n : JSONNode) (id : String) (c : Cache) : Prop :=
  ∃ c', deleteLight c n = some c' ∧ LightGone id c c'

/-- No group has two instances of the light, and no zone has one. -/
def OnceInGroups (id : String) (c : Cache) : Prop :=
  (∀ group ∈ c.bridge.groups, group.physicalLights.countP (·.id = id) ≤ 1) ∧
    ∀ zone ∈ c.bridge.zones, ∀ light ∈ zone.physicalLights, light.id ≠ id

instance (id : String) (c : Cache) : Decidable (OnceInGroups id c) := inferInstanceAs (Decidable (_ ∧ _))

variable {c c' : Cache} {n idNode : JSONNode} {id : String}

/-- A light that has gone is in no list. -/
theorem LightGone.id_ne (h : LightGone id c c') :
    (∀ group ∈ c'.bridge.groups, ∀ light ∈ group.physicalLights, light.id ≠ id) ∧
      ∀ zone ∈ c'.bridge.zones, ∀ light ∈ zone.physicalLights, light.id ≠ id := by
  constructor
  · intro group hgroup light hlight
    have hmem : group.physicalLights ∈ c'.bridge.groups.map (·.physicalLights) := List.mem_map_of_mem hgroup
    rw [h.1] at hmem
    obtain ⟨old, -, heq⟩ := List.mem_map.mp hmem
    rw [← heq] at hlight
    simpa using (List.mem_filter.mp hlight).2
  · intro zone hzone light hlight
    have hmem : zone.physicalLights ∈ c'.bridge.zones.map (·.physicalLights) := List.mem_map_of_mem hzone
    rw [h.2] at hmem
    obtain ⟨old, -, heq⟩ := List.mem_map.mp hmem
    rw [← heq] at hlight
    simpa using (List.mem_filter.mp hlight).2

theorem physicalLights_deleteLightInGroup_iff (id : String) (group : Group) :
    (deleteLightInGroup id group).physicalLights = group.physicalLights.filter (·.id ≠ id) ↔
      group.physicalLights.countP (·.id = id) ≤ 1 := by
  have hfilter : group.physicalLights.filter (·.id ≠ id) =
      group.physicalLights.filter fun light => !decide (light.id = id) := by
    congr 1
    funext light
    simp
  rw [hfilter]
  rcases deleteLightInGroup_cases id group with ⟨heq, hnone⟩ | ⟨i, light, hlight, hid, heq⟩
  · have hzero : group.physicalLights.countP (·.id = id) = 0 :=
      List.countP_eq_zero.mpr fun light hlight => by simp [hnone light hlight]
    rw [heq, hzero, eq_comm, List.filter_eq_self]
    simpa using hnone
  · have hlist : (deleteLightInGroup id group).physicalLights = group.physicalLights.eraseIdx i := by
      rw [heq]
      rfl
    rw [hlist]
    exact eraseIdx_eq_filter_iff hlight (decide_eq_true hid)

/-- **When a deletion removes a light.** The light goes from every group and zone, and nothing else changes in
their lists, if and only if no group has two instances of it and no zone has one. -/
theorem deletesLight_iff (hid : n.find "id" = some idNode) :
    DeletesLight n idNode.asString c ↔ OnceInGroups idNode.asString c := by
  have hdelete : ∃ feedbackMessageMap, deleteLight c n = some { c with
      bridge := { c.bridge with groups := c.bridge.groups.map (deleteLightInGroup idNode.asString) }
      allLightMap := c.allLightMap.erase idNode.asString
      feedbackMessageMap } := by
    simp only [deleteLight, hid]
    exact ⟨_, rfl⟩
  obtain ⟨feedbackMessageMap, hdelete⟩ := hdelete
  have hgroups : ∀ groups : List Group,
      (groups.map (deleteLightInGroup idNode.asString)).map (·.physicalLights) =
        groups.map (fun group => group.physicalLights.filter (·.id ≠ idNode.asString)) ↔
      ∀ group ∈ groups, group.physicalLights.countP (·.id = idNode.asString) ≤ 1 := by
    intro groups
    rw [List.map_map, List.map_inj_left]
    exact forall₂_congr fun group _ => physicalLights_deleteLightInGroup_iff _ group
  have hzones : ∀ zones : List Zone, zones.map (·.physicalLights) =
      zones.map (fun zone => zone.physicalLights.filter (·.id ≠ idNode.asString)) ↔
      ∀ zone ∈ zones, ∀ light ∈ zone.physicalLights, light.id ≠ idNode.asString := by
    intro zones
    rw [List.map_inj_left]
    refine forall₂_congr fun zone _ => ?_
    rw [eq_comm, List.filter_eq_self]
    simp
  unfold DeletesLight OnceInGroups
  rw [← hgroups, ← hzones]
  constructor
  · rintro ⟨c', hc', hgone⟩
    obtain rfl : _ = c' := Option.some.inj (hdelete.symm.trans hc')
    exact hgone
  · intro hgone
    exact ⟨_, hdelete, hgone⟩

/-- A lamp of one group is deleted after a fetch. -/
theorem deletesLight_iff_example : ∃ ts c, (retriever {}).Run ts c ∧
    c.bridge.groups.map (·.physicalLights.length) = [1] ∧ DeletesLight lamp "lamp" c := by
  obtain ⟨ts, c, hrun, h⟩ := Machine.exists_run (M := retriever {}) (s := {})
    (fetchLamp [] [lampConfiguration])
    (fun _ c => c.bridge.groups.map (·.physicalLights.length) = [1] && decide (OnceInGroups "lamp" c))
    cleared_empty (by decide +kernel)
  rw [Bool.and_eq_true, decide_eq_true_eq, decide_eq_true_eq] at h
  have hid : lamp.find "id" = some (.string "lamp") := rfl
  exact ⟨ts, c, hrun, h.1, (deletesLight_iff hid).mpr h.2⟩

/-- A configuration with the lamp at two places. -/
def lampTwice : JSONNode := .node [("id", .string "group"),
  ("locations", .node [("service_locations", .array [
    .node [("service", .node [("rid", .string "entertainment")])],
    .node [("service", .node [("rid", .string "entertainment")])]])])]

/-- Whether a group or a zone has the light after its deletion. -/
def stillThere (n : JSONNode) (id : String) (c : Cache) : Bool :=
  (deleteLight c n).any fun c' => c'.bridge.groups.any (hasLight id) ||
    c'.bridge.zones.any fun zone => zone.physicalLights.any (·.id = id)

theorem not_deletesLight (h : stillThere n id c = true) : ¬ DeletesLight n id c := by
  rintro ⟨c', hc', hgone⟩
  obtain ⟨hgroups, hzones⟩ := hgone.id_ne
  simp only [stillThere, hc', Option.any_some, Bool.or_eq_true, List.any_eq_true, hasLight,
    decide_eq_true_eq] at h
  rcases h with ⟨group, hgroup, light, hlight, hid⟩ | ⟨zone, hzone, light, hlight, hid⟩
  · exact hgroups group hgroup light hlight hid
  · exact hzones zone hzone light hlight hid

/-- After a fetch, a lamp of a zone stays there, and so does one of the two instances of a lamp in a group. -/
theorem exists_not_deletesLight :
    (∃ ts c, (retriever {}).Run ts c ∧ c.resourceToGet = none ∧
      c.bridge.zones.map (·.physicalLights.length) = [1] ∧ ¬ DeletesLight lamp "lamp" c) ∧
    ∃ ts c, (retriever {}).Run ts c ∧ c.resourceToGet = none ∧
      c.bridge.groups.map (·.physicalLights.length) = [2] ∧ ¬ DeletesLight lamp "lamp" c := by
  constructor
  · obtain ⟨ts, c, hrun, h⟩ := Machine.exists_run (M := retriever {}) (s := {}) (fetchLamp [lampZone] [])
      (fun _ c => (c.resourceToGet = none && c.bridge.zones.map (·.physicalLights.length) = [1]) &&
        stillThere lamp "lamp" c)
      cleared_empty (by decide +kernel)
    simp only [Bool.and_eq_true, decide_eq_true_eq] at h
    exact ⟨ts, c, hrun, h.1.1, h.1.2, not_deletesLight h.2⟩
  · obtain ⟨ts, c, hrun, h⟩ := Machine.exists_run (M := retriever {}) (s := {}) (fetchLamp [] [lampTwice])
      (fun _ c => (c.resourceToGet = none && c.bridge.groups.map (·.physicalLights.length) = [2]) &&
        stillThere lamp "lamp" c)
      cleared_empty (by decide +kernel)
    simp only [Bool.and_eq_true, decide_eq_true_eq] at h
    exact ⟨ts, c, hrun, h.1.1, h.1.2, not_deletesLight h.2⟩

end HueStream.Retriever
