import HueStream.Retriever.Directory

/-! # The cache refines its directory

`directoryOf` forgets everything but the ids, and `operationOf` reads off a change and the cache
which operation it is. Handling the change is that operation (`directory_of_handle`), so the cache
stays consistent in every run whose operations are safe, and what an event deletes is gone. -/

namespace HueStream.Retriever

open HueStream.Data HueStream.Flow HueStream.Json HueStream.Lib

variable {ε : Context} {c c' : Cache} {n : JSONNode} {ts : List (Transition Cache Input)}

/-- The ids of a zone and of its scenes. -/
def zoneEntry (zone : Zone) : String × List String := (zone.id, zone.scenes.map Scene.id)

/-- The ids a cache holds. -/
def directoryOf (c : Cache) : Directory where
  groups := c.bridge.groups.map Group.id
  zones := c.bridge.zones.map zoneEntry
  zoneKeys := {id | id ∈ c.allZoneMap}
  sceneKeys := {id | id ∈ c.allSceneMap}

/-- The operation a change is. -/
def operationOf (c : Cache) (change : Change) : Operation :=
  let id := change.node.deserializeString "id"
  match change.resource, change.eventType with
  | .entertainmentConfiguration, .add => .addGroup id
  | .entertainmentConfiguration, .delete => .deleteGroup id
  | .zone, .add => if id = "" then .none else .addZone id
  | .zone, .delete => .deleteZone id
  | .scene, .add =>
    match getZoneFromScene c change.node with
    | none => .none
    | some zone => if isCompleteScene change.node then .addScene zone.id id else .none
  | .scene, .delete => .deleteScene ((getZoneFromScene c change.node).map fun zone => zone.id) id
  | _, _ => .none

/-! ### The refinement -/

theorem directory_ext {d : Directory} (hgroups : c.bridge.groups.map Group.id = d.groups)
    (hzones : c.bridge.zones.map zoneEntry = d.zones)
    (hzoneKeys : ∀ id, id ∈ c.allZoneMap ↔ id ∈ d.zoneKeys)
    (hsceneKeys : ∀ id, id ∈ c.allSceneMap ↔ id ∈ d.sceneKeys) : directoryOf c = d := by
  obtain ⟨groups, zones, zoneKeys, sceneKeys⟩ := d
  simp only [directoryOf, Directory.mk.injEq]
  exact ⟨hgroups, hzones, Set.ext hzoneKeys, Set.ext hsceneKeys⟩

theorem deserializeString_of_find {name : String} {value : JSONNode} (h : n.find name = some value) :
    n.deserializeString name = value.asString := by
  simp [JSONNode.deserializeString, h]

theorem map_id_of_configOf {groups groups' : List Group}
    (h : groups'.map configOf = groups.map configOf) : groups'.map Group.id = groups.map Group.id := by
  simpa [List.map_map, Function.comp_def, configOf] using congrArg (List.map Group.id) h

theorem zoneEntry_updateLightInZone (update : LightUpdate) (id : String) (zone : Zone) :
    zoneEntry (updateLightInZone ε update id zone) = zoneEntry zone := rfl

theorem map_eraseP_key {α : Type} (key : α → String) (l : List α) (id : String) :
    (l.eraseP fun a => key a = id).map key = (l.map key).erase id := by
  rw [List.erase_eq_eraseP, List.eraseP_map]
  congr 2
  funext a
  by_cases hkey : key a = id
  · simp [hkey]
  · simp [hkey, Ne.symm hkey]

theorem mem_erase_iff {m : JSONNodeMap} {id key : String} :
    key ∈ m.erase id ↔ key ∈ {key | key ∈ m} \ {id} := by
  rw [AList.mem_erase, Set.mem_sdiff]
  exact and_comm

theorem zones_of_light {eventType : EventType} (h : handle ε c ⟨eventType, .light, n⟩ = some c') :
    c'.bridge.zones.map zoneEntry = c.bridge.zones.map zoneEntry := by
  have hframe := frame_of_handle h
  cases eventType with
  | add => rw [hframe.zones rfl]
  | delete => rw [hframe.zones rfl]
  | update =>
    rcases updateLight_cases h with rfl | ⟨_, _, _, _, _, _, _, _, _, _, _, rfl⟩
    · rfl
    · simp [List.map_map, Function.comp_def, zoneEntry_updateLightInZone]

/-- A change of another kind is no operation on the ids. -/
theorem directory_of_other {change : Change} (h : handle ε c change = some c')
    (hec : change.resource ≠ .entertainmentConfiguration) (hzone : change.resource ≠ .zone)
    (hscene : change.resource ≠ .scene) : directoryOf c' = directoryOf c := by
  have hframe := frame_of_handle h
  have hzones : c'.bridge.zones.map zoneEntry = c.bridge.zones.map zoneEntry := by
    obtain ⟨eventType, resource, n⟩ := change
    by_cases hlight : resource = .light
    · subst hlight
      exact zones_of_light h
    · rw [hframe.zones]
      cases resource <;> cases eventType <;> simp_all [Change.touchesZones]
  refine directory_ext ?_ hzones (fun id => ?_) fun id => ?_
  · exact map_id_of_configOf ((groups_of_handle h).resolve_right fun hcases => hec hcases.1)
  · rw [hframe.allZoneMap hzone]
    rfl
  · rw [hframe.allSceneMap hscene]
    rfl

theorem directory_of_entertainmentConfiguration {eventType : EventType}
    (h : handle ε c ⟨eventType, .entertainmentConfiguration, n⟩ = some c') :
    directoryOf c' =
      (directoryOf c).apply (operationOf c ⟨eventType, .entertainmentConfiguration, n⟩) := by
  have hframe := frame_of_handle h
  have hrest : ∀ groups, c'.bridge.groups.map Group.id = groups →
      directoryOf c' = { directoryOf c with groups } := fun groups hgroups =>
    directory_ext hgroups (by rw [hframe.zones rfl]; rfl)
      (fun id => by rw [hframe.allZoneMap (by simp)]; rfl)
      (fun id => by rw [hframe.allSceneMap (by simp)]; rfl)
  cases eventType with
  | add =>
    obtain ⟨group, _, _, _, ⟨_, _, _, _, hid, -⟩, -, rfl⟩ := addEntertainmentConfiguration_cases h
    refine hrest _ ?_
    simp [Cache.withGroups, directoryOf, hid]
  | update =>
    obtain ⟨id, -, ⟨-, rfl⟩ | ⟨old, new, _, _, _, hold, ⟨_, _, _, _, hid, -⟩, -, rfl⟩⟩ :=
      updateEntertainmentConfiguration_cases h
    · rfl
    · refine hrest _ (map_modifyFirst fun group hgroup => ?_)
      obtain rfl : old = group := Option.some.inj (hold.symm.trans hgroup)
      exact hid
  | delete =>
    obtain ⟨id, _, hid, rfl⟩ := deleteEntertainmentConfiguration_cases h
    refine hrest _ ?_
    simp only [directoryOf, deserializeString_of_find hid]
    exact map_eraseP_key _ _ _

theorem directory_of_zone {eventType : EventType} (h : handle ε c ⟨eventType, .zone, n⟩ = some c') :
    directoryOf c' = (directoryOf c).apply (operationOf c ⟨eventType, .zone, n⟩) := by
  have hframe := frame_of_handle h
  have hrest : ∀ zones zoneKeys, c'.bridge.zones.map zoneEntry = zones →
      (∀ id, id ∈ c'.allZoneMap ↔ id ∈ zoneKeys) →
      directoryOf c' = { directoryOf c with zones, zoneKeys } := fun zones zoneKeys hzones hkeys =>
    directory_ext (by rw [hframe.groups rfl]; rfl) hzones hkeys
      (fun id => by rw [hframe.allSceneMap (by simp)]; rfl)
  cases eventType with
  | add =>
    rcases addZone_cases h with ⟨hid, rfl⟩ | ⟨zone, _, _, _, hid, hne, hscenes, -, rfl⟩
    · simp [operationOf, hid, Directory.apply]
    · simp only [operationOf, ← hid, hne, if_false]
      refine hrest _ _ (by simp [Cache.withZones, zoneEntry, hscenes]; rfl) fun id => ?_
      rw [JSONNodeMap.mem_put]
      rfl
  | update =>
    rcases updateZone_cases h with rfl | ⟨old, new, _, _, hold, -, hid, hscenes, -, rfl⟩
    · rfl
    · refine hrest _ _ (map_modifyFirst fun zone hzone => ?_) fun id => Iff.rfl
      obtain rfl : old = zone := Option.some.inj (hold.symm.trans hzone)
      simp [zoneEntry, hid, hscenes]
  | delete =>
    obtain ⟨id, _, hid, rfl⟩ := deleteZone_cases h
    simp only [operationOf, deserializeString_of_find hid]
    refine hrest _ _ ?_ fun key => mem_erase_iff
    simp only [directoryOf, List.eraseP_map]
    rfl

/-- A write to the scenes of the zone of a scene, seen from the directory. -/
theorem map_zoneEntry_modifyScenes (c : Cache) (zoneId : String) (f : List Scene → List Scene)
    (f' : List String → List String) (hf : ∀ scenes, (f scenes).map Scene.id = f' (scenes.map Scene.id)) :
    (modifyScenes c zoneId f).bridge.zones.map zoneEntry =
      modifyFirst (fun entry => entry.1 = zoneId) (fun entry => (entry.1, f' entry.2))
        (c.bridge.zones.map zoneEntry) :=
  map_modifyFirst_eq (fun _ => rfl) fun zone => by simp [zoneEntry, hf]

theorem directory_of_scene {eventType : EventType} (h : handle ε c ⟨eventType, .scene, n⟩ = some c') :
    directoryOf c' = (directoryOf c).apply (operationOf c ⟨eventType, .scene, n⟩) := by
  have hframe := frame_of_handle h
  have hrest : ∀ zones sceneKeys, c'.bridge.zones.map zoneEntry = zones →
      (∀ id, id ∈ c'.allSceneMap ↔ id ∈ sceneKeys) →
      directoryOf c' = { directoryOf c with zones, sceneKeys } := fun zones sceneKeys hzones hkeys =>
    directory_ext (by rw [hframe.groups rfl]; rfl) hzones
      (fun id => by rw [hframe.allZoneMap (by simp)]; rfl) hkeys
  cases eventType with
  | add =>
    rcases addScene_cases h with ⟨hnone | hnone, rfl⟩ |
      ⟨zone, scene, _, hzone, hcomplete, hid, rfl⟩
    · simp [operationOf, hnone, Directory.apply]
    · simp only [operationOf, hnone]
      split <;> rfl
    · have hmem : zone.id ∈ (directoryOf c).zones.map Prod.fst := by
        have hzone := List.mem_of_find?_eq_some (getZoneById_of_getZoneFromScene hzone)
        exact List.mem_map_of_mem (List.mem_map_of_mem hzone)
      simp only [operationOf, hzone, hcomplete, if_true, ← hid]
      refine hrest _ _ (map_zoneEntry_modifyScenes c _ (· ++ [scene]) (· ++ [scene.id])
        fun scenes => by simp) fun id => ?_
      rw [JSONNodeMap.mem_put]
      exact or_comm.trans (or_congr_right (and_iff_left hmem).symm)
  | update =>
    rcases updateScene_cases h with rfl | ⟨zone, old, new, _, hzone, hold, hid, rfl⟩
    · rfl
    · refine hrest _ _ (map_modifyFirst fun z hz => ?_) fun id => Iff.rfl
      obtain rfl : zone = z :=
        Option.some.inj ((getZoneById_of_getZoneFromScene hzone).symm.trans hz)
      refine Prod.ext rfl (map_modifyFirst fun scene hscene => ?_)
      obtain rfl : old = scene := Option.some.inj (hold.symm.trans hscene)
      exact hid
  | delete =>
    rcases deleteScene_cases (Option.some.inj h) with ⟨hnone, rfl⟩ | ⟨zone, _, hzone, rfl⟩
    · simp [operationOf, hnone, Directory.apply]
    · simp only [operationOf, hzone, Option.map_some]
      exact hrest _ _ (map_zoneEntry_modifyScenes c _
        (fun scenes => scenes.eraseP fun s => s.id = n.deserializeString "id")
        (List.erase · (n.deserializeString "id")) fun scenes => map_eraseP_key _ _ _)
        fun key => mem_erase_iff

/-- **Handling a change is its operation on the directory.** -/
theorem directory_of_handle {change : Change} (h : handle ε c change = some c') :
    directoryOf c' = (directoryOf c).apply (operationOf c change) := by
  obtain ⟨eventType, resource, n⟩ := change
  cases resource
  case entertainmentConfiguration => exact directory_of_entertainmentConfiguration h
  case zone => exact directory_of_zone h
  case scene => exact directory_of_scene h
  all_goals
    rw [directory_of_other h (by simp) (by simp) (by simp)]
    cases eventType <;> rfl

/-! ### Runs -/

/-- The changes that are safe operations. -/
def safeChange (c : Cache) (change : Change) : Bool := (directoryOf c).Safe (operationOf c change)

theorem consistent_of_cleared (h : Cleared c) : (directoryOf c).Consistent := by
  constructor <;> simp [directoryOf, h.groups, h.zones, h.allSceneMap]

theorem directory_of_quiet (hquiet : Quiet c c') : directoryOf c' = directoryOf c := by
  have hgroups : c'.bridge.groups.map Group.id = c.bridge.groups.map Group.id := by
    simpa [List.map_map, Function.comp_def, withoutOwnerName] using
      congrArg (List.map Group.id) hquiet.groups
  exact directory_ext hgroups (by rw [hquiet.zones]; rfl)
    (fun id => by rw [hquiet.allZoneMap]; rfl) fun id => by rw [hquiet.allSceneMap]; rfl

theorem consistent_step {input : Input} (hstep : step ε c input = some c')
    (hsafe : (changeOf c input).all (safeChange c) = true) (h : (directoryOf c).Consistent) :
    (directoryOf c').Consistent := by
  rcases step_cases hstep with ⟨change, hchange, hhandle⟩ | ⟨-, hquiet⟩
  · rw [directory_of_handle hhandle]
    exact h.apply (by simpa [hchange, safeChange] using hsafe)
  · rw [directory_of_quiet hquiet]
    exact h

theorem absent_of_delete {change : Change} (hhandle : handle ε c change = some c')
    (hdelete : change.eventType = .delete) (hsafe : safeChange c change = true)
    (h : (directoryOf c).Consistent) :
    (directoryOf c').Absent (change.node.deserializeString "id") change.resource := by
  rw [directory_of_handle hhandle]
  obtain ⟨eventType, resource, n⟩ := change
  obtain rfl : eventType = _ := hdelete
  cases resource
  case entertainmentConfiguration => exact Directory.absent_deleteGroup h _
  case zone => exact Directory.absent_deleteZone h _
  case scene => exact Directory.absent_deleteScene h (of_decide_eq_true hsafe)
  all_goals trivial

/-- **The ids stay unique and the scenes known** in every run whose changes are all safe, and after
an event has deleted an object, no object of its kind has its id. -/
theorem ids_consistent (hrun : (retriever ε).Run ts c)
    (hsafe : ∀ t ∈ ts, (changeOf t.before t.label).all (safeChange t.before) = true) :
    (directoryOf c).Consistent ∧
      ∀ t ∈ ts, ∀ change, t.label = .change change → change.eventType = .delete →
        (directoryOf t.after).Absent (change.node.deserializeString "id") change.resource := by
  have hconsistent : ∀ us c, (retriever ε).Run us c → (∀ t ∈ us, t ∈ ts) →
      (directoryOf c).Consistent := fun us c hrun hus =>
    hrun.invariant_of (I := fun c => (directoryOf c).Consistent)
      (C := fun c input => (changeOf c input).all (safeChange c) = true) (fun s hs => consistent_of_cleared hs) (fun s l s' hs hl h => consistent_step hs hl h)
      fun t ht => hsafe t (hus t ht)
  refine ⟨hconsistent ts c hrun fun t ht => ht, fun t ht change hlabel hdelete => ?_⟩
  obtain ⟨hstep, us, hus, hbefore⟩ := hrun.reaches_before ht
  have hchange := hsafe t ht
  rw [hlabel] at hstep hchange
  change step ε t.before (.change change) = some t.after at hstep
  rcases step_cases hstep with ⟨change', heq, hhandle⟩ | ⟨hnone, -⟩
  · obtain rfl : change = change' := Option.some.inj heq
    exact absent_of_delete hhandle hdelete hchange
      (hconsistent us t.before hbefore fun t ht => hus.subset ht)
  · simp [changeOf] at hnone

/-! ### A zone with a scene, and an addition that is repeated -/

/-- A scene of the zone of the lamp. -/
def lampScene : JSONNode := .node [("id", .string "scene"), ("id_v1", .string "/scenes/scene"),
  ("metadata", .node [("name", .string "evening"), ("image", .node [])]),
  ("group", .node [("rid", .string "zone"), ("rtype", .string "zone")])]

/-- A zone and its scene are fetched, the scene is deleted and then the zone. -/
theorem ids_consistent_deleted :
    ∃ ts c, (retriever {}).Run ts c ∧ (directoryOf c).Consistent ∧ c.bridge.zones.length = 0 := by
  obtain ⟨ts, c, hrun, h⟩ := Machine.exists_run (M := retriever {}) (s := {})
    (List.replicate 5 .resourceDone ++ [.item lampZone, .resourceDone, .resourceDone,
      .item lampScene, .resourceDone, .change ⟨.delete, .scene, lampScene⟩,
      .change ⟨.delete, .zone, lampZone⟩])
    (fun ts c => (ts.all fun t => (changeOf t.before t.label).all (safeChange t.before)) &&
      c.bridge.zones.length = 0) cleared_empty (by decide)
  simp only [Bool.and_eq_true, List.all_eq_true, decide_eq_true_eq] at h
  exact ⟨ts, c, hrun, (ids_consistent hrun h.1).1, h.2⟩

/-- A configuration that is added again after the fetch is there twice. -/
theorem exists_duplicate_group :
    ∃ ts c, (retriever {}).Run ts c ∧ c.resourceToGet = none ∧ ¬ (directoryOf c).Consistent := by
  obtain ⟨ts, c, hrun, h⟩ := Machine.exists_run (M := retriever {}) (s := {})
    (fetchOneChannel ++ [.change ⟨.add, .entertainmentConfiguration, oneChannel⟩])
    (fun _ c => c.resourceToGet = none && c.bridge.groups.map Group.id = ["1", "1"])
    cleared_empty (by decide)
  simp only [Bool.and_eq_true, decide_eq_true_eq] at h
  refine ⟨ts, c, hrun, h.1, fun hconsistent => ?_⟩
  have hnodup : (c.bridge.groups.map Group.id).Nodup := hconsistent.groups
  rw [h.2] at hnodup
  simp at hnodup

end HueStream.Retriever
