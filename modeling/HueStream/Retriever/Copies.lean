import HueStream.Retriever.Readings
import HueStream.Retriever.Summary

/-! # The copies of a light

A light is copied into groups and zones, and its node is stored; a copy is good if it shows what is
stored. Groups and zones copy what is stored, so the changes to watch are those of devices, of the
Zigbee connectivity and of lights. `UpdateLight` writes the copies and not the stored node, of which
it changes a copy of its own; `UpdateZigbeeConnectivity` writes the stored node and the first
instance of one light in each group; `DeleteLight` removes the stored node and one instance of the
light from each group. `keepsCopies` is what keeps the copies good all the same. -/

namespace HueStream.Retriever

open HueStream.Data HueStream.Flow HueStream.Json HueStream.Lib

variable {ε : Context} {c c' : Cache} {n : JSONNode} {ts : List (Transition Cache Input)}
  {light : Light}

/-- All physical lights of the groups and zones, with every instance. -/
def copies (c : Cache) : List Light :=
  c.bridge.groups.flatMap (·.physicalLights) ++ c.bridge.zones.flatMap (·.physicalLights)

/-- Every copy shows what the stored nodes give for its light. -/
def CopiesAgree (ε : Context) (c : Cache) : Prop :=
  ∀ light ∈ copies c, stored ε c light.id = some (appearance light)

/-- Any two copies of a light show the same. -/
theorem CopiesAgree.same (h : CopiesAgree ε c) {light' : Light} (hlight : light ∈ copies c)
    (hlight' : light' ∈ copies c) (hid : light.id = light'.id) :
    appearance light = appearance light' := by
  have heq := (h light hlight).symm.trans (hid ▸ h light' hlight')
  exact Option.some.inj heq

/-! ### The changes that keep the copies good -/

/-- Whether a light already has the value an update brings. -/
def LightUpdate.isShownBy (ε : Context) (update : LightUpdate) (light : Light) : Bool :=
  match update with
  | .nothing => true
  | .name newName => light.name = newName
  | .on newOnState => light.on = newOnState
  | .brightness newBrightness => light.brightness = newBrightness
  | .color newX newY => Color.ofXY ε.pow newX newY light.brightness 100 = light.color
  | .dynamic newDynamicEnabled => light.dynamicEnabled = newDynamicEnabled

/-- The updates that are written to the lights of zones. -/
def LightUpdate.reachesZones : LightUpdate → Bool
  | .dynamic _ => false
  | _ => true

/-- With these devices a light would be read as reachable as it shows. -/
def isReadWith (ε : Context) (c : Cache) (devices : JSONNodeMap) (light : Light) : Bool :=
  (parseModelId ε devices light.id).isSome &&
    getReachable ε devices c.allZigbeeConnectivityMap light.id = some light.reachable

/-- A connectivity update about `lightId` suits the light of a group: the light shows the new flag,
or takes it together with the stored node, or none of them takes it. -/
def suitsGroup (ε : Context) (c : Cache) (id lightId : String) (reachable : Bool) (group : Group)
    (light : Light) : Bool :=
  light.reachable = reachable ||
    if light.id = lightId && lightId ≠ "" then
      connectsThrough ε c light.id id && group.physicalLights.countP (·.id = lightId) = 1
    else !connectsThrough ε c light.id id

/-- The changes that keep the copies good.

* A device that is added or deleted, and an entry of the Zigbee connectivity that is added, must make
  no difference to whether a light with a copy is reachable; an entry that is deleted must connect
  none of these lights.
* An update of the connectivity must bring nothing new, or be about a light that is in no zone, is at
  most once in each group, and is connected through this entry.
* A light that is added must show what its copies show, if there are any.
* A light that is updated must have no copies the update is written to, or copies that show it.
* A light that is deleted must be in no zone, and at most once in each group. -/
def keepsCopies (ε : Context) (c : Cache) : Change → Bool
  | ⟨.add, .device, n⟩ => (n.find "id").all fun id =>
    hasServiceOfType n ["light", "bridge"] ≠ some true ||
      (copies c).all (isReadWith ε c (c.allDeviceMap.put id.asString n))
  | ⟨.delete, .device, n⟩ => (n.find "id").all fun id =>
    (copies c).all (isReadWith ε c (c.allDeviceMap.erase id.asString))
  | ⟨.add, .zigbeeConnectivity, n⟩ => (n.find "id").all fun id => (copies c).all fun light =>
    !connectsThrough ε c light.id id.asString || reachableFlag n = some light.reachable
  | ⟨.update, .zigbeeConnectivity, n⟩ => (n.find "id").all fun id =>
    (c.allZigbeeConnectivityMap.lookup id.asString).isNone || (reachableFlag n).all fun reachable =>
    (getLightIdFromZigbeeConnectivityId ε c.allDeviceMap id.asString).all fun lightId =>
      (c.bridge.groups.all fun group =>
        group.physicalLights.all (suitsGroup ε c id.asString lightId reachable group)) &&
      c.bridge.zones.all fun zone => zone.physicalLights.all fun light =>
        light.reachable = reachable || !connectsThrough ε c light.id id.asString
  | ⟨.delete, .zigbeeConnectivity, n⟩ => (n.find "id").all fun id =>
    (copies c).all fun light => !connectsThrough ε c light.id id.asString
  | ⟨.add, .light, n⟩ => (n.find "id").all fun id => (copies c).all fun light =>
    light.id ≠ id.asString || (parseLightInfo ε c n).map appearance = some (appearance light)
  | ⟨.update, .light, n⟩ => (n.find "id").all fun id =>
    (c.allLightMap.lookup id.asString).all fun node => (LightUpdate.ofNode ε node n).all fun update =>
      (c.bridge.groups.all fun group => group.physicalLights.all fun light =>
        light.id ≠ id.asString || update.isShownBy ε light) &&
      c.bridge.zones.all fun zone => zone.physicalLights.all fun light =>
        light.id ≠ id.asString || !update.reachesZones || update.isShownBy ε light
  | ⟨.delete, .light, n⟩ => (n.find "id").all fun id =>
    (c.bridge.groups.all fun group =>
      group.physicalLights.countP (·.id = id.asString) ≤ 1) &&
    c.bridge.zones.all fun zone => zone.physicalLights.all fun light => light.id ≠ id.asString
  | _ => true

/-! ### Copies, old and new -/

theorem mem_copies : light ∈ copies c ↔ (∃ group ∈ c.bridge.groups, light ∈ group.physicalLights) ∨
    ∃ zone ∈ c.bridge.zones, light ∈ zone.physicalLights := by
  simp only [copies, List.mem_append, List.mem_flatMap]

theorem copies_of_frame {change : Change} (h : handle ε c change = some c')
    (hgroups : change.touchesGroups = false) (hzones : change.touchesZones = false) :
    copies c' = copies c := by
  have hframe := frame_of_handle h
  rw [copies, copies, hframe.groups hgroups, hframe.zones hzones]

/-- A change of an entertainment configuration keeps the lights of groups, or parses new ones. -/
theorem mem_groups_of_handle {group : Group} {eventType : EventType} (hkeyed : Keyed c)
    (h : handle ε c ⟨eventType, .entertainmentConfiguration, n⟩ = some c')
    (hgroup : group ∈ c'.bridge.groups) (hlight : light ∈ group.physicalLights) :
    (∃ g ∈ c.bridge.groups, light ∈ g.physicalLights) ∨
      stored ε c light.id = some (appearance light) := by
  cases eventType with
  | add =>
    obtain ⟨new, _, _, _, ⟨lights, channels, hlights, -, -, -, -, hphysical, -⟩, -, rfl⟩ :=
      addEntertainmentConfiguration_cases h
    rcases List.mem_append.mp hgroup with hgroup | hgroup
    · exact .inl ⟨group, hgroup, hlight⟩
    · rw [List.mem_singleton.mp hgroup, hphysical] at hlight
      cases lights with
      | none => simp at hlight
      | some lights => exact .inr (hkeyed.stored_parseLights hlights hlight)
  | update =>
    obtain ⟨id, -, ⟨-, rfl⟩ | ⟨old, new, _, _, _, hold,
        ⟨lights, channels, hlights, -, -, -, -, hphysical, -⟩, -, rfl⟩⟩ :=
      updateEntertainmentConfiguration_cases h
    · exact .inl ⟨group, hgroup, hlight⟩
    rcases mem_modifyFirst hgroup with hgroup | ⟨-, -, rfl⟩
    · exact .inl ⟨group, hgroup, hlight⟩
    · rw [hphysical] at hlight
      cases lights with
      | none => exact .inl ⟨old, List.mem_of_find?_eq_some hold, hlight⟩
      | some lights => exact .inr (hkeyed.stored_parseLights hlights hlight)
  | delete =>
    obtain ⟨id, _, -, rfl⟩ := deleteEntertainmentConfiguration_cases h
    exact .inl ⟨group, List.mem_of_mem_eraseP hgroup, hlight⟩

/-- A change of a zone keeps the lights of zones, or parses new ones. -/
theorem mem_zones_of_handle {zone : Zone} {eventType : EventType} (hkeyed : Keyed c)
    (h : handle ε c ⟨eventType, .zone, n⟩ = some c') (hzone : zone ∈ c'.bridge.zones)
    (hlight : light ∈ zone.physicalLights) :
    (∃ z ∈ c.bridge.zones, light ∈ z.physicalLights) ∨
      stored ε c light.id = some (appearance light) := by
  cases eventType with
  | add =>
    rcases addZone_cases h with ⟨-, rfl⟩ | ⟨new, lights, _, hlights, -, -, -, hphysical, rfl⟩
    · exact .inl ⟨zone, hzone, hlight⟩
    rcases List.mem_append.mp hzone with hzone | hzone
    · exact .inl ⟨zone, hzone, hlight⟩
    · rw [List.mem_singleton.mp hzone, hphysical] at hlight
      cases lights with
      | none => simp at hlight
      | some lights => exact .inr (hkeyed.stored_parseZoneLights hlights hlight)
  | update =>
    rcases updateZone_cases h with rfl | ⟨old, new, lights, _, hold, hlights, -, -, hphysical, rfl⟩
    · exact .inl ⟨zone, hzone, hlight⟩
    rcases mem_modifyFirst hzone with hzone | ⟨-, -, rfl⟩
    · exact .inl ⟨zone, hzone, hlight⟩
    · rw [hphysical] at hlight
      cases lights with
      | none => exact .inl ⟨old, List.mem_of_find?_eq_some hold, hlight⟩
      | some lights => exact .inr (hkeyed.stored_parseZoneLights hlights hlight)
  | delete =>
    obtain ⟨id, _, -, rfl⟩ := deleteZone_cases h
    exact .inl ⟨zone, List.mem_of_mem_eraseP hzone, hlight⟩

/-- Writing the scenes of a zone leaves its lights alone. -/
theorem copies_modifyScenes (c : Cache) (zoneId : String) (f : List Scene → List Scene) :
    copies (modifyScenes c zoneId f) = copies c := by
  have hlights : (modifyFirst (fun z : Zone => decide (z.id = zoneId))
      (fun z => { z with scenes := f z.scenes }) c.bridge.zones).map (·.physicalLights) =
      c.bridge.zones.map (·.physicalLights) := map_modifyFirst fun _ _ => rfl
  simp only [copies, modifyScenes, Cache.withZones, List.flatMap_def, hlights]

theorem copies_scene {eventType : EventType} (h : handle ε c ⟨eventType, .scene, n⟩ = some c') :
    copies c' = copies c := by
  cases eventType with
  | add =>
    rcases addScene_cases h with ⟨-, rfl⟩ | ⟨zone, scene, _, -, -, -, rfl⟩
    · rfl
    · exact copies_modifyScenes c zone.id (· ++ [scene])
  | update =>
    rcases updateScene_cases h with rfl | ⟨zone, old, new, _, -, -, -, rfl⟩
    · rfl
    · exact copies_modifyScenes c zone.id (modifyFirst (fun s => s.id = n.deserializeString "id") fun _ => new)
  | delete =>
    rcases deleteScene_cases (Option.some.inj h) with ⟨-, rfl⟩ | ⟨zone, _, -, rfl⟩
    · rfl
    · exact copies_modifyScenes c zone.id (fun scenes => scenes.eraseP fun s => s.id = n.deserializeString "id")

/-- **Groups, zones and scenes** keep their copies, or get new ones of what is stored. -/
theorem copiesAgree_of_parsed {change : Change} (hkeyed : Keyed c)
    (hhandle : handle ε c change = some c') (hdevice : change.resource ≠ .device)
    (hzigbee : change.resource ≠ .zigbeeConnectivity) (hlight : change.resource ≠ .light)
    (h : CopiesAgree ε c) : CopiesAgree ε c' := by
  have hframe := frame_of_handle hhandle
  intro light hmem
  rw [stored_congr (hframe.allDeviceMap hdevice) (hframe.allLightMap hlight)
    (hframe.allZigbeeConnectivityMap hzigbee)]
  by_cases htouches : change.touchesGroups = false ∧ change.touchesZones = false
  · exact h light (copies_of_frame hhandle htouches.1 htouches.2 ▸ hmem)
  obtain ⟨eventType, resource, n⟩ := change
  cases resource with
  | entertainmentConfiguration =>
    rcases mem_copies.mp hmem with ⟨group, hgroup, hmem⟩ | hmem
    · rcases mem_groups_of_handle hkeyed hhandle hgroup hmem with hmem | hstored
      · exact h light (mem_copies.mpr (.inl hmem))
      · exact hstored
    · rw [hframe.zones rfl] at hmem
      exact h light (mem_copies.mpr (.inr hmem))
  | zone =>
    rcases mem_copies.mp hmem with hmem | ⟨zone, hzone, hmem⟩
    · rw [hframe.groups (by cases eventType <;> rfl)] at hmem
      exact h light (mem_copies.mpr (.inl hmem))
    · rcases mem_zones_of_handle hkeyed hhandle hzone hmem with hmem | hstored
      · exact h light (mem_copies.mpr (.inr hmem))
      · exact hstored
  | scene => exact h light (copies_scene hhandle ▸ hmem)
  | device => exact absurd rfl hdevice
  | zigbeeConnectivity => exact absurd rfl hzigbee
  | light => exact absurd rfl hlight
  | entertainment => cases eventType <;> simp [Change.touchesGroups, Change.touchesZones] at htouches
  | bridge => cases eventType <;> simp [Change.touchesGroups, Change.touchesZones] at htouches

/-! ### Devices -/

theorem copiesAgree_of_isReadWith {devices : JSONNodeMap} (hkeyed : Keyed c) (h : CopiesAgree ε c)
    (hcopies : copies c' = copies c) (hd : c'.allDeviceMap = devices)
    (hz : c'.allZigbeeConnectivityMap = c.allZigbeeConnectivityMap)
    (hl : c'.allLightMap = c.allLightMap)
    (hread : ∀ light ∈ copies c, isReadWith ε c devices light = true) : CopiesAgree ε c' := by
  intro light hmem
  rw [hcopies] at hmem
  have hlight := hread light hmem
  rw [isReadWith, Bool.and_eq_true, decide_eq_true_eq, ← hd, ← hz] at hlight
  exact hkeyed.stored_of_reachable (h light hmem) hl hlight.1 hlight.2

theorem copiesAgree_device {eventType : EventType} (hkeyed : Keyed c) (h : CopiesAgree ε c)
    (hhandle : handle ε c ⟨eventType, .device, n⟩ = some c')
    (hkeeps : keepsCopies ε c ⟨eventType, .device, n⟩ = true) : CopiesAgree ε c' := by
  cases eventType with
  | add =>
    rcases addDevice_cases hhandle with rfl | ⟨id, hid, hkept, rfl⟩
    · exact h
    · simp only [keepsCopies, hid, hkept, Option.all_some, ne_eq, not_true_eq_false, decide_false,
        Bool.false_or, List.all_eq_true] at hkeeps
      exact copiesAgree_of_isReadWith hkeyed h rfl rfl rfl rfl hkeeps
  | update =>
    have hcopies := copies_of_frame hhandle rfl rfl
    intro light hmem
    rw [stored_updateDevice hhandle]
    exact h light (hcopies ▸ hmem)
  | delete =>
    obtain ⟨id, hid, rfl⟩ := deleteDevice_cases hhandle
    simp only [keepsCopies, hid, Option.all_some, List.all_eq_true] at hkeeps
    exact copiesAgree_of_isReadWith hkeyed h rfl rfl rfl rfl hkeeps

/-! ### Zigbee connectivity -/

/-- The reading of a light after an entry of the connectivity has become another one. -/
theorem Keyed.stored_of_connectivity (hkeyed : Keyed c) {a : Appearance} {id lightId : String}
    {node : Option JSONNode} {reachable : Bool} (h : stored ε c lightId = some a)
    (hd : c'.allDeviceMap = c.allDeviceMap) (hl : c'.allLightMap = c.allLightMap)
    (hz : ∀ key, c'.allZigbeeConnectivityMap.lookup key =
      if key = id then node else c.allZigbeeConnectivityMap.lookup key)
    (hflag : connectsThrough ε c lightId id = true →
      reachableFlag (node.getD .empty) = some reachable)
    (hsame : connectsThrough ε c lightId id = false → a.reachable = reachable) :
    stored ε c' lightId = some { a with reachable } := by
  obtain ⟨n, l, -, -, hmodel, hreachable, -⟩ := hkeyed.stored_iff.mp h
  refine hkeyed.stored_of_reachable h hl (hd ▸ hmodel) ?_
  rw [hd, getReachable_of_lookup hz]
  by_cases hconnects : connectsThrough ε c lightId id = true
  · rw [if_pos hconnects]
    exact hflag hconnects
  · rw [if_neg hconnects, hreachable, hsame (by simpa using hconnects)]

theorem lookup_erase {m : JSONNodeMap} {id key : String} :
    (m.erase id).lookup key = if key = id then none else m.lookup key := by
  split_ifs with hkey
  · rw [hkey]
    exact AList.lookup_erase id m
  · exact AList.lookup_erase_ne hkey

/-- The lights of a group after the reachable flag of one was written: an old one, which is not the
only one with the id, or the one that was written. -/
theorem mem_setReachable {lightId : String} {reachable : Bool} {group : Group}
    (h : light ∈ (setReachable lightId reachable group).physicalLights) :
    (light ∈ group.physicalLights ∧
        (light.id = lightId → group.physicalLights.countP (·.id = lightId) ≠ 1)) ∨
      ∃ l ∈ group.physicalLights, l.id = lightId ∧ light = { l with reachable } := by
  unfold setReachable at h
  cases hfind : group.physicalLights.find? (fun l => l.id = lightId) with
  | none =>
    rw [List.find?_eq_none] at hfind
    rw [modifyFirst_eq_self (by simpa using hfind)] at h
    refine .inl ⟨h, fun hid => absurd (decide_eq_true hid) (hfind light h)⟩
  | some l =>
    obtain ⟨l₁, l₂, hsplit, hl₁, hl, heq⟩ :=
      modifyFirst_eq (f := fun l : Light => { l with reachable }) hfind
    rw [heq, List.mem_append, List.mem_cons] at h
    rw [hsplit]
    rcases h with h | h | h
    · refine .inl ⟨by simp [h], fun hid => ?_⟩
      have := hl₁ light h
      simp [hid] at this
    · exact .inr ⟨l, by simp, of_decide_eq_true hl, h⟩
    · refine .inl ⟨by simp [h], fun hid => ?_⟩
      have hpos : 0 < l₂.countP (·.id = lightId) :=
        List.countP_pos_iff.mpr ⟨light, h, decide_eq_true hid⟩
      rw [List.countP_append, List.countP_cons_of_pos (p := fun l : Light => decide (l.id = lightId)) hl]
      omega

theorem copiesAgree_updateZigbeeConnectivity (hkeyed : Keyed c) (h : CopiesAgree ε c)
    (hupdate : updateZigbeeConnectivity ε c n = some c')
    (hkeeps : keepsCopies ε c ⟨.update, .zigbeeConnectivity, n⟩ = true) : CopiesAgree ε c' := by
  rcases updateZigbeeConnectivity_cases hupdate with
    rfl | ⟨id, status, old, new, lightId, _, hid, hstatus, hold, hnew, hlightId, hc'⟩
  · exact h
  set reachable := decide (status.asString = "connected") with hreachable
  have hflag : reachableFlag n = some reachable := by rw [reachableFlag, hstatus]; rfl
  simp only [keepsCopies, hid, hold, hflag, hlightId, Option.all_some, Option.isNone_some,
    Bool.false_or, Bool.and_eq_true, List.all_eq_true] at hkeeps
  obtain ⟨hgroups, hzones⟩ := hkeeps
  -- the reading of a light of which some copy has been there
  have hstored : ∀ light ∈ copies c, ∀ r,
      (connectsThrough ε c light.id id.asString = true → reachable = r) →
      (connectsThrough ε c light.id id.asString = false → light.reachable = r) →
      stored ε c' light.id = some { appearance light with reachable := r } := by
    intro light hmem r hnewflag hsame
    have hz : ∀ key, c'.allZigbeeConnectivityMap.lookup key = if key = id.asString then some new
        else c.allZigbeeConnectivityMap.lookup key := by
      intro key
      rw [hc']
      exact JSONNodeMap.lookup_put _ _ _ _
    refine hkeyed.stored_of_connectivity (h light hmem) (by rw [hc']) (by rw [hc']) hz ?_ hsame
    intro hconnects
    rw [Option.getD_some, reachableFlag, JSONNode.find_set hnew, if_pos rfl, ← hnewflag hconnects]
    rfl
  -- a copy that was not written
  have hkept : ∀ light ∈ copies c,
      (connectsThrough ε c light.id id.asString = true → light.reachable = reachable) →
      stored ε c' light.id = some (appearance light) := fun light hmem hsame =>
    hstored light hmem light.reachable (fun hconnects => (hsame hconnects).symm) fun _ => rfl
  have hzonecopy : ∀ zone ∈ c.bridge.zones, ∀ light ∈ zone.physicalLights,
      stored ε c' light.id = some (appearance light) := by
    intro zone hzone light hlight
    refine hkept light (mem_copies.mpr (.inr ⟨zone, hzone, hlight⟩)) fun hconnects => ?_
    simpa [hconnects] using hzones zone hzone light hlight
  intro light hmem
  by_cases hempty : lightId = ""
  · rw [hc', mem_copies] at hmem
    simp only [hempty, if_true] at hmem
    rcases hmem with ⟨group, hgroup, hlight⟩ | ⟨zone, hzone, hlight⟩
    · refine hkept light (mem_copies.mpr (.inl ⟨group, hgroup, hlight⟩)) fun hconnects => ?_
      simpa [suitsGroup, hempty, hconnects] using hgroups group hgroup light hlight
    · exact hzonecopy zone hzone light hlight
  rw [hc', mem_copies] at hmem
  simp only [hempty, if_false] at hmem
  rcases hmem with ⟨group, hgroup, hlight⟩ | ⟨zone, hzone, hlight⟩
  · obtain ⟨g, hg, rfl⟩ := List.mem_map.mp hgroup
    rcases mem_setReachable hlight with ⟨hlight, honce⟩ | ⟨l, hl, hlid, rfl⟩
    · refine hkept light (mem_copies.mpr (.inl ⟨g, hg, hlight⟩)) fun hconnects => ?_
      have hsuits := hgroups g hg light hlight
      by_cases hlid : light.id = lightId
      · simpa [suitsGroup, hlid, hempty, honce hlid] using hsuits
      · simpa [suitsGroup, hlid, hconnects] using hsuits
    · refine hstored l (mem_copies.mpr (.inl ⟨g, hg, hl⟩)) reachable (fun _ => rfl) fun hconnects => ?_
      rw [hlid] at hconnects
      simpa [suitsGroup, hlid, hempty, hconnects] using hgroups g hg l hl
  · exact hzonecopy zone hzone light hlight

theorem copiesAgree_zigbeeConnectivity {eventType : EventType} (hkeyed : Keyed c)
    (h : CopiesAgree ε c) (hhandle : handle ε c ⟨eventType, .zigbeeConnectivity, n⟩ = some c')
    (hkeeps : keepsCopies ε c ⟨eventType, .zigbeeConnectivity, n⟩ = true) : CopiesAgree ε c' := by
  cases eventType with
  | add =>
    rcases addZigbeeConnectivity_cases hhandle with rfl | ⟨id, hid, rfl⟩
    · exact h
    simp only [keepsCopies, hid, Option.all_some, List.all_eq_true, Bool.or_eq_true,
      Bool.not_eq_true', decide_eq_true_eq] at hkeeps
    intro light hmem
    refine hkeyed.stored_of_connectivity (h light hmem) rfl rfl
      (fun key => JSONNodeMap.lookup_put _ _ _ _) (fun hconnects => ?_) fun _ => rfl
    simpa [hconnects] using hkeeps light hmem
  | update => exact copiesAgree_updateZigbeeConnectivity hkeyed h hhandle hkeeps
  | delete =>
    obtain ⟨id, hid, rfl⟩ := deleteZigbeeConnectivity_cases hhandle
    simp only [keepsCopies, hid, Option.all_some, List.all_eq_true, Bool.not_eq_true'] at hkeeps
    intro light hmem
    refine hkeyed.stored_of_connectivity (h light hmem) rfl rfl (fun key => lookup_erase)
      (fun hconnects => ?_) fun _ => rfl
    rw [hkeeps light hmem] at hconnects
    contradiction

/-! ### Lights -/

theorem LightUpdate.apply_of_isShownBy {update : LightUpdate}
    (h : update.isShownBy ε light = true) : update.apply ε light = light := by
  cases update <;> simp only [LightUpdate.isShownBy, decide_eq_true_eq] at h <;>
    simp [LightUpdate.apply, h]
  all_goals rw [← h]

theorem LightUpdate.applyInZone_of_isShownBy {update : LightUpdate}
    (h : update.reachesZones = true → update.isShownBy ε light = true) :
    update.applyInZone ε light = light := by
  cases update with
  | dynamic newDynamicEnabled => rfl
  | _ => exact LightUpdate.apply_of_isShownBy (h rfl)

theorem LightUpdate.after_cases (update : LightUpdate) (light : Light) :
    update.after ε light = update ∨ update.after ε light = .nothing := by
  cases update with
  | color newX newY =>
    unfold LightUpdate.after
    split_ifs
    · exact .inr rfl
    · exact .inl rfl
  | _ => exact .inl rfl

/-- Lights that show an update stay as they are when it is written to the first of them. -/
theorem modifyFirst_of_shown {f : Light → Light} {id : String} {lights : List Light}
    (h : ∀ light ∈ lights, light.id = id → f light = light) :
    modifyFirst (fun l => l.id = id) f lights = lights := by
  have hmap := map_modifyFirst (p := fun l : Light => decide (l.id = id)) (g := fun l => l) (f := f)
    (l := lights) fun l hl => h l (List.mem_of_find?_eq_some hl) (by simpa using List.find?_some hl)
  simpa using hmap

/-- Updates that the lights of the groups show already leave these as they are, and what is left of
such an update is the update or nothing. -/
theorem physicalLights_updateLightInGroups (id : String) {groups : List Group} :
    ∀ update : LightUpdate, (∀ group ∈ groups, ∀ light ∈ group.physicalLights,
      light.id = id → update.isShownBy ε light = true) →
    (updateLightInGroups ε id update groups).2.2.map (·.physicalLights) =
        groups.map (·.physicalLights) ∧
      ((updateLightInGroups ε id update groups).1 = update ∨
        (updateLightInGroups ε id update groups).1 = .nothing) := by
  induction groups with
  | nil => exact fun update _ => ⟨rfl, .inl rfl⟩
  | cons group groups ih =>
    intro update hshown
    have hrest : ∀ g ∈ groups, ∀ light ∈ g.physicalLights, light.id = id →
        update.isShownBy ε light = true := fun g hg => hshown g (List.mem_cons_of_mem _ hg)
    simp only [updateLightInGroups]
    cases hfind : group.physicalLights.find? (fun l => l.id = id) with
    | none =>
      obtain ⟨hmap, hleft⟩ := ih update hrest
      exact ⟨by simp only [List.map_cons, hmap], hleft⟩
    | some light =>
      have hsame : (updateLightInGroup ε update id group).2.physicalLights =
          group.physicalLights := modifyFirst_of_shown fun l hl hid =>
        LightUpdate.apply_of_isShownBy (hshown group (by simp) l hl hid)
      rcases update.after_cases (ε := ε) light with hafter | hafter
      · obtain ⟨hmap, hleft⟩ := ih update hrest
        simp only [hafter, List.map_cons, hmap, hsame, true_and]
        exact hleft
      · obtain ⟨hmap, hleft⟩ := ih .nothing fun _ _ _ _ _ => rfl
        simp only [hafter, List.map_cons, hmap, hsame, true_and]
        exact .inr (hleft.elim (fun h => h) fun h => h)

theorem copies_updateLight (hupdate : updateLight ε c n = some c')
    (hkeeps : keepsCopies ε c ⟨.update, .light, n⟩ = true) : copies c' = copies c := by
  rcases updateLight_cases hupdate with
    rfl | ⟨id, node, update, rest, updated, groups, _, hid, hnode, hofNode, hgroups, rfl⟩
  · rfl
  simp only [keepsCopies, hid, hnode, hofNode, Option.all_some, Bool.and_eq_true, List.all_eq_true,
    Bool.or_eq_true, decide_eq_true_eq, Bool.not_eq_true'] at hkeeps
  obtain ⟨hshown, hshownzones⟩ := hkeeps
  obtain ⟨hmap, hrest⟩ := physicalLights_updateLightInGroups (ε := ε) id.asString update
    fun group hgroup light hlight hlid => (hshown group hgroup light hlight).resolve_left (by simpa using hlid)
  rw [hgroups] at hmap hrest
  have hzone : ∀ zone ∈ c.bridge.zones,
      (updateLightInZone ε rest id.asString zone).physicalLights = zone.physicalLights := by
    intro zone hzone
    refine modifyFirst_of_shown fun light hlight hlid => ?_
    refine LightUpdate.applyInZone_of_isShownBy fun hreaches => ?_
    rcases hrest with hrest | hrest
    · simp only at hrest
      rcases hshownzones zone hzone light hlight with (hne | hno) | hshown
      · exact absurd hlid hne
      · rw [← hrest, hreaches] at hno
        contradiction
      · rw [hrest]
        exact hshown
    · simp only at hrest
      rw [hrest]
      rfl
  have hzones : (c.bridge.zones.map (updateLightInZone ε rest id.asString)).map (·.physicalLights) =
      c.bridge.zones.map (·.physicalLights) := by
    rw [List.map_map]
    exact List.map_congr_left hzone
  simp only [copies, List.flatMap_def, hzones]
  simp only at hmap
  rw [hmap]

/-- A group that had a light once does not have it after its deletion. -/
theorem mem_deleteLightInGroup {id : String} {group : Group}
    (honce : group.physicalLights.countP (·.id = id) ≤ 1)
    (h : light ∈ (deleteLightInGroup id group).physicalLights) :
    light ∈ group.physicalLights ∧ light.id ≠ id := by
  rcases deleteLightInGroup_cases id group with ⟨heq, hnone⟩ | ⟨i, l, hl, hlid, heq⟩
  · rw [heq] at h
    exact ⟨h, hnone light h⟩
  rw [heq] at h
  have hmem : light ∈ group.physicalLights.eraseIdx i := h
  refine ⟨List.mem_of_mem_eraseIdx hmem, fun hid => ?_⟩
  obtain ⟨hi, hli⟩ := List.getElem?_eq_some_iff.mp hl
  have hcount := (List.getElem_cons_eraseIdx_perm hi).countP_eq (fun l => decide (l.id = id))
  have hpos : 0 < (group.physicalLights.eraseIdx i).countP (fun l => decide (l.id = id)) :=
    List.countP_pos_iff.mpr ⟨light, hmem, decide_eq_true hid⟩
  rw [List.countP_cons_of_pos (by rw [hli]; exact decide_eq_true hlid)] at hcount
  omega

theorem copiesAgree_light {eventType : EventType} (hkeyed : Keyed c) (h : CopiesAgree ε c)
    (hhandle : handle ε c ⟨eventType, .light, n⟩ = some c')
    (hkeeps : keepsCopies ε c ⟨eventType, .light, n⟩ = true) : CopiesAgree ε c' := by
  cases eventType with
  | add =>
    obtain ⟨id, hid, rfl⟩ := addLight_cases hhandle
    simp only [keepsCopies, hid, Option.all_some, List.all_eq_true, Bool.or_eq_true,
      decide_eq_true_eq] at hkeeps
    intro light hmem
    have hinfo : ∀ n', parseLightInfo ε { c with
        allLightMap := c.allLightMap.put id.asString n } n' = parseLightInfo ε c n' :=
      parseLightInfo_congr rfl fun _ => rfl
    by_cases hlid : light.id = id.asString
    · have hshown := (hkeeps light hmem).resolve_left (by simpa using hlid)
      obtain ⟨l, hl, hshown⟩ := Option.map_eq_some_iff.mp hshown
      refine stored_eq_some.mpr ⟨l, parseLightById_eq_some.mpr ⟨n, ?_, ?_⟩, hshown⟩
      · exact (JSONNodeMap.lookup_put _ _ _ _).trans (if_pos hlid)
      · rw [hinfo, hl]
    · obtain ⟨l, hl, hshown⟩ := stored_eq_some.mp (h light hmem)
      obtain ⟨n', hn', hl⟩ := parseLightById_eq_some.mp hl
      refine stored_eq_some.mpr ⟨l, parseLightById_eq_some.mpr ⟨n', ?_, ?_⟩, hshown⟩
      · exact (JSONNodeMap.lookup_put _ _ _ _).trans ((if_neg hlid).trans hn')
      · rw [hinfo, hl]
  | update =>
    have hcopies := copies_updateLight hhandle hkeeps
    intro light hmem
    have hstored : stored ε c' light.id = stored ε c light.id := by
      rcases updateLight_cases hhandle with rfl | ⟨_, _, _, _, _, _, _, _, _, _, _, rfl⟩
      · rfl
      · exact stored_congr rfl rfl (fun _ => rfl) light.id
    rw [hstored]
    exact h light (hcopies ▸ hmem)
  | delete =>
    obtain ⟨id, _, hid, rfl⟩ := deleteLight_cases hhandle
    simp only [keepsCopies, hid, Option.all_some, Bool.and_eq_true, List.all_eq_true,
      decide_eq_true_eq] at hkeeps
    obtain ⟨hgroups, hzones⟩ := hkeeps
    intro light hmem
    have hold : light ∈ copies c ∧ light.id ≠ id.asString := by
      rcases mem_copies.mp hmem with ⟨group, hgroup, hlight⟩ | ⟨zone, hzone, hlight⟩
      · obtain ⟨g, hg, rfl⟩ := List.mem_map.mp hgroup
        obtain ⟨hlight, hne⟩ := mem_deleteLightInGroup (hgroups g hg) hlight
        exact ⟨mem_copies.mpr (.inl ⟨g, hg, hlight⟩), hne⟩
      · exact ⟨mem_copies.mpr (.inr ⟨zone, hzone, hlight⟩), hzones zone hzone light hlight⟩
    obtain ⟨l, hl, hshown⟩ := stored_eq_some.mp (h light hold.1)
    obtain ⟨n', hn', hl⟩ := parseLightById_eq_some.mp hl
    refine stored_eq_some.mpr ⟨l, parseLightById_eq_some.mpr ⟨n', ?_, hl⟩, hshown⟩
    exact lookup_erase.trans ((if_neg hold.2).trans hn')

/-! ### Runs -/

theorem keyed_handle {change : Change} (hhandle : handle ε c change = some c') (h : Keyed c) :
    Keyed c' := by
  by_cases hlight : change.resource = .light
  · obtain ⟨eventType, resource, n⟩ := change
    obtain rfl : resource = _ := hlight
    cases eventType with
    | add =>
      obtain ⟨id, hid, rfl⟩ := addLight_cases hhandle
      intro key node hnode
      have hnode := (JSONNodeMap.lookup_put _ _ _ _).symm.trans hnode
      split_ifs at hnode with hkey
      · obtain rfl := Option.some.inj hnode
        rw [hid, hkey]
        rfl
      · exact h key node hnode
    | update =>
      rcases updateLight_cases hhandle with rfl | ⟨_, _, _, _, _, _, _, _, _, _, _, rfl⟩ <;> exact h
    | delete =>
      obtain ⟨id, _, -, rfl⟩ := deleteLight_cases hhandle
      intro key node hnode
      have hnode := lookup_erase.symm.trans hnode
      split_ifs at hnode
      exact h key node hnode
  · intro key node hnode
    rw [(frame_of_handle hhandle).allLightMap hlight] at hnode
    exact h key node hnode

theorem copiesAgree_handle {change : Change} (hhandle : handle ε c change = some c')
    (hkeeps : keepsCopies ε c change = true) (hkeyed : Keyed c) (h : CopiesAgree ε c) :
    CopiesAgree ε c' := by
  obtain ⟨eventType, resource, n⟩ := change
  cases resource with
  | device => exact copiesAgree_device hkeyed h hhandle hkeeps
  | zigbeeConnectivity => exact copiesAgree_zigbeeConnectivity hkeyed h hhandle hkeeps
  | light => exact copiesAgree_light hkeyed h hhandle hkeeps
  | _ => exact copiesAgree_of_parsed hkeyed hhandle nofun nofun nofun h

/-- The resources that are fetched before there are zones and groups. -/
def Resource.isEarly : Resource → Bool
  | .zone | .entertainmentConfiguration | .scene => false
  | _ => true

/-- What holds in every run that keeps the copies: they agree with what is stored, light nodes are
stored under their ids, and the first part of a fetch is without groups and zones. -/
structure CopiesInv (ε : Context) (c : Cache) : Prop where
  agree : CopiesAgree ε c
  keyed : Keyed c
  early : ∀ resource, c.resourceToGet = some resource → resource.isEarly = true →
    c.bridge.groups = [] ∧ c.bridge.zones = []

theorem touches_of_isEarly {resource : Resource} (h : resource.isEarly = true) :
    Change.touchesGroups ⟨.add, resource, n⟩ = false ∧
      Change.touchesZones ⟨.add, resource, n⟩ = false := by
  cases resource <;> simp_all [Resource.isEarly, Change.touchesGroups, Change.touchesZones]

theorem copiesInv_item {resource : Resource} (hresource : c.resourceToGet = some resource)
    (hhandle : handle ε c ⟨.add, resource, n⟩ = some c') (h : CopiesInv ε c) : CopiesInv ε c' := by
  have hframe := frame_of_handle hhandle
  by_cases hearly : resource.isEarly = true
  · obtain ⟨htouchesgroups, htoucheszones⟩ := touches_of_isEarly (n := n) hearly
    obtain ⟨hgroups, hzones⟩ := h.early resource hresource hearly
    have hnone : c'.bridge.groups = [] ∧ c'.bridge.zones = [] :=
      ⟨(hframe.groups htouchesgroups).trans hgroups, (hframe.zones htoucheszones).trans hzones⟩
    refine ⟨fun light hmem => ?_, keyed_handle hhandle h.keyed, fun _ _ _ => hnone⟩
    simp [copies, hnone.1, hnone.2] at hmem
  · refine ⟨copiesAgree_handle hhandle ?_ h.keyed h.agree, keyed_handle hhandle h.keyed, ?_⟩
    · cases resource <;> simp_all [Resource.isEarly, keepsCopies]
    · intro r hr hrearly
      rw [hframe.resourceToGet, hresource, Option.some.injEq] at hr
      exact absurd (hr ▸ hrearly) hearly

theorem copiesInv_change {change : Change} (hfetched : c.resourceToGet = none)
    (hhandle : handle ε c change = some c') (hkeeps : keepsCopies ε c change = true)
    (h : CopiesInv ε c) : CopiesInv ε c' := by
  refine ⟨copiesAgree_handle hhandle hkeeps h.keyed h.agree, keyed_handle hhandle h.keyed, ?_⟩
  intro resource hresource
  rw [(frame_of_handle hhandle).resourceToGet, hfetched] at hresource
  contradiction

theorem copies_of_quiet (h : Quiet c c') : copies c' = copies c := by
  have hlights : c'.bridge.groups.map (·.physicalLights) = c.bridge.groups.map (·.physicalLights) := by
    have hmap := congrArg (List.map fun group : Group => group.physicalLights) h.groups
    rwa [List.map_map, List.map_map] at hmap
  simp only [copies, List.flatMap_def, hlights, h.zones]

theorem resourceToGet_nextResource (c : Cache) (resource : Resource) :
    (nextResource c resource).resourceToGet = resource.next := by
  unfold nextResource
  split
  · next next hnext => rw [hnext]
  · next hnext =>
    rw [hnext, finishFetch]
    split_ifs <;> rfl

/-- A quiet step that leads to an early resource has left one. -/
theorem isEarly_of_quiet {input : Input} {resource : Resource} (hstep : step ε c input = some c')
    (hquiet : changeOf c input = none) (hresource : c'.resourceToGet = some resource)
    (hearly : resource.isEarly = true) :
    ∃ old, c.resourceToGet = some old ∧ old.isEarly = true := by
  cases input with
  | item node =>
    simp only [step, Option.bind_eq_bind, Option.bind_eq_some_iff] at hstep
    obtain ⟨old, hold, -⟩ := hstep
    simp [changeOf, hold] at hquiet
  | change change => simp [changeOf] at hquiet
  | streamCheck bridgeWasStreaming =>
    obtain rfl := Option.some.inj hstep
    exact ⟨resource, hresource, hearly⟩
  | whitelist ecId userName whitelist =>
    obtain rfl := Option.some.inj hstep
    refine ⟨resource, ?_, hearly⟩
    rw [← hresource, onWhitelist]
    split <;> rfl
  | resourceDone =>
    simp only [step, Option.map_eq_some_iff] at hstep
    obtain ⟨old, hold, rfl⟩ := hstep
    rw [resourceToGet_nextResource] at hresource
    refine ⟨old, hold, ?_⟩
    cases old with
    | zone | entertainmentConfiguration =>
      obtain rfl := Option.some.inj hresource
      simp [Resource.isEarly] at hearly
    | scene => simp [Resource.next] at hresource
    | _ => rfl

/-- **The copies of a light agree** with each other and with what is stored, in every run whose
changes all keep them so. -/
theorem copies_agree (hrun : (retriever ε).Run ts c)
    (hkeeps : ∀ t ∈ ts, ∀ change, t.label = .change change →
      keepsCopies ε t.before change = true) : CopiesAgree ε c := by
  refine CopiesInv.agree (hrun.invariant_of
    (C := fun c input => ∀ change, input = .change change → keepsCopies ε c change = true)
    (fun s hs => ⟨fun light hmem => ?_, ?_, fun _ _ _ => ⟨hs.groups, hs.zones⟩⟩)
    (fun s input s' hstep hkeep h => ?_) hkeeps)
  · simp [copies, hs.groups, hs.zones] at hmem
  · intro id node hnode
    rw [hs.allLightMap] at hnode
    simp at hnode
  · rcases step_cases hstep with ⟨change, hchange, hhandle⟩ | ⟨hnone, hquiet⟩
    · cases input with
      | item node =>
        simp only [changeOf, Option.map_eq_some_iff] at hchange
        obtain ⟨resource, hresource, rfl⟩ := hchange
        exact copiesInv_item hresource hhandle h
      | change event =>
        obtain rfl := Option.some.inj hchange
        have hstep : step ε s (.change event) = some s' := hstep
        rw [step] at hstep
        split_ifs at hstep with hfetched
        exact copiesInv_change hfetched hhandle (hkeep event rfl) h
      | _ => simp [changeOf] at hchange
    · refine ⟨fun light hmem => ?_, ?_, fun resource hresource hearly => ?_⟩
      · rw [copies_of_quiet hquiet] at hmem
        rw [stored_congr hquiet.allDeviceMap hquiet.allLightMap
          fun key => by rw [hquiet.allZigbeeConnectivityMap]]
        exact h.agree light hmem
      · intro id node hnode
        rw [hquiet.allLightMap] at hnode
        exact h.keyed id node hnode
      · obtain ⟨old, hold, holdearly⟩ := isEarly_of_quiet hstep hnone hresource hearly
        obtain ⟨hgroups, hzones⟩ := h.early old hold holdearly
        have hmap := hquiet.groups
        rw [hgroups, List.map_nil, List.map_eq_nil_iff] at hmap
        exact ⟨hmap, hquiet.zones.trans hzones⟩

/-! ### A lamp that is switched off -/

/-- An update that switches the lamp. -/
def switchLamp (on : Bool) : JSONNode :=
  .node [("id", .string "lamp"), ("on", .node [("on", .bool on)])]

theorem copies_agree_lamp : ∃ ts c, (retriever {}).Run ts c ∧ CopiesAgree {} c := by
  obtain ⟨ts, c, hrun, h⟩ := Machine.exists_run (M := retriever {}) (s := {})
    (fetchLamp [] [lampConfiguration] ++
      [.change ⟨.update, .zigbeeConnectivity, lampZigbee "disconnected"⟩,
        .change ⟨.update, .light, switchLamp true⟩])
    (fun ts _ => ts.all fun t => (changeOf t.before t.label).all (keepsCopies {} t.before))
    cleared_empty (by decide +kernel)
  refine ⟨ts, c, hrun, copies_agree hrun fun t ht change hchange => ?_⟩
  have hkeeps := List.all_eq_true.mp h t ht
  rwa [hchange] at hkeeps

/-- The lamp of a group is switched off: its stored node is left on. -/
theorem exists_stale_copy :
    ∃ ts c, (retriever {}).Run ts c ∧ c.resourceToGet = none ∧ ¬ CopiesAgree {} c := by
  obtain ⟨ts, c, hrun, h⟩ := Machine.exists_run (M := retriever {}) (s := {})
    (fetchLamp [] [lampConfiguration] ++ [.change ⟨.update, .light, switchLamp false⟩])
    (fun _ c => c.resourceToGet = none &&
      (copies c).any fun light => stored {} c light.id ≠ some (appearance light))
    cleared_empty (by decide +kernel)
  rw [Bool.and_eq_true, decide_eq_true_eq, List.any_eq_true] at h
  obtain ⟨hnone, light, hmem, hne⟩ := h
  exact ⟨ts, c, hrun, hnone, fun hagree => of_decide_eq_true hne (hagree light hmem)⟩

end HueStream.Retriever
