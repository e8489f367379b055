import HueStream.Retriever.Events
import HueStream.Retriever.Parsers

/-! # What a handler can do

One lemma for each handler says everything a successful call can have done: that it left the cache
as it was, or which members it wrote and what it wrote there. The invariants of the cache are read
off these lemmas. What is written to the feedback log is not described: it is read nowhere. -/

namespace HueStream.Retriever

open HueStream.Data HueStream.Flow HueStream.Json HueStream.Lib

variable {ε : Context} {c c' : Cache} {n : JSONNode}

/-! ### Devices, Zigbee connectivity, entertainment services -/

theorem addDevice_cases (h : addDevice c n = some c') : c' = c ∨ ∃ id, n.find "id" = some id ∧
    hasServiceOfType n ["light", "bridge"] = some true ∧
    c' = { c with allDeviceMap := c.allDeviceMap.put id.asString n } := by
  simp only [addDevice, Option.bind_eq_bind, Option.bind_eq_some_iff] at h
  obtain ⟨id, hid, kept, hkept, h⟩ := h
  split_ifs at h with hlight <;> simp only [Option.some.injEq] at h
  · exact .inr ⟨id, hid, hlight ▸ hkept, h.symm⟩
  · exact .inl h.symm

theorem updateDevice_cases (h : updateDevice c n = some c') : c' = c ∨ ∃ id old new name sent,
    c.allDeviceMap.lookup id = some old ∧
      old.setPath ["metadata", "name"] (.string name) = some new ∧
      c' = { c with
        bridge := { c.bridge with name }, allDeviceMap := c.allDeviceMap.put id new, sent } := by
  simp only [updateDevice, Option.bind_eq_bind, Option.bind_eq_some_iff] at h
  obtain ⟨id, -, h⟩ := h
  split at h
  · exact .inl (by simpa using h.symm)
  next old hold =>
  simp only [Option.bind_eq_some_iff] at h
  obtain ⟨isABridge, -, h⟩ := h
  split at h
  · exact .inl (by simpa using h.symm)
  split_ifs at h
  · simp only [Option.bind_eq_some_iff, Option.some.injEq] at h
    obtain ⟨new, hnew, rfl⟩ := h
    exact .inr ⟨_, old, new, _, _, hold, hnew, rfl⟩
  · exact .inl (by simpa using h.symm)

theorem deleteDevice_cases (h : deleteDevice c n = some c') : ∃ id, n.find "id" = some id ∧
    c' = { c with allDeviceMap := c.allDeviceMap.erase id.asString } := by
  simp only [deleteDevice, Option.bind_eq_bind, Option.bind_eq_some_iff, Option.some.injEq] at h
  obtain ⟨id, hid, rfl⟩ := h
  exact ⟨id, hid, rfl⟩

theorem addZigbeeConnectivity_cases (h : addZigbeeConnectivity ε c n = some c') : c' = c ∨
    ∃ id, n.find "id" = some id ∧
      c' = { c with allZigbeeConnectivityMap := c.allZigbeeConnectivityMap.put id.asString n } := by
  simp only [addZigbeeConnectivity, Option.bind_eq_bind, Option.bind_eq_some_iff] at h
  obtain ⟨id, hid, kept, -, h⟩ := h
  split_ifs at h <;> simp only [Option.some.injEq] at h
  · exact .inr ⟨id, hid, h.symm⟩
  · exact .inl h.symm

theorem updateZigbeeConnectivity_cases (h : updateZigbeeConnectivity ε c n = some c') : c' = c ∨
    ∃ id status old new lightId sent, n.find "id" = some id ∧ n.find "status" = some status ∧
      c.allZigbeeConnectivityMap.lookup id.asString = some old ∧
      old.set "status" (.string status.asString) = some new ∧
      getLightIdFromZigbeeConnectivityId ε c.allDeviceMap id.asString = some lightId ∧
      c' = { c with
        bridge := { c.bridge with groups :=
          if lightId = "" then c.bridge.groups
          else c.bridge.groups.map (setReachable lightId (decide (status.asString = "connected"))) }
        allZigbeeConnectivityMap := c.allZigbeeConnectivityMap.put id.asString new
        sent } := by
  simp only [updateZigbeeConnectivity, Option.bind_eq_bind, Option.bind_eq_some_iff] at h
  obtain ⟨id, hid, h⟩ := h
  split at h
  · next old status hold hstatus =>
    simp only [Option.bind_eq_some_iff] at h
    obtain ⟨new, hnew, lightId, hlight, h⟩ := h
    refine .inr ⟨id, status, old, new, lightId, c'.sent, hid, hstatus, hold, hnew, hlight, ?_⟩
    split_ifs at h ⊢ <;> simp only [Option.some.injEq] at h <;> subst h <;> rfl
  · exact .inl (by simpa using h.symm)

theorem deleteZigbeeConnectivity_cases (h : deleteZigbeeConnectivity c n = some c') :
    ∃ id, n.find "id" = some id ∧ c' = { c with
      allZigbeeConnectivityMap := c.allZigbeeConnectivityMap.erase id.asString } := by
  simp only [deleteZigbeeConnectivity, Option.bind_eq_bind, Option.bind_eq_some_iff,
    Option.some.injEq] at h
  obtain ⟨id, hid, rfl⟩ := h
  exact ⟨id, hid, rfl⟩

theorem addEntertainment_cases (h : addEntertainment c n = some c') :
    ∃ m, c' = { c with allEntertainment := m } := by
  simp only [addEntertainment, Option.bind_eq_bind, Option.bind_eq_some_iff, Option.some.injEq] at h
  obtain ⟨id, -, rfl⟩ := h
  exact ⟨_, rfl⟩

theorem deleteEntertainment_cases (h : deleteEntertainment c n = some c') :
    ∃ m, c' = { c with allEntertainment := m } := by
  simp only [deleteEntertainment, Option.bind_eq_bind, Option.bind_eq_some_iff,
    Option.some.injEq] at h
  obtain ⟨id, -, rfl⟩ := h
  exact ⟨_, rfl⟩

theorem addBridge_cases (h : addBridge ε c n = some c') : ∃ name modelId id maxNoStreamingSessions,
    c' = { c with bridge := { c.bridge with name, modelId, id, maxNoStreamingSessions } } := by
  simp only [addBridge, Option.bind_eq_bind, Option.bind_eq_some_iff] at h
  obtain ⟨id, -, deviceId, -, h⟩ := h
  split_ifs at h
  · obtain rfl := by simpa using h
    exact ⟨_, _, _, _, rfl⟩
  · simp only [Option.bind_eq_some_iff, Option.some.injEq] at h
    obtain ⟨service, -, rfl⟩ := h
    exact ⟨_, _, _, _, rfl⟩

/-! ### Lights -/

theorem addLight_cases (h : addLight c n = some c') : ∃ id, n.find "id" = some id ∧
    c' = { c with allLightMap := c.allLightMap.put id.asString n } := by
  simp only [addLight, Option.bind_eq_bind, Option.bind_eq_some_iff, Option.some.injEq] at h
  obtain ⟨id, hid, rfl⟩ := h
  exact ⟨id, hid, rfl⟩

theorem updateLight_cases (h : updateLight ε c n = some c') : c' = c ∨
    ∃ id node update rest updated groups feedbackMessageMap, n.find "id" = some id ∧
      c.allLightMap.lookup id.asString = some node ∧ LightUpdate.ofNode ε node n = some update ∧
      updateLightInGroups ε id.asString update c.bridge.groups = (rest, updated, groups) ∧
      c' = { c with
        bridge := { c.bridge with
          groups, zones := c.bridge.zones.map (updateLightInZone ε rest id.asString) }
        feedbackMessageMap } := by
  simp only [updateLight, Option.bind_eq_bind, Option.bind_eq_some_iff] at h
  obtain ⟨id, hid, h⟩ := h
  split at h
  · exact .inl (by simpa using h.symm)
  · next node hnode =>
    simp only [Option.bind_eq_some_iff, Option.some.injEq] at h
    obtain ⟨update, hupdate, rfl⟩ := h
    exact .inr ⟨id, node, update, _, _, _, _, hid, hnode, hupdate, rfl, rfl⟩

theorem deleteLight_cases (h : deleteLight c n = some c') :
    ∃ id feedbackMessageMap, n.find "id" = some id ∧ c' = { c with
      bridge := { c.bridge with groups := c.bridge.groups.map (deleteLightInGroup id.asString) }
      allLightMap := c.allLightMap.erase id.asString
      feedbackMessageMap } := by
  simp only [deleteLight, Option.bind_eq_bind, Option.bind_eq_some_iff, Option.some.injEq] at h
  obtain ⟨id, hid, rfl⟩ := h
  exact ⟨id, _, hid, rfl⟩

/-! ### Entertainment configurations -/

theorem parseEntertainmentConfig_cases {group : Group}
    (h : parseEntertainmentConfig ε c n = some (group, c')) :
    Configured ε c n { id := n.deserializeString "id" } group ∧
      ReadAlike c.allZigbeeConnectivityMap c'.allZigbeeConnectivityMap ∧
      c' = { updateBusy ε c with
        updatingWhiteList := c'.updatingWhiteList
        allZigbeeConnectivityMap := c'.allZigbeeConnectivityMap } := by
  simp only [parseEntertainmentConfig, parseStreamActive, Option.bind_eq_bind,
    Option.bind_eq_some_iff, Option.some.injEq, Prod.exists, Prod.mk.injEq] at h
  obtain ⟨p₁, g₁, c₁, ⟨p₂, g₂, c₂, hstreamer, rfl, rfl, rfl⟩, p₃, g₃, c₃, hproxy, lights, hlights,
    channels, hchannels, rfl, rfl⟩ := h
  obtain ⟨name, hname⟩ := parseName_eq n { id := n.deserializeString "id" }
  obtain ⟨classType, hclass⟩ := parseClass_eq n
    (parseName n { id := n.deserializeString "id" }).2
  obtain ⟨hc₂, hg₂⟩ := parseStreamer_cases hstreamer
  obtain ⟨proxyNode, zigbee, hread, rfl, rfl⟩ := parseStreamProxy_cases hproxy
  rw [hclass, hname] at hg₂
  rw [hc₂] at hread hlights hchannels ⊢
  refine ⟨⟨lights, channels, ?_, ?_, ?_⟩, hread, rfl⟩
  · rw [← hlights]
    exact (parseLights_congr (by rfl) (by rfl) hread n).symm
  · rw [← hchannels]
    exact (parseChannels_congr (by rfl) n).symm
  · rw [hg₂]
    cases lights <;> cases channels <;> exact ⟨rfl, rfl, rfl, rfl, rfl, rfl, rfl⟩

theorem addEntertainmentConfiguration_cases (h : addEntertainmentConfiguration ε c n = some c') :
    ∃ group updatingWhiteList zigbee sent,
      Configured ε c n { id := n.deserializeString "id" } group ∧
      ReadAlike c.allZigbeeConnectivityMap zigbee ∧
      c' = { (updateBusy ε c).withGroups (c.bridge.groups ++ [group]) with
        updatingWhiteList, allZigbeeConnectivityMap := zigbee, sent } := by
  simp only [addEntertainmentConfiguration, Option.bind_eq_bind, Option.bind_eq_some_iff,
    Option.some.injEq, Prod.exists] at h
  obtain ⟨group, c₁, hparse, hc'⟩ := h
  obtain ⟨hgroup, hread, hc₁⟩ := parseEntertainmentConfig_cases hparse
  refine ⟨group, c₁.updatingWhiteList, _, c'.sent, hgroup, hread, ?_⟩
  rw [← hc', hc₁]
  rfl

theorem streamOf_setLights (group : Group)
    (channels : Option (List Light × GroupChannelToPhysicalLightMap))
    (physicalLights : Option (List Light)) :
    streamOf (setLights group channels physicalLights) = streamOf group := by
  cases channels <;> cases physicalLights <;> rfl

theorem updateEntertainmentConfiguration_cases
    (h : updateEntertainmentConfiguration ε c n = some c') :
    ∃ id, n.find "id" = some id ∧
      (c.bridge.getGroupById id.asString = none ∧ c' = c ∨
      ∃ old new updatingWhiteList zigbee sent, c.bridge.getGroupById id.asString = some old ∧
        Configured ε c n old new ∧ ReadAlike c.allZigbeeConnectivityMap zigbee ∧
        c' = { updateBusy ε (c.putGroup (some id.asString) new) with
          updatingWhiteList, allZigbeeConnectivityMap := zigbee, sent }) := by
  simp only [updateEntertainmentConfiguration, parseStreamActive, Option.bind_eq_bind,
    Option.bind_eq_some_iff] at h
  obtain ⟨id, hid, h⟩ := h
  refine ⟨id, hid, ?_⟩
  split at h
  · next hnone => exact .inl ⟨hnone, by simpa using h.symm⟩
  next old hold =>
  simp only [Option.bind_eq_some_iff, Option.some.injEq, Prod.exists, Prod.mk.injEq] at h
  obtain ⟨p₁, g₁, c₁, ⟨p₂, g₂, c₂, hstreamer, rfl, rfl, rfl⟩, p₃, g₃, c₃, hproxy, channels,
    hchannels, lights, hlights, hc'⟩ := h
  obtain ⟨name, hname⟩ := parseName_eq n old
  obtain ⟨classType, hclass⟩ := parseClass_eq n (parseName n old).2
  obtain ⟨hc₂, hg₂⟩ := parseStreamer_cases hstreamer
  obtain ⟨proxyNode, zigbee, hread, rfl, rfl⟩ := parseStreamProxy_cases hproxy
  rw [hclass, hname] at hg₂
  have hold' : old.id = id.asString := by simpa using List.find?_some hold
  have hid₂ : g₂.id = id.asString := by rw [hg₂]; exact hold'
  refine .inr ⟨old, setLights { g₂ with proxyNode } channels lights, c₂.updatingWhiteList, zigbee,
    c'.sent, hold, ⟨lights, channels, ?_, ?_, ?_⟩, ?_, ?_⟩
  · rw [← hlights, hc₂]
    rw [hc₂] at hread
    exact (parseLights_congr (by rfl) (by rfl) hread n).symm
  · rw [← hchannels, hc₂]
    exact (parseChannels_congr (by rfl) n).symm
  · rw [hg₂]
    cases lights <;> cases channels <;> exact ⟨rfl, rfl, rfl, rfl, rfl, rfl, rfl⟩
  · rw [hc₂] at hread
    exact hread
  · have hstream : streamOf (setLights { g₂ with proxyNode } channels lights) = streamOf g₂ :=
      streamOf_setLights _ _ _
    have hbusy := isBusy_putGroup (ε := ε) (c := c) id.asString hstream
    have hgroups : modifyFirst (fun g => decide (g.id = id.asString))
        (fun _ => setLights { g₂ with proxyNode } channels lights)
        (modifyFirst (fun g => decide (g.id = id.asString)) (fun _ => g₂) c.bridge.groups) =
        modifyFirst (fun g => decide (g.id = id.asString))
          (fun _ => setLights { g₂ with proxyNode } channels lights) c.bridge.groups :=
      modifyFirst_modifyFirst fun _ => decide_eq_true hid₂
    rw [← hc', hc₂]
    simp only [updateBusy, Cache.putGroup, Cache.withGroups, Cache.send] at hbusy ⊢
    rw [hgroups, hbusy]
    rfl

theorem deleteEntertainmentConfiguration_cases
    (h : deleteEntertainmentConfiguration c n = some c') :
    ∃ id sent, n.find "id" = some id ∧ c' = { c with
      bridge := { c.bridge with
        groups := c.bridge.groups.eraseP fun g => g.id = id.asString
        selectedGroup := if c.sendFeedback && c.bridge.selectedGroup = id.asString then ""
          else c.bridge.selectedGroup }
      sent } := by
  simp only [deleteEntertainmentConfiguration, Option.bind_eq_bind, Option.bind_eq_some_iff,
    Option.some.injEq] at h
  obtain ⟨id, hid, rfl⟩ := h
  exact ⟨id, _, hid, rfl⟩

/-! ### Zones -/

theorem addZone_cases (h : addZone ε c n = some c') :
    n.deserializeString "id" = "" ∧ c' = c ∨
    ∃ zone lights sent, parseZoneLights ε c n = some lights ∧
      zone.id = n.deserializeString "id" ∧ zone.id ≠ "" ∧ zone.scenes = [] ∧
      zone.physicalLights = lights.getD [] ∧
      c' = { c.withZones (c.bridge.zones ++ [zone]) with
        allZoneMap := c.allZoneMap.put zone.id n, sent } := by
  simp only [addZone] at h
  split_ifs at h with hid
  · exact .inl ⟨hid, by simpa using h.symm⟩
  · simp only [Option.bind_eq_bind, Option.bind_eq_some_iff, Option.some.injEq] at h
    obtain ⟨groupedLightId, -, lights, hlights, rfl⟩ := h
    exact .inr ⟨_, lights, _, hlights, rfl, hid, rfl, rfl, rfl⟩

theorem updateZoneMetadata_eq (n : JSONNode) (zone : Zone) :
    (updateZoneMetadata n zone).2.id = zone.id ∧
      (updateZoneMetadata n zone).2.scenes = zone.scenes ∧
      (updateZoneMetadata n zone).2.physicalLights = zone.physicalLights := by
  unfold updateZoneMetadata
  cases hname : (n.getAttributeValue "metadata").find "name" <;>
    cases harchetype : (n.getAttributeValue "metadata").find "archetype" <;>
    simp only [hname, harchetype, and_self]

theorem updateZone_cases (h : updateZone ε c n = some c') : c' = c ∨
    ∃ old new lights sent, getZoneById c (n.deserializeString "id") = some old ∧
      parseZoneLights ε c n = some lights ∧ new.id = old.id ∧ new.scenes = old.scenes ∧
      new.physicalLights = lights.getD old.physicalLights ∧
      c' = { c.withZones (modifyFirst (fun z => z.id = n.deserializeString "id") (fun _ => new)
        c.bridge.zones) with sent } := by
  simp only [updateZone] at h
  split at h
  · exact .inl (by simpa using h.symm)
  next old hold =>
  simp only [Option.bind_eq_bind, Option.bind_eq_some_iff, Option.some.injEq] at h
  obtain ⟨lights, hlights, rfl⟩ := h
  obtain ⟨hid, hscenes, hphysical⟩ := updateZoneMetadata_eq n old
  split_ifs at hold
  exact .inr ⟨old, { (updateZoneMetadata n old).2 with
      physicalLights := lights.getD (updateZoneMetadata n old).2.physicalLights },
    lights, _, hold, hlights, hid, hscenes, by rw [hphysical], rfl⟩

theorem deleteZone_cases (h : deleteZone c n = some c') :
    ∃ id sent, n.find "id" = some id ∧
      c' = { c.withZones (c.bridge.zones.eraseP fun z => z.id = id.asString) with
        allZoneMap := c.allZoneMap.erase id.asString, sent } := by
  simp only [deleteZone, Option.bind_eq_bind, Option.bind_eq_some_iff, Option.some.injEq] at h
  obtain ⟨id, hid, rfl⟩ := h
  exact ⟨id, _, hid, rfl⟩

/-! ### Scenes -/

/-- The node has what a new scene needs. -/
def isCompleteScene (n : JSONNode) : Bool :=
  n.deserializeString "id" ≠ "" && getIdV1 n ≠ "" &&
    ((n.getAttributeValue "metadata").getAttributeValue "name").isString &&
    ((n.getAttributeValue "metadata").getAttributeValue "image").isNode

theorem parseScene_new {updated : Bool} {new : Option Scene}
    (h : parseScene ε c n none = some (updated, new)) :
    isCompleteScene n = false ∧ new = none ∨
    isCompleteScene n = true ∧ ∃ scene, new = some scene ∧ scene.id = n.deserializeString "id" := by
  simp only [parseScene, Option.isNone_none, Bool.true_and] at h
  split_ifs at h with hids hfields
  · simp only [Option.some.injEq, Prod.mk.injEq] at h
    rcases Bool.or_eq_true_iff.mp hids with hid | hid <;>
      exact .inl ⟨by simp [isCompleteScene, of_decide_eq_true hid], h.2.symm⟩
  · simp only [Option.some.injEq, Prod.mk.injEq] at h
    rcases Bool.or_eq_true_iff.mp hfields with hfield | hfield <;>
      rw [Bool.not_eq_true'] at hfield <;>
      exact .inl ⟨by simp [isCompleteScene, hfield], h.2.symm⟩
  all_goals
    simp only [Option.bind_eq_bind, Option.bind_eq_some_iff, Option.some.injEq] at h
    obtain ⟨lights, -, h⟩ := h
    simp only [writeScene, Prod.mk.injEq] at h
    refine .inr ⟨?_, _, h.2.symm, rfl⟩
    simp only [Bool.or_eq_true, decide_eq_true_eq, Bool.not_eq_true', not_or,
      Bool.not_eq_false] at hids hfields
    simp [isCompleteScene, hids, hfields]

theorem parseScene_old {scene : Scene} {updated : Bool} {new : Option Scene}
    (h : parseScene ε c n (some scene) = some (updated, new)) :
    ∃ s, new = some s ∧ s.id = scene.id := by
  simp only [parseScene] at h
  split_ifs at h
  all_goals simp only [Option.bind_eq_bind, Option.bind_eq_some_iff, Option.some.injEq,
    Prod.mk.injEq] at h
  · exact ⟨scene, h.2.symm, rfl⟩
  · exact ⟨scene, h.2.symm, rfl⟩
  all_goals
    obtain ⟨lights, -, h⟩ := h
    simp only [writeScene, Prod.mk.injEq] at h
    exact ⟨_, h.2.symm, rfl⟩

theorem getZoneById_of_getZoneFromScene {zone : Zone} (h : getZoneFromScene c n = some zone) :
    getZoneById c zone.id = some zone := by
  simp only [getZoneFromScene, Option.bind_eq_bind, Option.bind_eq_some_iff] at h
  obtain ⟨group, -, rid, -, h⟩ := h
  split_ifs at h
  have hid : zone.id = rid.asString := by simpa using List.find?_some h
  rw [hid]
  exact h

theorem addScene_cases (h : addScene ε c n = some c') :
    (getZoneFromScene c n = none ∨ isCompleteScene n = false) ∧ c' = c ∨
    ∃ zone scene sent, getZoneFromScene c n = some zone ∧ isCompleteScene n = true ∧
      scene.id = n.deserializeString "id" ∧
      c' = { modifyScenes c zone.id (· ++ [scene]) with
        allSceneMap := c.allSceneMap.put scene.id n, sent } := by
  unfold addScene at h
  split at h
  · next hzone => exact .inl ⟨.inl hzone, by simpa using h.symm⟩
  next zone hzone =>
  simp only [Option.bind_eq_bind, Option.bind_eq_some_iff, Prod.exists] at h
  obtain ⟨updated, new, hparse, h⟩ := h
  rcases parseScene_new hparse with ⟨hcomplete, rfl⟩ | ⟨hcomplete, scene, rfl, hid⟩
  · exact .inl ⟨.inr hcomplete, by simpa using h.symm⟩
  · refine .inr ⟨zone, scene, c'.sent, hzone, hcomplete, hid, ?_⟩
    rw [← Option.some.inj h]
    rfl

theorem updateScene_cases (h : updateScene ε c n = some c') : c' = c ∨
    ∃ zone old new feedbackMessageMap, getZoneFromScene c n = some zone ∧
      zone.scenes.find? (fun s => s.id = n.deserializeString "id") = some old ∧ new.id = old.id ∧
      c' = { modifyScenes c zone.id
          (modifyFirst (fun s => s.id = n.deserializeString "id") fun _ => new) with
        feedbackMessageMap } := by
  unfold updateScene at h
  split at h
  · exact .inl (by simpa using h.symm)
  next zone hzone =>
  simp only at h
  split at h
  · exact .inl (by simpa using h.symm)
  next old hold =>
  simp only [Option.bind_eq_bind, Option.bind_eq_some_iff, Prod.exists, Option.some.injEq] at h
  obtain ⟨updated, new, hparse, rfl⟩ := h
  obtain ⟨s, rfl, hs⟩ := parseScene_old hparse
  exact .inr ⟨zone, old, s, _, hzone, hold, hs, rfl⟩

theorem deleteScene_cases (h : deleteScene c n = c') :
    getZoneFromScene c n = none ∧ c' = c ∨
    ∃ zone sent, getZoneFromScene c n = some zone ∧
      c' = { modifyScenes c zone.id
          (fun scenes => scenes.eraseP fun s => s.id = n.deserializeString "id") with
        allSceneMap := c.allSceneMap.erase (n.deserializeString "id"), sent } := by
  unfold deleteScene at h
  split at h
  · next hzone => exact .inl ⟨hzone, h.symm⟩
  · next zone hzone => exact .inr ⟨zone, c'.sent, hzone, by rw [← h]; rfl⟩

/-! ### What a change leaves alone -/

/-- The changes that can write to the groups of the bridge. -/
def Change.touchesGroups (change : Change) : Bool :=
  match change.resource, change.eventType with
  | .zigbeeConnectivity, .update | .light, .update | .light, .delete => true
  | .entertainmentConfiguration, _ => true
  | _, _ => false

/-- The changes that can write to the zones of the bridge. -/
def Change.touchesZones (change : Change) : Bool :=
  match change.resource, change.eventType with
  | .light, .update => true
  | .zone, _ => true
  | .scene, _ => true
  | _, _ => false

/-- What a change of a kind leaves as it was. -/
structure Frame (change : Change) (c c' : Cache) : Prop where
  resourceToGet : c'.resourceToGet = c.resourceToGet
  groups : change.touchesGroups = false → c'.bridge.groups = c.bridge.groups
  zones : change.touchesZones = false → c'.bridge.zones = c.bridge.zones
  allSceneMap : change.resource ≠ .scene → c'.allSceneMap = c.allSceneMap
  allZoneMap : change.resource ≠ .zone → c'.allZoneMap = c.allZoneMap
  allLightMap : change.resource ≠ .light → c'.allLightMap = c.allLightMap
  allDeviceMap : change.resource ≠ .device → c'.allDeviceMap = c.allDeviceMap
  allZigbeeConnectivityMap : change.resource ≠ .zigbeeConnectivity →
    ReadAlike c.allZigbeeConnectivityMap c'.allZigbeeConnectivityMap

theorem frame_of_handle {change : Change} (h : handle ε c change = some c') : Frame change c c' := by
  have hread : ReadAlike c.allZigbeeConnectivityMap c.allZigbeeConnectivityMap := fun _ => rfl
  obtain ⟨eventType, resource, n⟩ := change
  cases resource <;> cases eventType <;> simp only [handle, Option.some.injEq] at h
  case device.add =>
    rcases addDevice_cases h with rfl | ⟨_, _, _, rfl⟩ <;> constructor <;> simp [hread]
  case device.update =>
    rcases updateDevice_cases h with rfl | ⟨_, _, _, _, _, _, _, rfl⟩ <;> constructor <;>
      simp [hread]
  case device.delete =>
    obtain ⟨_, _, rfl⟩ := deleteDevice_cases h
    constructor <;> simp [hread]
  case zigbeeConnectivity.add =>
    rcases addZigbeeConnectivity_cases h with rfl | ⟨_, _, rfl⟩ <;> constructor <;> simp
  case zigbeeConnectivity.update =>
    rcases updateZigbeeConnectivity_cases h with rfl | ⟨_, _, _, _, _, _, _, _, _, _, _, rfl⟩ <;>
      constructor <;> simp [Change.touchesGroups]
  case zigbeeConnectivity.delete =>
    obtain ⟨_, _, rfl⟩ := deleteZigbeeConnectivity_cases h
    constructor <;> simp
  case entertainment.add =>
    obtain ⟨_, rfl⟩ := addEntertainment_cases h
    constructor <;> simp [hread]
  case entertainment.delete =>
    obtain ⟨_, rfl⟩ := deleteEntertainment_cases h
    constructor <;> simp [hread]
  case bridge.add =>
    obtain ⟨_, _, _, _, rfl⟩ := addBridge_cases h
    constructor <;> simp [hread]
  case light.add =>
    obtain ⟨_, _, rfl⟩ := addLight_cases h
    constructor <;> simp [hread]
  case light.update =>
    rcases updateLight_cases h with rfl | ⟨_, _, _, _, _, _, _, _, _, _, _, rfl⟩ <;>
      constructor <;> simp [hread, Change.touchesGroups, Change.touchesZones]
  case light.delete =>
    obtain ⟨_, _, _, rfl⟩ := deleteLight_cases h
    constructor <;> simp [hread, Change.touchesGroups]
  case zone.add =>
    rcases addZone_cases h with ⟨_, rfl⟩ | ⟨_, _, _, _, _, _, _, _, rfl⟩ <;> constructor <;>
      simp [hread, Change.touchesZones, Cache.withZones]
  case zone.update =>
    rcases updateZone_cases h with rfl | ⟨_, _, _, _, _, _, _, _, _, rfl⟩ <;> constructor <;>
      simp [hread, Change.touchesZones, Cache.withZones]
  case zone.delete =>
    obtain ⟨_, _, _, rfl⟩ := deleteZone_cases h
    constructor <;> simp [hread, Change.touchesZones, Cache.withZones]
  case entertainmentConfiguration.add =>
    obtain ⟨_, _, _, _, _, hzigbee, rfl⟩ := addEntertainmentConfiguration_cases h
    constructor <;> simp [hzigbee, Change.touchesGroups, Cache.withGroups, updateBusy]
  case entertainmentConfiguration.update =>
    obtain ⟨_, _, ⟨_, rfl⟩ | ⟨_, _, _, _, _, _, _, hzigbee, rfl⟩⟩ :=
      updateEntertainmentConfiguration_cases h
    · constructor <;> simp [hread]
    · constructor <;>
        simp [hzigbee, Change.touchesGroups, Cache.putGroup, Cache.withGroups, updateBusy]
  case entertainmentConfiguration.delete =>
    obtain ⟨_, _, _, rfl⟩ := deleteEntertainmentConfiguration_cases h
    constructor <;> simp [hread, Change.touchesGroups]
  case scene.add =>
    rcases addScene_cases h with ⟨_, rfl⟩ | ⟨_, _, _, _, _, _, rfl⟩ <;> constructor <;>
      simp [hread, Change.touchesZones, modifyScenes, Cache.withZones]
  case scene.update =>
    rcases updateScene_cases h with rfl | ⟨_, _, _, _, _, _, _, rfl⟩ <;> constructor <;>
      simp [hread, Change.touchesZones, modifyScenes, Cache.withZones]
  case scene.delete =>
    rcases deleteScene_cases h with ⟨_, rfl⟩ | ⟨_, _, _, rfl⟩ <;> constructor <;>
      simp [hread, Change.touchesZones, modifyScenes, Cache.withZones]
  all_goals
    subst h
    constructor <;> simp [hread]

/-! ### Steps -/

/-- The change an input makes the retriever handle. -/
def changeOf (c : Cache) : Input → Option Change
  | .item node => c.resourceToGet.map fun resource => ⟨.add, resource, node⟩
  | .change change => some change
  | _ => none

/-- A group without the name of its owner. -/
def withoutOwnerName (group : Group) : Group := { group with ownerName := "" }

/-- What the inputs do that are no changes: of all that is kept about groups, zones and nodes, only
the name of an owner may become another one. -/
structure Quiet (c c' : Cache) : Prop where
  groups : c'.bridge.groups.map withoutOwnerName = c.bridge.groups.map withoutOwnerName
  zones : c'.bridge.zones = c.bridge.zones
  allSceneMap : c'.allSceneMap = c.allSceneMap
  allZoneMap : c'.allZoneMap = c.allZoneMap
  allLightMap : c'.allLightMap = c.allLightMap
  allDeviceMap : c'.allDeviceMap = c.allDeviceMap
  allZigbeeConnectivityMap : c'.allZigbeeConnectivityMap = c.allZigbeeConnectivityMap

theorem quiet_finishFetch (c : Cache) : Quiet c (finishFetch c) := by
  unfold finishFetch
  split_ifs <;> exact ⟨rfl, rfl, rfl, rfl, rfl, rfl, rfl⟩

theorem quiet_nextResource (c : Cache) (resource : Resource) : Quiet c (nextResource c resource) := by
  unfold nextResource
  split
  · exact ⟨rfl, rfl, rfl, rfl, rfl, rfl, rfl⟩
  · have h := quiet_finishFetch { c with resourceToGet := none }
    exact ⟨h.groups, h.zones, h.allSceneMap, h.allZoneMap, h.allLightMap, h.allDeviceMap,
      h.allZigbeeConnectivityMap⟩

theorem quiet_onWhitelist (c : Cache) (ecId userName : String) (whitelist : JSONNode) :
    Quiet c (onWhitelist c ecId userName whitelist) := by
  simp only [onWhitelist]
  split
  · exact ⟨rfl, rfl, rfl, rfl, rfl, rfl, rfl⟩
  next group hgroup =>
  refine ⟨map_modifyFirst fun g hg => ?_, rfl, rfl, rfl, rfl, rfl, rfl⟩
  obtain rfl : group = g := Option.some.inj (hgroup.symm.trans hg)
  rfl

/-- **What a step does:** it handles a change, or it is quiet. -/
theorem step_cases {input : Input} (h : step ε c input = some c') :
    (∃ change, changeOf c input = some change ∧ handle ε c change = some c') ∨
      changeOf c input = none ∧ Quiet c c' := by
  cases input with
  | item node =>
    simp only [step, Option.bind_eq_bind, Option.bind_eq_some_iff] at h
    obtain ⟨resource, hresource, h⟩ := h
    exact .inl ⟨_, by simp [changeOf, hresource], h⟩
  | resourceDone =>
    simp only [step, Option.map_eq_some_iff] at h
    obtain ⟨resource, -, rfl⟩ := h
    exact .inr ⟨rfl, quiet_nextResource c resource⟩
  | change change =>
    simp only [step] at h
    split_ifs at h
    exact .inl ⟨change, rfl, h⟩
  | streamCheck bridgeWasStreaming =>
    obtain rfl := by simpa [step] using h
    exact .inr ⟨rfl, rfl, rfl, rfl, rfl, rfl, rfl, rfl⟩
  | whitelist ecId userName whitelist =>
    obtain rfl := by simpa [step] using h
    exact .inr ⟨rfl, quiet_onWhitelist c ecId userName whitelist⟩

end HueStream.Retriever
