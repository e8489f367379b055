import HueStream.Retriever.Parse

/-! # What the parsers depend on, and what they make of a group

A light is parsed from its node, the devices and the Zigbee connectivity; reading an entry that is
missing makes an empty one, which reads the same as before (`ReadAlike`). Of a group, the busy flag
depends on what it tells about its stream (`streamOf`) alone. `Configured` says what an event about
an entertainment configuration makes of a group, be it a new one or one that is there. -/

namespace HueStream.Retriever

open HueStream.Data HueStream.Json HueStream.Lib

variable {ε : Context} {c c' : Cache} {n : JSONNode}

/-! ### What the parsers of lights depend on -/

/-- Two maps of Zigbee connectivity that read alike: they differ in empty nodes only. -/
def ReadAlike (z z' : JSONNodeMap) : Prop :=
  ∀ id, (z'.lookup id).getD .empty = (z.lookup id).getD .empty

theorem readAlike_touch (id : String) :
    ReadAlike c.allZigbeeConnectivityMap
      (c.touchZigbeeConnectivity id).allZigbeeConnectivityMap := by
  intro key
  simp only [Cache.touchZigbeeConnectivity]
  split_ifs with hmem
  · rfl
  · rw [JSONNodeMap.lookup_put]
    split_ifs with hkey
    · rw [hkey, AList.lookup_eq_none.mpr hmem]
      rfl
    · rfl

theorem getReachable_congr {d z z' : JSONNodeMap} (h : ReadAlike z z') (id : String) :
    getReachable ε d z' id = getReachable ε d z id := by
  have hlookup : ∀ key, (z'.lookup key).getD .empty = (z.lookup key).getD .empty := h
  simp only [getReachable, hlookup]

theorem parseLightInfo_congr (hd : c'.allDeviceMap = c.allDeviceMap)
    (hz : ReadAlike c.allZigbeeConnectivityMap c'.allZigbeeConnectivityMap) (n : JSONNode) :
    parseLightInfo ε c' n = parseLightInfo ε c n := by
  simp only [parseLightInfo, hd, getReachable_congr hz]

theorem parseLightById_congr (hd : c'.allDeviceMap = c.allDeviceMap)
    (hl : c'.allLightMap = c.allLightMap)
    (hz : ReadAlike c.allZigbeeConnectivityMap c'.allZigbeeConnectivityMap) (id : String) :
    parseLightById ε c' id = parseLightById ε c id := by
  simp only [parseLightById, hl, parseLightInfo_congr hd hz]

theorem parseLights_congr (hd : c'.allDeviceMap = c.allDeviceMap)
    (hl : c'.allLightMap = c.allLightMap)
    (hz : ReadAlike c.allZigbeeConnectivityMap c'.allZigbeeConnectivityMap) (n : JSONNode) :
    parseLights ε c' n = parseLights ε c n := by
  have hloc : parseServiceLocation ε c' = parseServiceLocation ε c := by
    funext item
    simp only [parseServiceLocation, hd, parseLightById_congr hd hl hz]
  simp only [parseLights, hloc]

theorem parseChannels_congr (hd : c'.allDeviceMap = c.allDeviceMap) (n : JSONNode) :
    parseChannels ε c' n = parseChannels ε c n := by
  have hmember : parseMember ε c' = parseMember ε c := by
    funext item
    simp only [parseMember, hd]
  have hchannel : parseChannel ε c' = parseChannel ε c := by
    funext item
    simp only [parseChannel, hmember]
  simp only [parseChannels, hchannel]

/-! ### What an event has to say -/

theorem parseChannels_eq_none (h : parseChannels ε c n = some none) :
    n.isAttributeSet "channels" = false := by
  unfold parseChannels at h
  split at h
  · next hnone => simp [JSONNode.isAttributeSet, hnone]
  · simp [Option.bind_eq_some_iff] at h

theorem parseLights_eq_some {lights : List Light} (h : parseLights ε c n = some (some lights)) :
    (n.getAttributeValue "locations").isAttributeSet "service_locations" = true := by
  unfold parseLights at h
  split at h
  · simp at h
  · next hsome => simp [JSONNode.isAttributeSet, hsome]

theorem parseLights_eq_none (h : parseLights ε c n = some none) :
    (n.getAttributeValue "locations").isAttributeSet "service_locations" = false := by
  unfold parseLights at h
  split at h
  · next hnone => simp [JSONNode.isAttributeSet, hnone]
  · simp [Option.bind_eq_some_iff] at h

/-! ### What the busy flag depends on -/

/-- What a group tells about its stream. -/
def streamOf (group : Group) : String × Bool × String := (group.id, group.active, group.owner)

theorem getGroup_streamOf {b : Bridge} {groups : List Group}
    (h : groups.map streamOf = b.groups.map streamOf) :
    ({ b with groups } : Bridge).getGroup.map streamOf = b.getGroup.map streamOf := by
  have hfind : ∀ gs : List Group, (gs.find? (·.id = b.selectedGroup)).map streamOf =
      (gs.map streamOf).find? (·.1 = b.selectedGroup) := by
    intro gs
    rw [List.find?_map]
    rfl
  simp only [Bridge.getGroup, Bridge.getGroupById, hfind, h]

theorem isStreaming_congr (σ : BridgeSettings) {b : Bridge} {groups : List Group}
    (h : groups.map streamOf = b.groups.map streamOf) :
    ({ b with groups } : Bridge).isStreaming σ = b.isStreaming σ := by
  have hgroup := getGroup_streamOf h
  have hlen : groups.length = b.groups.length := by simpa using congrArg List.length h
  have hstatus : ({ b with groups } : Bridge).getStatus σ = b.getStatus σ := by
    simp only [Bridge.getStatus, hlen]
    cases hnew : ({ b with groups } : Bridge).getGroup <;> cases hold : b.getGroup <;>
      simp only [hnew, hold, Option.map_none, Option.map_some, Option.some.injEq, streamOf,
        Prod.mk.injEq, reduceCtorEq] at hgroup
    · rfl
    · simp only [hgroup]
      rfl
  simp only [Bridge.isStreaming, hstatus]

theorem isBusyNow_congr {b : Bridge} {groups : List Group}
    (h : groups.map streamOf = b.groups.map streamOf) :
    isBusyNow ε { b with groups } = isBusyNow ε b := by
  have hgroup := getGroup_streamOf h
  have hcount : groups.countP (·.active) = b.groups.countP (·.active) := by
    have hmap : ∀ gs : List Group, gs.countP (·.active) = (gs.map streamOf).countP (·.2.1) := by
      intro gs
      rw [List.countP_map]
      rfl
    rw [hmap, hmap, h]
  simp only [isBusyNow, Bridge.isValidGroupSelected, Bridge.getCurrentNoStreamingSessions, hcount]
  cases hnew : ({ b with groups } : Bridge).getGroup <;> cases hold : b.getGroup <;>
    simp only [hnew, hold, Option.map_none, Option.map_some, Option.some.injEq, streamOf,
      Prod.mk.injEq, reduceCtorEq] at hgroup
  · rfl
  · simp [hgroup.2.1]

theorem isBusy_putGroup (id : String) {group group' : Group}
    (h : streamOf group' = streamOf group) :
    (updateBusy ε (c.putGroup (some id) group')).bridge.isBusy =
      (updateBusy ε (c.putGroup (some id) group)).bridge.isBusy := by
  have hstreams := map_modifyFirst_congr (p := fun g : Group => decide (g.id = id))
    (l := c.bridge.groups) (g := streamOf) (f := fun _ => group) fun _ _ => h.symm
  have hbridge : (c.putGroup (some id) group').bridge =
      { (c.putGroup (some id) group).bridge with
        groups := (c.putGroup (some id) group').bridge.groups } := rfl
  simp only [updateBusy]
  rw [hbridge, isStreaming_congr ε.settings hstreams.symm, isBusyNow_congr hstreams.symm]

/-! ### What the parsers make of a group -/

/-- Whether a group is active after an event about it. -/
def activeAfter (n : JSONNode) (group : Group) : Bool :=
  match n.find "status" with
  | none => group.active
  | some status => decide (status.asString = "active")

/-- The owner of a group after an event about it. -/
def ownerAfter (n : JSONNode) (group : Group) : String :=
  match n.find "active_streamer" with
  | some streamer => ((streamer.find "rid").map JSONNode.asString).getD ""
  | none => if n.isAttributeSet "status" && !activeAfter n group then "" else group.owner

/-- `new` is `old` after an event about the group: what the parsers of the event made of it. -/
def Configured (ε : Context) (c : Cache) (n : JSONNode) (old new : Group) : Prop :=
  ∃ lights channels, parseLights ε c n = some lights ∧ parseChannels ε c n = some channels ∧
    new.id = old.id ∧ new.active = activeAfter n old ∧ new.owner = ownerAfter n old ∧
    new.physicalLights = lights.getD old.physicalLights ∧
    new.lights = (channels.map Prod.fst).getD old.lights ∧
    new.channelToPhysicalLightsMap = (channels.map Prod.snd).getD
      (if lights.isSome then ∅ else old.channelToPhysicalLightsMap) ∧
    (new.onState, new.brightnessState) =
      (lights.map fun ls => ((setSummary old ls).onState, (setSummary old ls).brightnessState)).getD
        (old.onState, old.brightnessState)

theorem parseName_eq (n : JSONNode) (group : Group) :
    ∃ name, (parseName n group).2 = { group with name } := by
  unfold parseName
  split <;> exact ⟨_, rfl⟩

theorem parseClass_eq (n : JSONNode) (group : Group) :
    ∃ classType, (parseClass n group).2 = { group with classType } := by
  unfold parseClass
  split <;> exact ⟨_, rfl⟩

theorem parseStreamer_cases {group group' : Group} {parsed : Bool}
    (h : parseStreamer c n group = some (parsed, group', c')) :
    c' = { c with updatingWhiteList := c'.updatingWhiteList } ∧
      group' = { group with
        active := activeAfter n group, owner := ownerAfter n group,
        ownerName := group'.ownerName } := by
  unfold parseStreamer at h
  unfold ownerAfter activeAfter JSONNode.isAttributeSet
  cases hstreamer : n.find "active_streamer" <;> cases hstatus : n.find "status" <;>
    simp only [hstreamer, hstatus, Option.bind_eq_bind, Option.bind_eq_some_iff,
      Option.some.injEq, Prod.mk.injEq] at h
  case none.none =>
    obtain ⟨-, rfl, rfl⟩ := h
    exact ⟨rfl, rfl⟩
  case none.some status =>
    obtain ⟨-, rfl, rfl⟩ := h
    by_cases hactive : status.asString = "active" <;> simp [hactive]
  case some.none streamer =>
    obtain ⟨rid, hrid, -, rfl, rfl⟩ := h
    simp [hrid, getOwnerName]
  case some.some streamer status =>
    obtain ⟨rid, hrid, -, rfl, rfl⟩ := h
    by_cases hactive : status.asString = "active" <;> simp [hactive, hrid, getOwnerName]

theorem parseStreamProxy_cases {group group' : Group} {parsed : Bool}
    (h : parseStreamProxy ε c n group = some (parsed, group', c')) :
    ∃ proxyNode zigbee, ReadAlike c.allZigbeeConnectivityMap zigbee ∧
      group' = { group with proxyNode } ∧ c' = { c with allZigbeeConnectivityMap := zigbee } := by
  unfold parseStreamProxy at h
  split at h
  · simp only [Option.some.injEq, Prod.mk.injEq] at h
    obtain ⟨-, rfl, rfl⟩ := h
    exact ⟨_, _, fun _ => rfl, rfl, rfl⟩
  split at h
  · simp only [Option.some.injEq, Prod.mk.injEq] at h
    obtain ⟨-, rfl, rfl⟩ := h
    exact ⟨_, _, fun _ => rfl, rfl, rfl⟩
  simp only [Option.bind_eq_bind, Option.bind_eq_some_iff] at h
  obtain ⟨deviceId, -, h⟩ := h
  split_ifs at h
  · simp only [Option.some.injEq, Prod.mk.injEq] at h
    obtain ⟨-, rfl, rfl⟩ := h
    exact ⟨_, _, fun _ => rfl, rfl, rfl⟩
  split at h
  · simp only [Option.bind_eq_some_iff, Option.some.injEq, Prod.mk.injEq] at h
    obtain ⟨zigbeeId, -, -, rfl, rfl⟩ := h
    exact ⟨_, _, readAlike_touch zigbeeId, rfl, rfl⟩
  · simp only [Option.some.injEq, Prod.mk.injEq] at h
    obtain ⟨-, rfl, rfl⟩ := h
    exact ⟨_, _, fun _ => rfl, rfl, rfl⟩

end HueStream.Retriever
