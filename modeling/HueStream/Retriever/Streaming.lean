import HueStream.Retriever.Groups

/-! # What becomes of the stream while an event is handled

No handler reports the end of the stream and none touches the permission to report it (`Silent`);
only the check between the entertainment configurations and the scenes does. Whether the bridge is
streaming is a matter of its own members and of what the groups tell about their streams, so of the
kinds handled before the check only `bridge` can change it. -/

namespace HueStream.Retriever

open HueStream.Data HueStream.Flow HueStream.Json HueStream.Lib

variable {ε : Context} {c c' c₁ c₂ : Cache} {n : JSONNode} {σ : BridgeSettings}

/-- How often the end of the stream has been reported. -/
def Cache.disconnects (c : Cache) : ℕ := c.sent.count .streamingDisconnected

/-! ### Handlers report nothing about the stream -/

/-- Nothing has been reported about the stream, and the permission to do so is as before. -/
structure Silent (c c' : Cache) : Prop where
  canSend : c'.canSendStreamingDisconnectedEvent = c.canSendStreamingDisconnectedEvent
  disconnects : c'.disconnects = c.disconnects

theorem Silent.refl (c : Cache) : Silent c c := ⟨rfl, rfl⟩

theorem Silent.trans (h : Silent c c₁) (h' : Silent c₁ c') : Silent c c' :=
  ⟨h'.canSend.trans h.canSend, h'.disconnects.trans h.disconnects⟩

theorem Silent.send (h : Silent c c') (condition : Bool) {id : MessageId}
    (hid : id ≠ .streamingDisconnected) : Silent c (c'.send condition id) := by
  refine ⟨h.canSend, ?_⟩
  rw [← h.disconnects]
  simp only [Cache.disconnects, Cache.send]
  split_ifs
  · rw [List.count_append, List.count_singleton, if_neg (by simpa using hid), Nat.add_zero]
  · rfl

theorem Silent.putGroup (h : Silent c c') (slot : Option String) (group : Group) :
    Silent c (c'.putGroup slot group) := ⟨h.canSend, h.disconnects⟩

theorem silent_updateDevice (h : updateDevice c n = some c') : Silent c c' := by
  simp only [updateDevice, Option.bind_eq_bind, Option.bind_eq_some_iff] at h
  obtain ⟨id, -, h⟩ := h
  split at h
  · obtain rfl : c = c' := by simpa using h
    exact .refl c
  simp only [Option.bind_eq_some_iff] at h
  obtain ⟨isABridge, -, h⟩ := h
  split at h
  · obtain rfl : c = c' := by simpa using h
    exact .refl c
  split_ifs at h
  · simp only [Option.bind_eq_some_iff, Option.some.injEq] at h
    obtain ⟨new, -, rfl⟩ := h
    refine Silent.send ?_ true (by decide)
    exact ⟨rfl, rfl⟩
  · obtain rfl : c = c' := by simpa using h
    exact .refl c

theorem silent_updateZigbeeConnectivity (h : updateZigbeeConnectivity ε c n = some c') :
    Silent c c' := by
  simp only [updateZigbeeConnectivity, Option.bind_eq_bind, Option.bind_eq_some_iff] at h
  obtain ⟨id, -, h⟩ := h
  split at h
  · simp only [Option.bind_eq_some_iff] at h
    obtain ⟨new, -, lightId, -, h⟩ := h
    split_ifs at h
    · obtain rfl := Option.some.inj h
      exact ⟨rfl, rfl⟩
    · obtain rfl := Option.some.inj h
      refine Silent.send ?_ _ (by decide)
      exact ⟨rfl, rfl⟩
  · obtain rfl : c = c' := by simpa using h
    exact .refl c

theorem silent_addEntertainmentConfiguration (h : addEntertainmentConfiguration ε c n = some c') :
    Silent c c' := by
  simp only [addEntertainmentConfiguration, Option.bind_eq_bind, Option.bind_eq_some_iff,
    Option.some.injEq, Prod.exists] at h
  obtain ⟨group, c₁, hparse, rfl⟩ := h
  obtain ⟨-, -, hc₁⟩ := parseEntertainmentConfig_cases hparse
  have hparsed : Silent c c₁ := by
    rw [hc₁]
    exact ⟨rfl, rfl⟩
  refine Silent.send ?_ _ (by decide)
  exact ⟨hparsed.canSend, hparsed.disconnects⟩

theorem silent_updateEntertainmentConfiguration
    (h : updateEntertainmentConfiguration ε c n = some c') : Silent c c' := by
  simp only [updateEntertainmentConfiguration, parseStreamActive, Option.bind_eq_bind,
    Option.bind_eq_some_iff] at h
  obtain ⟨id, -, h⟩ := h
  split at h
  · obtain rfl : c = c' := by simpa using h
    exact .refl c
  simp only [Option.bind_eq_some_iff, Option.some.injEq, Prod.exists, Prod.mk.injEq] at h
  obtain ⟨p₁, g₁, c₁, ⟨p₂, g₂, c₂, hstreamer, rfl, rfl, rfl⟩, p₃, g₃, c₃, hproxy, channels,
    -, lights, -, rfl⟩ := h
  obtain ⟨hc₂, -⟩ := parseStreamer_cases hstreamer
  obtain ⟨proxyNode, zigbee, -, -, hc₃⟩ := parseStreamProxy_cases hproxy
  have hparsed : Silent c c₃ := by
    rw [hc₃, hc₂]
    exact ⟨rfl, rfl⟩
  exact ((hparsed.send _ (by decide)).putGroup _ _).send _ (by decide)

theorem silent_deleteEntertainmentConfiguration
    (h : deleteEntertainmentConfiguration c n = some c') : Silent c c' := by
  simp only [deleteEntertainmentConfiguration, Option.bind_eq_bind, Option.bind_eq_some_iff,
    Option.some.injEq] at h
  obtain ⟨id, -, rfl⟩ := h
  refine (Silent.send ?_ _ (by decide)).send _ (by decide)
  exact ⟨rfl, rfl⟩

theorem silent_addZone (h : addZone ε c n = some c') : Silent c c' := by
  simp only [addZone] at h
  split_ifs at h
  · obtain rfl := Option.some.inj h
    exact .refl c
  · simp only [Option.bind_eq_bind, Option.bind_eq_some_iff, Option.some.injEq] at h
    obtain ⟨groupedLightId, -, lights, -, rfl⟩ := h
    have hid : MessageId.zonelistUpdated ≠ .streamingDisconnected := by decide
    have hsend := (Silent.refl c).send c.sendFeedback hid
    exact ⟨hsend.canSend, hsend.disconnects⟩

theorem silent_updateZone (h : updateZone ε c n = some c') : Silent c c' := by
  simp only [updateZone] at h
  split at h
  · obtain rfl := Option.some.inj h
    exact .refl c
  simp only [Option.bind_eq_bind, Option.bind_eq_some_iff, Option.some.injEq] at h
  obtain ⟨lights, -, rfl⟩ := h
  refine Silent.send ?_ _ (by decide)
  exact ⟨rfl, rfl⟩

theorem silent_deleteZone (h : deleteZone c n = some c') : Silent c c' := by
  simp only [deleteZone, Option.bind_eq_bind, Option.bind_eq_some_iff, Option.some.injEq] at h
  obtain ⟨id, -, rfl⟩ := h
  refine Silent.send ?_ _ (by decide)
  exact ⟨rfl, rfl⟩

theorem silent_addScene (h : addScene ε c n = some c') : Silent c c' := by
  unfold addScene at h
  split at h
  · obtain rfl := Option.some.inj h
    exact .refl c
  next zone hzone =>
  simp only [Option.bind_eq_bind, Option.bind_eq_some_iff, Prod.exists] at h
  obtain ⟨updated, new, -, h⟩ := h
  split at h
  · obtain rfl := Option.some.inj h
    exact .refl c
  next newScene =>
  obtain rfl := Option.some.inj h
  have hadded : Silent c (modifyScenes c zone.id (· ++ [newScene])) := ⟨rfl, rfl⟩
  have hid : MessageId.zoneScenelistUpdated ≠ .streamingDisconnected := by decide
  have hsend := hadded.send c.sendFeedback hid
  exact ⟨hsend.canSend, hsend.disconnects⟩

theorem silent_deleteScene (c : Cache) (n : JSONNode) : Silent c (deleteScene c n) := by
  unfold deleteScene
  split
  · exact .refl c
  · refine Silent.send ?_ _ (by decide)
    exact ⟨rfl, rfl⟩

/-- **A handler is silent about the stream.** -/
theorem silent_of_handle {change : Change} (h : handle ε c change = some c') : Silent c c' := by
  obtain ⟨eventType, resource, n⟩ := change
  cases resource <;> cases eventType <;> simp only [handle, Option.some.injEq] at h
  case device.add => rcases addDevice_cases h with rfl | ⟨_, _, _, rfl⟩ <;> exact ⟨rfl, rfl⟩
  case device.update => exact silent_updateDevice h
  case device.delete =>
    obtain ⟨_, _, rfl⟩ := deleteDevice_cases h
    exact ⟨rfl, rfl⟩
  case zigbeeConnectivity.add =>
    rcases addZigbeeConnectivity_cases h with rfl | ⟨_, _, rfl⟩ <;> exact ⟨rfl, rfl⟩
  case zigbeeConnectivity.update => exact silent_updateZigbeeConnectivity h
  case zigbeeConnectivity.delete =>
    obtain ⟨_, _, rfl⟩ := deleteZigbeeConnectivity_cases h
    exact ⟨rfl, rfl⟩
  case entertainment.add =>
    obtain ⟨_, rfl⟩ := addEntertainment_cases h
    exact ⟨rfl, rfl⟩
  case entertainment.delete =>
    obtain ⟨_, rfl⟩ := deleteEntertainment_cases h
    exact ⟨rfl, rfl⟩
  case bridge.add =>
    obtain ⟨_, _, _, _, rfl⟩ := addBridge_cases h
    exact ⟨rfl, rfl⟩
  case light.add =>
    obtain ⟨_, _, rfl⟩ := addLight_cases h
    exact ⟨rfl, rfl⟩
  case light.update =>
    rcases updateLight_cases h with rfl | ⟨_, _, _, _, _, _, _, _, _, _, _, rfl⟩ <;>
      exact ⟨rfl, rfl⟩
  case light.delete =>
    obtain ⟨_, _, _, rfl⟩ := deleteLight_cases h
    exact ⟨rfl, rfl⟩
  case zone.add => exact silent_addZone h
  case zone.update => exact silent_updateZone h
  case zone.delete => exact silent_deleteZone h
  case entertainmentConfiguration.add => exact silent_addEntertainmentConfiguration h
  case entertainmentConfiguration.update => exact silent_updateEntertainmentConfiguration h
  case entertainmentConfiguration.delete => exact silent_deleteEntertainmentConfiguration h
  case scene.add => exact silent_addScene h
  case scene.update =>
    rcases updateScene_cases h with rfl | ⟨_, _, _, _, _, _, _, rfl⟩ <;> exact ⟨rfl, rfl⟩
  case scene.delete =>
    obtain rfl := h
    exact silent_deleteScene c n
  all_goals
    subst h
    exact .refl c

theorem silent_of_foldlM {changes : List Change} (h : changes.foldlM (handle ε) c = some c') :
    Silent c c' := by
  induction changes generalizing c with
  | nil =>
    obtain rfl : c = c' := by simpa using h
    exact .refl c
  | cons change changes ih =>
    rw [List.foldlM_cons, Option.bind_eq_bind, Option.bind_eq_some_iff] at h
    obtain ⟨c₁, hc₁, h⟩ := h
    exact (silent_of_handle hc₁).trans (ih h)

/-! ### Which handlers leave the streaming status alone -/

/-- Two bridges that differ in their names, zones and in what does not concern the streams of the
groups. -/
structure StreamsAlike (b b' : Bridge) : Prop where
  bridge : b' = { b with name := b'.name, groups := b'.groups, zones := b'.zones }
  groups : b'.groups.map streamOf = b.groups.map streamOf

theorem StreamsAlike.refl (b : Bridge) : StreamsAlike b b := ⟨rfl, rfl⟩

theorem StreamsAlike.isStreaming {b b' : Bridge} (h : StreamsAlike b b') :
    b'.isStreaming σ = b.isStreaming σ := by
  rw [h.bridge]
  have hgroups := isStreaming_congr σ (b := b) h.groups
  exact hgroups

theorem map_streamOf_of_configOf {groups groups' : List Group}
    (h : groups'.map configOf = groups.map configOf) :
    groups'.map streamOf = groups.map streamOf := by
  have hmap : ∀ gs : List Group, gs.map streamOf = (gs.map configOf).map streamOf := by
    intro gs
    rw [List.map_map]
    rfl
  rw [hmap groups', h, ← hmap]

/-- **Only changes of the bridge and of entertainment configurations** bear on the stream. -/
theorem streamsAlike_of_handle {change : Change} (h : handle ε c change = some c')
    (hbridge : change.resource ≠ .bridge) (hec : change.resource ≠ .entertainmentConfiguration) :
    StreamsAlike c.bridge c'.bridge := by
  have hgroups : c'.bridge.groups.map streamOf = c.bridge.groups.map streamOf := by
    rcases groups_of_handle h with hgroups | ⟨hec', -⟩
    · exact map_streamOf_of_configOf hgroups
    · exact absurd hec' hec
  refine ⟨?_, hgroups⟩
  clear hgroups
  obtain ⟨eventType, resource, n⟩ := change
  cases resource <;> cases eventType <;> simp only [handle, Option.some.injEq] at h
  case device.add => rcases addDevice_cases h with rfl | ⟨_, _, _, rfl⟩ <;> rfl
  case device.update =>
    rcases updateDevice_cases h with rfl | ⟨_, _, _, _, _, _, _, rfl⟩ <;> rfl
  case device.delete =>
    obtain ⟨_, _, rfl⟩ := deleteDevice_cases h
    rfl
  case zigbeeConnectivity.add =>
    rcases addZigbeeConnectivity_cases h with rfl | ⟨_, _, rfl⟩ <;> rfl
  case zigbeeConnectivity.update =>
    rcases updateZigbeeConnectivity_cases h with rfl | ⟨_, _, _, _, _, _, _, _, _, _, _, rfl⟩ <;> rfl
  case zigbeeConnectivity.delete =>
    obtain ⟨_, _, rfl⟩ := deleteZigbeeConnectivity_cases h
    rfl
  case entertainment.add =>
    obtain ⟨_, rfl⟩ := addEntertainment_cases h
    rfl
  case entertainment.delete =>
    obtain ⟨_, rfl⟩ := deleteEntertainment_cases h
    rfl
  case light.add =>
    obtain ⟨_, _, rfl⟩ := addLight_cases h
    rfl
  case light.update =>
    rcases updateLight_cases h with rfl | ⟨_, _, _, _, _, _, _, _, _, _, _, rfl⟩ <;> rfl
  case light.delete =>
    obtain ⟨_, _, _, rfl⟩ := deleteLight_cases h
    rfl
  case zone.add =>
    rcases addZone_cases h with ⟨_, rfl⟩ | ⟨_, _, _, _, _, _, _, _, rfl⟩ <;> rfl
  case zone.update =>
    rcases updateZone_cases h with rfl | ⟨_, _, _, _, _, _, _, _, _, rfl⟩ <;> rfl
  case zone.delete =>
    obtain ⟨_, _, _, rfl⟩ := deleteZone_cases h
    rfl
  case scene.add =>
    rcases addScene_cases h with ⟨_, rfl⟩ | ⟨_, _, _, _, _, _, rfl⟩ <;> rfl
  case scene.update =>
    rcases updateScene_cases h with rfl | ⟨_, _, _, _, _, _, _, rfl⟩ <;> rfl
  case scene.delete =>
    rcases deleteScene_cases h with ⟨_, rfl⟩ | ⟨_, _, _, rfl⟩ <;> rfl
  all_goals first
    | exact absurd rfl hbridge
    | exact absurd rfl hec
    | (subst h; rfl)

theorem isStreaming_of_foldlM {changes : List Change} (h : changes.foldlM (handle ε) c = some c')
    (hother : ∀ change ∈ changes,
      change.resource ≠ .bridge ∧ change.resource ≠ .entertainmentConfiguration) :
    c'.bridge.isStreaming σ = c.bridge.isStreaming σ := by
  induction changes generalizing c with
  | nil =>
    obtain rfl : c = c' := by simpa using h
    rfl
  | cons change changes ih =>
    rw [List.foldlM_cons, Option.bind_eq_bind, Option.bind_eq_some_iff] at h
    obtain ⟨c₁, hc₁, h⟩ := h
    obtain ⟨hbridge, hec⟩ := hother change (by simp)
    rw [ih h fun change hmem => hother change (by simp [hmem])]
    exact (streamsAlike_of_handle hc₁ hbridge hec).isStreaming

theorem resource_of_mem_changesOf {changes : List (String × Resource × JSONNode)}
    {resource : Resource} {change : Change} (h : change ∈ changesOf changes resource) :
    change.resource = resource := by
  have hkind : ∀ entry ∈ changes.filter (fun entry => entry.2.1 = resource),
      entry.2.1 = resource := by
    intro entry hentry
    simpa using (List.mem_filter.mp hentry).2
  simp only [changesOf, List.mem_filterMap, Option.bind_eq_bind, Option.bind_eq_some_iff,
    Option.some.injEq] at h
  obtain ⟨entry, hentry, eventType, -, rfl⟩ := h
  split_ifs at hentry
  · exact hkind entry (List.mem_of_getLast? (by simpa using hentry))
  · exact hkind entry hentry

/-! ### The check within an event -/

/-- The kinds handled before the bridge. -/
def kindsBeforeBridge : List Resource := [.device, .zigbeeConnectivity]

/-- The kinds handled after the bridge and before the check. -/
def kindsAfterBridge : List Resource := [.entertainment, .light, .zone]

/-- The cache once the changes of the bridge that an event holds are handled, with those of the
devices and the Zigbee connectivity before them. -/
def bridgeHandled (ε : Context) (c : Cache) (root : JSONNode) : Option Cache := do
  let changes := (← root.asArray.mapM entryChanges).flatten
  let c ← (kindsBeforeBridge.flatMap (changesOf changes)).foldlM (handle ε) c
  (changesOf changes .bridge).foldlM (handle ε) c

/-- **What an event reports:** the end of the stream, once, when the bridge is streaming once its own
changes are handled and is not at the end, and the retriever may report it. -/
theorem parseJsonEvent_reports {root : JSONNode} (harray : root.isArray = true)
    (h : parseJsonEvent ε c root = some c') :
    ∃ c₁, bridgeHandled ε c root = some c₁ ∧
      c'.canSendStreamingDisconnectedEvent = c.canSendStreamingDisconnectedEvent ∧
      c'.disconnects = c.disconnects +
        if c.canSendStreamingDisconnectedEvent && c₁.bridge.isStreaming ε.settings &&
          !c'.bridge.isStreaming ε.settings then 1 else 0 := by
  simp only [parseJsonEvent, harray, if_true, Option.bind_eq_bind, Option.bind_eq_some_iff] at h
  obtain ⟨entries, hentries, c₂, hearly, c₃, hec, hscene⟩ := h
  have hsplit : earlyKinds.flatMap (changesOf entries.flatten) =
      kindsBeforeBridge.flatMap (changesOf entries.flatten) ++
        changesOf entries.flatten .bridge ++
        kindsAfterBridge.flatMap (changesOf entries.flatten) := by
    simp [earlyKinds, kindsBeforeBridge, kindsAfterBridge]
  have hsilent := silent_of_foldlM hearly
  rw [hsplit, List.foldlM_append, List.foldlM_append, Option.bind_eq_bind,
    Option.bind_eq_some_iff] at hearly
  obtain ⟨c₁, hbridge, hafter⟩ := hearly
  have hsame : c₂.bridge.isStreaming ε.settings = c₁.bridge.isStreaming ε.settings := by
    refine isStreaming_of_foldlM hafter fun change hmem => ?_
    obtain ⟨kind, hkind, hmem⟩ := List.mem_flatMap.mp hmem
    have hkinds : ∀ kind ∈ kindsAfterBridge,
        kind ≠ .bridge ∧ kind ≠ .entertainmentConfiguration := by decide
    rw [resource_of_mem_changesOf hmem]
    exact hkinds kind hkind
  have hsilent₃ := hsilent.trans (silent_of_foldlM hec)
  have hsilent' := silent_of_foldlM hscene
  have hscenes : c'.bridge.isStreaming ε.settings = c₃.bridge.isStreaming ε.settings := by
    refine isStreaming_of_foldlM (c := reportDisconnected ε _ c₃) hscene fun change hmem => ?_
    rw [resource_of_mem_changesOf hmem]
    exact ⟨by decide, by decide⟩
  refine ⟨c₁, ?_, hsilent'.canSend.trans hsilent₃.canSend, ?_⟩
  · simp only [bridgeHandled, hentries, Option.bind_eq_bind, Option.bind_some]
    exact hbridge
  · rw [hsilent'.disconnects, ← hsilent₃.disconnects, ← hsilent₃.canSend, hscenes, ← hsame]
    simp only [reportDisconnected, Cache.disconnects, Cache.send]
    split_ifs
    · rw [List.count_append, List.count_singleton_self]
    · rfl

end HueStream.Retriever
