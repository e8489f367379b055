import HueStream.Retriever.Groups

/-! # The names of the owners

A group whose owner is in the white list is `Named` when it has the name the list gives that owner. Only a
change of an entertainment configuration writes owners or their names, and it leaves the group named: it
takes the name from the list the retriever has, and asks for a new list when the owner is not in it. -/

namespace HueStream.Retriever

open HueStream.Data HueStream.Flow HueStream.Json HueStream.Lib

variable {ε : Context} {c c' : Cache} {n : JSONNode} {whitelist : JSONNode}

/-- The name a white list has for a user. -/
def nameOf (whitelist : JSONNode) (userName : String) : String :=
  ((whitelist.find userName).map fun user => user.deserializeString "name").getD ""

/-- The user that streams, if a node names one. -/
def streamerOf (n : JSONNode) : Option String :=
  (n.find "active_streamer").map fun streamer => ((streamer.find "rid").map JSONNode.asString).getD ""

/-- A group without an owner, with an owner the list does not have, or with the name of its owner. -/
def Named (whitelist : JSONNode) (group : Group) : Prop :=
  group.owner ≠ "" → whitelist.isAttributeSet group.owner = true →
    group.ownerName = nameOf whitelist group.owner

instance (whitelist : JSONNode) : DecidablePred (Named whitelist) := fun group =>
  inferInstanceAs (Decidable (group.owner ≠ "" → whitelist.isAttributeSet group.owner = true →
    group.ownerName = nameOf whitelist group.owner))

/-- The name of the owner of a group after an event about it. -/
def ownerNameAfter (whitelist n : JSONNode) (group : Group) : String :=
  match streamerOf n with
  | some userName => nameOf whitelist userName
  | none => if n.isAttributeSet "status" && !activeAfter n group then "" else group.ownerName

/-- Whether a node names a user that is not in the white list. -/
def namesUnknown (whitelist n : JSONNode) : Bool :=
  (streamerOf n).any fun userName => !whitelist.isAttributeSet userName

theorem named_of_owner_eq {group : Group} (h : group.owner = "") : Named whitelist group :=
  fun hne => absurd h hne

theorem named_after {old new : Group} (howner : new.owner = ownerAfter n old)
    (hname : new.ownerName = ownerNameAfter whitelist n old) (hold : Named whitelist old) :
    Named whitelist new := by
  intro hne hin
  rw [howner] at hne hin ⊢
  rw [hname]
  unfold ownerNameAfter streamerOf
  unfold ownerAfter at hne hin ⊢
  cases hstreamer : n.find "active_streamer" with
  | some streamer => rfl
  | none =>
    simp only [hstreamer, Option.map_none] at hne hin ⊢
    split_ifs at hne hin ⊢ with hstopped
    · exact absurd rfl hne
    · exact hold hne hin

/-! ### The parsers -/

theorem parseStreamer_owner {group group' : Group} {parsed : Bool}
    (h : parseStreamer c n group = some (parsed, group', c')) :
    group'.ownerName = ownerNameAfter c.whitelist n group ∧
      c'.updatingWhiteList = (c.updatingWhiteList || namesUnknown c.whitelist n) := by
  unfold parseStreamer at h
  unfold ownerNameAfter namesUnknown streamerOf activeAfter JSONNode.isAttributeSet
  cases hstreamer : n.find "active_streamer" <;> cases hstatus : n.find "status" <;>
    simp only [hstreamer, hstatus, Option.bind_eq_bind, Option.bind_eq_some_iff,
      Option.some.injEq, Prod.mk.injEq] at h
  case none.none =>
    obtain ⟨-, rfl, rfl⟩ := h
    simp
  case none.some status =>
    obtain ⟨-, rfl, rfl⟩ := h
    by_cases hactive : status.asString = "active" <;> simp [hactive]
  case some.none streamer =>
    obtain ⟨rid, hrid, -, rfl, rfl⟩ := h
    simp [hrid, getOwnerName, nameOf, JSONNode.isAttributeSet]
  case some.some streamer status =>
    obtain ⟨rid, hrid, -, rfl, rfl⟩ := h
    simp [hrid, getOwnerName, nameOf, JSONNode.isAttributeSet]

theorem parseStreamProxy_updatingWhiteList {group group' : Group} {parsed : Bool}
    (h : parseStreamProxy ε c n group = some (parsed, group', c')) :
    c'.updatingWhiteList = c.updatingWhiteList ∧ group'.owner = group.owner ∧
      group'.ownerName = group.ownerName := by
  obtain ⟨proxyNode, zigbee, -, rfl, rfl⟩ := parseStreamProxy_cases h
  exact ⟨rfl, rfl, rfl⟩

/-! ### The handlers -/

/-- `new` is `old` with the owner an event names and the name of that owner, and an owner that is not in
the white list has been asked for. -/
structure Owned (c : Cache) (n : JSONNode) (old new : Group) (c' : Cache) : Prop where
  owner : new.owner = ownerAfter n old
  ownerName : new.ownerName = ownerNameAfter c.whitelist n old
  updatingWhiteList :
    c'.updatingWhiteList = (c.updatingWhiteList || namesUnknown c.whitelist n)

theorem owned_parseEntertainmentConfig {group : Group}
    (h : parseEntertainmentConfig ε c n = some (group, c')) :
    Owned c n { id := n.deserializeString "id" } group c' := by
  simp only [parseEntertainmentConfig, parseStreamActive, Option.bind_eq_bind,
    Option.bind_eq_some_iff, Option.some.injEq, Prod.exists, Prod.mk.injEq] at h
  obtain ⟨p₁, g₁, c₁, ⟨p₂, g₂, c₂, hstreamer, rfl, rfl, rfl⟩, p₃, g₃, c₃, hproxy, lights, -,
    channels, -, rfl, rfl⟩ := h
  obtain ⟨name, hname⟩ := parseName_eq n { id := n.deserializeString "id" }
  obtain ⟨classType, hclass⟩ := parseClass_eq n
    (parseName n { id := n.deserializeString "id" }).2
  obtain ⟨-, hg₂⟩ := parseStreamer_cases hstreamer
  obtain ⟨hownerName, hflag⟩ := parseStreamer_owner hstreamer
  obtain ⟨hflag₃, howner₃, hownerName₃⟩ := parseStreamProxy_updatingWhiteList hproxy
  rw [hclass, hname] at hg₂ hownerName
  have howner : g₂.owner = ownerAfter n { id := n.deserializeString "id" } := by
    rw [hg₂]
    rfl
  refine ⟨?_, ?_, hflag₃.trans hflag⟩
  · rw [← howner, ← howner₃]
    cases lights <;> rfl
  · rw [hownerName] at hownerName₃
    refine Eq.trans ?_ hownerName₃
    cases lights <;> rfl

theorem owned_addEntertainmentConfiguration (h : addEntertainmentConfiguration ε c n = some c') :
    ∃ group, c'.bridge.groups = c.bridge.groups ++ [group] ∧
      Owned c n { id := n.deserializeString "id" } group c' := by
  simp only [addEntertainmentConfiguration, Option.bind_eq_bind, Option.bind_eq_some_iff,
    Option.some.injEq, Prod.exists] at h
  obtain ⟨group, c₁, hparse, rfl⟩ := h
  have howned := owned_parseEntertainmentConfig hparse
  obtain ⟨-, -, hc₁⟩ := parseEntertainmentConfig_cases hparse
  have hgroups : c₁.bridge.groups = c.bridge.groups := by
    rw [hc₁]
    rfl
  exact ⟨group, congrArg (· ++ [group]) hgroups, howned.owner, howned.ownerName, howned.updatingWhiteList⟩

theorem owned_updateEntertainmentConfiguration
    (h : updateEntertainmentConfiguration ε c n = some c') :
    c.bridge.getGroupById (n.deserializeString "id") = none ∧ c' = c ∨
    ∃ old new, c.bridge.getGroupById (n.deserializeString "id") = some old ∧
      c'.bridge.groups = modifyFirst (fun g => g.id = n.deserializeString "id") (fun _ => new)
        c.bridge.groups ∧ Owned c n old new c' := by
  simp only [updateEntertainmentConfiguration, parseStreamActive, Option.bind_eq_bind,
    Option.bind_eq_some_iff] at h
  obtain ⟨id, hid, h⟩ := h
  have hidString : n.deserializeString "id" = id.asString := by
    simp [JSONNode.deserializeString, hid]
  rw [hidString]
  split at h
  · next hnone => exact .inl ⟨hnone, by simpa using h.symm⟩
  next old hold =>
  simp only [Option.bind_eq_some_iff, Option.some.injEq, Prod.exists, Prod.mk.injEq] at h
  obtain ⟨p₁, g₁, c₁, ⟨p₂, g₂, c₂, hstreamer, rfl, rfl, rfl⟩, p₃, g₃, c₃, hproxy, channels,
    -, lights, -, rfl⟩ := h
  obtain ⟨name, hname⟩ := parseName_eq n old
  obtain ⟨classType, hclass⟩ := parseClass_eq n (parseName n old).2
  obtain ⟨hc₂, hg₂⟩ := parseStreamer_cases hstreamer
  obtain ⟨hownerName, hflag⟩ := parseStreamer_owner hstreamer
  obtain ⟨hflag₃, howner₃, hownerName₃⟩ := parseStreamProxy_updatingWhiteList hproxy
  obtain ⟨proxyNode, zigbee, -, -, hc₃⟩ := parseStreamProxy_cases hproxy
  rw [hclass, hname] at hg₂ hownerName
  have hold' : old.id = id.asString := by simpa using List.find?_some hold
  have hid₂ : g₂.id = id.asString := by
    rw [hg₂]
    exact hold'
  have howner : g₂.owner = ownerAfter n old := by
    rw [hg₂]
    rfl
  have hset : (setLights g₃ channels lights).owner = g₃.owner ∧
      (setLights g₃ channels lights).ownerName = g₃.ownerName := by
    cases channels <;> cases lights <;> exact ⟨rfl, rfl⟩
  refine .inr ⟨old, setLights g₃ channels lights, hold, ?_, hset.1.trans (howner₃.trans howner),
    hset.2.trans (hownerName₃.trans hownerName), hflag₃.trans hflag⟩
  rw [hc₃, hc₂]
  exact modifyFirst_modifyFirst fun _ => decide_eq_true hid₂

/-- Whether a change names an owner, of a group that is there afterwards, that is not in the white list. -/
def namesNewOwner (c : Cache) (change : Change) : Bool :=
  change.resource = .entertainmentConfiguration && namesUnknown c.whitelist change.node &&
    match change.eventType with
    | .add => true
    | .update => (c.bridge.getGroupById (change.node.deserializeString "id")).isSome
    | .delete => false

/-- Handlers leave the white list alone, and only those of entertainment configurations ask for a new
one. -/
theorem whitelist_of_handle {change : Change} (h : handle ε c change = some c') :
    c'.whitelist = c.whitelist ∧
      (change.resource ≠ .entertainmentConfiguration →
        c'.updatingWhiteList = c.updatingWhiteList) := by
  obtain ⟨eventType, resource, n⟩ := change
  cases resource <;> cases eventType <;> simp only [handle, Option.some.injEq] at h
  case device.add => rcases addDevice_cases h with rfl | ⟨_, _, _, rfl⟩ <;> exact ⟨rfl, fun _ => rfl⟩
  case device.update =>
    rcases updateDevice_cases h with rfl | ⟨_, _, _, _, _, _, _, rfl⟩ <;> exact ⟨rfl, fun _ => rfl⟩
  case device.delete =>
    obtain ⟨_, _, rfl⟩ := deleteDevice_cases h
    exact ⟨rfl, fun _ => rfl⟩
  case zigbeeConnectivity.add =>
    rcases addZigbeeConnectivity_cases h with rfl | ⟨_, _, rfl⟩ <;> exact ⟨rfl, fun _ => rfl⟩
  case zigbeeConnectivity.update =>
    rcases updateZigbeeConnectivity_cases h with rfl | ⟨_, _, _, _, _, _, _, _, _, _, _, rfl⟩ <;>
      exact ⟨rfl, fun _ => rfl⟩
  case zigbeeConnectivity.delete =>
    obtain ⟨_, _, rfl⟩ := deleteZigbeeConnectivity_cases h
    exact ⟨rfl, fun _ => rfl⟩
  case entertainment.add =>
    obtain ⟨_, rfl⟩ := addEntertainment_cases h
    exact ⟨rfl, fun _ => rfl⟩
  case entertainment.delete =>
    obtain ⟨_, rfl⟩ := deleteEntertainment_cases h
    exact ⟨rfl, fun _ => rfl⟩
  case bridge.add =>
    obtain ⟨_, _, _, _, rfl⟩ := addBridge_cases h
    exact ⟨rfl, fun _ => rfl⟩
  case light.add =>
    obtain ⟨_, _, rfl⟩ := addLight_cases h
    exact ⟨rfl, fun _ => rfl⟩
  case light.update =>
    rcases updateLight_cases h with rfl | ⟨_, _, _, _, _, _, _, _, _, _, _, rfl⟩ <;>
      exact ⟨rfl, fun _ => rfl⟩
  case light.delete =>
    obtain ⟨_, _, _, rfl⟩ := deleteLight_cases h
    exact ⟨rfl, fun _ => rfl⟩
  case zone.add =>
    rcases addZone_cases h with ⟨_, rfl⟩ | ⟨_, _, _, _, _, _, _, _, rfl⟩ <;>
      exact ⟨rfl, fun _ => rfl⟩
  case zone.update =>
    rcases updateZone_cases h with rfl | ⟨_, _, _, _, _, _, _, _, _, rfl⟩ <;>
      exact ⟨rfl, fun _ => rfl⟩
  case zone.delete =>
    obtain ⟨_, _, _, rfl⟩ := deleteZone_cases h
    exact ⟨rfl, fun _ => rfl⟩
  case entertainmentConfiguration.add =>
    obtain ⟨_, _, _, _, _, _, rfl⟩ := addEntertainmentConfiguration_cases h
    exact ⟨rfl, fun hec => absurd rfl hec⟩
  case entertainmentConfiguration.update =>
    obtain ⟨_, _, ⟨_, rfl⟩ | ⟨_, _, _, _, _, _, _, _, rfl⟩⟩ :=
      updateEntertainmentConfiguration_cases h <;> exact ⟨rfl, fun hec => absurd rfl hec⟩
  case entertainmentConfiguration.delete =>
    obtain ⟨_, _, _, rfl⟩ := deleteEntertainmentConfiguration_cases h
    exact ⟨rfl, fun _ => rfl⟩
  case scene.add =>
    rcases addScene_cases h with ⟨_, rfl⟩ | ⟨_, _, _, _, _, _, rfl⟩ <;> exact ⟨rfl, fun _ => rfl⟩
  case scene.update =>
    rcases updateScene_cases h with rfl | ⟨_, _, _, _, _, _, _, rfl⟩ <;> exact ⟨rfl, fun _ => rfl⟩
  case scene.delete =>
    rcases deleteScene_cases h with ⟨_, rfl⟩ | ⟨_, _, _, rfl⟩ <;> exact ⟨rfl, fun _ => rfl⟩
  all_goals
    subst h
    exact ⟨rfl, fun _ => rfl⟩

theorem updatingWhiteList_of_handle {change : Change} (h : handle ε c change = some c') :
    c'.updatingWhiteList = (c.updatingWhiteList || namesNewOwner c change) := by
  by_cases hec : change.resource = .entertainmentConfiguration
  · obtain ⟨eventType, resource, n⟩ := change
    obtain rfl : resource = _ := hec
    unfold namesNewOwner
    cases eventType with
    | add =>
      obtain ⟨_, _, howned⟩ := owned_addEntertainmentConfiguration h
      simpa using howned.updatingWhiteList
    | update =>
      rcases owned_updateEntertainmentConfiguration h with ⟨hnone, rfl⟩ | ⟨_, _, hold, -, howned⟩
      · simp [hnone]
      · simpa [hold] using howned.updatingWhiteList
    | delete =>
      obtain ⟨_, _, -, rfl⟩ := deleteEntertainmentConfiguration_cases h
      simp
  · rw [(whitelist_of_handle h).2 hec]
    simp [namesNewOwner, hec]

theorem named_of_map_configOf {groups groups' : List Group}
    (hmap : groups'.map configOf = groups.map configOf)
    (h : ∀ group ∈ groups, Named whitelist group) : ∀ group ∈ groups', Named whitelist group := by
  have hconfig : ∀ group ∈ groups.map configOf, Named whitelist group :=
    List.forall_mem_map.mpr h
  rw [← hmap] at hconfig
  intro group hgroup
  exact hconfig (configOf group) (List.mem_map_of_mem hgroup)

/-- **A change leaves the groups named.** -/
theorem named_of_handle {change : Change} (h : handle ε c change = some c')
    (hnamed : ∀ group ∈ c.bridge.groups, Named c.whitelist group) :
    ∀ group ∈ c'.bridge.groups, Named c'.whitelist group := by
  rw [(whitelist_of_handle h).1]
  obtain ⟨eventType, resource, n⟩ := change
  rcases groups_of_handle h with hmap | ⟨rfl, -⟩
  · exact named_of_map_configOf hmap hnamed
  cases eventType with
  | add =>
    obtain ⟨new, hgroups, howned⟩ := owned_addEntertainmentConfiguration h
    have hnew : Named c.whitelist new :=
      named_after howned.owner howned.ownerName (named_of_owner_eq rfl)
    intro group hgroup
    rw [hgroups, List.mem_append, List.mem_singleton] at hgroup
    rcases hgroup with hgroup | rfl
    · exact hnamed group hgroup
    · exact hnew
  | update =>
    rcases owned_updateEntertainmentConfiguration h with ⟨-, rfl⟩ | ⟨old, new, hold, hgroups, howned⟩
    · exact hnamed
    have hnew : Named c.whitelist new :=
      named_after howned.owner howned.ownerName (hnamed old (List.mem_of_find?_eq_some hold))
    intro group hgroup
    rw [hgroups] at hgroup
    rcases mem_modifyFirst hgroup with hgroup | ⟨_, _, rfl⟩
    · exact hnamed group hgroup
    · exact hnew
  | delete =>
    obtain ⟨id, _, -, rfl⟩ := deleteEntertainmentConfiguration_cases h
    intro group hgroup
    exact hnamed group (List.mem_of_mem_eraseP hgroup)

end HueStream.Retriever
