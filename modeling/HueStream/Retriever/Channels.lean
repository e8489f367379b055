import HueStream.Retriever.Groups

/-! # Channels and the channel map

The channels of a group and the keys of its channel map are read from the same part of a node, so
they agree in every group that is added. `UpdateEntertainmentConfiguration` writes the map a second
time when an event has locations, and then takes the map of the event also when the event has no
channels: such an event empties the map of a group that keeps its channels. In a run without one,
channels and map stay in step. -/

namespace HueStream.Retriever

open HueStream.Data HueStream.Flow HueStream.Json HueStream.Lib

variable {ε : Context} {c c' : Cache} {n : JSONNode} {ts : List (Transition Cache Input)}

/-- The keys of the channel map are the ids of the channels. -/
def InStep (group : Group) : Prop :=
  ∀ id, id ∈ group.channelToPhysicalLightsMap ↔ id ∈ group.lights.map Light.id

/-- Channels and channel map are in step in every group of the bridge. -/
def ChannelsInStep (c : Cache) : Prop := ∀ group ∈ c.bridge.groups, InStep group

/-- The entertainment configuration event has locations, no channels, and is about a group that has
channels. -/
def emptiesChannelMap (c : Cache) (n : JSONNode) : Bool :=
  (n.getAttributeValue "locations").isAttributeSet "service_locations" &&
    !n.isAttributeSet "channels" &&
    ((n.find "id").bind fun id => c.bridge.getGroupById id.asString).any
      fun group => !group.lights.isEmpty

/-- The inputs that keep channels and map in step: all but an update that empties a map. -/
def keepsChannels (c : Cache) : Input → Bool
  | .change ⟨.update, .entertainmentConfiguration, n⟩ => !emptiesChannelMap c n
  | _ => true

/-! ### One group -/

theorem mem_foldl_insertNew {channels : List (Light × List String)} {id : String}
    (m : GroupChannelToPhysicalLightMap) :
    id ∈ channels.foldl (fun m channel => m.insertNew channel.1.id channel.2) m ↔
      id ∈ m ∨ id ∈ (channels.map Prod.fst).map Light.id := by
  induction channels generalizing m with
  | nil => simp
  | cons channel channels ih =>
    rw [List.foldl_cons, ih, GroupChannelToPhysicalLightMap.mem_insertNew]
    simp only [List.map_cons, List.mem_cons]
    tauto

/-- The channels and the map an event yields are in step. -/
theorem inStep_parseChannels {lights : List Light} {m : GroupChannelToPhysicalLightMap}
    (h : parseChannels ε c n = some (some (lights, m))) (id : String) :
    id ∈ m ↔ id ∈ lights.map Light.id := by
  unfold parseChannels at h
  split at h
  · simp at h
  simp only [Option.bind_eq_bind, Option.bind_eq_some_iff, Option.some.injEq, Prod.mk.injEq] at h
  obtain ⟨channels, -, rfl, rfl⟩ := h
  rw [mem_foldl_insertNew]
  simp

/-- A configured group is in step unless the event has locations, has no channels, and meets a group
with channels. -/
theorem Configured.inStep {old new : Group} (h : Configured ε c n old new) (hold : InStep old)
    (hkeeps : (n.getAttributeValue "locations").isAttributeSet "service_locations" = true →
      n.isAttributeSet "channels" = false → old.lights = []) : InStep new := by
  obtain ⟨lights, channels, hlights, hchannels, -, -, -, -, hnew, hmap, -⟩ := h
  intro id
  rw [hnew, hmap]
  cases channels with
  | some channels => exact inStep_parseChannels hchannels id
  | none =>
    cases lights with
    | none => exact hold id
    | some lights =>
      have hempty := hkeeps (parseLights_eq_some hlights) (parseChannels_eq_none hchannels)
      simp [hempty]

/-! ### Runs -/

theorem channelsInStep_of_map {f : Group → Group} (hf : ∀ g, InStep (f g) ↔ InStep g)
    (hmap : c'.bridge.groups.map f = c.bridge.groups.map f) (h : ChannelsInStep c) :
    ChannelsInStep c' := by
  intro group hgroup
  have hmem : f group ∈ c.bridge.groups.map f := hmap ▸ List.mem_map_of_mem hgroup
  obtain ⟨old, hold, heq⟩ := List.mem_map.mp hmem
  rw [← hf, ← heq, hf]
  exact h old hold

theorem channelsInStep_step {input : Input} (hstep : step ε c input = some c')
    (hkeeps : keepsChannels c input = true) (h : ChannelsInStep c) : ChannelsInStep c' := by
  rcases step_cases hstep with ⟨change, hchange, hhandle⟩ | ⟨-, hquiet⟩
  · rcases groups_of_handle hhandle with hmap | ⟨hec, hcases⟩
    · exact channelsInStep_of_map (f := configOf) (fun _ => Iff.rfl) hmap h
    obtain ⟨eventType, resource, n⟩ := change
    obtain rfl : resource = _ := hec
    rcases hcases with ⟨group, hgroup, rfl, hgroups⟩ |
      ⟨id, old, new, hid, rfl, hold, hnew, hgroups⟩ | ⟨id, hid, rfl, hgroups⟩
    · intro g hg
      rw [hgroups, List.mem_append, List.mem_singleton] at hg
      rcases hg with hg | rfl
      · exact h g hg
      · exact hgroup.inStep (fun id => by simp) fun _ _ => rfl
    · have hmem : old ∈ c.bridge.groups := List.mem_of_find?_eq_some hold
      have hevent : input = .change ⟨.update, .entertainmentConfiguration, n⟩ := by
        cases input <;> simp_all [changeOf]
      rw [hevent] at hkeeps
      have hinStep : InStep new := by
        refine hnew.inStep (h old hmem) fun hlocations hchannels => ?_
        simpa [keepsChannels, emptiesChannelMap, hlocations, hchannels, hid, hold] using hkeeps
      intro g hg
      rw [hgroups] at hg
      rcases mem_modifyFirst hg with hg | ⟨-, -, rfl⟩
      · exact h g hg
      · exact hinStep
    · intro g hg
      rw [hgroups] at hg
      exact h g (List.mem_of_mem_eraseP hg)
  · exact channelsInStep_of_map (f := withoutOwnerName) (fun _ => Iff.rfl) hquiet.groups h

/-- **Channels and channel map stay in step** in every run whose entertainment configuration updates
all keep them so. -/
theorem channels_in_step (hrun : (retriever ε).Run ts c)
    (hkeeps : ∀ t ∈ ts, keepsChannels t.before t.label = true) : ChannelsInStep c := by
  refine hrun.invariant_of (C := fun c input => keepsChannels c input = true) (fun s hs => ?_)
    (fun s l s' hs hl h => channelsInStep_step hs hl h) hkeeps
  intro group hgroup
  rw [hs.groups] at hgroup
  simp at hgroup

/-! ### A run with an emptied map -/

/-- A configuration with one channel. -/
def oneChannel : JSONNode := .node [("id", .string "1"), ("channels", .array [.node
  [("channel_id", .number 0 "0"),
    ("position", .node [("x", .number 0 "0"), ("y", .number 0 "0"), ("z", .number 0 "0")]),
    ("members", .array [])]])]

/-- The same configuration with new locations of its lights. -/
def newLocations : JSONNode := .node [("id", .string "1"),
  ("locations", .node [("service_locations", .array [])])]

/-- A fetch that finds one configuration. -/
def fetchOneChannel : List Input :=
  List.replicate 6 .resourceDone ++ [.item oneChannel, .resourceDone, .resourceDone]

theorem cleared_empty : Cleared {} := ⟨rfl, rfl, rfl, rfl, rfl, rfl, rfl, rfl, rfl, rfl⟩

theorem channels_in_step_updated : ∃ ts c, (retriever {}).Run ts c ∧ ChannelsInStep c := by
  obtain ⟨ts, c, hrun, h⟩ := Machine.exists_run (M := retriever {}) (s := {})
    (fetchOneChannel ++ [.change ⟨.update, .entertainmentConfiguration, oneChannel⟩])
    (fun ts _ => ts.all fun t => keepsChannels t.before t.label) cleared_empty (by decide)
  exact ⟨ts, c, hrun, channels_in_step hrun (by simpa using h)⟩

/-- After a fetch of one configuration, an update of its locations empties its channel map. -/
theorem exists_emptied_channel_map :
    ∃ ts c, (retriever {}).Run ts c ∧ c.resourceToGet = none ∧ ¬ ChannelsInStep c := by
  obtain ⟨ts, c, hrun, h⟩ := Machine.exists_run (M := retriever {}) (s := {})
    (fetchOneChannel ++ [.change ⟨.update, .entertainmentConfiguration, newLocations⟩])
    (fun _ c => c.resourceToGet = none && c.bridge.groups.any fun group =>
      group.channelToPhysicalLightsMap.keys = [] && group.lights.map Light.id = ["0"])
    cleared_empty (by decide)
  simp only [Bool.and_eq_true, decide_eq_true_eq, List.any_eq_true] at h
  obtain ⟨hnone, group, hgroup, hkeys, hlights⟩ := h
  refine ⟨ts, c, hrun, hnone, fun hinStep => ?_⟩
  have := (hinStep group hgroup "0").mpr (by simp [hlights])
  rw [AList.mem_keys, hkeys] at this
  simp at this

end HueStream.Retriever
