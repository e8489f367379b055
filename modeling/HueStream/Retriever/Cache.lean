import HueStream.Data.Bridge
import HueStream.Flow.Message
import HueStream.Json.Node
import HueStream.Lib.FirstMatch

/-! # The cache of the configuration retriever

`Cache` is what `BridgeConfigRetriever` keeps of a bridge: the bridge object itself, with its groups
and zones, and the nodes it was read from, by id. The lists and lights of the source are shared
pointers; none of them is reachable from two places, so they are values here, and a handler that
changes the first object with some id is a `modifyFirst`. -/

namespace HueStream.Retriever

open HueStream.Data HueStream.Flow HueStream.Json HueStream.Lib

/-- `std::unordered_map<std::string, JSONNode>`. -/
abbrev JSONNodeMap := AList fun _ : String => JSONNode

/-- `m[id] = n`: an entry that is there keeps its place. -/
def JSONNodeMap.put (m : JSONNodeMap) (id : String) (n : JSONNode) : JSONNodeMap :=
  if id ∈ m then m.replace id n else m.insert id n

/-- The order in which a loop over an unordered map meets its keys. The standard leaves it open, so
it is any permutation of them; writing to an entry does not change it. -/
structure IterationOrder where
  keys : List String → List String
  perm : ∀ ks, (keys ks).Perm ks

/-- The keys as they are listed. -/
def IterationOrder.listed : IterationOrder := ⟨id, fun _ => .refl _⟩

/-- The entries of a map in the order of a loop over it. -/
def IterationOrder.entries (order : IterationOrder) (m : JSONNodeMap) : List (String × JSONNode) :=
  (order.keys m.keys).filterMap fun key => (m.lookup key).map fun n => (key, n)

/-- What does not change while the retriever runs. -/
structure Context where
  settings : BridgeSettings := {}
  useForcedActivation : Bool := true
  order : IterationOrder := .listed
  atof : String → ℚ := fun _ => 0
  pow : ℚ → ℚ := id

/-- The resources of a bridge, in the order of `_resourceInfoList`. -/
inductive Resource
  | device | zigbeeConnectivity | entertainment | bridge | light | zone | entertainmentConfiguration
  | scene
deriving DecidableEq

/-- `++_resourceToGet`. -/
def Resource.next : Resource → Option Resource
  | .device => some .zigbeeConnectivity
  | .zigbeeConnectivity => some .entertainment
  | .entertainment => some .bridge
  | .bridge => some .light
  | .light => some .zone
  | .zone => some .entertainmentConfiguration
  | .entertainmentConfiguration => some .scene
  | .scene => none

/-- The members of `BridgeConfigRetriever` that its handlers read and write. `resourceToGet` is
`none` at the end of the list, that is once the fetch is finished; `updatingWhiteList` is the static
flag of `GetOwnerName`; `sent` lists what went to the feedback handler, the oldest first, and
`feedbackMessageMap` what waits to be sent. -/
structure Cache where
  bridge : Bridge := {}
  allDeviceMap : JSONNodeMap := ∅
  allLightMap : JSONNodeMap := ∅
  allZigbeeConnectivityMap : JSONNodeMap := ∅
  allZoneMap : JSONNodeMap := ∅
  allEntertainment : JSONNodeMap := ∅
  allSceneMap : JSONNodeMap := ∅
  whitelist : JSONNode := .empty
  updatingWhiteList : Bool := false
  previouslySelectedGroupName : String := ""
  resourceToGet : Option Resource := some .device
  refreshing : Bool := false
  sendFeedback : Bool := false
  canSendStreamingDisconnectedEvent : Bool := true
  sent : List MessageId := []
  feedbackMessageMap : List MessageId := []

theorem dlookup_kreplace {l : List (Sigma fun _ : String => JSONNode)} {id key : String} {n : JSONNode}
    (h : id ∈ l.keys) :
    (l.kreplace id n).dlookup key = if key = id then some n else l.dlookup key := by
  induction l with
  | nil => simp at h
  | cons e l ih =>
    obtain ⟨k, v⟩ := e
    unfold List.kreplace
    rw [List.lookmap_cons]
    by_cases hk : id = k
    · subst hk
      by_cases hkey : key = id
      · subst hkey; simp
      · have hne : key ≠ (⟨id, n⟩ : Sigma fun _ : String => JSONNode).1 := hkey
        have hne' : key ≠ (⟨id, v⟩ : Sigma fun _ : String => JSONNode).1 := hkey
        simp [hkey, List.dlookup_cons_ne _ _ hne, List.dlookup_cons_ne _ _ hne']
    · have ih := ih (by simpa [hk] using h)
      unfold List.kreplace at ih
      by_cases hkey : key = k
      · subst hkey; simp [hk, Ne.symm hk]
      · have hne : key ≠ (⟨k, v⟩ : Sigma fun _ : String => JSONNode).1 := hkey
        simpa [hk, List.dlookup_cons_ne _ _ hne] using ih

theorem JSONNodeMap.lookup_put (m : JSONNodeMap) (id key : String) (n : JSONNode) :
    (m.put id n).lookup key = if key = id then some n else m.lookup key := by
  unfold JSONNodeMap.put
  by_cases hmem : id ∈ m
  · rw [if_pos hmem]
    exact dlookup_kreplace hmem
  · simp only [hmem, if_false]
    by_cases hkey : key = id
    · subst hkey; simp
    · rw [AList.lookup_insert_ne hkey, if_neg hkey]

theorem JSONNodeMap.mem_put {m : JSONNodeMap} {id key : String} {n : JSONNode} :
    key ∈ m.put id n ↔ key = id ∨ key ∈ m := by
  rw [← AList.lookup_isSome, lookup_put, ← AList.lookup_isSome]
  split_ifs with h <;> simp [h]

namespace Cache

variable (c : Cache)

/-- `_fh` with an internal message about the bridge, if a condition holds. -/
def send (condition : Bool) (id : MessageId) : Cache :=
  { c with sent := if condition then c.sent ++ [id] else c.sent }

/-- `ScheduleFeedback`, if a condition holds. -/
def scheduleFeedback (condition : Bool) (id : MessageId) : Cache :=
  { c with feedbackMessageMap :=
      if condition then c.feedbackMessageMap.insert id else c.feedbackMessageMap }

/-- `_allZigbeeConnetivityMap[id]` used as a value: a missing entry is made, an empty node. -/
def touchZigbeeConnectivity (id : String) : Cache :=
  { c with allZigbeeConnectivityMap :=
      if id ∈ c.allZigbeeConnectivityMap then c.allZigbeeConnectivityMap
      else c.allZigbeeConnectivityMap.put id .empty }

/-- The cache of `c` with other groups. -/
def withGroups (groups : List Group) : Cache := { c with bridge := { c.bridge with groups } }

/-- A group that belongs to the bridge is written back in its place; `none` is a group that has not
been added yet. -/
def putGroup (slot : Option String) (group : Group) : Cache :=
  c.withGroups (match slot with
    | none => c.bridge.groups
    | some id => modifyFirst (fun g => g.id = id) (fun _ => group) c.bridge.groups)

/-- The cache of `c` with other zones. -/
def withZones (zones : List Zone) : Cache := { c with bridge := { c.bridge with zones } }

end Cache

/-! ### The two summaries of a group -/

/-- `UpdateGroupOn`: whether the state changed, and the group. -/
def updateGroupOn (group : Group) : Bool × Group :=
  let on := group.physicalLights.any fun light => light.reachable && light.on
  (group.onState ≠ on, { group with onState := on })

/-- The mean brightness of the reachable lights, as the loops of `ParseLights` and
`UpdateGroupBrightness` leave it: a sum of none is divided by one. -/
def averageBrightness (lights : List Light) : ℚ :=
  let reachable := lights.filter (·.reachable)
  (reachable.map (·.brightness)).sum / (if 0 < reachable.length then reachable.length else 1 : ℕ)

/-- `UpdateGroupBrightness`: whether the state changed by more than a tenth, and the group. -/
def updateGroupBrightness (group : Group) : Bool × Group :=
  let average := averageBrightness group.physicalLights
  (1 / 10 < |group.brightnessState * 100 - average|, { group with brightnessState := average / 100 })

end HueStream.Retriever
