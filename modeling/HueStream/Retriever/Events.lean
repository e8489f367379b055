import HueStream.Lib.Run
import HueStream.Retriever.Handlers

/-! # Events, the fetch, and the retriever as a machine

An event of the stream carries changes of resources of any kind; `ParseJsonEvent` collects them and
handles them kind by kind. A fetch gets the resources one after another, each in any number of
pages, and adds what they hold. `retriever` is the machine that takes these apart into single items
and single changes: it starts where `GetFullConfig` has just cleared the groups and zones. Both
`ParseJsonEvent` and `OnGetResource` are stretches of its runs. -/

namespace HueStream.Retriever

open HueStream.Data HueStream.Flow HueStream.Json HueStream.Lib

/-- The types of changes that are handled. -/
inductive EventType
  | add | update | delete
deriving DecidableEq

def EventType.ofString (s : String) : Option EventType :=
  if s = "add" then some .add
  else if s = "update" then some .update
  else if s = "delete" then some .delete
  else none

/-- The types of resources that are handled. -/
def Resource.ofString (s : String) : Option Resource :=
  if s = "device" then some .device
  else if s = "zigbee_connectivity" then some .zigbeeConnectivity
  else if s = "entertainment" then some .entertainment
  else if s = "bridge" then some .bridge
  else if s = "light" then some .light
  else if s = "zone" then some .zone
  else if s = "entertainment_configuration" then some .entertainmentConfiguration
  else if s = "scene" then some .scene
  else none

/-- One change of one resource. -/
structure Change where
  eventType : EventType
  resource : Resource
  node : JSONNode

variable (ε : Context)

/-- What handles a change. -/
def handle (c : Cache) (change : Change) : Option Cache :=
  match change.resource, change.eventType with
  | .device, .add => addDevice c change.node
  | .device, .update => updateDevice c change.node
  | .device, .delete => deleteDevice c change.node
  | .zigbeeConnectivity, .add => addZigbeeConnectivity ε c change.node
  | .zigbeeConnectivity, .update => updateZigbeeConnectivity ε c change.node
  | .zigbeeConnectivity, .delete => deleteZigbeeConnectivity c change.node
  | .entertainment, .add => addEntertainment c change.node
  | .entertainment, .update => some c
  | .entertainment, .delete => deleteEntertainment c change.node
  | .bridge, .add => addBridge ε c change.node
  | .bridge, .update => some c
  | .bridge, .delete => some c
  | .light, .add => addLight c change.node
  | .light, .update => updateLight ε c change.node
  | .light, .delete => deleteLight c change.node
  | .zone, .add => addZone ε c change.node
  | .zone, .update => updateZone ε c change.node
  | .zone, .delete => deleteZone c change.node
  | .entertainmentConfiguration, .add => addEntertainmentConfiguration ε c change.node
  | .entertainmentConfiguration, .update => updateEntertainmentConfiguration ε c change.node
  | .entertainmentConfiguration, .delete => deleteEntertainmentConfiguration c change.node
  | .scene, .add => addScene ε c change.node
  | .scene, .update => updateScene ε c change.node
  | .scene, .delete => some (deleteScene c change.node)

/-! ### Events -/

/-- The changes one entry of an event holds, with the event type as text. An entry without a type or
without data ends in a null pointer: its iterators are compared with the end of another node. -/
def entryChanges (entry : JSONNode) : Option (List (String × Resource × JSONNode)) := do
  let type ← entry.find "type"
  if type.isString then
    let data ← entry.find "data"
    if data.isNull then some []
    else some (data.asArray.filterMap fun item => do
      let dataNode := item.asNode
      let resource ← Resource.ofString (dataNode.deserializeString "type")
      if dataNode.deserializeString "id" = "" then none
      else some (type.asString, resource, dataNode))
  else some []

/-- The changes of one kind of resource, in their order; of the bridge only the last one. -/
def changesOf (changes : List (String × Resource × JSONNode)) (resource : Resource) :
    List Change :=
  let changes := changes.filter fun change => change.2.1 = resource
  let changes := if resource = .bridge then changes.getLast?.toList else changes
  changes.filterMap fun change => do
    some ⟨← EventType.ofString change.1, change.2.1, change.2.2⟩

/-- The kinds handled before the entertainment configurations, in the order of `ParseJsonEvent`. -/
def earlyKinds : List Resource :=
  [.device, .zigbeeConnectivity, .bridge, .entertainment, .light, .zone]

/-- The message that the stream has ended, if an event has ended it. -/
def reportDisconnected (bridgeWasStreaming : Bool) (c : Cache) : Cache :=
  c.send (c.canSendStreamingDisconnectedEvent && bridgeWasStreaming &&
    !c.bridge.isStreaming ε.settings) .streamingDisconnected

/-- `ParseJsonEvent`; an event that is no array changes nothing. -/
def parseJsonEvent (c : Cache) (root : JSONNode) : Option Cache :=
  if root.isArray then do
    let changes := (← root.asArray.mapM entryChanges).flatten
    let c ← (earlyKinds.flatMap (changesOf changes)).foldlM (handle ε) c
    let bridgeWasStreaming := c.bridge.isStreaming ε.settings
    let c ← (changesOf changes .entertainmentConfiguration).foldlM (handle ε) c
    let c := reportDisconnected ε bridgeWasStreaming c
    (changesOf changes .scene).foldlM (handle ε) c
  else some c

/-! ### The fetch -/

/-- The end of `OnGetResource`. A fetch that was asked for by a caller looks for the selected group
by its name; a refresh announces everything, and deselects a group that is gone. -/
def finishFetch (c : Cache) : Cache :=
  let gone := c.bridge.selectedGroup ≠ "" && !c.bridge.isValidGroupSelected
  if c.refreshing then
    let news : List MessageId :=
      [.bridgeRefreshed, .zonelistUpdated, .grouplistUpdated, .zoneScenelistUpdated]
    { c with
      sendFeedback := true
      refreshing := false
      sent := c.sent ++ if gone then news ++ [.selectGroup] else news
      bridge := { c.bridge with selectedGroup := if gone then "" else c.bridge.selectedGroup } }
  else
    let namesake := if gone then getGroupByName c c.previouslySelectedGroupName else none
    { c with
      sendFeedback := true
      bridge := { c.bridge with
        selectedGroup := (namesake.map Group.id).getD c.bridge.selectedGroup } }

/-- The callback of the refresh of the white list that `GetOwnerName` asked for. -/
def onWhitelist (c : Cache) (ecId userName : String) (whitelist : JSONNode) : Cache :=
  let c := { c with
    whitelist, bridge := { c.bridge with isAuthorized := true, isValidIp := true } }
  match c.bridge.getGroupById ecId with
  | none => { c with updatingWhiteList := false }
  | some group =>
    let ownerName := (getOwnerName c userName).1
    { (c.putGroup (some ecId) { group with ownerName }).send
        (c.sendFeedback && ownerName ≠ "") .grouplistUpdated with
      updatingWhiteList := false }

/-- `++_resourceToGet`, with what happens at the end of the list. -/
def nextResource (c : Cache) (resource : Resource) : Cache :=
  match resource.next with
  | some next => { c with resourceToGet := some next }
  | none => finishFetch { c with resourceToGet := none }

/-- `OnGetResource`, for a response that holds data. -/
def onGetResource (c : Cache) (n : JSONNode) : Option Cache := do
  let resource ← c.resourceToGet
  let data ← n.find "data"
  let c ← data.asArray.foldlM (fun c item => handle ε c ⟨.add, resource, item⟩) c
  some (if n.isAttributeSet "cursor" then c else nextResource c resource)

/-! ### The machine -/

/-- What happens to the cache: an item of a page of the fetch, the last page of a resource, a change
of an event once the fetch is finished, the check for the end of the stream within an event, the
answer with a new white list. -/
inductive Input
  | item (node : JSONNode)
  | resourceDone
  | change (change : Change)
  | streamCheck (bridgeWasStreaming : Bool)
  | whitelist (ecId userName : String) (whitelist : JSONNode)

/-- One step of the retriever. -/
def step (c : Cache) : Input → Option Cache
  | .item node => do handle ε c ⟨.add, ← c.resourceToGet, node⟩
  | .resourceDone => c.resourceToGet.map (nextResource c)
  | .change change => if c.resourceToGet = none then handle ε c change else none
  | .streamCheck bridgeWasStreaming => some (reportDisconnected ε bridgeWasStreaming c)
  | .whitelist ecId userName whitelist => some (onWhitelist c ecId userName whitelist)

/-- `GetFullConfig`: the fetch of the first resource is about to start, and nothing is known. -/
structure Cleared (c : Cache) : Prop where
  resourceToGet : c.resourceToGet = some .device
  sendFeedback : c.sendFeedback = false
  groups : c.bridge.groups = []
  zones : c.bridge.zones = []
  allDeviceMap : c.allDeviceMap = ∅
  allLightMap : c.allLightMap = ∅
  allZigbeeConnectivityMap : c.allZigbeeConnectivityMap = ∅
  allZoneMap : c.allZoneMap = ∅
  allEntertainment : c.allEntertainment = ∅
  allSceneMap : c.allSceneMap = ∅

/-- The retriever from a cleared cache on. -/
def retriever : Machine Cache Input where
  Init := Cleared
  step := step ε

end HueStream.Retriever
