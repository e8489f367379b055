import HueStream.Retriever.Parse

/-! # The handlers of the resources

`Add…` is also what a fetch does with each item it receives. A result of `none` is a run that ends
in a null pointer. -/

namespace HueStream.Retriever

open HueStream.Data HueStream.Json HueStream.Lib

variable (ε : Context) (c : Cache)

/-! ### Devices -/

/-- Whether one of the services of a device has one of these types. -/
def hasServiceOfType (device : JSONNode) (types : List String) : Option Bool := do
  (← device.find "services").asArray.anyM fun service => do
    some (decide ((← service.find "rtype").asString ∈ types))

/-- `AddDevice`: only lights and bridges are kept. -/
def addDevice (device : JSONNode) : Option Cache := do
  let id := (← device.find "id").asString
  if ← hasServiceOfType device ["light", "bridge"] then
    some { c with allDeviceMap := c.allDeviceMap.put id device }
  else some c

/-- `UpdateDevice`: a bridge can change its name. -/
def updateDevice (device : JSONNode) : Option Cache := do
  let id := (← device.find "id").asString
  match c.allDeviceMap.lookup id with
  | none => some c
  | some curDevice => do
    let isABridge ← hasServiceOfType curDevice ["bridge"]
    match device.find "metadata" with
    | none => some c
    | some metadata =>
      let name := metadata.deserializeString "name"
      if isABridge && c.bridge.name ≠ name then do
        let curDevice ← curDevice.setPath ["metadata", "name"] (.string name)
        some ({ c with
          bridge := { c.bridge with name }
          allDeviceMap := c.allDeviceMap.put id curDevice }.send true .bridgeChanged)
      else some c

/-- `DeleteDevice`. -/
def deleteDevice (device : JSONNode) : Option Cache := do
  let id := (← device.find "id").asString
  some { c with allDeviceMap := c.allDeviceMap.erase id }

/-! ### Zigbee connectivity -/

/-- `AddZigbeeConnectivity`: only what belongs to a known device is kept. -/
def addZigbeeConnectivity (zc : JSONNode) : Option Cache := do
  let id := (← zc.find "id").asString
  if ← (ε.order.entries c.allDeviceMap).anyM fun device => offersService device.2 id then
    some { c with allZigbeeConnectivityMap := c.allZigbeeConnectivityMap.put id zc }
  else some c

/-- The reachable flag of the first instance of a light in a group. -/
def setReachable (lightId : String) (reachable : Bool) (group : Group) : Group :=
  { group with physicalLights :=
      modifyFirst (fun l => l.id = lightId) (fun l => { l with reachable }) group.physicalLights }

/-- Whether a group has a light. -/
def hasLight (lightId : String) (group : Group) : Bool :=
  group.physicalLights.any fun l => l.id = lightId

/-- `UpdateZigbeeConnectivity`. -/
def updateZigbeeConnectivity (zc : JSONNode) : Option Cache := do
  let id := (← zc.find "id").asString
  match c.allZigbeeConnectivityMap.lookup id, zc.find "status" with
  | some curZC, some status => do
    let curZC ← curZC.set "status" (.string status.asString)
    let lightIsReachable := decide (status.asString = "connected")
    let c := { c with allZigbeeConnectivityMap := c.allZigbeeConnectivityMap.put id curZC }
    let lightId ← getLightIdFromZigbeeConnectivityId ε c.allDeviceMap id
    if lightId = "" then some c
    else
      let lightIsPresentInCurrentGroup := c.bridge.getGroup.any (hasLight lightId)
      some ((c.withGroups (c.bridge.groups.map (setReachable lightId lightIsReachable))).send
        (c.sendFeedback && lightIsPresentInCurrentGroup) .lightsUpdated)
  | _, _ => some c

/-- `DeleteZigbeeConnectivity`. -/
def deleteZigbeeConnectivity (zc : JSONNode) : Option Cache := do
  let id := (← zc.find "id").asString
  some { c with allZigbeeConnectivityMap := c.allZigbeeConnectivityMap.erase id }

/-! ### Entertainment services -/

/-- `AddEntertainment`. -/
def addEntertainment (entertainment : JSONNode) : Option Cache := do
  let id := (← entertainment.find "id").asString
  some { c with allEntertainment := c.allEntertainment.put id entertainment }

/-- `DeleteEntertainment`. -/
def deleteEntertainment (entertainment : JSONNode) : Option Cache := do
  let id := (← entertainment.find "id").asString
  some { c with allEntertainment := c.allEntertainment.erase id }

/-! ### Lights -/

/-- `AddLight`. -/
def addLight (light : JSONNode) : Option Cache := do
  let id := (← light.find "id").asString
  some { c with allLightMap := c.allLightMap.put id light }

/-- What one light update changes: the one attribute the update flags of `UpdateLight` name. -/
inductive LightUpdate
  | nothing
  | name (newName : String)
  | on (newOnState : Bool)
  | brightness (newBrightness : ℚ)
  | color (newX newY : ℚ)
  | dynamic (newDynamicEnabled : Bool)

namespace LightUpdate

/-- The update of the first attribute of the event, in the order of the source. The writes to
`curLightNode` go to a copy, which is dropped; what is left of them is that the member has to be
there. -/
def ofNode (curLightNode n : JSONNode) : Option LightUpdate :=
  if let some metadata := n.find "metadata" then
    match metadata.asNode.find "name" with
    | none => some .nothing
    | some newName => do
      let _ ← curLightNode.setPath ["metadata", "name"] (.string newName.asString)
      some (.name newName.asString)
  else if let some onState := n.find "on" then
    match onState.find "on" with
    | none => some .nothing
    | some newOnState => do
      let _ ← curLightNode.setPath ["on", "on"] (.bool newOnState.asBool)
      some (.on newOnState.asBool)
  else if let some dimmingState := n.find "dimming" then
    match dimmingState.find "brightness" with
    | none => some .nothing
    | some newBrightness => do
      let _ ← curLightNode.setPath ["dimming", "brightness"] newBrightness
      some (.brightness (newBrightness.asFloat ε.atof))
  else if let some colorState := n.find "color" then
    match colorState.find "xy" with
    | none => some .nothing
    | some xy => do
      let newX ← xy.asNode.find "x"
      let newY ← xy.asNode.find "y"
      let curLightNode ← curLightNode.setPath ["color", "xy", "x"] newX
      let _ ← curLightNode.setPath ["color", "xy", "y"] newY
      some (.color (newX.asFloat ε.atof) (newY.asFloat ε.atof))
  else if let some dynamics := n.find "dynamics" then
    match dynamics.find "status" with
    | none => some .nothing
    | some status => do
      let _ ← curLightNode.setPath ["dynamics", "status"] (.string status.asString)
      some (.dynamic (decide (status.asString ≠ "none")))
  else some .nothing

/-- The update of one light of a group. -/
def apply (update : LightUpdate) (light : Light) : Light :=
  match update with
  | .nothing => light
  | .name newName => { light with name := newName }
  | .on newOnState => { light with on := newOnState }
  | .brightness newBrightness => { light with brightness := newBrightness }
  | .color newX newY => { light with color := Color.ofXY ε.pow newX newY light.brightness 100 }
  | .dynamic newDynamicEnabled => { light with dynamicEnabled := newDynamicEnabled }

/-- The update of one light of a zone, which leaves the dynamic flag alone. -/
def applyInZone (update : LightUpdate) (light : Light) : Light :=
  match update with
  | .dynamic _ => light
  | _ => update.apply ε light

/-- What is left of the update after one light: a colour that has not really changed is no update
any more. -/
def after (update : LightUpdate) (light : Light) : LightUpdate :=
  match update with
  | .color _ _ => if light.color.same (update.apply ε light).color then .nothing else update
  | _ => update

/-- The updates that are announced as a change of lights; the others only matter for the summaries
of the groups. -/
def isShown : LightUpdate → Bool
  | .name _ | .color _ _ | .dynamic _ => true
  | _ => false

end LightUpdate

/-- One group in the loop of `UpdateLight`: the first instance of the light is updated and the two
summaries follow. -/
def updateLightInGroup (update : LightUpdate) (id : String) (group : Group) : Bool × Group :=
  let (onUpdated, group) := updateGroupOn { group with
    physicalLights := modifyFirst (fun l => l.id = id) (update.apply ε) group.physicalLights }
  let (brightnessUpdated, group) := updateGroupBrightness group
  (onUpdated || brightnessUpdated, group)

/-- The loop of `UpdateLight` over the groups: what is left of the update, whether a summary has
changed, and the groups. -/
def updateLightInGroups (id : String) :
    LightUpdate → List Group → LightUpdate × Bool × List Group
  | update, [] => (update, false, [])
  | update, group :: groups =>
    match group.physicalLights.find? (fun l => l.id = id) with
    | none =>
      let (update, groupsUpdated, groups) := updateLightInGroups id update groups
      (update, groupsUpdated, group :: groups)
    | some light =>
      let (groupUpdated, group) := updateLightInGroup ε update id group
      let (update, groupsUpdated, groups) :=
        updateLightInGroups id (update.after ε light) groups
      (update, groupUpdated || groupsUpdated, group :: groups)

/-- One zone in the loop of `UpdateLight`. -/
def updateLightInZone (update : LightUpdate) (id : String) (zone : Zone) : Zone :=
  { zone with physicalLights :=
      modifyFirst (fun l => l.id = id) (update.applyInZone ε) zone.physicalLights }

/-- `UpdateLight`. -/
def updateLight (n : JSONNode) : Option Cache := do
  let id := (← n.find "id").asString
  match c.allLightMap.lookup id with
  | none => some c
  | some curLightNode => do
    let update ← LightUpdate.ofNode ε curLightNode n
    let lightIsPresentInCurrentGroup := c.bridge.getGroup.any (hasLight id)
    let (update, groupsUpdated, groups) := updateLightInGroups ε id update c.bridge.groups
    let zones := c.bridge.zones.map (updateLightInZone ε update id)
    let c := ((c.withGroups groups).withZones zones).scheduleFeedback
      (c.sendFeedback && groupsUpdated) .groupLightstateUpdated
    some (c.scheduleFeedback (c.sendFeedback && lightIsPresentInCurrentGroup && update.isShown)
      .lightsUpdated)

/-- The loop of `DeleteLight` over the lights of one group. It runs over the list the group had
before, and each instance makes a new list without that instance alone. -/
def deleteLightInGroup (id : String) (group : Group) : Group :=
  group.physicalLights.zipIdx.foldl (fun g entry =>
    if entry.1.id = id then
      (updateGroupOn { g with physicalLights := group.physicalLights.eraseIdx entry.2 }).2
    else g) group

/-- `DeleteLight`. -/
def deleteLight (light : JSONNode) : Option Cache := do
  let id := (← light.find "id").asString
  let lightWasInGroup := c.bridge.groups.any (hasLight id)
  let c := { c with allLightMap := c.allLightMap.erase id }
  some ((c.withGroups (c.bridge.groups.map (deleteLightInGroup id))).scheduleFeedback
    lightWasInGroup .lightsUpdated)

/-! ### Entertainment configurations -/

/-- `AddEntertainmentConfiguration`. -/
def addEntertainmentConfiguration (ec : JSONNode) : Option Cache := do
  let (newGroup, c) ← parseEntertainmentConfig ε c ec
  some ((c.withGroups (c.bridge.groups ++ [newGroup])).send c.sendFeedback .grouplistUpdated)

/-- The last part of `UpdateEntertainmentConfiguration`: new channels come with their map, and new
physical lights with the map of the same event, which is empty when it has no channels. -/
def setLights (group : Group) (channels : Option (List Light × GroupChannelToPhysicalLightMap))
    (physicalLights : Option (List Light)) : Group :=
  let group := match channels with
    | none => group
    | some (lights, channelToPhysicalLightsMap) => { group with lights, channelToPhysicalLightsMap }
  match physicalLights with
  | none => group
  | some lights => { setSummary group lights with
      physicalLights := lights
      channelToPhysicalLightsMap := (channels.map Prod.snd).getD ∅ }

/-- `UpdateEntertainmentConfiguration`. -/
def updateEntertainmentConfiguration (ec : JSONNode) : Option Cache := do
  let id := (← ec.find "id").asString
  match c.bridge.getGroupById id with
  | none => some c
  | some group => do
    let (nameChanged, group) := parseName ec group
    let (classChanged, group) := parseClass ec group
    let (activeChanged, group, c) ← parseStreamActive ε c (some id) ec group
    let (proxyChanged, group, c) ← parseStreamProxy ε c ec group
    let groupChanged := nameChanged || classChanged || activeChanged || proxyChanged
    let c := c.send (c.sendFeedback && groupChanged) .grouplistUpdated
    let channels ← parseChannels ε c ec
    let physicalLights ← parseLights ε c ec
    some ((c.putGroup (some id) (setLights group channels physicalLights)).send
      (c.sendFeedback && (channels.isSome || physicalLights.isSome)) .groupLightstateUpdated)

/-- `DeleteEntertainmentConfiguration`: once the fetch is finished, a selected group is deselected. -/
def deleteEntertainmentConfiguration (ec : JSONNode) : Option Cache := do
  let id := (← ec.find "id").asString
  let isSelected := c.sendFeedback && c.bridge.selectedGroup = id
  let selectedGroup := if isSelected then "" else c.bridge.selectedGroup
  let groups := c.bridge.groups.eraseP fun g => g.id = id
  let c := { c with bridge := { c.bridge with groups, selectedGroup } }
  some ((c.send c.sendFeedback .grouplistUpdated).send isSelected .selectGroup)

/-! ### Zones -/

/-- The archetype of a zone by its name. -/
def parseArchetype (archetype : String) : ZoneArchetype :=
  if archetype = "computer" then .computer else .other

/-- The grouped light among the services of a zone. -/
def parseGroupedLightId (zone : JSONNode) : Option String := do
  let services :=
    if zone.isAttributeSet "children" then zone.getAttributeValue "services"
    else (zone.find "grouped_services").getD .null
  let service ← services.asArray.findM? fun service => do
    some ((← service.asNode.find "rtype").equals "grouped_light")
  match service with
  | none => some ""
  | some service => do some (← service.asNode.find "rid").asString

/-- `AddZone`. -/
def addZone (zone : JSONNode) : Option Cache := do
  let id := zone.deserializeString "id"
  if id = "" then some c
  else
    let metadata := zone.getAttributeValue "metadata"
    let groupedLightId ← parseGroupedLightId zone
    let lights ← parseZoneLights ε c zone
    let newZone : Zone :=
      { id, idV1 := getIdV1 zone, name := metadata.deserializeString "name"
        archetype := parseArchetype (metadata.deserializeString "archetype")
        groupedLightId, physicalLights := lights.getD [] }
    let c := (c.withZones (c.bridge.zones ++ [newZone])).send c.sendFeedback .zonelistUpdated
    some { c with allZoneMap := c.allZoneMap.put id zone }

/-- What `UpdateZone` reads from the node: whether the last attribute it has changes anything, and
the zone. -/
def updateZoneMetadata (n : JSONNode) (zone : Zone) : Bool × Zone :=
  let metadata := n.getAttributeValue "metadata"
  let (updated, zone) := match metadata.find "name" with
    | none => (false, zone)
    | some name => (zone.name ≠ name.asString, { zone with name := name.asString })
  match metadata.find "archetype" with
  | none => (updated, zone)
  | some archetype =>
    let archetype := parseArchetype (archetype.asString.map Char.toLower)
    (zone.archetype ≠ archetype, { zone with archetype })

/-- `UpdateZone`. -/
def updateZone (n : JSONNode) : Option Cache := do
  let id := n.deserializeString "id"
  match if id = "" then none else getZoneById c id with
  | none => some c
  | some zone => do
    let (metadataUpdated, zone) := updateZoneMetadata n zone
    let lights ← parseZoneLights ε c n
    let zone := { zone with physicalLights := lights.getD zone.physicalLights }
    some ((c.withZones (modifyFirst (fun z => z.id = id) (fun _ => zone) c.bridge.zones)).send
      (c.sendFeedback && (lights.isSome || metadataUpdated)) .zonelistUpdated)

/-- `DeleteZone`. -/
def deleteZone (zone : JSONNode) : Option Cache := do
  let id := (← zone.find "id").asString
  let c := { c with allZoneMap := c.allZoneMap.erase id }
  some ((c.withZones (c.bridge.zones.eraseP fun z => z.id = id)).send c.sendFeedback
    .zonelistUpdated)

/-! ### Bridge -/

/-- `AddBridge`. -/
def addBridge (bs : JSONNode) : Option Cache := do
  let deviceId ←
    getDeviceIdFromServiceReferenceId ε c.allDeviceMap (← bs.find "id").asString
  if deviceId = "" then some c
  else
    let device := (c.allDeviceMap.lookup deviceId).getD .empty
    let name := match device.find "metadata" with
      | none => c.bridge.name
      | some metadata => metadata.deserializeString "name"
    let modelId := (device.getAttributeValue "product_data").deserializeString "model_id"
    let service ← getServiceByType c "entertainment" device
    let maxNoStreamingSessions := match (service.getD .empty).find "max_streams" with
      | none => 1
      | some maxStreams => maxStreams.asInt ε.atof
    some { c with bridge := { c.bridge with
      name, modelId, id := (bs.deserializeString "bridge_id").map Char.toUpper,
      maxNoStreamingSessions } }

/-! ### Scenes -/

/-- The scenes of the first zone with an id, changed. -/
def modifyScenes (zoneId : String) (f : List Scene → List Scene) : Cache :=
  c.withZones (modifyFirst (fun z => z.id = zoneId) (fun z => { z with scenes := f z.scenes })
    c.bridge.zones)

/-- `AddScene`. -/
def addScene (scene : JSONNode) : Option Cache :=
  match getZoneFromScene c scene with
  | none => some c
  | some zone => do
    match (← parseScene ε c scene none).2 with
    | none => some c
    | some newScene =>
      let c := (modifyScenes c zone.id (· ++ [newScene])).send c.sendFeedback .zoneScenelistUpdated
      some { c with allSceneMap := c.allSceneMap.put newScene.id scene }

/-- `UpdateScene`. -/
def updateScene (scene : JSONNode) : Option Cache :=
  match getZoneFromScene c scene with
  | none => some c
  | some zone =>
    let id := scene.deserializeString "id"
    match zone.scenes.find? fun s => s.id = id with
    | none => some c
    | some old => do
      let (updated, new) ← parseScene ε c scene (some old)
      some ((modifyScenes c zone.id (modifyFirst (fun s => s.id = id) fun s => new.getD s)
        ).scheduleFeedback (updated && c.sendFeedback) .zoneScenelistUpdated)

/-- `DeleteScene`. -/
def deleteScene (scene : JSONNode) : Cache :=
  match getZoneFromScene c scene with
  | none => c
  | some zone =>
    let id := scene.deserializeString "id"
    let found := zone.scenes.any fun s => s.id = id
    let c := { c with allSceneMap := c.allSceneMap.erase id }
    (modifyScenes c zone.id fun scenes => scenes.eraseP fun s => s.id = id).send
      (found && c.sendFeedback) .zoneScenelistUpdated

end HueStream.Retriever
