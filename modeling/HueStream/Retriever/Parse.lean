import HueStream.Retriever.Cache

/-! # Parsing the nodes of lights, groups, zones and scenes

The outer `Option` of a parser is `none` where the source would dereference a null pointer or index
past the end. A parser that returns `bool` and fills its argument returns the value it fills in, or
`none` for `false`. -/

namespace HueStream.Retriever

open HueStream.Data HueStream.Json HueStream.Lib

variable (ε : Context)

/-! ### Finding things in the cache

A light, its Zigbee connectivity and its entertainment service are the services of one device, and
the way from one to another leads over that device. The result is `none` where the source would
dereference a null pointer, and the empty id where it finds nothing. -/

/-- Whether one of the services of a device has this id. -/
def offersService (device : JSONNode) (id : String) : Option Bool := do
  (← device.find "services").asArray.anyM fun service => do
    some ((← service.asNode.find "rid").equals id)

/-- `GetDeviceIdFromServiceReferenceId`. -/
def getDeviceIdFromServiceReferenceId (devices : JSONNodeMap) (serviceReferenceId : String) :
    Option String := do
  let device ← (ε.order.entries devices).findM? fun device =>
    offersService device.2 serviceReferenceId
  some ((device.map Prod.fst).getD "")

/-- `GetDeviceReferenceIdFromReferenceType`. -/
def getDeviceReferenceIdFromReferenceType (devices : JSONNodeMap) (deviceId referenceType : String) :
    Option String := do
  if deviceId = "" then some ""
  else
    let services ← ((devices.lookup deviceId).getD .empty).find "services"
    let service ← services.asArray.findM? fun service => do
      some ((← service.asNode.find "rtype").equals referenceType)
    match service with
    | none => some ""
    | some service => do some (← service.asNode.find "rid").asString

/-- The service of a type that the device of another service has. -/
def getServiceIdOfSameDevice (devices : JSONNodeMap) (id referenceType : String) : Option String := do
  let deviceId ← getDeviceIdFromServiceReferenceId ε devices id
  getDeviceReferenceIdFromReferenceType devices deviceId referenceType

/-- `GetLightIdFromZigbeeConnectivityId`. -/
def getLightIdFromZigbeeConnectivityId (devices : JSONNodeMap) (zcId : String) : Option String :=
  getServiceIdOfSameDevice ε devices zcId "light"

/-- `GetLightIdFromEntertainmentId`. -/
def getLightIdFromEntertainmentId (devices : JSONNodeMap) (entertainmentId : String) :
    Option String :=
  getServiceIdOfSameDevice ε devices entertainmentId "light"

/-- `GetZigbeeConnectivityIdFromLightId`. -/
def getZigbeeConnectivityIdFromLightId (devices : JSONNodeMap) (lightId : String) : Option String :=
  getServiceIdOfSameDevice ε devices lightId "zigbee_connectivity"

/-- Whether a light is reachable: the status of the Zigbee connectivity of its device, as
`ParseLightInfo` reads it. A missing entry is an empty node, and has no status. -/
def getReachable (devices zigbee : JSONNodeMap) (lightId : String) : Option Bool := do
  let zcId ← getZigbeeConnectivityIdFromLightId ε devices lightId
  some ((← ((zigbee.lookup zcId).getD .empty).find "status").asString = "connected")

/-- `GetServiceByType`: the entertainment service the first service of the type refers to; `none`
when there is no such service. -/
def getServiceByType (c : Cache) (rtype : String) (n : JSONNode) : Option (Option JSONNode) :=
  let services := n.getAttributeValue "services"
  if services.isArray then do
    let service ← services.asArray.findM? fun service => do
      some ((← service.asNode.find "rtype").equals rtype)
    match service with
    | none => some none
    | some service => do
      let rid ← service.asNode.find "rid"
      some (some ((c.allEntertainment.lookup rid.asString).getD .empty))
  else some none

/-- `GetOwnerName`: the name the white list has for a user. An unknown user causes one refresh of the
white list at a time. -/
def getOwnerName (c : Cache) (userName : String) : String × Cache :=
  (((c.whitelist.find userName).map fun user => user.deserializeString "name").getD "",
    { c with updatingWhiteList := c.updatingWhiteList || !c.whitelist.isAttributeSet userName })

/-- `GetGroupByName`. -/
def getGroupByName (c : Cache) (name : String) : Option Group :=
  c.bridge.groups.find? (·.name = name)

/-- `GetZoneById`. -/
def getZoneById (c : Cache) (id : String) : Option Zone := c.bridge.zones.find? (·.id = id)

/-- The reference to its group that a scene node has, or the one of the node stored for the scene. -/
def getGroupOfScene (c : Cache) (scene : JSONNode) : Option JSONNode :=
  let group := scene.getAttributeValue "group"
  let id := scene.getAttributeValue "id"
  if (group.getAttributeValue "rtype").isString then some group
  else if id.isString then
    match c.allSceneMap.lookup id.asString with
    | some stored => some (stored.getAttributeValue "group")
    | none => some group
  else none

/-- `GetZoneFromScene`: the zone of a scene node, `none` for the null pointer. -/
def getZoneFromScene (c : Cache) (scene : JSONNode) : Option Zone := do
  let group ← getGroupOfScene c scene
  let refType := group.getAttributeValue "rtype"
  let zoneId ← group.find "rid"
  if refType.isString && refType.asString = "zone" then getZoneById c zoneId.asString else none

/-! ### Parsing -/

/-- `GetIdV1`: what follows the last slash. -/
def getIdV1 (n : JSONNode) : String :=
  let idv1 := (n.deserializeString "id_v1").toList
  if '/' ∈ idv1 then String.ofList (idv1.reverse.takeWhile (· ≠ '/')).reverse else ""

/-- `Location(n["x"], n["y"], n["z"])`. -/
def parsePosition (n : JSONNode) : Option Location := do
  some ⟨(← n.find "x").asFloat ε.atof, (← n.find "y").asFloat ε.atof, (← n.find "z").asFloat ε.atof⟩

/-! ### Lights -/

/-- The model id of the first device that has the light. -/
def parseModelId (devices : JSONNodeMap) (lightId : String) : Option String := do
  let device ← (ε.order.entries devices).findM? fun device => offersService device.2 lightId
  match device with
  | none => some ""
  | some device => do
    let productData ← device.2.find "product_data"
    some (← productData.asNode.find "model_id").asString

/-- The part of `ParseLightInfo` that reads the node of the light alone. -/
def parseLightNode (n : JSONNode) : Option Light := do
  let metadata := (n.getAttributeValue "metadata").asNode
  let brightness ← match n.find "dimming" with
    | none => some 0
    | some dimming => do some ((← dimming.asNode.find "brightness").asFloat ε.atof)
  let on := (← (← n.find "on").asNode.find "on").asBool
  let (x, y) ← match (n.getAttributeValue "color").find "xy" with
    | none => some (0, 0)
    | some xy => do
      some ((← xy.asNode.find "x").asFloat ε.atof, (← xy.asNode.find "y").asFloat ε.atof)
  let id := (← n.find "id").asString
  let dynamics := n.getAttributeValue "dynamics"
  let dynamic := (dynamics.getAttributeValue "status_values").asArray.any
    fun status => status.asString = "dynamic_palette"
  let dynamicEnabled := match dynamics.find "status" with
    | none => false
    | some status => decide (status.asString ≠ "none")
  some { id, idV1 := getIdV1 n, name := metadata.deserializeString "name",
         archetype := metadata.deserializeString "archetype", brightness,
         color := Color.ofXY ε.pow x y brightness 100, on, dynamic, dynamicEnabled }

/-- `ParseLightInfo`: the rest comes from the device of the light and its Zigbee connectivity. -/
def parseLightInfo (c : Cache) (n : JSONNode) : Option Light := do
  let light ← parseLightNode ε n
  let model ← parseModelId ε c.allDeviceMap light.id
  let reachable ← getReachable ε c.allDeviceMap c.allZigbeeConnectivityMap light.id
  some { light with model, reachable }

/-- `GetLightNodeById` and `ParseLightInfo` of what it finds; the inner `none` is an unknown light. -/
def parseLightById (c : Cache) (id : String) : Option (Option Light) :=
  match c.allLightMap.lookup id with
  | none => some none
  | some n => (parseLightInfo ε c n).map some

/-- One entry of `service_locations`; the inner `none` is an unknown light. -/
def parseServiceLocation (c : Cache) (item : JSONNode) : Option (Option Light) := do
  let location := item.asNode
  let refId := (← (← location.find "service").asNode.find "rid").asString
  let lightId ← getLightIdFromEntertainmentId ε c.allDeviceMap refId
  match ← parseLightById ε c lightId with
  | none => some none
  | some light => do
    let position ← match location.find "positions", location.find "position" with
      | some positions, _ => positions.asArray.head?
      | none, some position => some position.asNode
      | none, none => some .null
    if position.isNull then some (some light)
    else do some (some { light with position := ← parsePosition ε position })

/-- `ParseLights`: the physical lights of the known service locations, in their order. -/
def parseLights (c : Cache) (n : JSONNode) : Option (Option (List Light)) :=
  match (n.getAttributeValue "locations").find "service_locations" with
  | none => some none
  | some locations => do
    let lights ← locations.asArray.mapM (parseServiceLocation ε c)
    some (some (lights.filterMap id))

/-- What `ParseLights` writes to the group when it returns `true`. -/
def setSummary (group : Group) (lights : List Light) : Group :=
  { group with
    brightnessState := averageBrightness lights / 100
    onState := lights.any fun light => light.reachable && light.on }

/-! ### Channels -/

/-- One member of a channel: the id of its light, if it has a reference and the light is known. -/
def parseMember (c : Cache) (item : JSONNode) : Option (Option String) :=
  let rid := (item.asNode.getAttributeValue "service").getAttributeValue "rid"
  if rid.isString then do
    let lightId ← getLightIdFromEntertainmentId ε c.allDeviceMap rid.asString
    some (if lightId = "" then none else some lightId)
  else some none

/-- One entry of `channels`: the light that stands for it and the lights that realise it; the inner
`none` is a channel without members, which is left out. -/
def parseChannel (c : Cache) (item : JSONNode) : Option (Option (Light × List String)) := do
  let channel := item.asNode
  let channelId := (← channel.find "channel_id").asInt ε.atof
  let position := (← channel.find "position").asNode
  match channel.find "members" with
  | none => some none
  | some members => do
    let position ← parsePosition ε position
    let lightIds ← members.asArray.mapM (parseMember ε c)
    some (some ({ id := toString channelId, position }, lightIds.filterMap id))

/-- `ParseChannels`: the channel lights, and the map that keeps the first entry of each id. -/
def parseChannels (c : Cache) (n : JSONNode) :
    Option (Option (List Light × GroupChannelToPhysicalLightMap)) :=
  match n.find "channels" with
  | none => some none
  | some channels => do
    let channels := (← channels.asArray.mapM (parseChannel ε c)).filterMap id
    some (some (channels.map Prod.fst,
      channels.foldl (fun m channel => m.insertNew channel.1.id channel.2) ∅))

/-! ### Entertainment configurations -/

/-- `ParseName`. -/
def parseName (n : JSONNode) (group : Group) : Bool × Group :=
  match n.find "metadata", n.find "name" with
  | some metadata, _ => (true, { group with name := metadata.deserializeString "name" })
  | none, some name => (true, { group with name := name.asString })
  | none, none => (false, group)

/-- `ParseClass`. -/
def parseClass (n : JSONNode) (group : Group) : Bool × Group :=
  match n.find "configuration_type" with
  | none => (false, group)
  | some classType => (true, { group with classType :=
      if classType.asString = "screen" then .screen
      else if classType.asString = "music" then .music
      else if classType.asString = "3dspace" then .threeDSpace
      else .other })

/-- Whether the bridge counts as busy: no session is left, and the selected group cannot be taken
over. -/
def isBusyNow (bridge : Bridge) : Bool :=
  let availableSessionCount := bridge.maxNoStreamingSessions - bridge.getCurrentNoStreamingSessions
  let selectedGroupCanBeOvertaken :=
    bridge.isValidGroupSelected && bridge.getGroup.any (·.active) && ε.useForcedActivation
  availableSessionCount ≤ 0 && !selectedGroupCanBeOvertaken

/-- The last part of `ParseStreamActive`: a streaming bridge keeps its flag. -/
def updateBusy (c : Cache) : Cache :=
  { c with bridge := { c.bridge with
      isBusy := if c.bridge.isStreaming ε.settings then c.bridge.isBusy
        else isBusyNow ε c.bridge } }

/-- `ParseStreamActive` up to the busy flag: what the event says about the stream of the group. -/
def parseStreamer (c : Cache) (n : JSONNode) (group : Group) : Option (Bool × Group × Cache) :=
  let group := match n.find "status" with
    | none => group
    | some status =>
      if status.asString = "active" then { group with active := true }
      else { group with active := false, owner := "", ownerName := "" }
  match n.find "active_streamer" with
  | none => some (n.isAttributeSet "status", group, c)
  | some streamer => do
    let owner := (← streamer.find "rid").asString
    let (ownerName, c) := getOwnerName c owner
    some (true, { group with owner, ownerName }, c)

/-- `ParseStreamActive`. The busy flag is decided with the group in its place on the bridge. -/
def parseStreamActive (c : Cache) (slot : Option String) (n : JSONNode) (group : Group) :
    Option (Bool × Group × Cache) := do
  let (parsed, group, c) ← parseStreamer c n group
  some (parsed, group, updateBusy ε (c.putGroup slot group))

/-- `ParseStreamProxy`. -/
def parseStreamProxy (c : Cache) (n : JSONNode) (group : Group) :
    Option (Bool × Group × Cache) := do
  match n.find "stream_proxy" with
  | none => some (false, group, c)
  | some streamProxy =>
  let proxyNode : GroupProxyNode :=
    { name := c.bridge.name, model := c.bridge.modelId, isReachable := true,
      mode := streamProxy.asNode.deserializeString "mode" }
  match streamProxy.asNode.find "node" with
  | none => some (false, group, c)
  | some node => do
  let proxyNode := { proxyNode with uri := node.asNode.deserializeString "rid" }
  let deviceId ← getDeviceIdFromServiceReferenceId ε c.allDeviceMap proxyNode.uri
  if deviceId = "" then some (false, group, c)
  else
    let device := (c.allDeviceMap.lookup deviceId).getD .empty
    match device.find "metadata", device.find "product_data" with
    | some metadata, some productData => do
      let zigbeeId ←
        getDeviceReferenceIdFromReferenceType c.allDeviceMap deviceId "zigbee_connectivity"
      let zigbee := (c.allZigbeeConnectivityMap.lookup zigbeeId).getD .empty
      let proxyNode := match zigbee.find "status" with
        | none => proxyNode
        | some status =>
          { proxyNode with
            name := metadata.deserializeString "name"
            model := productData.deserializeString "model_id"
            isReachable := decide (status.asString = "connected") }
      some (true, { group with proxyNode }, c.touchZigbeeConnectivity zigbeeId)
    | _, _ => some (true, { group with proxyNode }, c)

/-- `ParseEntertainmentConfig`: a new group, which is not on the bridge yet. -/
def parseEntertainmentConfig (c : Cache) (n : JSONNode) : Option (Group × Cache) := do
  let group : Group := { id := n.deserializeString "id" }
  let (_, group) := parseName n group
  let (_, group) := parseClass n group
  let (_, group, c) ← parseStreamActive ε c none n group
  let (_, group, c) ← parseStreamProxy ε c n group
  let physicalLights ← parseLights ε c n
  let channels ← parseChannels ε c n
  let group := match physicalLights with
    | none => group
    | some lights => setSummary group lights
  some ({ group with
    physicalLights := physicalLights.getD []
    lights := (channels.map Prod.fst).getD []
    channelToPhysicalLightsMap := (channels.map Prod.snd).getD ∅ }, c)

/-! ### Zones -/

/-- One entry of the children of a zone; the inner `none` is no light, or an unknown one. -/
def parseZoneLight (c : Cache) (item : JSONNode) : Option (Option Light) := do
  if (← item.asNode.find "rtype").equals "light" then
    parseLightById ε c (← item.asNode.find "rid").asString
  else some none

/-- `ParseZoneLights`. -/
def parseZoneLights (c : Cache) (n : JSONNode) : Option (Option (List Light)) :=
  let children :=
    if n.isAttributeSet "children" then n.getAttributeValue "children"
    else n.getAttributeValue "services"
  if children.isArray then do
    let lights ← children.asArray.mapM (parseZoneLight ε c)
    some (some (lights.filterMap id))
  else some none

/-! ### Scenes -/

/-- The colour an action gives a light. -/
def parseActionColor (action : JSONNode) (bri : ℚ) (color : Color) : Option Color :=
  match action.find "color", action.find "color_temperature" with
  | some node, _ =>
    match node.find "xy" with
    | none => some color
    | some xy => do
      let x := (← xy.find "x").asFloat ε.atof
      let y := (← xy.find "y").asFloat ε.atof
      some (Color.ofXY ε.pow x y bri 100)
  | none, some temperature => do
    some (Color.ofCT ε.pow ((← temperature.find "mirek").asInt ε.atof) bri 100)
  | none, none => some (Color.ofRGB 0 0 0)

/-- One entry of the actions of a scene; the inner `none` is one that is passed over. -/
def parseAction (c : Cache) (item : JSONNode) : Option (Option Light) := do
  let action ← item.asNode.find "action"
  let target ← item.asNode.find "target"
  let rid := target.getAttributeValue "rid"
  if (target.getAttributeValue "rtype").equals "light" && rid.isString then
    match ← parseLightById ε c rid.asString with
    | none => some none
    | some light => do
      let bri ← match action.find "dimming" with
        | none => some 0
        | some dimming => do some ((← dimming.find "brightness").asFloat ε.atof)
      let on ← match action.find "on" with
        | none => some false
        | some on => do some (← on.find "on").asBool
      let color ← parseActionColor ε action bri light.color
      some (some { light with color, brightness := bri, on })
  else some none

/-- Whether the palette of a scene makes it dynamic; `none` when it says nothing about that. -/
def parsePalette (n : JSONNode) : Option Bool :=
  let palette := n.getAttributeValue "palette"
  let parts := ["color", "color_temperature", "brightness"].filterMap palette.find
  if parts.isEmpty then none else some (parts.any fun part => !part.asArray.isEmpty)

/-- The last part of `ParseScene`: a new scene takes everything, one that exists only what the node
has. -/
def writeScene (scene : Option Scene) (id idv1 : String) (name : JSONNode) (imageId : String)
    (lights : List Light) (palette : Option Bool) : Bool × Option Scene :=
  match scene with
  | none => (true, some
      { id, tag := idv1, name := name.asString, image := imageId, lights,
        dynamic := palette.getD false })
  | some scene => (name.isString || imageId ≠ "" || lights ≠ [] || palette.isSome,
      some { scene with
        name := if name.isString then name.asString else scene.name
        image := if imageId ≠ "" then imageId else scene.image
        lights := if lights ≠ [] then lights else scene.lights
        dynamic := palette.getD scene.dynamic })

/-- `ParseScene`: whether something was updated, and the scene, a new one when none is given. -/
def parseScene (c : Cache) (n : JSONNode) (scene : Option Scene) : Option (Bool × Option Scene) :=
  let id := n.deserializeString "id"
  let idv1 := getIdV1 n
  let metadata := n.getAttributeValue "metadata"
  let name := metadata.getAttributeValue "name"
  let image := metadata.getAttributeValue "image"
  if id = "" || idv1 = "" then some (false, scene)
  else if scene.isNone && (!name.isString || !image.isNode) then some (false, scene)
  else do
    let imageRefId := image.getAttributeValue "rid"
    let imageId := if imageRefId.isString then imageRefId.asString else ""
    let actions := n.getAttributeValue "actions"
    let lights ← if actions.isArray then actions.asArray.mapM (parseAction ε c) else some []
    let lights := lights.filterMap fun light => light
    some (writeScene scene id idv1 name imageId lights (parsePalette n))

end HueStream.Retriever
