import HueStream.Data.HueStreamData
import HueStream.Storage.Serializable

/-! # The stored classes

`Serialize` and `Deserialize` of the classes that are stored, member by member as each lists them. The
first gives the members that are pushed, the second changes an object, which is a fresh one for the
elements of lists. -/

namespace HueStream.Data

open HueStream.Json HueStream.Storage

variable (atof : String → ℚ)

/-! ### Colours, locations and lights -/

namespace Color

def serialize (c : Color) : Members :=
  serializeType "huestream.Color" ++ serializeValue "R" c.red ++ serializeValue "G" c.green ++
    serializeValue "B" c.blue ++ serializeValue "Alpha" c.alpha

def deserialize (n : JSONNode) (c : Color) : Color :=
  { c with
    red := deserializeValue atof n "R" 0
    green := deserializeValue atof n "G" 0
    blue := deserializeValue atof n "B" 0
    alpha := deserializeValue atof n "Alpha" 0 }

end Color

namespace Location

def serialize (l : Location) : Members :=
  serializeType "huestream.Location" ++ serializeValue "X" l.x ++ serializeValue "Y" l.y ++
    serializeValue "Z" l.z

def deserialize (n : JSONNode) : Location where
  x := deserializeValue atof n "X" 0
  y := deserializeValue atof n "Y" 0
  z := deserializeValue atof n "Z" 0

/-- An element of a list of locations. -/
def build (n : JSONNode) : Option Location :=
  Storage.build "huestream.Location" (fun n => some (deserialize atof n)) n

end Location

namespace Light

def serialize (l : Light) : Members :=
  serializeType "huestream.Light" ++ serializeValue "Id" l.id ++ serializeValue "IdV1" l.idV1 ++
    serializeValue "Name" l.name ++ serializeValue "Model" l.model ++
    serializeValue "Archetype" l.archetype ++ serializeValue "Dynamic" l.dynamic ++
    serializeMember "Color" l.color.serialize ++ serializeMember "Position" l.position.serialize

def deserialize (n : JSONNode) (l : Light) : Light :=
  { l with
    id := deserializeValue atof n "Id" ""
    idV1 := deserializeValue atof n "IdV1" ""
    name := deserializeValue atof n "Name" ""
    model := deserializeValue atof n "Model" ""
    archetype := deserializeValue atof n "Archetype" ""
    dynamic := deserializeValue atof n "Dynamic" false
    color := setMemberIfAttributeExists n "Color" (Color.deserialize atof) l.color
    position := setMemberIfAttributeExists n "Position" (fun v _ => Location.deserialize atof v)
      l.position }

/-- An element of a list of lights. -/
def build (n : JSONNode) : Option Light :=
  Storage.build "huestream.Light" (fun n => some (deserialize atof n {})) n

end Light

/-! ### Scenes, groups and zones -/

namespace Scene

def serialize (s : Scene) : Members :=
  serializeType "huestream.Scene" ++ serializeValue "Id" s.id ++ serializeValue "Tag" s.tag ++
    serializeValue "Name" s.name ++ serializeValue "AppData" s.appData ++
    serializeValue "Image" s.image

def deserialize (n : JSONNode) (s : Scene) : Scene :=
  { s with
    id := deserializeValue atof n "Id" ""
    tag := deserializeValue atof n "Tag" ""
    name := deserializeValue atof n "Name" ""
    appData := deserializeValue atof n "AppData" ""
    image := deserializeValue atof n "Image" "" }

def build (n : JSONNode) : Option Scene :=
  Storage.build "huestream.Scene" (fun n => some (deserialize atof n {})) n

end Scene

/-- `_classSerializeMap`, in the order of its keys. -/
def GroupClass.serializeMap : List (GroupClass × String) :=
  [(.tv, "tv"), (.free, "free"), (.screen, "screen"), (.music, "music"), (.threeDSpace, "3dspace"),
    (.other, "other")]

/-- `_archetypeSerializeMap`. -/
def ZoneArchetype.serializeMap : List (ZoneArchetype × String) :=
  [(.computer, "computer"), (.other, "other")]

/-- `SerializeClass` and `SerializeArchetype`: a value that is not in the map is written as another. -/
@[simp] def serializeEnum {κ : Type} [DecidableEq κ] (map : List (κ × String)) (name : String) (key : κ) :
    Members :=
  serializeValue name (((map.find? (·.1 = key)).map Prod.snd).getD "other")

/-- `DeserializeClass` and `DeserializeArchetype`. -/
def deserializeEnum {κ : Type} (map : List (κ × String)) (n : JSONNode) (name : String) (other : κ) : κ :=
  ((map.find? (·.2 = deserializeValue atof n name "other")).map Prod.fst).getD other

namespace Group

/-- `Group::Serialize`; the name of the type is that of the class of the object. -/
def serializeAs (typeName : String) (g : Group) : Members :=
  serializeType typeName ++ serializeValue "Id" g.id ++
    serializeValue "GroupedLightId" g.groupedLightId ++ serializeValue "Name" g.name ++
    serializeEnum GroupClass.serializeMap "ClassType" g.classType ++
    serializeList "Lights" Light.serialize g.lights ++
    serializeList "PhysicalLights" Light.serialize g.physicalLights ++
    serializeList "Scenes" Scene.serialize g.scenes

def serialize (g : Group) : Members := g.serializeAs "huestream.Group"

def deserialize (n : JSONNode) (g : Group) : Option Group := do
  let lights ← deserializeList n "Lights" (Light.build atof)
  let physicalLights ← deserializeList n "PhysicalLights" (Light.build atof)
  let scenes ← deserializeList n "Scenes" (Scene.build atof)
  return { g with
    id := deserializeValue atof n "Id" ""
    groupedLightId := deserializeValue atof n "GroupedLightId" ""
    name := deserializeValue atof n "Name" ""
    classType := deserializeEnum atof GroupClass.serializeMap n "ClassType" .other
    lights, physicalLights, scenes }

def build (n : JSONNode) : Option Group :=
  Storage.build "huestream.Group" (fun n => deserialize atof n {}) n

end Group

namespace Zone

def serialize (z : Zone) : Members :=
  z.toGroup.serializeAs "huestream.Zone" ++
    serializeEnum ZoneArchetype.serializeMap "Archetype" z.archetype ++ serializeValue "IdV1" z.idV1

def deserialize (n : JSONNode) (z : Zone) : Option Zone := do
  let g ← Group.deserialize atof n z.toGroup
  return {
    toGroup := g
    archetype := deserializeEnum atof ZoneArchetype.serializeMap n "Archetype" .other
    idV1 := deserializeValue atof n "IdV1" "" }

def build (n : JSONNode) : Option Zone :=
  Storage.build "huestream.Zone" (fun n => deserialize atof n {}) n

end Zone

/-! ### Bridges -/

namespace Bridge

/-- `SerializeBase`. -/
def serializeBase (b : Bridge) : Members :=
  serializeType "huestream.Bridge" ++ serializeValue "Name" b.name ++
    serializeValue "ModelId" b.modelId ++ serializeValue "Apiversion" b.apiversion ++
    serializeValue "Swversion" b.swversion ++ serializeValue "Id" b.id ++
    serializeValue "IpAddress" b.ipAddress ++ serializeValue "SslPort" b.sslPort ++
    serializeValue "IsValidIp" b.isValidIp ++ serializeValue "IsAuthorized" b.isAuthorized ++
    serializeValue "ClientKey" b.clientKey ++ serializeValue "User" b.user ++
    serializeValue "SelectedGroup" b.selectedGroup ++
    serializeValue "MaxNoStreamingSessions" b.maxNoStreamingSessions ++
    serializeValue "Certificate" b.certificate

def serialize (b : Bridge) : Members :=
  b.serializeBase ++ serializeList "Groups" Group.serialize b.groups ++
    serializeList "Zones" Zone.serialize b.zones

/-- `DeserializeBase`; the app id becomes the user. -/
def deserializeBase (n : JSONNode) (b : Bridge) : Bridge :=
  { b with
    name := deserializeValue atof n "Name" ""
    modelId := deserializeValue atof n "ModelId" ""
    apiversion := deserializeValue atof n "Apiversion" ""
    swversion := deserializeValue atof n "Swversion" ""
    id := deserializeValue atof n "Id" ""
    ipAddress := deserializeValue atof n "IpAddress" ""
    sslPort := deserializeValue atof n "SslPort" ""
    isValidIp := deserializeValue atof n "IsValidIp" false
    isAuthorized := deserializeValue atof n "IsAuthorized" false
    clientKey := deserializeValue atof n "ClientKey" ""
    user := deserializeValue atof n "User" ""
    selectedGroup := deserializeValue atof n "SelectedGroup" ""
    maxNoStreamingSessions := deserializeValue atof n "MaxNoStreamingSessions" 0
    certificate := deserializeValue atof n "Certificate" ""
    appId := deserializeValue atof n "User" "" }

def deserialize (n : JSONNode) (b : Bridge) : Option Bridge := do
  let groups ← deserializeList n "Groups" (Group.build atof)
  let zones ← deserializeList n "Zones" (Zone.build atof)
  return { b.deserializeBase atof n with groups, zones }

def build (n : JSONNode) : Option Bridge :=
  Storage.build "huestream.Bridge" (fun n => deserialize atof n {}) n

end Bridge

/-! ### The stored data -/

/-- What `HueStreamData` stores: its version and the bridges its list points to. -/
structure StoredData where
  version : ℤ := 0
  bridges : List Bridge := []

namespace StoredData

/-- What is stored of a list of bridges in the heap. -/
def ofHeap (version : ℤ) (heap : Heap) (d : HueStreamData) : StoredData where
  version := version
  bridges := d.bridges.map heap

/-- `HueStreamData::Serialize`. -/
def serialize (d : StoredData) : Members :=
  serializeType "huestream.HueStreamData" ++ serializeValue "Version" d.version ++
    serializeList "Bridges" Bridge.serialize d.bridges

/-- `HueStreamData::Deserialize`. -/
def deserialize (n : JSONNode) : Option StoredData := do
  let bridges ← deserializeList n "Bridges" (Bridge.build atof)
  return { version := deserializeValue atof n "Version" 0, bridges }

/-- `GetActiveBridge`. -/
def getActiveBridge (d : StoredData) : Bridge := d.bridges.getLast?.getD {}

/-- `GetAllKnownBridges`, the last one first. -/
def getAllKnownBridges (σ : BridgeSettings) (d : StoredData) : List Bridge :=
  d.bridges.reverse.filter fun b => b.hasEverBeenAuthorizedForStreaming σ

/-- The active bridge of a list in the heap is the active one of what is stored of it. -/
theorem getActiveBridge_ofHeap (version : ℤ) (heap : Heap) (d : HueStreamData) :
    (ofHeap version heap d).getActiveBridge = heap d.active := by
  simp [getActiveBridge, ofHeap, HueStreamData.bridges]

theorem getAllKnownBridges_ofHeap (σ : BridgeSettings) (version : ℤ) (heap : Heap) (d : HueStreamData) :
    (ofHeap version heap d).getAllKnownBridges σ = (d.getAllKnownBridges σ heap).map heap := by
  unfold getAllKnownBridges ofHeap HueStreamData.getAllKnownBridges
  rw [← List.map_reverse, List.filter_map]
  rfl

end StoredData

end HueStream.Data
