import HueStream.Data.Group
import HueStream.Lib.Heap

/-! # Bridges as objects on the heap

A bridge is a tree of objects held together by shared pointers: the bridge points at the lists of its
groups and zones, these at the groups and zones, and those at the lists of their channels, physical lights
and scenes and at their channel map. A list holds pointers too. The records are written once, over what
stands for a pointer: `Pointer` for the objects on the heap (`Obj`), and what is found there for a reader of
the whole bridge (`bridgeAt`).

The four `Clone` functions allocate; following a null pointer is where they fail. `clone_list` fills its
new vector while it goes; here it is allocated when the copies are there, which only orders the ids. -/

namespace HueStream.Data.Objects

open HueStream.Lib HeapM

/-! ### The records -/

/-- `Scene`. -/
structure SceneOf (L : Type) where
  id : String := ""
  tag : String := ""
  name : String := ""
  appData : String := ""
  image : String := ""
  lights : L
  dynamic : Bool := false
deriving DecidableEq

/-- `Group`. -/
structure GroupOf (L S M : Type) where
  id : String := ""
  groupedLightId : String := ""
  name : String := ""
  classType : GroupClass := .other
  lights : L
  physicalLights : L
  active : Bool := false
  owner : String := ""
  ownerName : String := ""
  proxyNode : GroupProxyNode := {}
  scenes : S
  onState : Bool := true
  brightnessState : ℚ := 1
  channelToPhysicalLightsMap : M
deriving DecidableEq

/-- `Zone`. -/
structure ZoneOf (L S M : Type) extends GroupOf L S M where
  archetype : ZoneArchetype := .other
  idV1 : String := ""
deriving DecidableEq

/-- `Bridge`. The settings are the library's and no part of the bridge: `bridgeSettings` says which. -/
structure BridgeOf (G Z : Type) where
  bridgeSettings : Option ℕ := none
  name : String := ""
  modelId : String := ""
  apiversion : String := ""
  swversion : String := ""
  id : String := ""
  ipAddress : String := ""
  sslPort : String := ""
  isValidIp : Bool := false
  isAuthorized : Bool := false
  isBusy : Bool := false
  clientKey : String := ""
  user : String := ""
  groups : G
  selectedGroup : String := "___NO_SELECTED_GROUP___"
  maxNoStreamingSessions : ℤ := 0
  certificate : String := ""
  appId : String := ""
  lastHttpErrorCode : ℤ := 0
  lastHttpStatusCode : ℤ := 0
  zones : Z
deriving DecidableEq

section Map

variable {L S M L' S' M' G Z G' Z' : Type}

def SceneOf.map (f : L → L') (s : SceneOf L) : SceneOf L' := { s with lights := f s.lights }

def GroupOf.map (f : L → L') (k : S → S') (m : M → M') (g : GroupOf L S M) : GroupOf L' S' M' :=
  { g with
    lights := f g.lights, physicalLights := f g.physicalLights, scenes := k g.scenes,
    channelToPhysicalLightsMap := m g.channelToPhysicalLightsMap }

def ZoneOf.map (f : L → L') (k : S → S') (m : M → M') (z : ZoneOf L S M) : ZoneOf L' S' M' :=
  { z with toGroupOf := z.toGroupOf.map f k m }

def BridgeOf.map (f : G → G') (k : Z → Z') (b : BridgeOf G Z) : BridgeOf G' Z' :=
  { b with groups := f b.groups, zones := k b.zones }

end Map

/-! ### The objects -/

/-- What an id on the heap may stand for. A zone is a group: the list of groups may hold it. -/
inductive Obj
  | light (l : Light)
  | lights (ps : List Pointer)
  | scene (s : SceneOf Pointer)
  | scenes (ps : List Pointer)
  | channels (m : GroupChannelToPhysicalLightMap)
  | group (g : GroupOf Pointer Pointer Pointer)
  | zone (z : ZoneOf Pointer Pointer Pointer)
  | groups (ps : List Pointer)
  | zones (ps : List Pointer)
  | bridge (b : BridgeOf Pointer Pointer)
deriving DecidableEq

inductive ObjKind
  | light | lights | scene | scenes | channels | group | zone | groups | zones | bridge
deriving DecidableEq

namespace Obj

def kind : Obj → ObjKind
  | light _ => .light
  | lights _ => .lights
  | scene _ => .scene
  | scenes _ => .scenes
  | channels _ => .channels
  | group _ => .group
  | zone _ => .zone
  | groups _ => .groups
  | zones _ => .zones
  | bridge _ => .bridge

def groupSlots (g : GroupOf Pointer Pointer Pointer) : List (Pointer × List ObjKind) :=
  [(g.lights, [.lights]), (g.physicalLights, [.lights]), (g.scenes, [.scenes]),
    (g.channelToPhysicalLightsMap, [.channels])]

/-- The pointers of an object with their types. -/
def slots : Obj → List (Pointer × List ObjKind)
  | light _ => []
  | lights ps => ps.map (·, [.light])
  | scene s => [(s.lights, [.lights])]
  | scenes ps => ps.map (·, [.scene])
  | channels _ => []
  | group g => groupSlots g
  | zone z => groupSlots z.toGroupOf
  | groups ps => ps.map (·, [.group, .zone])
  | zones ps => ps.map (·, [.zone])
  | bridge b => [(b.groups, [.groups]), (b.zones, [.zones])]

instance : Layout Obj := ⟨ObjKind, kind, slots⟩

instance (h : Lib.Heap Obj) (o : Obj) : Decidable (h.Typed o) :=
  decidable_of_iff (∀ s ∈ slots o, ∀ a ∈ s.1, ((h.get a).any fun o' => kind o' ∈ s.2) = true) <| by
    simp only [Option.any_eq_true, decide_eq_true_eq]
    exact Iff.rfl

def asLight : Obj → Option Light
  | light l => some l
  | _ => none

def asLights : Obj → Option (List Pointer)
  | lights ps => some ps
  | _ => none

def asScene : Obj → Option (SceneOf Pointer)
  | scene s => some s
  | _ => none

def asScenes : Obj → Option (List Pointer)
  | scenes ps => some ps
  | _ => none

def asChannels : Obj → Option GroupChannelToPhysicalLightMap
  | channels m => some m
  | _ => none

/-- A group or a zone, as a virtual call sees it. -/
def asGroup : Obj → Option (GroupOf Pointer Pointer Pointer ⊕ ZoneOf Pointer Pointer Pointer)
  | group g => some (.inl g)
  | zone z => some (.inr z)
  | _ => none

def asGroups : Obj → Option (List Pointer)
  | groups ps => some ps
  | _ => none

def asZones : Obj → Option (List Pointer)
  | zones ps => some ps
  | _ => none

def asBridge : Obj → Option (BridgeOf Pointer Pointer)
  | bridge b => some b
  | _ => none

end Obj

open Obj

/-! ### Cloning -/

/-- `clone_list(input)`, where `items` and `wrap` are for the lists of this type. -/
def cloneList (items : Obj → Option (List Pointer)) (wrap : List Pointer → Obj)
    (clone : Pointer → HeapM Obj Pointer) (input : Pointer) : HeapM Obj Pointer := do
  let ps ← read items input
  let output ← ps.mapM clone
  new (wrap output)

/-- `Light::Clone`. -/
def lightClone (p : Pointer) : HeapM Obj Pointer := do
  let l ← read asLight p
  new (.light
    { id := l.id, idV1 := l.idV1, name := l.name, model := l.model, archetype := l.archetype,
      color := l.color, position := l.position, reachable := l.reachable, on := l.on,
      brightness := l.brightness, dynamic := l.dynamic, dynamicEnabled := l.dynamicEnabled })

/-- `Scene::Clone`. -/
def sceneClone (p : Pointer) : HeapM Obj Pointer := do
  let s ← read asScene p
  -- `_dynamic` keeps the `false` of the constructor
  new (.scene
    { id := s.id, tag := s.tag, name := s.name, appData := s.appData, image := s.image,
      lights := s.lights })

/-- `Group::Clone`, and `Zone::Clone` where the object is a zone. -/
def groupClone (p : Pointer) : HeapM Obj Pointer := do
  match ← read asGroup p with
  | .inl g =>
    let lights ← cloneList asLights .lights lightClone g.lights
    let physicalLights ← cloneList asLights .lights lightClone g.physicalLights
    new (.group { g with lights, physicalLights })
  | .inr z =>
    let lights ← cloneList asLights .lights lightClone z.lights
    let scenes ← cloneList asScenes .scenes sceneClone z.scenes
    new (.zone { z with lights, scenes })

/-- `Bridge::Clone`. -/
def bridgeClone (p : Pointer) : HeapM Obj Pointer := do
  let b ← read asBridge p
  let groups ← cloneList asGroups .groups groupClone b.groups
  let zones ← cloneList asZones .zones groupClone b.zones
  new (.bridge { b with groups, zones })

/-! ### Reading a whole bridge -/

/-- What a reader finds in a list: one entry for each position, `none` for a null pointer. -/
def listAt {β : Type} (items : Obj → Option (List Pointer)) (item : Lib.Heap Obj → Pointer → β) (h : Lib.Heap Obj)
    (p : Pointer) : Option (List β) :=
  (h.at? items p).map fun ps => ps.map (item h)

def lightAt (h : Lib.Heap Obj) (p : Pointer) : Option Light := h.at? asLight p

def lightsAt : Lib.Heap Obj → Pointer → Option (List (Option Light)) := listAt asLights lightAt

def channelsAt (h : Lib.Heap Obj) (p : Pointer) : Option GroupChannelToPhysicalLightMap :=
  h.at? asChannels p

/-- A scene with its lights. -/
abbrev SceneView := SceneOf (Option (List (Option Light)))

def sceneAt (h : Lib.Heap Obj) (p : Pointer) : Option SceneView := (h.at? asScene p).map (·.map (lightsAt h))

def scenesAt : Lib.Heap Obj → Pointer → Option (List (Option SceneView)) := listAt asScenes sceneAt

/-- A group or a zone with its lights, scenes and channel map. -/
abbrev GroupView :=
  GroupOf (Option (List (Option Light))) (Option (List (Option SceneView)))
      (Option GroupChannelToPhysicalLightMap) ⊕
    ZoneOf (Option (List (Option Light))) (Option (List (Option SceneView)))
      (Option GroupChannelToPhysicalLightMap)

def groupAt (h : Lib.Heap Obj) (p : Pointer) : Option GroupView :=
  (h.at? asGroup p).map
    (Sum.map (·.map (lightsAt h) (scenesAt h) (channelsAt h))
      (·.map (lightsAt h) (scenesAt h) (channelsAt h)))

def groupsAt : Lib.Heap Obj → Pointer → Option (List (Option GroupView)) := listAt asGroups groupAt

def zonesAt : Lib.Heap Obj → Pointer → Option (List (Option GroupView)) := listAt asZones groupAt

/-- A bridge with all its groups and zones. -/
abbrev BridgeView := BridgeOf (Option (List (Option GroupView))) (Option (List (Option GroupView)))

def bridgeAt (h : Lib.Heap Obj) (p : Pointer) : Option BridgeView :=
  (h.at? asBridge p).map (·.map (groupsAt h) (zonesAt h))

end HueStream.Data.Objects
