import HueStream.Storage.Serializable

/-! # Objects from JSON

Which object is made of a JSON node is decided by the type that is written in it: the object builder
constructs an object of that class, or a null pointer for a type that it does not know, and the object
reads its own members. The pointer is cast to the element type of the list or member without a check. A
list keeps whatever comes, a member keeps its default object instead of a null pointer.

An object is seen as its class and the pointers it holds; the values of its other members are read without
an error, whatever the JSON is. -/

namespace HueStream.Storage

open HueStream.Json

/-! ### Classes -/

/-- The classes of the objects that are stored or scripted. -/
inductive ObjectClass
  | hueStreamData | bridge | group | zone | light | scene | color | location | area | cuboidArea
  | lightScript | action | channel
  | constantAnimation | curveAnimation | randomAnimation | sequenceAnimation | tweenAnimation
  | framesAnimation
  | areaEffect | lightSourceEffect | sphereLightSourceEffect | lightIteratorEffect | multiChannelEffect
  | radialEffect | hitEffect | explosionEffect | sequenceEffect | manualEffect
  deriving DecidableEq

/-- The types to which pointers are cast. -/
inductive ElementType
  | bridge | group | zone | light | scene | location | iArea | action | channel | animation
  | animationEffect
  deriving DecidableEq

/-- The class is the type or is derived from it. -/
def ObjectClass.isA (c : ObjectClass) : ElementType → Bool
  | .bridge => c = .bridge
  | .group => c = .group || c = .zone
  | .zone => c = .zone
  | .light => c = .light
  | .scene => c = .scene
  | .location => c = .location
  | .iArea => c = .area || c = .cuboidArea
  | .action => c = .action
  | .channel => c = .channel
  | .animation => c ∈ [.constantAnimation, .curveAnimation, .randomAnimation, .sequenceAnimation,
      .tweenAnimation, .framesAnimation]
  | .animationEffect => c ∈ [.areaEffect, .lightSourceEffect, .sphereLightSourceEffect,
      .lightIteratorEffect, .multiChannelEffect, .radialEffect, .hitEffect, .explosionEffect]

namespace ObjectBuilder

/-- `ConstructInstanceOf`. -/
def constructInstanceOf (type : String) : Option ObjectClass :=
  if type = "huestream.LightScript" then some .lightScript
  else if type = "huestream.ConstantAnimation" then some .constantAnimation
  else if type = "huestream.CurveAnimation" then some .curveAnimation
  else if type = "huestream.Rand" then some .randomAnimation
  else if type = "huestream.SequenceAnimation" then some .sequenceAnimation
  else if type = "huestream.TweenAnimation" then some .tweenAnimation
  else if type = "huestream.FramesAnimation" then some .framesAnimation
  else if type = "huestream.Light" then some .light
  else if type = "huestream.Color" then some .color
  else if type = "huestream.Location" then some .location
  else if type = "huestream.Bridge" then some .bridge
  else if type = "huestream.Group" then some .group
  else if type = "huestream.Area" then some .area
  else if type = "huestream.CuboidArea" then some .cuboidArea
  else if type = "huestream.Channel" then some .channel
  else if type = "huestream.AreaEffect" then some .areaEffect
  else if type = "huestream.LightSourceEffect" then some .lightSourceEffect
  else if type = "huestream.SphereLightSourceEffect" then some .sphereLightSourceEffect
  else if type = "huestream.LightIteratorEffect" then some .lightIteratorEffect
  else if type = "huestream.MultiChannelEffect" then some .multiChannelEffect
  else if type = "huestream.Action" then some .action
  else if type = "huestream.Scene" then some .scene
  else if type = "huestream.Zone" then some .zone
  else none

/-- `Build`: the class of the object, `none` for a null pointer. -/
def build (n : JSONNode) : Option ObjectClass :=
  (n.find "type").bind fun type => constructInstanceOf type.asString

end ObjectBuilder

/-! ### Members -/

/-- The calls of a `Deserialize` that build objects. An attribute has the class of the object that is
there by default, if any. -/
inductive Member
  | list (name : String) (type : ElementType)
  | polymorphic (name : String) (type : ElementType) (default : Option ObjectClass)
  | layers

namespace ObjectClass

/-- `Group::Deserialize`, also of a zone. -/
def groupMembers : List Member :=
  [.list "Lights" .light, .list "PhysicalLights" .light, .list "Scenes" .scene]

/-- A member that is a constant animation by default. -/
def animation (name : String) : Member := .polymorphic name .animation (some .constantAnimation)

/-- `AnimationEffect::Deserialize`. -/
def animationEffectMembers : List Member := [animation "Speed"]

/-- `ColorAnimationEffect::Deserialize`. -/
def colorAnimationEffectMembers : List Member :=
  animationEffectMembers ++ [animation "R", animation "G", animation "B", animation "A",
    .polymorphic "I" .animation none]

/-- `LightSourceEffect::Deserialize`. -/
def lightSourceEffectMembers : List Member :=
  colorAnimationEffectMembers ++ [animation "X", animation "Y", animation "Radius"]

/-- The calls of `Deserialize` in their order. -/
def members : ObjectClass → List Member
  | hueStreamData => [.list "Bridges" .bridge]
  | bridge => [.list "Groups" .group, .list "Zones" .zone]
  | group => groupMembers
  | zone => groupMembers
  | area => [.polymorphic "TopLeft" .location (some location),
      .polymorphic "BottomRight" .location (some location)]
  | cuboidArea => [.polymorphic "TopFrontLeft" .location (some location),
      .polymorphic "BottomBackRight" .location (some location)]
  | lightScript => [.list "IdealSetup" .location, .layers]
  | action => [.polymorphic "Effect" .animationEffect none]
  | channel => [.polymorphic "Position" .location (some location), animation "R", animation "G",
      animation "B", animation "A"]
  | sequenceAnimation => [.list "Sequences" .animation]
  | areaEffect => colorAnimationEffectMembers ++ [.list "Areas" .iArea]
  | lightSourceEffect => lightSourceEffectMembers
  | sphereLightSourceEffect => colorAnimationEffectMembers ++
      [animation "X", animation "Y", animation "Z", animation "Radius"]
  | lightIteratorEffect => colorAnimationEffectMembers
  | multiChannelEffect => animationEffectMembers ++ [.list "Channels" .channel]
  | radialEffect => colorAnimationEffectMembers
  | hitEffect => colorAnimationEffectMembers
  | explosionEffect => lightSourceEffectMembers
  | light | scene | color | location | constantAnimation | curveAnimation | randomAnimation
  | tweenAnimation | framesAnimation | sequenceEffect | manualEffect => []

end ObjectClass

/-- A place for a pointer, with the node from which the object is read; only an attribute can be without
one. -/
structure Slot where
  type : ElementType
  node : Option JSONNode
  /-- What an attribute has without a built object; an element of a list is a null pointer then. -/
  default : Option (Option ObjectClass) := none

/-- The elements of a list. -/
def elements (type : ElementType) (list : Option JSONNode) : List Slot :=
  ((list.map JSONNode.asArray).getD []).map fun item => { type, node := some item }

/-- The places that are filled in one call. -/
def Member.slots (n : JSONNode) : Member → List Slot
  | .list name type => elements type (n.find name)
  | .polymorphic name type default => [{ type, node := n.find name, default := some default }]
  | .layers => (((n.find "layers").map JSONNode.asArray).getD []).flatMap fun layerNode =>
      elements .action (layerNode.find "timeline")

variable (atof : String → ℚ)

/-- The places that `Deserialize` fills; a script of a later version is not read. -/
def ObjectClass.slots (c : ObjectClass) (n : JSONNode) : List Slot :=
  if c = .lightScript ∧ 0 < deserializeValue atof n "VerionMajor" (0 : ℤ) then []
  else c.members.flatMap (Member.slots n)

/-! ### Objects -/

/-- An object with the pointers it holds, each with the type it was cast to; `none` is a null pointer. -/
inductive Obj
  | mk (cls : ObjectClass) (pointers : List (ElementType × Option Obj))

namespace Obj

def cls : Obj → ObjectClass
  | mk cls _ => cls

def pointers : Obj → List (ElementType × Option Obj)
  | mk _ pointers => pointers

end Obj

/-- The pointer in a place for which `built` was built; `none` where the place is left out. -/
def Slot.pointer (slot : Slot) (built : Option Obj) : Option (ElementType × Option Obj) :=
  match slot.default with
  | none => some (slot.type, built)
  | some default => (built.or (default.map fun c => .mk c [])).map fun o => (slot.type, some o)

/-! ### Parts of a node -/

theorem sizeOf_of_find {n c : JSONNode} {name : String} (h : n.find name = some c) :
    sizeOf c < sizeOf n := by
  obtain ⟨child, hchild, rfl⟩ := Option.map_eq_some_iff.mp h
  have hmem := List.mem_of_find?_eq_some hchild
  cases n with
  | node members =>
    have hlt : sizeOf child < sizeOf members := List.sizeOf_lt_of_mem hmem
    obtain ⟨childName, c⟩ := child
    simp at hlt ⊢
    omega
  | array items =>
    obtain ⟨item, hitem, rfl⟩ := List.mem_map.mp hmem
    have hlt : sizeOf item < sizeOf items := List.sizeOf_lt_of_mem hitem
    simp
    omega
  | null | string value | number value text | bool value => simp [JSONNode.children] at hmem

theorem sizeOf_of_mem_asArray {n c : JSONNode} (h : c ∈ n.asArray) : sizeOf c < sizeOf n := by
  cases n with
  | node members =>
    obtain ⟨⟨childName, c⟩, hmem, rfl⟩ := List.mem_map.mp h
    have hlt : sizeOf (childName, c) < sizeOf members := List.sizeOf_lt_of_mem hmem
    simp at hlt ⊢
    omega
  | array items =>
    have hlt : sizeOf c < sizeOf items := List.sizeOf_lt_of_mem h
    simp
    omega
  | null | string value | number value text | bool value => simp [JSONNode.asArray] at h

theorem mem_elements {type : ElementType} {list : Option JSONNode} {slot : Slot} :
    slot ∈ elements type list ↔
      ∃ n ∈ list, ∃ item ∈ n.asArray, slot = { type, node := some item } := by
  cases list with
  | none => simp [elements]
  | some n => simp [elements, eq_comm]

theorem Member.sizeOf_of_mem_slots {n c : JSONNode} {m : Member} {slot : Slot} (h : slot ∈ m.slots n)
    (hc : slot.node = some c) : sizeOf c < sizeOf n := by
  cases m with
  | list name type =>
    obtain ⟨list, hlist, item, hitem, rfl⟩ := mem_elements.mp h
    obtain rfl := Option.some.inj hc
    exact (sizeOf_of_mem_asArray hitem).trans (sizeOf_of_find hlist)
  | polymorphic name type default =>
    obtain rfl := List.mem_singleton.mp h
    exact sizeOf_of_find hc
  | layers =>
    obtain ⟨layerNode, hlayer, hslot⟩ := List.mem_flatMap.mp h
    obtain ⟨timeline, htimeline, item, hitem, rfl⟩ := mem_elements.mp hslot
    obtain rfl := Option.some.inj hc
    have hlayers : sizeOf layerNode < sizeOf n := by
      cases hfind : n.find "layers" with
      | none => simp [hfind] at hlayer
      | some layersNode =>
        rw [hfind] at hlayer
        exact (sizeOf_of_mem_asArray hlayer).trans (sizeOf_of_find hfind)
    exact ((sizeOf_of_mem_asArray hitem).trans (sizeOf_of_find htimeline)).trans hlayers

theorem ObjectClass.sizeOf_of_mem_slots {cls : ObjectClass} {n c : JSONNode} {slot : Slot}
    (h : slot ∈ cls.slots atof n) (hc : slot.node = some c) : sizeOf c < sizeOf n := by
  unfold slots at h
  by_cases hversion : cls = .lightScript ∧ 0 < deserializeValue atof n "VerionMajor" (0 : ℤ)
  · rw [if_pos hversion] at h
    cases h
  · rw [if_neg hversion] at h
    obtain ⟨m, -, hm⟩ := List.mem_flatMap.mp h
    exact m.sizeOf_of_mem_slots hm hc

/-! ### Reading -/

/-- `Deserialize` into a fresh object of the class; `DeserializeFromJson` builds the objects in its
places. -/
def deserialize (cls : ObjectClass) (n : JSONNode) : Obj :=
  .mk cls ((cls.slots atof n).attach.filterMap fun slot =>
    slot.1.pointer (slot.1.node.attach.bind fun c =>
      (ObjectBuilder.build c.1).map fun cls => deserialize cls c.1))
termination_by sizeOf n
decreasing_by exact ObjectClass.sizeOf_of_mem_slots atof slot.2 c.2

/-- `DeserializeFromJson`. -/
def deserializeFromJson (n : JSONNode) : Option Obj :=
  (ObjectBuilder.build n).map fun cls => deserialize atof cls n

theorem deserialize_eq (cls : ObjectClass) (n : JSONNode) :
    deserialize atof cls n = .mk cls ((cls.slots atof n).filterMap fun slot =>
      slot.pointer (slot.node.bind (deserializeFromJson atof))) := by
  have hbuild : ∀ slot : Slot, (slot.node.attach.bind fun c =>
      (ObjectBuilder.build c.1).map fun cls => deserialize atof cls c.1) =
      slot.node.bind (deserializeFromJson atof) := by
    intro slot
    cases slot.node with
    | none => rfl
    | some c => rfl
  rw [deserialize]
  simp only [hbuild]
  congr 1
  conv_rhs => rw [← List.attach_map_subtype_val (cls.slots atof n), List.filterMap_map]
  rfl

end HueStream.Storage
