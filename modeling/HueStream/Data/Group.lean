import Mathlib.Algebra.Order.Field.Rat
import Mathlib.Data.List.AList
import Mathlib.Tactic

/-! # Lights, scenes, entertainment groups and zones

Components of colours and locations are exact rationals. The one function of the colour conversion that is not
exact, `std::pow(x, 1 / 2.4)`, is the parameter `pow` of `Color.ofXY`.

A group has two light lists: `lights`, its channels, and `physicalLights`, the lights that realise
them. `channelToPhysicalLightsMap` names for each channel the ids of its physical lights. -/

namespace HueStream.Data

/-! ### Colours, locations and lights -/

/-- A colour: the clamped components and the raw ones they were clamped from. -/
structure Color where
  red : ℚ := 0
  green : ℚ := 0
  blue : ℚ := 0
  alpha : ℚ := 0
  rawRed : ℚ := 0
  rawGreen : ℚ := 0
  rawBlue : ℚ := 0
deriving DecidableEq

namespace Color

/-- `Color(red, green, blue)`. -/
def ofRGB (red green blue : ℚ) : Color :=
  { red, green, blue, alpha := 1, rawRed := red, rawGreen := green, rawBlue := blue }

/-- `Color::Clamp(value)`. -/
def clamp (value : ℚ) : ℚ := if 1 < value then 1 else if value < 0 then 0 else value

/-- Gamma correction of one component. -/
def gamma (pow : ℚ → ℚ) (v : ℚ) : ℚ :=
  if 31308 / 10000000 < v then pow v * (1055 / 1000) - 55 / 1000 else v * (1292 / 100)

/-- `Color(xy, brightness, maxBrightness)`, that is `Color::SetXY` with `alpha` at one. -/
def ofXY (pow : ℚ → ℚ) (x y brightness maxBrightness : ℚ) : Color :=
  if brightness ≤ 0 ∨ y ≤ 0 then { alpha := 1 }
  else
    let z := 1 - x - y
    let Y := brightness / maxBrightness
    let X := Y / y * x
    let Z := Y / y * z
    let r := gamma pow (X * (32406 / 10000) + Y * (-15372 / 10000) + Z * (-4986 / 10000))
    let g := gamma pow (X * (-9689 / 10000) + Y * (18758 / 10000) + Z * (415 / 10000))
    let b := gamma pow (X * (557 / 10000) + Y * (-2040 / 10000) + Z * (10570 / 10000))
    let top := max (max r g) b
    let scale := fun v => if 1 < top then v / top else v
    { red := clamp (scale r), green := clamp (scale g), blue := clamp (scale b), alpha := clamp 1,
      rawRed := r, rawGreen := g, rawBlue := b }

/-- `Color(ct, brightness, maxBrightness)`: one of five points of the white curve. -/
def ofCT (pow : ℚ → ℚ) (ct : ℤ) (brightness maxBrightness : ℚ) : Color :=
  if ct ≤ 196 then
    ofXY pow (312987362 / 1000000000) (323103173 / 1000000000) brightness maxBrightness
  else if ct ≤ 279 then
    ofXY pow (372681144 / 1000000000) (371764524 / 1000000000) brightness maxBrightness
  else if ct ≤ 365 then
    ofXY pow (431628222 / 1000000000) (402182599 / 1000000000) brightness maxBrightness
  else if ct ≤ 454 then
    ofXY pow (483089605 / 1000000000) (414386536 / 1000000000) brightness maxBrightness
  else
    ofXY pow (526685851 / 1000000000) (413295716 / 1000000000) brightness maxBrightness

/-- `operator==`: the clamped components agree up to a hundredth. -/
def same (a b : Color) : Bool :=
  |a.red - b.red| ≤ 1 / 100 && |a.green - b.green| ≤ 1 / 100 && |a.blue - b.blue| ≤ 1 / 100 &&
    |a.alpha - b.alpha| ≤ 1 / 100

theorem same_self (a : Color) : a.same a = true := by
  norm_num [same]

end Color

/-- A location; `(0, 0)` is the centre. -/
structure Location where
  x : ℚ := 0
  y : ℚ := 0
  z : ℚ := 0
deriving DecidableEq

/-- A light, with the defaults of `Light()`. -/
structure Light where
  id : String := ""
  idV1 : String := ""
  name : String := ""
  model : String := ""
  archetype : String := ""
  color : Color := {}
  position : Location := {}
  reachable : Bool := true
  on : Bool := false
  dynamic : Bool := false
  dynamicEnabled : Bool := false
  brightness : ℚ := 0
deriving DecidableEq

/-! ### Scenes, groups and zones -/

/-- A scene, with the defaults of `Scene()`. -/
structure Scene where
  id : String := ""
  tag : String := ""
  name : String := ""
  appData : String := ""
  image : String := ""
  lights : List Light := []
  dynamic : Bool := false
deriving DecidableEq

/-- `GroupClass`. -/
inductive GroupClass
  | tv | free | screen | music | threeDSpace | other
deriving DecidableEq

/-- `GroupProxyNode`; a fresh group starts with a reachable empty one. -/
structure GroupProxyNode where
  uri : String := ""
  mode : String := ""
  name : String := ""
  model : String := ""
  isReachable : Bool := true
deriving DecidableEq

/-- `std::map<std::string, std::vector<std::string>>`. -/
abbrev GroupChannelToPhysicalLightMap := AList fun _ : String => List String

/-- `std::map::insert`: an entry that is there already stays. -/
def GroupChannelToPhysicalLightMap.insertNew (m : GroupChannelToPhysicalLightMap) (key : String)
    (value : List String) : GroupChannelToPhysicalLightMap :=
  if key ∈ m then m else m.insert key value

theorem GroupChannelToPhysicalLightMap.mem_insertNew {m : GroupChannelToPhysicalLightMap}
    {key a : String} {value : List String} : a ∈ m.insertNew key value ↔ a = key ∨ a ∈ m := by
  unfold insertNew
  split_ifs with h
  · exact ⟨Or.inr, by rintro (rfl | ha) <;> assumption⟩
  · exact AList.mem_insert m

/-- A group, with the defaults of `Group()`. -/
structure Group where
  id : String := ""
  groupedLightId : String := ""
  name : String := ""
  classType : GroupClass := .other
  lights : List Light := []
  physicalLights : List Light := []
  active : Bool := false
  owner : String := ""
  ownerName : String := ""
  proxyNode : GroupProxyNode := {}
  scenes : List Scene := []
  onState : Bool := true
  brightnessState : ℚ := 1
  channelToPhysicalLightsMap : GroupChannelToPhysicalLightMap := ∅

/-- `ZoneArchetype`. -/
inductive ZoneArchetype
  | computer | other
deriving DecidableEq

/-- A zone is a group with an archetype and its id of the first version of the interface. -/
structure Zone extends Group where
  archetype : ZoneArchetype := .other
  idV1 : String := ""

/-! ### Cloning

A copy of a light or of a group is equal to it. -/

/-- `Scene::Clone`, which does not copy `dynamic`. -/
def Scene.clone (s : Scene) : Scene := { s with dynamic := false }

/-- `Zone::Clone`. -/
def Zone.clone (z : Zone) : Zone := { z with scenes := z.scenes.map Scene.clone }

end HueStream.Data
