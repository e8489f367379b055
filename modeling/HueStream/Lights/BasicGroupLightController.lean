import HueStream.Data.Bridge
import HueStream.Lib.FirstMatch

/-! # Controlling the lights of the selected group

`BasicGroupLightController` changes the lights of the selected group. In the first version of the interface it
asks the bridge to change the group. In the second it changes the lights one by one, its own picture of them at
once, and then what other groups hold of the same lights. Each group has light objects of its own, which are
told apart by their ids. The members of the requests are kept, not their texts. -/

namespace HueStream.Lights

open HueStream.Data HueStream.Lib

/-- `LightPreset`. -/
inductive LightPreset
  | relax | read | concentrate | energize
deriving DecidableEq

/-- `_presetSettingsMap`: brightness, x and y. -/
def LightPreset.settings : LightPreset → ℚ × ℚ × ℚ
  | .relax => (567 / 1000, 5018 / 10000, 4152 / 10000)
  | .read => (1, 4450 / 10000, 4067 / 10000)
  | .concentrate => (1, 3690 / 10000, 3719 / 10000)
  | .energize => (1, 3143 / 10000, 3301 / 10000)

/-- A `PUT` request, with the members of its body. -/
structure Put where
  url : String := ""
  on : Option Bool := none
  bri : Option ℤ := none
  /-- `dimming.brightness`. -/
  brightness : Option ℚ := none
  /-- `color.xy`, or `xy`. -/
  xy : Option (ℚ × ℚ) := none
deriving DecidableEq

/-- `round`: halves go away from zero. -/
def round (value : ℚ) : ℤ := if 0 ≤ value then ⌊value + 1 / 2⌋ else ⌈value - 1 / 2⌉

/-- The controller, with the requests it has made. -/
structure BasicGroupLightController where
  bridge : Option Bridge := none
  requests : List Put := []

/-! ### Groups -/

/-- `UpdateGroupOn`. -/
def updateGroupOn (on : Bool) (group : Group) : Group :=
  { group with onState := on, physicalLights := group.physicalLights.map fun light => { light with on } }

/-- `UpdateGroupBrightness`. -/
def updateGroupBrightness (brightness : ℚ) (group : Group) : Group :=
  { group with
    brightnessState := brightness
    physicalLights := group.physicalLights.map fun light => { light with brightness := brightness * 100 } }

/-- `UpdateGroupColor`, where the brightness of the lights is updated too. -/
def updateGroupColor (pow : ℚ → ℚ) (x y brightness : ℚ) (group : Group) : Group :=
  { group with
    brightnessState := brightness
    physicalLights := group.physicalLights.map fun light =>
      { light with color := .ofXY pow x y brightness 1, brightness := brightness * 100 } }

/-- The variables of the loop in `UpdateGroupLights`. -/
structure Aggregate where
  lightsList : List Light
  brightness : ℚ := 0
  isOn : Bool := false
  numReachableLights : ℕ := 0

/-- The first light of the list with the id of the given one takes over its brightness and on state. -/
def takeOver (fromLight : Light) : List Light → List Light :=
  modifyFirst (fun groupLight => groupLight.id = fromLight.id) fun groupLight =>
    { groupLight with brightness := fromLight.brightness, on := fromLight.on }

/-- One turn of the loop. -/
def updateGroupLight (acc : Aggregate) (fromLight : Light) : Aggregate :=
  match acc.lightsList.find? fun groupLight => groupLight.id = fromLight.id with
  | none => acc
  | some groupLight =>
    let lightsList := takeOver fromLight acc.lightsList
    if groupLight.reachable then
      { lightsList
        brightness := acc.brightness + fromLight.brightness / 100
        isOn := acc.isOn || fromLight.on
        numReachableLights := acc.numReachableLights + 1 }
    else { acc with lightsList }

/-- `UpdateGroupLights`, without the update of colours, which no call asks for. -/
def updateGroupLights (fromLightList : List Light) (group : Group) : Group :=
  let acc := fromLightList.foldl updateGroupLight { lightsList := group.physicalLights }
  if 0 < acc.numReachableLights then
    { group with
      physicalLights := acc.lightsList
      onState := acc.isOn
      brightnessState := acc.brightness / acc.numReachableLights }
  else { group with physicalLights := acc.lightsList }

/-! ### The calls -/

/-- What the calls do differently: to the selected group, to each of its lights when its request is made, and
the bodies of the requests, to a light and to the group. -/
structure Operation where
  updateGroup : Group → Group
  setLight : Light → Light := id
  body : Put
  action : Put

/-- `GetGroupById` of the selected group, as a position in the list. -/
def selectedIndex (b : Bridge) : ℕ := b.groups.findIdx fun g => g.id = b.selectedGroup

namespace BasicGroupLightController

variable (σ : BridgeSettings) (pow : ℚ → ℚ)

/-- The loop over the lights: the lights, the requests, and whether it has come to its end. -/
def putLights (b : Bridge) (op : Operation) : List Light → List Light × List Put × Bool
  | [] => ([], [], true)
  | light :: lightList =>
    let url := b.getBaseUrl σ true false
    if url = "" then (light :: lightList, [], false)
    else
      let (lights, puts, done) := putLights b op lightList
      (op.setLight light :: lights, { op.body with url := url ++ "/light/" ++ light.id } :: puts, done)

/-- The calls in the second version. Groups are compared by their pointers. -/
def setLights (b : Bridge) (op : Operation) : Bridge × List Put :=
  match b.groups[selectedIndex b]? with
  | none => (b, [])
  | some group =>
    let group := op.updateGroup group
    let (lightList, puts, done) := putLights σ b op group.physicalLights
    let group := { group with physicalLights := lightList }
    let groups := b.groups.mapIdx fun i g =>
      if i = selectedIndex b then group else if done then updateGroupLights lightList g else g
    ({ b with groups }, puts)

/-- `getBridgeUrl`, in the first version. -/
def getBridgeUrl (b : Bridge) : String :=
  b.getApiRootUrl σ false false ++ b.user ++ "/" ++ "groups/" ++ b.selectedGroup ++ "/" ++ "action"

/-- What the calls have in common. -/
def execute (c : BasicGroupLightController) (op : Operation) : BasicGroupLightController :=
  match c.bridge with
  | none => c
  | some b =>
    if !b.isConnectable σ || !b.isValidGroupSelected then c
    else if b.isSupportingClipV2 σ then
      let (b, puts) := setLights σ b op
      { bridge := some b, requests := c.requests ++ puts }
    else if getBridgeUrl σ b = "" then c
    else { c with requests := c.requests ++ [{ op.action with url := getBridgeUrl σ b }] }

end BasicGroupLightController

namespace Operation

variable (pow : ℚ → ℚ)

/-- `SetOn`. -/
def setOn (on : Bool) : Operation where
  updateGroup := updateGroupOn on
  setLight light := { light with on }
  body := { on := some on }
  action := { on := some on }

/-- `SetBrightness`. -/
def setBrightness (brightness : ℚ) : Operation where
  updateGroup := updateGroupBrightness brightness
  setLight light := { light with brightness := brightness * 100 }
  body := { brightness := some (brightness * 100) }
  action := { bri := some (round (brightness * 254)) }

/-- `SetColor`: the brightness is that of the group. -/
def setColor (x y : ℚ) : Operation where
  updateGroup group := updateGroupColor pow x y group.brightnessState group
  body := { xy := some (x, y) }
  action := { xy := some (x, y) }

/-- `SetPreset` with its values. The lights are asked to be on, but not set so. -/
def setPresetValues (brightness x y : ℚ) (excludeLightsWhichAreOff : Bool) : Operation :=
  let on := if excludeLightsWhichAreOff then none else some true
  { updateGroup := updateGroupColor pow x y brightness
    body := { on, xy := some (x, y), brightness := some (brightness * 100) }
    action := { on, bri := some (round (brightness * 254)), xy := some (x, y) } }

/-- `SetPreset`. -/
def setPreset (preset : LightPreset) (excludeLightsWhichAreOff : Bool) : Operation :=
  let (brightness, x, y) := preset.settings
  setPresetValues pow brightness x y excludeLightsWhichAreOff

end Operation

/-- The calls. -/
inductive LightCall
  | setOn (on : Bool)
  | setBrightness (brightness : ℚ)
  | setColor (x y : ℚ)
  | setPreset (preset : LightPreset) (excludeLightsWhichAreOff : Bool)
  | setPresetValues (brightness x y : ℚ) (excludeLightsWhichAreOff : Bool)

/-- What a call does. -/
def LightCall.operation (pow : ℚ → ℚ) : LightCall → Operation
  | .setOn on => .setOn on
  | .setBrightness brightness => .setBrightness brightness
  | .setColor x y => .setColor pow x y
  | .setPreset preset exclude => .setPreset pow preset exclude
  | .setPresetValues brightness x y exclude => .setPresetValues pow brightness x y exclude

end HueStream.Lights
