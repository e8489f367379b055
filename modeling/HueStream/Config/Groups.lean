import HueStream.Config.Retriever
import HueStream.Data.Versions
import HueStream.Json.Node
import HueStream.Lib.FirstMatch

/-! # The groups of a full configuration

What `ConfigRetriever` makes of the groups, the lights, the scenes and the capabilities in an answer. `none` is
an exception, or a read of a child that is not there. -/

/-! ### The answer to a configuration request

The bridge or the network decides what is in the answer, so the texts that `ParseConfig` stores may be
any. It reads the version of the interface itself and throws when it does not fit; the other versions
are read whenever the status of the bridge is asked for. -/

namespace HueStream.Config

open HueStream.Data HueStream.Flow HueStream.Json HueStream.Lib

/-- The node `ParseConfig` reads; a full answer has it as a member. -/
def configNode (configType : ConfigType) (root : JSONNode) : Option JSONNode :=
  match configType with
  | .full => root.find "config"
  | .small => some root

/-- The model a bridge has when its answer names none: before version 1.8.0 it was always the same. -/
def modelOf (modelid : String) (thisVersion : Option (ℤ × ℤ × ℤ)) : String :=
  if modelid = "" && thisVersion.any (versionLt · (1, 8, 0)) then "BSB001" else modelid

/-- `ConfigRetriever::ParseConfig`; `none` is an exception. -/
def parseConfig (configType : ConfigType) (root : JSONNode) (b : Bridge) : Option (Bool × Bridge) :=
  match configNode configType root with
  | none => some (false, { b with isValidIp := false })
  | some config => do
    let apiversion := config.deserializeString "apiversion"
    let thisVersion ← apiVersion? apiversion
    let b := { b with
      name := config.deserializeString "name"
      modelId := modelOf (config.deserializeString "modelid") thisVersion
      apiversion
      swversion := config.deserializeString "swversion"
      id := config.deserializeString "bridgeid" }
    if configType = .full ∧ (¬ root.isAttributeSet "groups" ∨ ¬ root.isAttributeSet "lights") then
      return (false, { b with isValidIp := false })
    return (true, { b with isValidIp := true })

variable {configType : ConfigType} {root : JSONNode} {b : Bridge}

/-- `ParseConfig` returns when the version of the interface fits. -/
theorem isSome_parseConfig : (parseConfig configType root b).isSome = true ↔
    (configNode configType root).all
      (fun config => apiVersionFits (config.deserializeString "apiversion")) = true := by
  unfold parseConfig
  cases configNode configType root with
  | none => simp
  | some config =>
    simp only [Option.all_some]
    rw [apiVersion?_eq]
    by_cases hfits : apiVersionFits (config.deserializeString "apiversion") = true
    · rw [if_pos hfits]
      simp only [Option.bind_eq_bind, Option.bind_some, hfits, iff_true]
      split_ifs <;> rfl
    · rw [if_neg hfits]
      simpa using hfits

/-- **Nothing throws, and what does not fit is invalid, exactly when the numbers fit**: those of the
model and of the version of the interface of the bridge, and the version in the answer; and no software
version out of bounds is taken for a good one. -/
theorem versions_return_iff (σ : BridgeSettings) (configType : ConfigType) (root : JSONNode) (b : Bridge) :
    (b.VersionsSound σ ∧ (parseConfig configType root b).isSome = true) ↔
      (modelFits b.modelId = true ∧ apiVersionFits b.apiversion = true ∧ b.takesForClipV2 σ = false) ∧
        (configNode configType root).all
          (fun config => apiVersionFits (config.deserializeString "apiversion")) = true := by
  rw [Bridge.versionsSound_iff, isSome_parseConfig]

/-- A bridge whose model number has eleven digits. -/
def longModel : JSONNode :=
  .node [("modelid", .string "BSB99999999999"), ("apiversion", .string "1.24.0"), ("bridgeid", .string "b")]

/-- An answer that is stored makes the status of the bridge throw; another one makes the parsing
throw. -/
theorem exists_throwing_answer :
    (∃ b, parseConfig .small longModel { ipAddress := "i" } = some (true, b) ∧ b.getStatus? {} = none) ∧
    parseConfig .small (.node [("apiversion", .string "1.99999999999.0")]) { ipAddress := "i" } = none := by
  refine ⟨?_, by decide +kernel⟩
  have hsome : ((parseConfig .small longModel { ipAddress := "i" }).any fun r =>
      r.1 && (r.2.getStatus? {}).isNone) = true := by
    decide +kernel
  obtain ⟨⟨result, b⟩, hparse, hstatus⟩ := (Option.any_eq_true _ _).mp hsome
  rw [Bool.and_eq_true, Option.isNone_iff_eq_none] at hstatus
  obtain ⟨rfl, hnone⟩ : result = true ∧ b.getStatus? {} = none := hstatus
  exact ⟨b, hparse, hnone⟩

end HueStream.Config

namespace HueStream.Config

open HueStream.Data HueStream.Json HueStream.Lib

/-- `DeserializeValue` with its default. -/
def deserializeOr {α : Type} (n : JSONNode) (name : String) (read : JSONNode → α) (default : α) : α :=
  ((n.find name).map read).getD default

/-- `operator[](index)`. -/
def childAt (n : JSONNode) (index : ℕ) : Option JSONNode := (n.children[index]?).map Prod.snd

/-- `LightInfo`, whose brightness is not the one of the light. -/
structure LightInfo where
  light : Light
  brightness : ℚ

/-- `_r(\d+)_d` at the head of a text. -/
def groupMarkAt : List Char → Option (List Char)
  | '_' :: 'r' :: cs => do
    let (digits, rest) ← digitsMatch cs
    guard (['_', 'd'].isPrefixOf rest)
    return digits
  | _ => none

/-- `Scene::GetGroupId`: the last mark in the first line that has one. -/
def getGroupId (scene : Scene) : Option String :=
  let lines := scene.appData.toList.splitOnP fun c => c = '\n' || c = '\r'
  match lines.findSome? fun line => line.tails.reverse.findSome? groupMarkAt with
  | none => some ""
  | some digits => (stoi digits).map toString

/-- `/lights/(\d+)` at the head of a text. -/
def lightUriAt (s : List Char) : Option (List Char) :=
  if "/lights/".toList.isPrefixOf s then (digitsMatch (s.drop "/lights/".length)).map Prod.fst else none

/-- `Group::AddLight`. -/
def addLightTo (lights : List Light) (light : Light) : List Light :=
  if lights.any fun oldLight => oldLight.id = light.id then
    modifyFirst (fun oldLight => oldLight.id = light.id) (fun oldLight =>
      { oldLight with
        position := light.position, name := light.name, model := light.model,
        reachable := light.reachable, color := light.color }) lights
  else lights ++ [light]

/-- `ConfigRetriever::Clip`. -/
def clip (value : ℚ) : ℚ := if value < -1 then -1 else if 1 < value then 1 else value

/-- The fixed lights of a light of several pixels. -/
def pixels : List (String × Location) :=
  [("100", ⟨-4 / 10, 8 / 10, -4 / 10⟩), ("101", ⟨-4 / 10, 8 / 10, 0⟩), ("102", ⟨-4 / 10, 8 / 10, 4 / 10⟩),
    ("103", ⟨0, 8 / 10, 4 / 10⟩), ("104", ⟨4 / 10, 8 / 10, 4 / 10⟩), ("105", ⟨4 / 10, 8 / 10, 0⟩),
    ("106", ⟨4 / 10, 8 / 10, -4 / 10⟩)]

section Parsing

variable (atof : String → ℚ) (pow : ℚ → ℚ) (root : JSONNode)

def getLightInfo (id : String) : Option LightInfo := do
  let lights ← root.find "lights"
  match lights.find id with
  | none =>
    return { light := { id, color := Color.ofXY pow 0 0 0 254 }, brightness := 0 }
  | some light =>
    let info : Light := { id, name := light.deserializeString "name", model := light.deserializeString "modelid" }
    match light.find "state" with
    | none => return { light := { info with color := Color.ofXY pow 0 0 0 254 }, brightness := 0 }
    | some state =>
      let info := { info with reachable := deserializeOr state "reachable" JSONNode.asBool true }
      if deserializeOr state "on" JSONNode.asBool true then
        let bri := deserializeOr state "bri" (JSONNode.asFloat atof) 1
        match state.find "xy" with
        | none => return { light := { info with color := Color.ofXY pow 0 0 bri 254 }, brightness := bri }
        | some xy =>
          let x ← childAt xy 0
          let y ← childAt xy 1
          return {
            light := { info with color := Color.ofXY pow (x.asFloat atof) (y.asFloat atof) bri 254 }
            brightness := bri }
      else return { light := { info with color := Color.ofXY pow 0 0 0 254 }, brightness := 0 }

def getOwnerName (userName : String) : Option String := do
  let config ← root.find "config"
  return (((config.find "whitelist").bind fun whitelist => whitelist.find userName).map
    fun user => user.deserializeString "name").getD ""

def parseClass (node : JSONNode) (group : Group) : Group :=
  match node.find "class" with
  | none => group
  | some cls =>
    { group with classType :=
        if cls.asString = "TV" then .tv else if cls.asString = "Free" then .free else .other }

/-- The lights of a location. -/
def addLocation (info : LightInfo) (coordinates : JSONNode) (group : Group) : Option Group :=
  if info.light.model = "LCX001" ∨ info.light.model = "LCX002" ∨ info.light.model = "LCX003" then
    some { group with
      lights := pixels.foldl (fun lights pixel =>
        addLightTo lights { info.light with id := pixel.1, position := pixel.2 }) group.lights
      physicalLights := group.physicalLights ++ [info.light] }
  else do
    let x ← childAt coordinates 0
    let y ← childAt coordinates 1
    let z ← childAt coordinates 2
    let light := { info.light with
      position := ⟨clip (x.asFloat atof), clip (y.asFloat atof), clip (z.asFloat atof)⟩ }
    return { group with
      lights := addLightTo group.lights light, physicalLights := group.physicalLights ++ [light] }

/-- A location, with the sum of the brightness of the reachable lights so far and their number. -/
def parseLocation (location : String × JSONNode) (group : Group) (avgBri : ℚ) (numReachableLights : ℕ) :
    Option (Group × ℚ × ℕ) := do
  let info ← getLightInfo atof pow root location.1
  let group ← addLocation atof info location.2 group
  return if info.light.reachable then (group, avgBri + info.brightness, numReachableLights + 1)
    else (group, avgBri, numReachableLights)

def parseLightsAndLocations (node : JSONNode) (group : Group) : Option Group := do
  let locations := ((node.find "locations").map JSONNode.children).getD []
  let (group, avgBri, numReachableLights) ←
    locations.foldlM (fun state location => parseLocation atof pow root location state.1 state.2.1 state.2.2)
      ({ group with physicalLights := [] }, 0, 0)
  let avgBri := if 0 < numReachableLights then avgBri / numReachableLights else avgBri
  return { group with brightnessState := avgBri / 254 }

def parseStreamActive (node : JSONNode) (group : Group) : Option Group :=
  match node.find "active", node.find "owner" with
  | some active, some owner =>
    if active.asBool then do
      let ownerName ← getOwnerName root owner.asString
      return { group with active := true, owner := owner.asString, ownerName }
    else some { group with active := false }
  | _, _ => some group

def parseStreamProxy (b : Bridge) (node : JSONNode) (group : Group) : Option Group :=
  match node.find "proxymode", node.find "proxynode" with
  | some proxymode, some proxynode =>
    match searchLeftmost lightUriAt proxynode.asString.toList with
    | some digits => do
      let info ← getLightInfo atof pow root (String.ofList digits)
      return { group with proxyNode := {
        uri := proxynode.asString, mode := proxymode.asString
        name := info.light.name, model := info.light.model, isReachable := info.light.reachable } }
    | none => some { group with proxyNode := {
        uri := proxynode.asString, mode := proxymode.asString
        name := b.name, model := b.modelId, isReachable := true } }
  | _, _ => some group

def parseStream (b : Bridge) (node : JSONNode) (group : Group) : Option Group :=
  match node.find "stream" with
  | none => some group
  | some stream => do parseStreamProxy atof pow root b stream (← parseStreamActive root stream group)

def parseGroupState (node : JSONNode) (group : Group) : Group :=
  match (node.find "state").bind fun state => state.find "any_on" with
  | none => group
  | some anyOn => { group with onState := anyOn.asBool }

def parseScene (tag : String) (node : JSONNode) : Scene where
  tag := tag
  name := node.deserializeString "name"
  appData := ((node.find "appdata").map fun appdata => appdata.deserializeString "data").getD ""

def sceneIsNotRecyclable (node : JSONNode) : Bool := ((node.find "recycle").map fun r => !r.asBool).getD false

def parseScenes (group : Group) : Option Group :=
  match root.find "scenes" with
  | none => some group
  | some scenes => do
    let parsedScenes := (scenes.children.filter fun child => sceneIsNotRecyclable child.2).map
      fun child => parseScene child.1 child.2
    let ids ← parsedScenes.mapM getGroupId
    return { group with
      scenes := ((parsedScenes.zip ids).filter fun entry => entry.2 = group.id).map Prod.fst }

def parseEntertainmentGroup (b : Bridge) (id : String) (node : JSONNode) : Option Group := do
  let group := parseClass node { id, name := node.deserializeString "name" }
  let group ← parseLightsAndLocations atof pow root node group
  let group ← parseStream atof pow root b node group
  parseScenes root (parseGroupState node group)

def groupIsEntertainment (node : JSONNode) : Bool :=
  ((node.find "type").map fun type => decide (type.asString = "Entertainment")).getD false

def parseGroups (b : Bridge) : Option Bridge := do
  let jsonGroups ← root.find "groups"
  let groups ← (jsonGroups.children.filter fun child => groupIsEntertainment child.2).mapM
    fun child => parseEntertainmentGroup atof pow root b child.1 child.2
  return { b with groups }

def parseCapabilities (σ : BridgeSettings) (useForcedActivation : Bool) (b : Bridge) : Option Bridge :=
  match (root.find "capabilities").bind fun capabilities => capabilities.find "streaming" with
  | none => some b
  | some streaming => do
    let b := { b with maxNoStreamingSessions := deserializeOr streaming "total" (JSONNode.asInt atof) 0 }
    if (← b.getStatus? σ) = .streaming then return b
    let selectedGroupCanBeOvertaken := b.getGroup.any (·.active) && useForcedActivation
    let available := deserializeOr streaming "available" (JSONNode.asInt atof) (-1)
    return { b with isBusy := available = 0 && !selectedGroupCanBeOvertaken }

end Parsing

end HueStream.Config
