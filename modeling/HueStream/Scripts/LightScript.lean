import HueStream.Storage.Classes

/-! # Light scripts

A light script holds its actions in the order of their layers and, within a layer, of their start
positions. In the JSON the actions of a layer stand together, under the number of the layer; reading adds
them one by one. The effect of an action is an interface: `AnimationEffect` has what an effect writes and
what the object builder makes of a node. -/

namespace HueStream.Scripts

open HueStream.Json HueStream.Data HueStream.Storage

/-- What an `AnimationEffect` writes, and the effect the object builder makes of a node, if any. -/
class AnimationEffect (E : Type) where
  serialize : E → Members
  deserializeFromJson : JSONNode → Option E

variable {E : Type} [AnimationEffect E] (atof : String → ℚ)

/-! ### Actions -/

/-- `Action`; the positions are of type `int64_t`. -/
structure Action (E : Type) where
  name : String := ""
  layer : UInt32 := 0
  startPosition : ℤ := 0
  endPosition : ℤ := -1
  effect : Option E := none

namespace Action

def serialize (a : Action E) : Members :=
  serializeType "huestream.Action" ++ serializeValue "Name" a.name ++
    serializeInt64 "StartPosition" a.startPosition ++
    (if 0 ≤ a.endPosition then serializeInt64 "EndPosition" a.endPosition else []) ++
    serializeAttribute "Effect" AnimationEffect.serialize a.effect

def deserialize (n : JSONNode) (a : Action E) : Action E :=
  { a with
    name := deserializeValue atof n "Name" ""
    startPosition := deserializeValue atof n "StartPosition" (0 : ℤ)
    endPosition := deserializeValue atof n "EndPosition" (-1 : ℤ)
    effect := deserializeAttribute n "Effect" AnimationEffect.deserializeFromJson a.effect }

/-- An element of a timeline. -/
def build (n : JSONNode) : Option (Action E) :=
  Storage.build "huestream.Action" (fun n => some (deserialize atof n {})) n

end Action

/-! ### The script -/

/-- `LightScript`; the length is of type `int64_t`. -/
structure LightScript (E : Type) where
  name : String := ""
  idealSetup : List Location := []
  length : ℤ := 0
  actions : List (Action E) := []

namespace LightScript

/-- `FindActionIndex`. -/
def findActionIndex (s : LightScript E) (newEffect : Action E) : ℕ :=
  s.actions.findIdx fun action =>
    newEffect.layer < action.layer ||
      (newEffect.startPosition < action.startPosition && newEffect.layer == action.layer)

/-- `AddAction`. -/
def addAction (s : LightScript E) (newAction : Action E) : LightScript E :=
  { s with actions := s.actions.insertIdx (s.findActionIndex newAction) newAction }

/-- A script of which actions were added one by one. -/
def composed (name : String) (length : ℤ) (idealSetup : List Location) (actions : List (Action E)) :
    LightScript E :=
  actions.foldl addAction { name, length, idealSetup }

/-! ### Writing -/

/-- An element of `layers`. -/
def layerNode (layer : UInt32) (actionList : List (Action E)) : JSONNode :=
  .node (serializeValue "layer" (layer.toNat : ℤ) ++ serializeList "timeline" Action.serialize actionList)

/-- The variables of `SerializeLayers`. -/
structure Writer (E : Type) where
  layersNode : List JSONNode := []
  currentLayerId : UInt32 := 0
  actionList : List (Action E) := []

/-- The layers with the one that is being written. -/
def Writer.flushed (w : Writer E) : List JSONNode :=
  if w.actionList.isEmpty then w.layersNode
  else w.layersNode ++ [layerNode w.currentLayerId w.actionList]

/-- A turn of the loop of `SerializeLayers`. -/
def Writer.write (w : Writer E) (action : Action E) : Writer E :=
  if action.layer ≠ w.currentLayerId then
    { layersNode := w.flushed, currentLayerId := action.layer, actionList := [action] }
  else { w with actionList := w.actionList ++ [action] }

def serializeLayers (actions : List (Action E)) : List JSONNode :=
  (actions.foldl Writer.write {}).flushed

def serialize (s : LightScript E) : Members :=
  serializeType "huestream.LightScript" ++ serializeValue "VerionMajor" (0 : ℤ) ++
    serializeValue "VersionMinor" (0 : ℤ) ++ serializeValue "Name" s.name ++
    (if s.idealSetup.isEmpty then [] else serializeList "IdealSetup" Location.serialize s.idealSetup) ++
    serializeInt64 "Length" s.length ++ [("layers", .array (serializeLayers s.actions))]

/-! ### Reading -/

/-- A turn of the inner loop of `DeserializeLayers`: `none` when the action is a null pointer or of another
class. -/
def deserializeAction (currentLayer : ℤ) (s : LightScript E) (actionNode : JSONNode) :
    Option (LightScript E) :=
  (Action.build atof actionNode).map fun action =>
    s.addAction { action with layer := UInt32.ofInt currentLayer }

/-- A turn of the outer loop of `DeserializeLayers`; a layer without a number has that of the one
before it. -/
def deserializeLayer (p : ℤ × LightScript E) (layerNode : JSONNode) : Option (ℤ × LightScript E) := do
  let currentLayer := deserializeValue atof layerNode "layer" p.1
  match layerNode.find "timeline" with
  | some timeline =>
    return (currentLayer, ← timeline.asArray.foldlM (deserializeAction atof currentLayer) p.2)
  | none => return (currentLayer, p.2)

def deserializeLayers (n : JSONNode) (s : LightScript E) : Option (LightScript E) :=
  match n.find "layers" with
  | some layersNode => (layersNode.asArray.foldlM (deserializeLayer atof) (0, s)).map Prod.snd
  | none => some s

/-- A script of a later version is left as it is. -/
def deserialize (n : JSONNode) (s : LightScript E) : Option (LightScript E) :=
  if 0 < deserializeValue atof n "VerionMajor" (0 : ℤ) then some s
  else do
    let idealSetup ← deserializeList n "IdealSetup" (Location.build atof)
    deserializeLayers atof n { s with
      name := deserializeValue atof n "Name" ""
      length := deserializeValue atof n "Length" (0 : ℤ)
      idealSetup }

end LightScript

end HueStream.Scripts
