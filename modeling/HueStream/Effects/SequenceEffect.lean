import HueStream.Data.Group
import Mathlib.Data.List.DropRight

/-! # Areas after each other

A `SequenceEffect` shows its colors in the areas of its mode, one area after the other. The areas without lights are left
out, for the lights that the group has when they are looked up.

* `Op.Right`: what is asked of the calls. -/

namespace HueStream.Data

/-- `ApplyBrightness`. -/
def Color.applyBrightness (color : Color) (value : ℚ) : Color :=
  let value := Color.clamp value
  let currentBri := max (max color.red color.green) color.blue
  if currentBri ≤ 0 then color
  else { color with
    red := color.red / currentBri * value
    green := color.green / currentBri * value
    blue := color.blue / currentBri * value }

end HueStream.Data

namespace HueStream.Effects

open HueStream.Data

/-! ### Areas -/

structure Area where
  topLeft : Location := {}
  bottomRight : Location := {}
  inverted : Bool := false
  name : String := ""
deriving DecidableEq

namespace Area

def isInArea (area : Area) (location : Location) : Bool :=
  let inArea := decide (area.topLeft.x ≤ location.x ∧ location.x ≤ area.bottomRight.x ∧
    location.y ≤ area.topLeft.y ∧ area.bottomRight.y ≤ location.y)
  if area.inverted then !inArea else inArea

/-- `Area(topLeftX, topLeftY, bottomRightX, bottomRightY, name)`. -/
def ofCorners (topLeftX topLeftY bottomRightX bottomRightY : ℚ) (name : String) : Area :=
  { topLeft := { x := topLeftX, y := topLeftY }, bottomRight := { x := bottomRightX, y := bottomRightY }, name }

/-- `1.0/3.0`, as a `double`. -/
def F1_3 : ℚ := 6004799503160661 / 2 ^ 54

def FrontLeft : Area := ofCorners (-1) 1 (-F1_3) F1_3 "FrontLeft"
def FrontCenter : Area := ofCorners (-F1_3) 1 F1_3 F1_3 "FrontCenter"
def FrontRight : Area := ofCorners F1_3 1 1 F1_3 "FrontRight"
def CenterLeft : Area := ofCorners (-1) F1_3 (-F1_3) (-F1_3) "CenterLeft"
def Center : Area := ofCorners (-F1_3) F1_3 F1_3 (-F1_3) "Center"
def CenterRight : Area := ofCorners F1_3 F1_3 1 (-F1_3) "CenterRight"
def BackLeft : Area := ofCorners (-1) (-F1_3) (-F1_3) (-1) "BackLeft"
def BackCenter : Area := ofCorners (-F1_3) (-F1_3) F1_3 (-1) "BackCenter"
def BackRight : Area := ofCorners F1_3 (-F1_3) 1 (-1) "BackRight"
def All : Area := ofCorners (-1) 1 1 (-1) "All"
def FrontHalf : Area := ofCorners (-1) 1 1 0 "FrontHalf"
def BackHalf : Area := ofCorners (-1) 0 1 (-1) "BackHalf"
def Left : Area := ofCorners (-1) 1 (-F1_3) (-1) "Left"
def CenterLR : Area := ofCorners (-F1_3) 1 F1_3 (-1) "CenterLR"
def Right : Area := ofCorners F1_3 1 1 (-1) "Right"

end Area

/-! ### The effect -/

inductive SequenceMode
  | all | round | frontBack | leftRight | last
deriving DecidableEq

/-- A `SequenceEffect`, as its constructor makes it; the group is an object that others may change. -/
structure SequenceEffect where
  sequenceList : List Area := [.All]
  bri : ℚ := 1 / 2
  colors : List Color := []
  stepCount : ℕ := 0
  mode : SequenceMode := .all
  group : Option (List Light) := none

namespace SequenceEffect

/-- `AddArea`. -/
def addArea (area : Area) : StateM SequenceEffect Bool := do
  match (← get).group with
  | none => return false
  | some lights =>
    let found := lights.any fun light => area.isInArea light.position
    if found then
      modify fun e => { e with sequenceList := e.sequenceList ++ [area] }
    return found

/-- `SetMode`. -/
def setMode (mode : SequenceMode) : StateM SequenceEffect Unit := do
  modify fun e => { e with mode, sequenceList := [] }
  match mode with
  | .all => modify fun e => { e with sequenceList := e.sequenceList ++ [.All] }
  | .round =>
    discard <| addArea .FrontLeft
    unless ← addArea .FrontCenter do
      discard <| addArea .Center
    discard <| addArea .FrontRight
    discard <| addArea .CenterRight
    discard <| addArea .BackRight
    discard <| addArea .BackCenter
    discard <| addArea .BackLeft
    discard <| addArea .CenterLeft
  | .frontBack =>
    discard <| addArea .FrontHalf
    discard <| addArea .BackHalf
  | .leftRight =>
    discard <| addArea .Left
    discard <| addArea .CenterLR
    discard <| addArea .Right
  | .last => pure ()

/-- `UpdateGroup`. -/
def updateGroup (group : Option (List Light)) : StateM SequenceEffect Unit := do
  modify fun e => { e with group }
  setMode (← get).mode

variable (e : SequenceEffect)

/-- `%`, which is undefined for a divisor of 0. -/
def remainder (a b : ℕ) : Option ℕ := if b = 0 then none else some (a % b)

def getCurrentStepColor : Option Color :=
  if e.colors.length = 0 then some {}
  else do
    let colorIndex ← remainder e.stepCount e.colors.length
    let color ← e.colors[colorIndex]?
    some (color.applyBrightness e.bri)

/-- The area that `GetColor` looks at. -/
def activeArea : Option Area := do
  let activeArea ← remainder e.stepCount e.sequenceList.length
  e.sequenceList[activeArea]?

def getColor (light : Light) : Option Color :=
  if e.colors.length = 0 then some {}
  else do
    let area ← e.activeArea
    if area.isInArea light.position then e.getCurrentStepColor else some {}

/-- `Step`. -/
def step : SequenceEffect := { e with stepCount := (e.stepCount + 1) % 2 ^ 64 }

/-- A call on the effect, or a light that is added to the object of its group. -/
inductive Op
  | setMode (mode : SequenceMode)
  | updateGroup (group : Option (List Light))
  | addColor (color : Color)
  | step
  | getColor (light : Light)
  | addLight (light : Light)

def Op.run : Op → SequenceEffect
  | .setMode mode => ((SequenceEffect.setMode mode).run e).2
  | .updateGroup group => ((SequenceEffect.updateGroup group).run e).2
  | .addColor color => { e with colors := e.colors ++ [color] }
  | .step => e.step
  | .getColor _ => e
  | .addLight light => { e with group := e.group.map fun lights => lights ++ [light] }

/-- A new effect after calls. -/
def after (ops : List Op) : SequenceEffect := ops.foldl Op.run {}

/-! ### What is asked of the calls -/

/-- There is a light in the area. -/
def occupied (group : Option (List Light)) (area : Area) : Bool :=
  group.any fun lights => lights.any fun light => area.isInArea light.position

/-- The areas of a mode. In the round, the center stands in for the one in front of it. -/
def candidates (group : Option (List Light)) : SequenceMode → List Area
  | .all => [.All]
  | .round => [.FrontLeft, if occupied group .FrontCenter then .FrontCenter else .Center, .FrontRight, .CenterRight,
      .BackRight, .BackCenter, .BackLeft, .CenterLeft]
  | .frontBack => [.FrontHalf, .BackHalf]
  | .leftRight => [.Left, .CenterLR, .Right]
  | .last => []

/-- The areas of a mode with lights. -/
def nonEmpty (group : Option (List Light)) (mode : SequenceMode) : List Area :=
  (candidates group mode).filter (occupied group)

/-- From one state to the other the effect goes to the next area with lights, if there are any, and to the next color. -/
structure Advances (e e' : SequenceEffect) : Prop where
  area : nonEmpty e.group e.mode ≠ [] → ∃ i < (nonEmpty e.group e.mode).length,
    e.activeArea = (nonEmpty e.group e.mode)[i]? ∧
      e'.activeArea = (nonEmpty e.group e.mode)[(i + 1) % (nonEmpty e.group e.mode).length]?
  color : e.colors ≠ [] → remainder e'.stepCount e'.colors.length =
    (remainder e.stepCount e.colors.length).map fun i => (i + 1) % e.colors.length

/-- `GetColor` computes no remainder by 0, and `Step` advances. -/
def Op.Right : Op → Prop
  | .getColor light => ∃ color, e.getColor light = some color
  | .step => Advances e e.step
  | _ => True

/-- The call looks up the areas with lights. -/
def Op.looksUp : Op → Bool
  | .setMode _ | .updateGroup _ => true
  | _ => false

/-- The calls up to the last one that looked up the areas. -/
def lastLookup (ops : List Op) : List Op := ops.rdropWhile fun op => !op.looksUp

/-- There are no colors or there was a light in an area of the mode when the areas were looked up; when stepping, these are
still the areas with lights, and the number of steps fits into 64 bits. -/
def Op.Fits (before : List Op) : Op → Prop
  | .getColor _ => (after before).colors = [] ∨ (after (lastLookup before)).mode = .all ∨
      ∃ area ∈ candidates (after (lastLookup before)).group (after (lastLookup before)).mode,
        occupied (after (lastLookup before)).group area = true
  | .step =>
      ((after before).mode = .all ∨ nonEmpty (after before).group (after before).mode =
        nonEmpty (after (lastLookup before)).group (after (lastLookup before)).mode) ∧
      ((after before).stepCount + 1 < 2 ^ 64 ∨
        ((after before).colors = [] ∨ (after before).colors.length ∣ 2 ^ 64) ∧
        (nonEmpty (after before).group (after before).mode = [] ∨
          (nonEmpty (after before).group (after before).mode).length ∣ 2 ^ 64))
  | _ => True

end SequenceEffect

end HueStream.Effects
