import HueStream.Effects.Vector
import HueStream.Lib.Circle
import HueStream.Lib.OrderedMap
import HueStream.Lib.Numbers

/-! # Lights in a direction

A `RadialEffect` marks the lights of its group that are nearest to an angle. The lights that it marks are only ever added
to those it has marked before.

* `Determined`: what `GetColor` colours is a matter of the group and the angle. -/

namespace HueStream.Effects

open HueStream.Data HueStream.Lib

namespace HueMath

/-- `std::fmod`. -/
def fmod (x y : ℚ) : ℚ := x - truncate (x / y) * y

def isAngleBetween (target angle1 angle2 : ℚ) : Bool :=
  let rAngle := fmod (fmod (angle2 - angle1) 360 + 360) 360
  let (angle1, angle2) := if 180 ≤ rAngle then (angle2, angle1) else (angle1, angle2)
  if angle1 ≤ angle2 then decide (angle1 ≤ target ∧ target ≤ angle2) else decide (angle1 ≤ target ∨ target ≤ angle2)

def getDiffDegrees (a b : ℚ) : ℚ :=
  let minDegrees := min (b - a) (360 + a - b)
  if minDegrees < 0 then minDegrees * -1 else minDegrees

end HueMath

/-- What a `RadialEffect` has, without its animations; the group is that which it got last. -/
structure RadialEffect where
  angle : ℚ := 0
  group : Option (List Light) := none
  effectLights : List Light := []

namespace RadialEffect

variable (atan2 : ℚ → ℚ → ℚ)

/-- `GetAngle` of the vector from the middle to the light. -/
def angleOf (light : Light) : ℚ :=
  ({ x := light.position.x - 0, y := light.position.y - 0 } : Vector).getAngle atan2

/-- `lightMap`. -/
def lightMap (lights : List Light) : OrderedMap ℚ Light := .ofValues (angleOf atan2) lights

/-- The loop over the neighbouring entries of the map. -/
def findPair (markPointDegrees : ℚ) : List (ℚ × Light) → Option ((ℚ × Light) × ℚ × Light)
  | first :: second :: entries =>
    if HueMath.isAngleBetween markPointDegrees first.1 second.1 then some (first, second)
    else findPair markPointDegrees (second :: entries)
  | _ => none

/-- The lights that a pair of entries has marked. -/
def marksOf (markPointDegrees : ℚ) (firstLight secondLight : ℚ × Light) : List Light :=
  let firstDiff := HueMath.getDiffDegrees firstLight.1 markPointDegrees
  let secondDiff := HueMath.getDiffDegrees secondLight.1 markPointDegrees
  let quarterDiff := (firstDiff + secondDiff) / 4
  if firstDiff < quarterDiff then [firstLight.2]
  else if secondDiff < quarterDiff then [secondLight.2]
  else [firstLight.2, secondLight.2]

/-- What `MarkLights` appends for the entries of the map. -/
def marks (markPointDegrees : ℚ) : List (ℚ × Light) → List Light
  | [] => []
  | [light] => [light.2]
  | first :: second :: entries =>
    let (firstLight, secondLight) := (findPair markPointDegrees (first :: second :: entries)).getD
      (first, (second :: entries).getLast (List.cons_ne_nil second entries))
    marksOf markPointDegrees firstLight secondLight

/-- `MarkLights`. -/
def markLights (e : RadialEffect) (markPointDegrees : ℚ) : RadialEffect :=
  match e.group with
  | none => e
  | some lights => { e with effectLights := e.effectLights ++ marks markPointDegrees (lightMap atan2 lights).entries }

/-- A call on the effect. -/
inductive Op
  | updateGroup (group : Option (List Light))
  | setAngle (angle : ℚ)
  | enable

def Op.run (e : RadialEffect) : Op → RadialEffect
  | .updateGroup group => markLights atan2 { e with group } e.angle
  | .setAngle angle => { e with angle }
  | .enable => if e.group.isSome then markLights atan2 e e.angle else e

def run (ops : List Op) (e : RadialEffect) : RadialEffect := ops.foldl (Op.run atan2) e

/-- The lights for which `GetColor` gives the color of the animations. -/
def colours (e : RadialEffect) (light : Light) : Bool := e.effectLights.any fun effectLight => light.id = effectLight.id

/-! ### What is asked of the marks -/

/-- There are lights at two different angles. -/
def Spread (lights : List Light) : Prop := ∃ a ∈ lights, ∃ b ∈ lights, angleOf atan2 a ≠ angleOf atan2 b

open Classical in
/-- The light is to be coloured for the group and the angle. Where nothing is said about which lights these are, they are
those that a new effect marks. -/
def ToColour (group : Option (List Light)) (angle : ℚ) (light : Light) : Prop :=
  match group with
  | none => False
  | some lights =>
    if IsAngle angle ∧ Spread atan2 lights then
      ∃ l ∈ lights, l.id = light.id ∧ Nearest (lights.map (angleOf atan2)) angle (angleOf atan2 l)
    else ∃ l ∈ marks angle (lightMap atan2 lights).entries, l.id = light.id

/-- The lights that are coloured are those of the current group and angle. -/
def Determined (e : RadialEffect) : Prop := ∀ light, e.colours light = true ↔ ToColour atan2 e.group e.angle light

/-- Marking is right: for neighbouring angles with half a turn or more between them, for neighbours of the angle far above
it, and for lights at the same angle it may not be. -/
structure MarksRight (lights : List Light) (angle : ℚ) : Prop where
  gap : ∀ a ∈ lights.map (angleOf atan2), ∀ b ∈ lights.map (angleOf atan2), a + 180 ≤ b →
    (∀ c ∈ lights.map (angleOf atan2), c ≤ a ∨ b ≤ c) →
      (∀ c ∈ lights.map (angleOf atan2), c = a ∨ c = b) ∨
        ((∃ c ∈ lights.map (angleOf atan2), c ≤ angle) ∧ angle ≤ a) ∨ angle = b
  above : ∀ p q, Neighbours (lights.map (angleOf atan2)) angle p q → p ≤ angle + 180 ∧ q ≤ angle + 180
  apart : ∀ l ∈ lights, ∀ l' ∈ lights, angleOf atan2 l = angleOf atan2 l' →
    Nearest (lights.map (angleOf atan2)) angle (angleOf atan2 l) → l.id = l'.id

/-- The step leaves no light marked that is not to be coloured, and marks right where it marks. -/
def Op.Fits (e : RadialEffect) : Op → Prop
  | .updateGroup group => (∀ light, e.colours light = true → ToColour atan2 group e.angle light) ∧
      ∀ lights ∈ group, IsAngle e.angle → Spread atan2 lights → MarksRight atan2 lights e.angle
  | .setAngle angle => ∀ light, ToColour atan2 e.group e.angle light ↔ ToColour atan2 e.group angle light
  | .enable => ∀ lights ∈ e.group, IsAngle e.angle → Spread atan2 lights → MarksRight atan2 lights e.angle

/-- All steps of a run fit. -/
def Fits : List Op → RadialEffect → Prop
  | [], _ => True
  | op :: ops, e => op.Fits atan2 e ∧ Fits ops (op.run atan2 e)

end RadialEffect

end HueStream.Effects
