import HueStream.Data.Group
import HueStream.Lib.Run
import HueStream.Lib.StableInsert

/-! # The mixer

Effects and lights are objects: the mixer keeps pointers to them and reads them when it renders. The
layer of an effect is set when it is made. Its state and the colour it gives to a light may become
others when it is rendered and at any time in between; so may a light. `UpdateGroup`, which the mixer
calls on its effects, does nothing an effect could not do by itself. -/

namespace HueStream.Effects

open HueStream.Data HueStream.Lib

/-- `EffectPtr`. -/
abbrev EffectPtr := ℕ

/-- `LightPtr`. -/
abbrev LightPtr := ℕ

/-- `Effect::State`. -/
inductive EffectState
  | disabled | enabled | finished
deriving DecidableEq

/-- What the mixer sees of an effect besides its layer. -/
structure Effect where
  state : EffectState := .disabled
  getColor : Light → Color := fun _ => {}

namespace Effect

def isEnabled (e : Effect) : Bool := e.state = .enabled

def isFinished (e : Effect) : Bool := e.state = .finished

end Effect

/-- What does not change: the layers, and whether lights keep their colours under the effects. -/
structure Setting where
  layer : EffectPtr → ℕ := fun _ => 0
  retainColor : Bool := false

/-- `Mixer`: the effects, and the lights of `_group`. -/
structure Mixer where
  effects : List EffectPtr := []
  lights : List LightPtr := []

/-- The mixer among the objects it points to. -/
structure State where
  mixer : Mixer := {}
  effect : EffectPtr → Effect := fun _ => {}
  light : LightPtr → Light := fun _ => {}

/-! ### Mixing -/

/-- One turn of the loop of `ApplyEffectsOnLight`, on the three components. -/
def mix (c : ℚ × ℚ × ℚ) (layerColor : Color) : ℚ × ℚ × ℚ :=
  let alpha := layerColor.alpha
  let prevLayersAlpha := 1 - alpha
  (c.1 * prevLayersAlpha + layerColor.red * alpha,
    c.2.1 * prevLayersAlpha + layerColor.green * alpha,
    c.2.2 * prevLayersAlpha + layerColor.blue * alpha)

/-- `ApplyEffectsOnLight`. -/
def applyEffectsOnLight (retainColor : Bool) (effects : List Effect) (light : Light) : Light :=
  let start := if retainColor then (light.color.red, light.color.green, light.color.blue) else (0, 0, 0)
  let c := effects.foldl
    (fun c effect => if effect.isEnabled then mix c (effect.getColor light) else c) start
  { light with color := .ofRGB c.1 c.2.1 c.2.2 }

namespace State

variable (ε : Setting) (s : State)

/-- `FindEffectIndex`: the first effect of a higher layer. -/
def findEffectIndex (newEffect : EffectPtr) : ℕ :=
  s.mixer.effects.findIdx fun e => ε.layer newEffect < ε.layer e

/-- `AddEffect`; a null pointer is ignored. -/
def addEffect : Option EffectPtr → State
  | none => s
  | some newEffect =>
    { s with
      mixer.effects := s.mixer.effects.insertIdx (s.findEffectIndex ε newEffect) newEffect }

/-- `AddEffectList`. -/
def addEffectList (effects : List (Option EffectPtr)) : State := effects.foldl (addEffect ε) s

/-- `SetGroup`: the lights of the group; a null pointer is ignored. -/
def setGroup : Option (List LightPtr) → State
  | none => s
  | some lights => { s with mixer.lights := lights }

/-- `RemoveFinishedEffects`. -/
def removeFinishedEffects : State :=
  { s with mixer.effects := s.mixer.effects.filter fun e => !(s.effect e).isFinished }

/-- `RenderEffects`; `render` is what rendering makes of each effect. -/
def renderEffects (render : EffectPtr → Effect → Effect) : State :=
  { s with
    effect := s.mixer.effects.foldl (fun effect e =>
      if (effect e).isEnabled then Function.update effect e (render e (effect e)) else effect) s.effect }

/-- `ApplyEffectsOnLights`. -/
def applyEffectsOnLights : State :=
  { s with
    light := s.mixer.lights.foldl (fun light p => Function.update light p
      (applyEffectsOnLight ε.retainColor (s.mixer.effects.map s.effect) (light p))) s.light }

/-- `Render`. -/
def render (render : EffectPtr → Effect → Effect) : State :=
  ((s.removeFinishedEffects).renderEffects render).applyEffectsOnLights ε

end State

/-- A call, or a change of an effect or of a light by another part of the program. -/
inductive Label
  | addEffect (newEffect : Option EffectPtr)
  | addEffectList (effects : List (Option EffectPtr))
  | setGroup (lights : Option (List LightPtr))
  | render (render : EffectPtr → Effect → Effect)
  | effect (e : EffectPtr) (effect : Effect)
  | light (p : LightPtr) (light : Light)

def State.step (ε : Setting) (s : State) : Label → State
  | .addEffect newEffect => s.addEffect ε newEffect
  | .addEffectList effects => s.addEffectList ε effects
  | .setGroup lights => s.setGroup lights
  | .render render => s.render ε render
  | .effect e effect => { s with effect := Function.update s.effect e effect }
  | .light p light => { s with light := Function.update s.light p light }

/-- A new mixer among any objects. -/
def machine (ε : Setting) : Machine State Label where
  Init s := s.mixer = {}
  step s l := some (s.step ε l)

end HueStream.Effects
