import HueStream.Animations.Cloning
import HueStream.Animations.Leaves
import HueStream.Effects.LightIteratorEffect
import HueStream.Lib.Keyed

/-! # The lights one after another

`CreateAnimations` gives each light a sequence for each channel: clones of the colour animation, between tweens that
stay at 0 for as long as the other lights need. The tweens of a light are the same objects in its four sequences. -/

namespace HueStream.Effects

open HueStream.Data HueStream.Lib HueStream.Animations HueStream.Animations.Animation

inductive AnimationChannel
  | r | g | b | a
deriving DecidableEq

/-- The four channels of `AnimationHelper::CreatePtr(r, g, b, a)`. -/
def AnimationChannel.all : List AnimationChannel := [.r, .g, .b, .a]

/-- An object that `CreateAnimations` makes, named by the index of its light: the sequence of a channel, one of up to four
tweens, and the object at a path in the clone of a colour animation, that of the way back in the mode `bounce`. -/
inductive Made
  | channel (light : ℕ) (c : AnimationChannel)
  | tween (light k : ℕ)
  | copy (light : ℕ) (c : AnimationChannel) (back : Bool) (path : List ℕ)
deriving DecidableEq

namespace LightIteratorEffect

variable {ι : Type} (cosPi : ℚ → ℚ) (e : LightIteratorEffect) (color : AnimationChannel → Animation ι Fields) (n i : ℕ)

/-- The times of the tweens `before`, `after`, `beforeBounce` and `afterBounce`. -/
def tweenTime (k : ℕ) : ℚ := if k = 0 ∨ k = 3 then i * e.offset else (n - 1 - i : ℕ) * e.offset

/-- One of the tweens, unless it would be for no other light. -/
def tweens (k : ℕ) : List (Animation Made Fields) :=
  if if k = 0 ∨ k = 3 then i ≠ 0 else i ≠ n - 1 then [.leaf (Leaf.tween cosPi (.tween i k) (e.tweenTime n i k))] else []

/-- What is appended to the sequence of a channel, for the light `i` of `n` lights. -/
def pieces (c : AnimationChannel) : List (Animation Made Fields) :=
  e.tweens cosPi n i 0 ++ ((color c).clone (.copy i c false) :: e.tweens cosPi n i 1) ++
    if e.mode = .bounce then e.tweens cosPi n i 2 ++ ((color c).clone (.copy i c true) :: e.tweens cosPi n i 3) else []

def sequence (c : AnimationChannel) : SequenceAnimation Made Fields :=
  { id := .channel i c, repeatTimes := if e.mode = .single then 0 else INF, sequences := e.pieces cosPi color n i c }

/-- `_lightIdAnimationMap` after `CreateAnimations`, for the lights in the order in which it goes through them. -/
def createAnimations (arranged : List Light) : List (String × List (SequenceAnimation Made Fields)) :=
  (arranged.mapIdx fun i light =>
    (light.id, AnimationChannel.all.map (e.sequence cosPi color arranged.length i))).foldl mapInsert []

/-- The store of the new objects. A clone has the state of what it is a clone of. -/
def created (σ : Store ι Fields) : Store Made Fields where
  marker
    | .copy _ c _ path => (((color c).identAt path).map σ.marker).getD 0
    | _ => 0
  value
    | .copy _ c _ path => (((color c).identAt path).map σ.value).getD 0
    | _ => 0
  fields
    | .copy _ c _ path => (((color c).identAt path).map σ.fields).getD .constant
    | .tween i k => .tween { begin := 0, «end» := 0, time := e.tweenTime n i k }
    | .channel _ _ => .constant
  startIndex
    | .copy _ c _ path => (((color c).identAt path).map σ.startIndex).getD 0
    | _ => 0
  currentIndex
    | .copy _ c _ path => (((color c).identAt path).map σ.currentIndex).getD (-1)
    | _ => -1
  offset
    | .copy _ c _ path => (((color c).identAt path).map σ.offset).getD 0
    | _ => 0

/-- A call on the sequence of a channel. -/
inductive Call
  | setMarker (light : ℕ) (c : AnimationChannel) (marker : ℚ)
  | rewind (light : ℕ) (c : AnimationChannel)

def Call.light : Call → ℕ
  | .setMarker i _ _ => i
  | .rewind i _ => i

def Call.channel : Call → AnimationChannel
  | .setMarker _ c _ => c
  | .rewind _ c => c

def Call.run (σ : Store Made Fields) : Call → Except Fault (Store Made Fields)
  | .setMarker i c marker => (e.sequence cosPi color n i c).setMarker marker σ
  | .rewind i c => (e.sequence cosPi color n i c).rewind σ

def runAll (calls : List Call) (σ : Store Made Fields) : Except Fault (Store Made Fields) :=
  calls.foldlM (Call.run cosPi e color n) σ

/-! ### Slots -/

/-- The clones in a sequence: that of the way back only in the mode `bounce`. -/
def passes : List Bool := if e.mode = .bounce then [false, true] else [false]

/-- The time that all lights need for a colour animation of a length. -/
def turn (length : ℚ) : ℚ := (n - 1 : ℕ) * e.offset + length

/-- When the colour animation of the light begins. -/
def slot (length : ℚ) (back : Bool) : ℚ :=
  if back then e.turn n length + (n - 1 - i : ℕ) * e.offset else i * e.offset

/-- The length of a pass. -/
def passLength (length : ℚ) : ℚ := e.passes.length * e.turn n length

/-- The sequence `s` has entered its element `a` at the position `p`, and shows what it shows. -/
def Shows (s : SequenceAnimation Made Fields) (a : Animation Made Fields) (p : ℚ) (σ σ' : Store Made Fields) : Prop :=
  ∃ (k : ℕ) (σ₁ σ₂ : Store Made Fields), s.sequences[k]? = some a ∧ (if σ.currentIndex s.id = k then σ₁ = σ else a.rewind σ = .ok σ₁) ∧
    a.setMarker p σ₁ = .ok σ₂ ∧ σ'.value s.id = a.getValue σ₂

/-- At a position in a slot the light shows the colour animation at the position in the slot, and else nothing. -/
structure ShowsSlots (c : AnimationChannel) (p : ℚ) (σ σ' : Store Made Fields) : Prop where
  inside : ∀ back ∈ e.passes, e.slot n i (total (color c)) back ≤ p →
    p < e.slot n i (total (color c)) back + total (color c) →
      Shows (e.sequence cosPi color n i c) ((color c).clone (.copy i c back))
        (p - e.slot n i (total (color c)) back) σ σ'
  outside : (∀ back ∈ e.passes, ¬ (e.slot n i (total (color c)) back ≤ p ∧
    p < e.slot n i (total (color c)) back + total (color c))) → σ'.value (.channel i c) = 0

end LightIteratorEffect

end HueStream.Effects
