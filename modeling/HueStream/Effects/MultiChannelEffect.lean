import HueStream.Animations.Animation
import HueStream.Effects.Vector
import HueStream.Lib.Keyed
import HueStream.Lib.Greedy

/-! # Channels for the lights

A `MultiChannelEffect` distributes its channels over the lights of a group. In each round every channel gets one light,
the closest pair first.

* `Current`: what is asked of the assignment. -/

namespace HueStream.Effects

open HueStream.Data HueStream.Animations HueStream.Lib

/-- A `Channel`, named by its object. -/
structure MultiChannelEffect.Channel where
  ptr : ℕ
  position : Location := {}
deriving DecidableEq

/-- What a `MultiChannelEffect` has: the list of its channels, the lights of its group, both shared, and
`_lightIdChannelMap`. -/
structure MultiChannelEffect where
  channels : List MultiChannelEffect.Channel := []
  lights : List Light := []
  lightIdChannelMap : List (String × MultiChannelEffect.Channel) := []

namespace MultiChannelEffect

variable (sqrt : ℚ → ℚ)

/-- `Vector(from, to).GetLength()`; a length that overflows counts as `INF`. -/
def distance (from' to' : Location) : ℚ :=
  min INF (({ x := to'.x - from'.x, y := to'.y - from'.y, z := to'.z - from'.z } : Vector).getLength sqrt)

def findClosestLight (lights : List Light) (position : Location) : ℕ :=
  closest (fun light => distance sqrt position light.position) INF lights

/-- The distance of a channel to the light that `FindClosestLight` finds for it; there is always one left. -/
def closestDistance (lights : List Light) (channel : Channel) : ℚ :=
  (lights[findClosestLight sqrt lights channel.position]?.map fun light =>
    distance sqrt channel.position light.position).getD INF

def findChannelWithClosestLight (channels : List Channel) (lights : List Light) : ℕ :=
  closest (closestDistance sqrt lights) INF channels

/-- The copies and the map in `AssignLightsToChannels`. -/
structure Copies where
  channelsCopy : List Channel
  lightsCopy : List Light
  map : List (String × Channel)

/-- The body of the inner loop, which is undefined for an iterator to the end. -/
def assignOne (s : Copies) : Option Copies := do
  let channelIt := findChannelWithClosestLight sqrt s.channelsCopy s.lightsCopy
  let channel ← s.channelsCopy[channelIt]?
  let lightIt := findClosestLight sqrt s.lightsCopy channel.position
  let light ← s.lightsCopy[lightIt]?
  some ⟨s.channelsCopy.eraseIdx channelIt, s.lightsCopy.eraseIdx lightIt, mapInsert s.map (light.id, channel)⟩

variable {sqrt} in
theorem lightsCopy_lt {s s' : Copies} (h : assignOne sqrt s = some s') : s'.lightsCopy.length < s.lightsCopy.length := by
  obtain ⟨channel, -, h⟩ := Option.bind_eq_some_iff.mp h
  obtain ⟨light, hlight, h⟩ := Option.bind_eq_some_iff.mp h
  obtain ⟨hlt, -⟩ := List.getElem?_eq_some_iff.mp hlight
  rw [← Option.some.inj h, List.length_eraseIdx_of_lt hlt]
  omega

/-- The inner loop. -/
def assignRound (s : Copies) : Option Copies :=
  if s.channelsCopy = [] ∨ s.lightsCopy = [] then some s
  else
    match _ : assignOne sqrt s with
    | none => none
    | some s' => assignRound s'
termination_by s.lightsCopy.length
decreasing_by exact lightsCopy_lt ‹_›

section

variable {sqrt} {s s' : Copies}

theorem assignRound_of_empty (h : s.channelsCopy = [] ∨ s.lightsCopy = []) : assignRound sqrt s = some s := by
  rw [assignRound, if_pos h]

theorem assignRound_of_some (hgo : ¬ (s.channelsCopy = [] ∨ s.lightsCopy = [])) (h : assignOne sqrt s = some s') :
    assignRound sqrt s = assignRound sqrt s' := by
  rw [assignRound, if_neg hgo]
  split
  · next hnone => rw [h] at hnone; cases hnone
  · next s₁ hsome => rw [Option.some.inj (h.symm.trans hsome)]

theorem lightsCopy_le (h : assignRound sqrt s = some s') : s'.lightsCopy.length ≤ s.lightsCopy.length := by
  induction s using assignRound.induct sqrt with
  | case1 s hend =>
    rw [assignRound_of_empty hend] at h
    rw [Option.some.inj h]
  | case2 s hgo hnone =>
    rw [assignRound, if_neg hgo] at h
    split at h <;> simp_all
  | case3 s hgo s₁ hone ih =>
    rw [assignRound_of_some hgo hone] at h
    exact (ih h).trans (lightsCopy_lt hone).le

/-- A round with channels and lights uses up a light. -/
theorem lightsCopy_lt_of_round (hgo : ¬ (s.channelsCopy = [] ∨ s.lightsCopy = [])) (h : assignRound sqrt s = some s') :
    s'.lightsCopy.length < s.lightsCopy.length := by
  cases hone : assignOne sqrt s with
  | none =>
    rw [assignRound, if_neg hgo] at h
    split at h <;> simp_all
  | some s₁ =>
    rw [assignRound_of_some hgo hone] at h
    exact (lightsCopy_le h).trans_lt (lightsCopy_lt hone)

end

/-- The outer loop, with a copy of all channels for each round. -/
def assignAll (channels : List Channel) (hchannels : channels ≠ []) (s : Copies) : Option Copies :=
  if _ : s.lightsCopy = [] then some s
  else
    match _ : assignRound sqrt { s with channelsCopy := channels } with
    | none => none
    | some s' => assignAll channels hchannels s'
termination_by s.lightsCopy.length
decreasing_by
  exact lightsCopy_lt_of_round (s := { s with channelsCopy := channels }) (not_or.mpr ⟨hchannels, ‹_›⟩) ‹_›

/-- `AssignLightsToChannels`. -/
def assignLightsToChannels (e : MultiChannelEffect) : Option MultiChannelEffect :=
  if hchannels : e.channels = [] then some { e with lightIdChannelMap := [] }
  else
    (assignAll sqrt e.channels hchannels ⟨[], e.lights, []⟩).map fun copies =>
      { e with lightIdChannelMap := copies.map }

/-- A call on the effect, or a change to the list of channels and to the group from outside. -/
inductive Op
  /-- `SetChannels`, and `Deserialize` with the list that it reads. -/
  | setChannels (channels : List Channel)
  | addChannel (channel : Channel)
  | clear
  | enable
  | updateGroup (lights : List Light)
  | outside (channels : List Channel) (lights : List Light)

def Op.isCall : Op → Bool
  | .outside _ _ => false
  | _ => true

def Op.run (e : MultiChannelEffect) : Op → Option MultiChannelEffect
  | .setChannels channels => assignLightsToChannels sqrt { e with channels }
  | .addChannel channel => assignLightsToChannels sqrt { e with channels := e.channels ++ [channel] }
  | .clear => some { e with channels := [], lightIdChannelMap := [] }
  | .enable => assignLightsToChannels sqrt e
  | .updateGroup lights => assignLightsToChannels sqrt { e with lights }
  | .outside channels lights => some { e with channels, lights }

def run (ops : List Op) (e : MultiChannelEffect) : Option MultiChannelEffect := ops.foldlM (Op.run sqrt) e

/-! ### What is asked of the assignment -/

/-- How many of the lights have the channel. -/
def lightsOf (e : MultiChannelEffect) (channel : Channel) : ℕ :=
  e.lights.countP fun light => e.lightIdChannelMap.lookup light.id = some channel

/-- The map assigns the channels evenly to the lights, the closest pair first. A channel that is several times in the list
counts as often. -/
structure Assigned (e : MultiChannelEffect) : Prop where
  ids : (e.lightIdChannelMap.map Prod.fst).Perm (e.lights.map Light.id)
  one : ∀ light ∈ e.lights, ∃! channel, channel ∈ e.channels ∧ e.lightIdChannelMap.lookup light.id = some channel
  even : ∃ k, ∀ channel ∈ e.channels,
    k * e.channels.count channel ≤ e.lightsOf channel ∧ e.lightsOf channel ≤ (k + 1) * e.channels.count channel
  differ : e.channels.Nodup → ∀ a ∈ e.channels, ∀ b ∈ e.channels, e.lightsOf a ≤ e.lightsOf b + 1
  closest : ∃ picks, Pairing (fun (channel : Channel) (light : Light) => distance sqrt channel.position light.position)
    e.channels e.channels e.lights picks ∧
      e.lightIdChannelMap = picks.map fun pick => (pick.2.id, pick.1)

/-- The assignment is that of the current channels and the current group. -/
structure Current (e : MultiChannelEffect) : Prop where
  without : e.channels = [] → e.lightIdChannelMap = []
  assigned : e.channels ≠ [] → e.Assigned sqrt

end MultiChannelEffect

end HueStream.Effects
