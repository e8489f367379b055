import HueStream.Effects.Mixer
import HueStream.Lib.Compositing

/-! # The stack of effects

The effects of the mixer are a stack, sorted by layer, and a light gets the composite of the colours of
those that are enabled. The background is black, or the colour the light has where lights retain their
colours. -/

namespace HueStream.Effects

open HueStream.Data HueStream.Lib

variable {ε : Setting} {s s' : State} {l : Label} {ts : List (Transition State Label)}

/-! ### The order of the effects -/

/-- The effects that were added and not removed by a rendering, in the order of addition. -/
def addition (added : List EffectPtr) (t : Transition State Label) : List EffectPtr :=
  match t.label with
  | .addEffect newEffect => added ++ newEffect.toList
  | .addEffectList effects => added ++ effects.flatMap Option.toList
  | .render _ => added.filter fun e => !(t.before.effect e).isFinished
  | _ => added

/-- What is left of the additions of a run. -/
def additions (ts : List (Transition State Label)) : List EffectPtr := ts.foldl addition []

/-- The list is sorted by layer, and the effects of one layer are in the order of their addition. -/
structure Stacked (ε : Setting) (effects added : List EffectPtr) : Prop where
  sorted : SortedBy ε.layer effects
  order : ∀ layer, effects.filter (fun e => ε.layer e = layer) = added.filter fun e => ε.layer e = layer

theorem Stacked.addEffect {added : List EffectPtr} (h : Stacked ε s.mixer.effects added)
    (newEffect : Option EffectPtr) :
    Stacked ε (s.addEffect ε newEffect).mixer.effects (added ++ newEffect.toList) := by
  cases newEffect with
  | none => simpa [State.addEffect] using h
  | some e =>
    have heq : (s.addEffect ε (some e)).mixer.effects = stableInsert ε.layer e s.mixer.effects := rfl
    rw [heq]
    refine ⟨h.sorted.stableInsert, fun layer => ?_⟩
    rw [h.sorted.filter_stableInsert, h.order, List.filter_append]
    rfl

theorem Stacked.addEffectList {added : List EffectPtr} (h : Stacked ε s.mixer.effects added)
    (effects : List (Option EffectPtr)) :
    Stacked ε (s.addEffectList ε effects).mixer.effects (added ++ effects.flatMap Option.toList) := by
  induction effects generalizing s added with
  | nil => simpa [State.addEffectList] using h
  | cons e effects ih =>
    rw [List.flatMap_cons, ← List.append_assoc]
    exact ih (h.addEffect e)

theorem Stacked.filter {effects added : List EffectPtr} (h : Stacked ε effects added)
    (p : EffectPtr → Bool) : Stacked ε (effects.filter p) (added.filter p) := by
  refine ⟨h.sorted.filter p, fun layer => ?_⟩
  rw [List.filter_comm, h.order, List.filter_comm]

theorem Stacked.step {added : List EffectPtr} (h : Stacked ε s.mixer.effects added) (l : Label) :
    Stacked ε (s.step ε l).mixer.effects (addition added ⟨s, l, s.step ε l⟩) := by
  cases l with
  | addEffect newEffect => exact h.addEffect newEffect
  | addEffectList effects => exact h.addEffectList effects
  | setGroup lights => cases lights <;> exact h
  | render render => exact h.filter _
  | effect e effect => exact h
  | light p light => exact h

theorem stacked_run (hrun : (machine ε).Run ts s) : Stacked ε s.mixer.effects (additions ts) := by
  induction hrun with
  | init hinit =>
    rename_i s
    have hmixer : s.mixer = {} := hinit
    rw [hmixer]
    exact ⟨List.Pairwise.nil, fun _ => rfl⟩
  | @step ts s s' l _ hstep ih =>
    obtain rfl : s.step ε l = s' := Option.some.inj hstep
    have hadditions : additions (ts ++ [⟨s, l, s.step ε l⟩]) =
        addition (additions ts) ⟨s, l, s.step ε l⟩ := by
      simp [additions]
    rw [hadditions]
    exact ih.step l

/-! ### The colour of a light -/

/-- The components of a colour. -/
inductive Channel
  | red | green | blue

/-- A component of a colour. -/
def component (c : Color) : Channel → ℚ
  | .red => c.red
  | .green => c.green
  | .blue => c.blue

/-- A layer of one component, as an enabled effect contributes it to the colour of a light. -/
def layerOf (light : Light) (channel : Channel) (e : Effect) : Layer ℚ :=
  ⟨component (e.getColor light) channel, (e.getColor light).alpha⟩

/-- The enabled effects as layers of one component, the top one first. -/
def layers (effects : List Effect) (light : Light) (channel : Channel) : List (Layer ℚ) :=
  ((effects.filter Effect.isEnabled).map (layerOf light channel)).reverse

/-- What is seen where no effect is. -/
def background (retainColor : Bool) (light : Light) (channel : Channel) : ℚ :=
  if retainColor then component light.color channel else 0

/-- A component of the three numbers of the loop. -/
def part (c : ℚ × ℚ × ℚ) : Channel → ℚ
  | .red => c.1
  | .green => c.2.1
  | .blue => c.2.2

theorem part_mix (c : ℚ × ℚ × ℚ) (light : Light) (e : Effect) (channel : Channel) :
    part (mix c (e.getColor light)) channel = (layerOf light channel e).over (part c channel) := by
  cases channel <;> simp only [part, mix, layerOf, component, Layer.over] <;> ring

theorem part_foldl (effects : List Effect) (light : Light) (channel : Channel) (c : ℚ × ℚ × ℚ) :
    part (effects.foldl
        (fun c effect => if effect.isEnabled then mix c (effect.getColor light) else c) c) channel =
      composite (layers effects light channel) (part c channel) := by
  induction effects generalizing c with
  | nil => rfl
  | cons e effects ih =>
    rw [List.foldl_cons, ih]
    unfold layers
    by_cases he : e.isEnabled = true
    · rw [if_pos he, List.filter_cons_of_pos he, List.map_cons, List.reverse_cons, composite_append,
        part_mix]
      rfl
    · rw [if_neg he, List.filter_cons_of_neg he]

/-- **A light gets the composite of the enabled effects over its background.** -/
theorem component_applyEffectsOnLight (retainColor : Bool) (effects : List Effect) (light : Light)
    (channel : Channel) :
    component (applyEffectsOnLight retainColor effects light).color channel =
      composite (layers effects light channel) (background retainColor light channel) := by
  have hfold := part_foldl effects light channel
    (if retainColor then (light.color.red, light.color.green, light.color.blue) else (0, 0, 0))
  have hstart : part (if retainColor then (light.color.red, light.color.green, light.color.blue)
      else (0, 0, 0)) channel = background retainColor light channel := by
    unfold background
    cases retainColor <;> cases channel <;> rfl
  rw [hstart] at hfold
  rw [← hfold]
  cases channel <;> rfl

theorem layers_append (below above : List Effect) (light : Light) (channel : Channel) :
    layers (below ++ above) light channel = layers above light channel ++ layers below light channel := by
  simp [layers]

theorem layers_cons {e : Effect} {effects : List Effect} (he : e.isEnabled = true) (light : Light)
    (channel : Channel) :
    layers (e :: effects) light channel = layers effects light channel ++ [layerOf light channel e] := by
  simp [layers, he]

theorem layers_cons_of_not_isEnabled {e : Effect} {effects : List Effect} (he : e.isEnabled = false)
    (light : Light) (channel : Channel) :
    layers (e :: effects) light channel = layers effects light channel := by
  simp [layers, he]

/-- Two colours the mixer makes are the same when their components are. -/
theorem applyEffectsOnLight_congr {retainColor : Bool} {effects effects' : List Effect} {light : Light}
    (h : ∀ channel, composite (layers effects light channel) (background retainColor light channel) =
      composite (layers effects' light channel) (background retainColor light channel)) :
    applyEffectsOnLight retainColor effects light = applyEffectsOnLight retainColor effects' light := by
  have hcomponent : ∀ channel, component (applyEffectsOnLight retainColor effects light).color channel =
      component (applyEffectsOnLight retainColor effects' light).color channel := by
    intro channel
    rw [component_applyEffectsOnLight, component_applyEffectsOnLight, h]
  have hred := hcomponent .red
  have hgreen := hcomponent .green
  have hblue := hcomponent .blue
  simp only [component, applyEffectsOnLight, Color.ofRGB] at hred hgreen hblue
  simp only [applyEffectsOnLight, Color.ofRGB, hred, hgreen, hblue]

/-- The components and the opacity lie between zero and one. -/
def InUnit (c : Color) : Prop :=
  (∀ channel, component c channel ∈ Set.Icc 0 1) ∧ c.alpha ∈ Set.Icc 0 1

/-- What the mixer owes a light. -/
structure Composited (retainColor : Bool) (effects : List Effect) (light : Light) : Prop where
  composite : ∀ channel, component (applyEffectsOnLight retainColor effects light).color channel =
    Lib.composite (layers effects light channel) (background retainColor light channel)
  range : (∀ e ∈ effects, e.isEnabled = true → InUnit (e.getColor light)) →
    (∀ channel, background retainColor light channel ∈ Set.Icc 0 1) →
    InUnit (applyEffectsOnLight retainColor effects light).color
  /-- Below an opaque effect any effects may lie. -/
  hidden : ∀ below e above, effects = below ++ e :: above → e.isEnabled = true →
    (e.getColor light).alpha = 1 → ∀ below', applyEffectsOnLight retainColor effects light =
      applyEffectsOnLight retainColor (below' ++ e :: above) light
  /-- A transparent or disabled effect may be inserted anywhere. -/
  unseen : ∀ below e above, effects = below ++ above →
    e.isEnabled = false ∨ (e.getColor light).alpha = 0 → applyEffectsOnLight retainColor effects light =
      applyEffectsOnLight retainColor (below ++ e :: above) light

theorem composited (retainColor : Bool) (effects : List Effect) (light : Light) :
    Composited retainColor effects light := by
  refine ⟨component_applyEffectsOnLight retainColor effects light, fun heffects hbackground => ⟨?_, ?_⟩,
    ?_, ?_⟩
  · intro channel
    rw [component_applyEffectsOnLight]
    refine composite_mem_Icc (fun layer hmem => ?_) (hbackground channel)
    simp only [layers, List.mem_reverse, List.mem_map, List.mem_filter] at hmem
    obtain ⟨e, ⟨he, henabled⟩, rfl⟩ := hmem
    obtain ⟨hcomponents, halpha⟩ := heffects e he henabled
    exact ⟨hcomponents channel, halpha⟩
  · have halpha : (applyEffectsOnLight retainColor effects light).color.alpha = 1 := rfl
    rw [halpha]
    exact ⟨zero_le_one, le_rfl⟩
  · rintro below e above rfl he halpha below'
    refine applyEffectsOnLight_congr fun channel => ?_
    have hopaque : (layerOf light channel e).alpha = 1 := halpha
    simp only [layers_append, layers_cons he, List.append_assoc, List.singleton_append,
      composite_of_opaque hopaque]
  · rintro below e above rfl hunseen
    refine applyEffectsOnLight_congr fun channel => ?_
    by_cases he : e.isEnabled = true
    · have htransparent : (layerOf light channel e).alpha = 0 :=
        hunseen.resolve_left fun hdisabled => by simp [he] at hdisabled
      simp only [layers_append, layers_cons he, List.append_assoc, List.singleton_append,
        composite_of_transparent htransparent]
    · simp only [layers_append, layers_cons_of_not_isEnabled (Bool.eq_false_iff.mpr he)]

/-! ### Rendering -/

/-- An object is changed once for every time it is listed, whatever else is listed. -/
theorem foldl_update {β : Type} (f : β → β) (ps : List ℕ) (heap : ℕ → β) (p : ℕ) :
    ps.foldl (fun heap p => Function.update heap p (f (heap p))) heap p = f^[ps.count p] (heap p) := by
  induction ps generalizing heap with
  | nil => rfl
  | cons q ps ih =>
    rw [List.foldl_cons, ih]
    by_cases hq : q = p
    · subst hq
      rw [List.count_cons_self, Function.iterate_succ_apply, Function.update_self]
    · rw [List.count_cons_of_ne hq, Function.update_of_ne (Ne.symm hq)]

/-- What a rendering does: the finished effects are gone, and every light of the group gets its
composite, once for each time the group lists it. -/
structure Rendered (ε : Setting) (before after : State) : Prop where
  effects : after.mixer.effects = before.mixer.effects.filter fun e => !(before.effect e).isFinished
  light : ∀ p, after.light p = (applyEffectsOnLight ε.retainColor
    (after.mixer.effects.map after.effect))^[before.mixer.lights.count p] (before.light p)

theorem rendered (ε : Setting) (s : State) (render : EffectPtr → Effect → Effect) :
    Rendered ε s (s.render ε render) := by
  refine ⟨rfl, fun p => ?_⟩
  exact foldl_update _ _ _ _

/-- **The mixer composites.** In every run the effects are stacked, a rendering removes the finished ones
and no others, and the colour a light gets is the composite of the enabled effects over its
background. -/
theorem mixer_composites (hrun : (machine ε).Run ts s) :
    Stacked ε s.mixer.effects (additions ts) ∧
      (∀ t ∈ ts, ∀ render, t.label = .render render → Rendered ε t.before t.after) ∧
      ∀ effects light, Composited ε.retainColor effects light := by
  refine ⟨stacked_run hrun, fun t ht render hrender => ?_, composited ε.retainColor⟩
  have hstep : some (t.before.step ε t.label) = some t.after := hrun.step_of_mem ht
  rw [← Option.some.inj hstep, hrender]
  exact rendered ε t.before render

/-- Half transparent green that the light gets over red. -/
theorem mixer_composites_green :
    ∃ ts s, (machine {}).Run ts s ∧ s.mixer.effects = [0, 1] ∧ (s.light 0).color = .ofRGB (1 / 2) (1 / 2) 0 ∧
      Stacked {} s.mixer.effects (additions ts) ∧
      (∀ t ∈ ts, ∀ render, t.label = .render render → Rendered {} t.before t.after) ∧
      ∀ effects light, Composited false effects light := by
  obtain ⟨ts, s, hrun, h⟩ := Machine.exists_run (M := machine {}) (s := {})
    [.setGroup (some [0]), .addEffectList [some 0, none], .addEffect (some 1),
      .effect 0 ⟨.enabled, fun _ => .ofRGB 1 0 0⟩,
      .effect 1 ⟨.enabled, fun _ => { green := 1, alpha := 1 / 2 }⟩, .render fun _ e => e]
    (fun _ s => s.mixer.effects = [0, 1] ∧ (s.light 0).color = .ofRGB (1 / 2) (1 / 2) 0) rfl
    (by decide +kernel)
  have h := of_decide_eq_true h
  exact ⟨ts, s, hrun, h.1, h.2, mixer_composites hrun⟩

/-- A light that retains a colour out of the unit range keeps it under no effects. -/
theorem exists_retained_out_of_range : ∃ ts s, (machine { retainColor := true }).Run ts s ∧
    s.mixer.effects = [] ∧ s.mixer.lights = [0] ∧ ¬ InUnit (s.light 0).color := by
  obtain ⟨ts, s, hrun, h⟩ := Machine.exists_run (M := machine { retainColor := true }) (s := {})
    [.light 0 { color := .ofRGB 2 0 0 }, .setGroup (some [0]), .render fun _ e => e]
    (fun _ s => s.mixer.effects = [] ∧ s.mixer.lights = [0] ∧ (s.light 0).color.red = 2) rfl
    (by decide +kernel)
  obtain ⟨heffects, hlights, hred⟩ := of_decide_eq_true h
  refine ⟨ts, s, hrun, heffects, hlights, fun hunit => ?_⟩
  have hle : (s.light 0).color.red ≤ 1 := (hunit.1 .red).2
  rw [hred] at hle
  norm_num at hle

end HueStream.Effects
