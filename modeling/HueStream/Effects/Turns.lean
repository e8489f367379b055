import HueStream.Animations.Shows
import HueStream.Effects.Slots

/-! # The turns of the lights

No call triggers a sequence of a light, and the tweens stay at 0. So after any calls a marker shows the slot of the light
in the pass that the marker falls into.

* `lights_in_slots`: what each light shows.
* `exists_out_of_slot`: the passes are counted in 64 bits, and what is repeated must have a length. -/

namespace HueStream.Effects

open HueStream.Data HueStream.Lib HueStream.Animations HueStream.Animations.Animation

namespace LightIteratorEffect

variable {ι : Type} {cosPi : ℚ → ℚ} {e : LightIteratorEffect} {color : AnimationChannel → Animation ι Fields} {n i : ℕ}
  {σ σ' : Store Made Fields} {c : AnimationChannel}

/-! ### Runs -/

theorem quiet_of_part {l : Leaf Made Fields} (h : Part (.leaf l) (e.sequence cosPi color n i c).toAnimation) :
    Quiet cosPi l := by
  cases h with
  | sub hmem hpart =>
    rcases mem_pieces hmem with ⟨k, rfl⟩ | ⟨back, rfl⟩
    · cases hpart
      exact .inl ⟨i, k, _, rfl⟩
    · have hhas : ((color c).clone (Made.copy i c back)).Has l.id := ⟨.leaf l, hpart, rfl⟩
      obtain ⟨path, hid⟩ := has_clone hhas
      refine .inr fun i' k heq => ?_
      rw [heq] at hid
      cases hid

theorem zero_created (σ : Store ι Fields) : Zero (created e color n σ) := fun _ _ => ⟨_, rfl, rfl, rfl, rfl, rfl⟩

/-- What the calls on all sequences keep, runs keep. -/
theorem runAll_keeps {J : Store Made Fields → Prop}
    (hkeeps : ∀ i c, Keeps J (e.sequence cosPi color n i c).toAnimation) {calls : List Call}
    (h : runAll cosPi e color n calls σ = .ok σ') (hJ : J σ) : J σ' := by
  induction calls generalizing σ with
  | nil => exact Except.ok.inj h ▸ hJ
  | cons call calls ih =>
    rw [runAll, List.foldlM_cons] at h
    obtain ⟨σ₁, hσ₁, hrest⟩ := bind_eq_ok.mp h
    refine ih hrest ?_
    cases call with
    | setMarker i c m => exact (hkeeps i c).callsKeep.1 m σ σ₁ hσ₁ hJ
    | rewind i c => exact (hkeeps i c).callsKeep.2 σ σ₁ hσ₁ hJ

theorem runAll_append (calls calls' : List Call) (σ : Store Made Fields) :
    runAll cosPi e color n (calls ++ calls') σ = runAll cosPi e color n calls σ >>= runAll cosPi e color n calls' :=
  List.foldlM_append

theorem runAll_rests {a : Animation Made Fields} {calls : List Call} (h : runAll cosPi e color n calls σ = .ok σ')
    (hrests : a.Rests σ) : a.Rests σ' :=
  runAll_keeps (fun i c => keeps_rests a.HasSequence (e.sequence cosPi color n i c).toAnimation) h hrests

/-- A sequence that is rewound in a run is at rest after it. -/
theorem rests_of_mem {calls : List Call} (h : runAll cosPi e color n calls σ = .ok σ') (hmem : .rewind i c ∈ calls) :
    (e.sequence cosPi color n i c).toAnimation.Rests σ' := by
  obtain ⟨before, after, rfl⟩ := List.append_of_mem hmem
  rw [runAll_append] at h
  obtain ⟨σ₁, -, h⟩ := bind_eq_ok.mp h
  rw [runAll, List.foldlM_cons] at h
  obtain ⟨σ₂, hσ₂, hrest⟩ := bind_eq_ok.mp h
  exact runAll_rests hrest (rests_of_rewind hσ₂)

/-- The clones are at rest if what they are clones of is. -/
theorem rests_created {σ : Store ι Fields} (h : (color c).Rests σ) (i : ℕ) :
    (e.sequence cosPi color n i c).toAnimation.Rests (created e color n σ) := by
  rintro id ⟨repeatTimes, bookmarks, sequences, hpart⟩
  cases hpart with
  | refl => exact ⟨rfl, rfl⟩
  | sub hmem hpart =>
    rcases mem_pieces hmem with ⟨k, rfl⟩ | ⟨back, rfl⟩
    · cases hpart
    · obtain ⟨path, id', rfl, hid', hhas⟩ := hasSequence_clone ⟨_, _, _, hpart⟩
      have hrests : σ.Rests id' := h id' hhas
      simpa [Store.Rests, created, hid'] using hrests

/-- Where every sequence of a light is at rest, all calls on the lights go right. -/
theorem exists_runAll (hoffset : 0 ≤ e.offset) (hfinite : (n - 1 : ℕ) * e.offset < INF) (hcolor : ∀ c, Plays (color c))
    (hrests : ∀ i c, (e.sequence cosPi color n i c).toAnimation.Rests σ) {calls : List Call}
    (hcalls : ∀ call ∈ calls, call.light < n) : ∃ σ', runAll cosPi e color n calls σ = .ok σ' := by
  induction calls generalizing σ with
  | nil => exact ⟨σ, rfl⟩
  | cons call calls ih =>
    have htakes : Takes (e.sequence cosPi color n call.light call.channel).toAnimation :=
      (playable_sequence hoffset hfinite (hcalls call (by simp)) (hcolor _)).takes
    have hcall : ∃ σ₁, Call.run cosPi e color n σ call = .ok σ₁ := by
      cases call with
      | setMarker i c m => exact htakes.setMarker σ m (hrests i c)
      | rewind i c => exact htakes.rewind σ (hrests i c)
    obtain ⟨σ₁, hσ₁⟩ := hcall
    have hrun : runAll cosPi e color n [call] σ = .ok σ₁ := by
      rw [runAll, List.foldlM_cons, hσ₁, ok_bind]
      rfl
    obtain ⟨σ', hσ'⟩ := ih (fun i c => runAll_rests hrun (hrests i c)) fun call hmem => hcalls call (by simp [hmem])
    exact ⟨σ', by rw [runAll, List.foldlM_cons, hσ₁, ok_bind]; exact hσ'⟩

/-! ### The entries -/

/-- Every light has the sequences of its index. -/
theorem lookup_createAnimations {arranged : List Light} (hids : (arranged.map Light.id).Nodup) {light : Light}
    (h : arranged[i]? = some light) : (createAnimations cosPi e color arranged).lookup light.id =
      some (AnimationChannel.all.map (e.sequence cosPi color arranged.length i)) := by
  have hkeys : ((arranged.mapIdx fun i light =>
      (light.id, AnimationChannel.all.map (e.sequence cosPi color arranged.length i))).map Prod.fst).Nodup := by
    convert hids using 1
    exact List.ext_getElem (by simp) fun j hj hj' => by simp
  rw [createAnimations, foldl_mapInsert hkeys, List.nil_append]
  refine lookup_of_mem hkeys (List.mem_mapIdx.mpr ?_)
  obtain ⟨hlt, rfl⟩ := List.getElem?_eq_some_iff.mp h
  exact ⟨i, hlt, rfl⟩

/-! ### All lights -/

/-- The sequence has the length that all lights have, and a marker shows the slots in the pass that it falls into. In the
mode `single` there is one pass. -/
structure InSlots (cosPi : ℚ → ℚ) (e : LightIteratorEffect) (color : AnimationChannel → Animation ι Fields) (n i : ℕ) (c : AnimationChannel)
    (σ : Store Made Fields) : Prop where
  length : (e.sequence cosPi color n i c).getLengthMs σ = .ok (e.passLength n (total (color c)))
  shows : ∀ m, 0 ≤ m → m < e.passLength n (total (color c)) * 2 ^ 63 →
    (e.mode = .single → m < e.passLength n (total (color c))) →
      ∃ σ', (e.sequence cosPi color n i c).setMarker m σ = .ok σ' ∧
        ShowsSlots cosPi e color n i c (modLength (e.passLength n (total (color c))) m)
          (σ.setMarker (.channel i c) (modLength (e.passLength n (total (color c))) m)) σ'

/-- **Every light of the group has its sequences, and they stay in their slots**, after all calls that rewound them or
that began with colour animations at rest. -/
theorem lights_in_slots {lights arranged : List Light} (hperm : arranged.Perm lights)
    (hids : (lights.map Light.id).Nodup) (hoffset : 0 ≤ e.offset) (hcolor : ∀ c, Plays (color c))
    (hfinite : (lights.length - 1 : ℕ) * e.offset < INF) (σ : Store ι Fields) :
    (∀ light ∈ lights, ∃ i < lights.length, arranged[i]? = some light ∧
      (createAnimations cosPi e color arranged).lookup light.id =
        some (AnimationChannel.all.map (e.sequence cosPi color lights.length i))) ∧
    (∀ i < lights.length, ∀ c calls σ', runAll cosPi e color lights.length calls (created e color lights.length σ) = .ok σ' →
      (.rewind i c ∈ calls ∨ (color c).Rests σ) → InSlots cosPi e color lights.length i c σ') ∧
    ((∀ c, (color c).Rests σ) → ∀ calls : List Call, (∀ call ∈ calls, call.light < lights.length) →
      ∃ σ', runAll cosPi e color lights.length calls (created e color lights.length σ) = .ok σ') := by
  refine ⟨fun light hmem => ?_, fun i hi c calls σ' hrun hready => ?_, fun hrests calls hcalls => ?_⟩
  · obtain ⟨i, hi, hlight⟩ := List.getElem_of_mem (hperm.mem_iff.mpr hmem)
    have hlookup : (createAnimations cosPi e color arranged).lookup light.id =
        some (AnimationChannel.all.map (e.sequence cosPi color arranged.length i)) :=
      lookup_createAnimations ((hperm.map Light.id).nodup_iff.mpr hids) (List.getElem?_eq_some_iff.mpr ⟨hi, hlight⟩)
    rw [hperm.length_eq] at hi hlookup
    exact ⟨i, hi, List.getElem?_eq_some_iff.mpr ⟨_, hlight⟩, hlookup⟩
  · have hzero : Zero σ' := runAll_keeps (fun i c => keeps_zero fun l => quiet_of_part) hrun (zero_created σ)
    have hrests : (e.sequence cosPi color lights.length i c).toAnimation.Rests σ' := by
      rcases hready with hmem | hcolors
      · exact rests_of_mem hrun hmem
      · exact runAll_rests hrun (rests_created hcolors i)
    exact ⟨getLengthMs_sequence hoffset hfinite hi (hcolor c) hrests, fun m =>
      setMarker_sequence hoffset hfinite hi (hcolor c) hzero hrests⟩
  · exact exists_runAll hoffset hfinite hcolor (fun i c => rests_created (hrests c) i) hcalls

/-- Colours that stay at a value for a second. -/
def exampleColor (_ : AnimationChannel) : Animation ℕ Fields := .leaf (Leaf.constant 0 1000)

def exampleColors : Store ℕ Fields := { exampleStore with value := fun _ => 1 }

/-- A colour of a second, with an empty sequence at the end. -/
def exampleEmpty (_ : AnimationChannel) : Animation ℕ Fields := .sequence 0 0 [] [.leaf (Leaf.constant 1 1000), .sequence 2 0 [] []]

theorem exampleColor_plays (c : AnimationChannel) : Plays (exampleColor c) :=
  have htotal : total (exampleColor c) = 1000 := rfl
  ⟨.leaf fun _ h => by simp [Leaf.constant] at h, by rw [htotal]; norm_num, by rw [htotal]; linarith [two_pow_le_INF]⟩

theorem exampleColor_rests (c : AnimationChannel) : (exampleColor c).Rests exampleColors := by
  rintro id ⟨repeatTimes, bookmarks, sequences, hpart⟩
  cases hpart

def exampleLights : List Light := [{ id := "1" }, { id := "2" }]

/-- Two lights show a colour after each other. -/
theorem lights_in_slots_example :
    ∃ σ', runAll exampleCosPi { offset := 1000 } exampleColor 2 [.rewind 1 .g, .setMarker 1 .g 1500]
        (created { offset := 1000 } exampleColor 2 exampleColors) = .ok σ' ∧
      InSlots exampleCosPi { offset := 1000 } exampleColor 2 1 .g σ' := by
  have hslots := @lights_in_slots ℕ exampleCosPi { offset := 1000 } exampleColor exampleLights exampleLights.reverse
    (List.reverse_perm exampleLights) (by decide) (by norm_num) exampleColor_plays
    (by norm_num [exampleLights]; linarith [two_pow_le_INF]) exampleColors
  obtain ⟨σ', hσ'⟩ := hslots.2.2 exampleColor_rests [.rewind 1 .g, .setMarker 1 .g 1500] (by decide)
  exact ⟨σ', hσ', hslots.2.1 1 (by decide) .g _ σ' hσ' (.inl (by simp))⟩

theorem constant_keeps {id : Made} {v length : ℚ} :
    Keeps (fun σ : Store Made Fields => σ.value id = v) (.leaf (Leaf.constant id length)) where
  update := fun l hl σ m hv => by
    cases hl
    simpa [Leaf.update, Leaf.constant, Store.setValue] using hv
  rewound := fun _ _ _ hv => hv
  marker := fun _ _ _ _ hv => hv
  shown := fun id' hid _ _ _ _ => by
    obtain ⟨repeatTimes, bookmarks, sequences, hpart⟩ := hid
    cases hpart
  reset := fun _ _ _ hv => hv

/-- After 2 ^ 63 passes a light keeps the 0 of the turn of another one. A light with an empty sequence in its colour cannot
be rewound, and of three lights at the greatest offset the first has another length than the second. -/
theorem exists_out_of_slot :
    (∃ σ σ', runAll exampleCosPi { offset := 1000 } exampleColor 2 [.rewind 0 .r, .setMarker 0 .r 1500]
        (created { offset := 1000 } exampleColor 2 exampleColors) = .ok σ ∧
      (LightIteratorEffect.sequence exampleCosPi { offset := 1000 } exampleColor 2 0 .r).setMarker (2000 * 2 ^ 63) σ =
        .ok σ' ∧
      ¬ ShowsSlots exampleCosPi { offset := 1000 } exampleColor 2 0 .r (modLength 2000 (2000 * 2 ^ 63))
        (σ.setMarker (.channel 0 .r) (modLength 2000 (2000 * 2 ^ 63))) σ') ∧
    (total (exampleEmpty .r) = 1000 ∧
      runAll exampleCosPi {} exampleEmpty 1 [.rewind 0 .r] (created {} exampleEmpty 1 exampleColors) = .error .zeroLength) ∧
    (LightIteratorEffect.sequence exampleCosPi { offset := INF } exampleColor 3 0 .r).getLengthMs
        (created { offset := INF } exampleColor 3 exampleColors) ≠
      (LightIteratorEffect.sequence exampleCosPi { offset := INF } exampleColor 3 1 .r).getLengthMs
        (created { offset := INF } exampleColor 3 exampleColors) := by
  refine ⟨?_, ⟨by decide +kernel, rfl⟩, by decide +kernel⟩
  have hvalues : (runAll exampleCosPi { offset := 1000 } exampleColor 2 [.rewind 0 .r, .setMarker 0 .r 1500]
      (created { offset := 1000 } exampleColor 2 exampleColors)).map (fun σ => σ.value (.copy 0 .r false [])) =
        .ok 1 := by decide +kernel
  have hlast : (runAll exampleCosPi { offset := 1000 } exampleColor 2
      [.rewind 0 .r, .setMarker 0 .r 1500, .setMarker 0 .r (2000 * 2 ^ 63)]
      (created { offset := 1000 } exampleColor 2 exampleColors)).map (fun σ => σ.value (.channel 0 .r)) = .ok 0 := by
    decide +kernel
  have hposition : modLength 2000 (2000 * 2 ^ 63) = 0 := by decide +kernel
  cases hσ : runAll exampleCosPi { offset := 1000 } exampleColor 2 [.rewind 0 .r, .setMarker 0 .r 1500]
      (created { offset := 1000 } exampleColor 2 exampleColors) with
  | error fault =>
    rw [hσ] at hvalues
    cases hvalues
  | ok σ =>
    have hcopy : σ.value (.copy 0 .r false []) = 1 := by
      rw [hσ] at hvalues
      exact Except.ok.inj hvalues
    have hrun : runAll exampleCosPi { offset := 1000 } exampleColor 2
        ([.rewind 0 .r, .setMarker 0 .r 1500] ++ [.setMarker 0 .r (2000 * 2 ^ 63)])
        (created { offset := 1000 } exampleColor 2 exampleColors) = _ := runAll_append _ _ _
    rw [hσ, ok_bind] at hrun
    rw [List.cons_append, List.cons_append, List.nil_append] at hrun
    rw [hrun, runAll, List.foldlM_cons] at hlast
    cases hσ' : Call.run exampleCosPi { offset := 1000 } exampleColor 2 σ (.setMarker 0 .r (2000 * 2 ^ 63)) with
    | error fault =>
      rw [hσ'] at hlast
      cases hlast
    | ok σ' =>
      rw [hσ'] at hlast
      have hzero : σ'.value (.channel 0 .r) = 0 := Except.ok.inj hlast
      refine ⟨σ, σ', rfl, hσ', fun hshows => ?_⟩
      rw [hposition] at hshows
      obtain ⟨k, σ₁, σ₂, -, hσ₁, hσ₂, hvalue⟩ :=
        hshows.inside false (by decide) (by decide +kernel) (by decide +kernel)
      have hkeeps : CallsKeep (fun σ : Store Made Fields => σ.value (.copy 0 .r false []) = 1)
          ((exampleColor .r).clone (.copy 0 .r false)) := constant_keeps.callsKeep
      have hcopy₁ : σ₁.value (.copy 0 .r false []) = 1 := by
        split_ifs at hσ₁
        · rw [hσ₁]
          exact hcopy
        · exact hkeeps.2 _ σ₁ hσ₁ hcopy
      have hone : σ'.value (.channel 0 .r) = 1 := hvalue.trans (hkeeps.1 _ σ₁ σ₂ hσ₂ hcopy₁)
      rw [hzero] at hone
      exact absurd hone (by norm_num)

end LightIteratorEffect

end HueStream.Effects
