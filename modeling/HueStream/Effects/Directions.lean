import HueStream.Effects.Marking

/-! # The lights of a direction over a run

While no step leaves a light marked that is not to be coloured, the lights that are coloured are those of the current
group and angle.

* `determined_of_fits`: in every state of a run.
* `exists_not_determined`: the lights of an earlier group stay, and which lights are marked may be wrong. -/

namespace HueStream.Effects.RadialEffect

open HueStream.Data HueStream.Lib

variable {atan2 : ℚ → ℚ → ℚ} {lights : List Light} {t : ℚ} {e : RadialEffect}

/-! ### Marking a group -/

/-- The angles of `std::atan2` are those from half a turn down to half a turn up. -/
def HalfTurn (atan2 : ℚ → ℚ → ℚ) : Prop := ∀ y x, -(31416 / 10000) ≤ atan2 y x ∧ atan2 y x ≤ 31416 / 10000

theorem isAngle_angleOf (hatan2 : HalfTurn atan2) (light : Light) : IsAngle (angleOf atan2 light) := by
  obtain ⟨hle, hle'⟩ := hatan2 (light.position.y - 0) (light.position.x - 0)
  unfold angleOf Vector.getAngle IsAngle
  dsimp only
  split_ifs with hneg <;> constructor <;> linarith

/-- The keys of the map are the angles of the lights. -/
theorem mem_keys_lightMap (a : ℚ) : a ∈ (lightMap atan2 lights).entries.map Prod.fst ↔ a ∈ lights.map (angleOf atan2) :=
  OrderedMap.mem_keys_ofValues

theorem ordered_lightMap (lights : List Light) : Ordered (lightMap atan2 lights).entries :=
  List.pairwise_map.mp (lightMap atan2 lights).ordered

/-- A marking that is right marks the lights that are to be coloured. -/
theorem marks_iff (hatan2 : HalfTurn atan2) (ht : IsAngle t) (hspread : Spread atan2 lights)
    (hright : MarksRight atan2 lights t) (light : Light) :
    (∃ l ∈ marks t (lightMap atan2 lights).entries, l.id = light.id) ↔
      ∃ l ∈ lights, l.id = light.id ∧ Nearest (lights.map (angleOf atan2)) t (angleOf atan2 l) := by
  have hkeys : ∀ a, a ∈ (lightMap atan2 lights).entries.map Prod.fst ↔ a ∈ lights.map (angleOf atan2) :=
    mem_keys_lightMap
  have hangles : ∀ a ∈ (lightMap atan2 lights).entries.map Prod.fst, IsAngle a := fun a ha => by
    obtain ⟨l, -, rfl⟩ := List.mem_map.mp ((hkeys a).mp ha)
    exact isAngle_angleOf hatan2 l
  have hgap : GapRight ((lightMap atan2 lights).entries.map Prod.fst) t := fun a ha b hb hhalf hnone => by
    have hgap := hright.gap a ((hkeys a).mp ha) b ((hkeys b).mp hb) hhalf fun c hc => hnone c ((hkeys c).mpr hc)
    simp only [hkeys]
    exact hgap
  have habove : ∀ p q, Neighbours ((lightMap atan2 lights).entries.map Prod.fst) t p q → p ≤ t + 180 ∧ q ≤ t + 180 :=
    fun p q h => hright.above p q (h.congr hkeys)
  have hentries : ∃ a ∈ (lightMap atan2 lights).entries, ∃ b ∈ (lightMap atan2 lights).entries, a.1 ≠ b.1 := by
    obtain ⟨a, ha, b, hb, hab⟩ := hspread
    obtain ⟨e, he, hea⟩ := List.mem_map.mp ((hkeys _).mpr (List.mem_map_of_mem ha))
    obtain ⟨e', he', heb⟩ := List.mem_map.mp ((hkeys _).mpr (List.mem_map_of_mem hb))
    exact ⟨e, he, e', he', by rwa [hea, heb]⟩
  simp only [mem_marks_iff (ordered_lightMap lights) ht hangles hgap habove hentries, nearest_congr hkeys]
  constructor
  · rintro ⟨l, ⟨entry, hentry, hnear, rfl⟩, hid⟩
    obtain ⟨hmem, hangle⟩ := OrderedMap.of_mem_ofValues hentry
    exact ⟨entry.2, hmem, hid, by rwa [hangle]⟩
  · rintro ⟨l, hl, hid, hnear⟩
    obtain ⟨entry, hentry, hkey⟩ := List.mem_map.mp ((hkeys _).mpr (List.mem_map_of_mem hl))
    obtain ⟨hmem, hangle⟩ := OrderedMap.of_mem_ofValues hentry
    have hsame : l.id = entry.2.id := hright.apart l hl entry.2 hmem (by rw [hangle, hkey]) hnear
    exact ⟨entry.2, ⟨entry, hentry, by rwa [hkey], rfl⟩, by rw [← hsame, hid]⟩

/-- What a marking adds is what is to be coloured. -/
theorem toColour_iff (hatan2 : HalfTurn atan2)
    (hright : IsAngle t → Spread atan2 lights → MarksRight atan2 lights t) (light : Light) :
    ToColour atan2 (some lights) t light ↔ ∃ l ∈ marks t (lightMap atan2 lights).entries, l.id = light.id := by
  unfold ToColour
  dsimp only
  split_ifs with hsaid
  · exact (marks_iff hatan2 hsaid.1 hsaid.2 (hright hsaid.1 hsaid.2) light).symm
  · exact Iff.rfl

theorem colours_iff (light : Light) : e.colours light = true ↔ ∃ l ∈ e.effectLights, l.id = light.id := by
  simp only [colours, List.any_eq_true, decide_eq_true_eq]
  exact exists_congr fun l => and_congr_right fun _ => eq_comm

/-- A marking is right where all lights that were coloured before are to be coloured. -/
theorem determined_of_mark (hatan2 : HalfTurn atan2)
    (hold : ∀ light, e.colours light = true → ToColour atan2 e.group e.angle light)
    (hright : ∀ lights ∈ e.group, IsAngle e.angle → Spread atan2 lights → MarksRight atan2 lights e.angle) :
    Determined atan2 (markLights atan2 e e.angle) := by
  intro light
  cases hgroup : e.group with
  | none =>
    have hmarks : markLights atan2 e e.angle = e := by rw [markLights, hgroup]
    rw [hmarks]
    refine ⟨hold light, fun htocolour => ?_⟩
    rw [hgroup] at htocolour
    exact htocolour.elim
  | some lights =>
    have hmarks : markLights atan2 e e.angle =
        { e with effectLights := e.effectLights ++ marks e.angle (lightMap atan2 lights).entries } := by
      rw [markLights, hgroup]
    have hnew := toColour_iff hatan2 (hright lights hgroup) light
    rw [hmarks, colours_iff]
    dsimp only
    rw [hgroup, hnew]
    constructor
    · rintro ⟨l, hl, hid⟩
      rcases List.mem_append.mp hl with hl | hl
      · have hbefore := hold light ((colours_iff light).mpr ⟨l, hl, hid⟩)
        rwa [hgroup, hnew] at hbefore
      · exact ⟨l, hl, hid⟩
    · rintro ⟨l, hl, hid⟩
      exact ⟨l, List.mem_append_right _ hl, hid⟩

/-! ### Runs -/

/-- A step that fits keeps the lights determined. -/
theorem determined_of_step (hatan2 : HalfTurn atan2) (h : Determined atan2 e) {op : Op} (hfits : op.Fits atan2 e) :
    Determined atan2 (op.run atan2 e) := by
  cases op with
  | updateGroup group => exact determined_of_mark (e := { e with group }) hatan2 hfits.1 hfits.2
  | setAngle angle => exact fun light => (h light).trans (hfits light)
  | enable =>
    rw [Op.run]
    split_ifs
    · exact determined_of_mark hatan2 (fun light => (h light).mp) hfits
    · exact h

/-- **In every state of a run whose steps fit, the lights that are coloured are those of the current group and angle.** -/
theorem determined_of_fits (hatan2 : HalfTurn atan2) {ops : List Op} (hfits : Fits atan2 ops {}) :
    ∀ before, before <+: ops → Determined atan2 (run atan2 before {}) := by
  have hrun : ∀ (ops : List Op) (e : RadialEffect), Determined atan2 e → Fits atan2 ops e →
      ∀ before, before <+: ops → Determined atan2 (run atan2 before e) := by
    intro ops
    induction ops with
    | nil =>
      intro e h _ before hbefore
      rw [List.prefix_nil.mp hbefore]
      exact h
    | cons op ops ih =>
      intro e h hfits before hbefore
      rcases List.prefix_cons_iff.mp hbefore with rfl | ⟨rest, rfl, hrest⟩
      · exact h
      · exact ih _ (determined_of_step hatan2 h hfits.1) hfits.2 rest hrest
  refine hrun ops {} (fun light => ?_) hfits
  simp [colours, ToColour]

/-! ### Examples -/

/-- The arc tangent for the quarters of a turn and the diagonals, as the library has it. -/
def exampleAtan2 (y x : ℚ) : ℚ :=
  if y = 0 then 0
  else (if y < 0 then -1 else 1) * (884279719003555 / 562949953421312) / if x = 0 then 1 else 2

def exampleLight (id : String) (x y : ℚ) : Light := { id, position := { x, y } }

theorem exampleAtan2_halfTurn : HalfTurn exampleAtan2 := by
  intro y x
  unfold exampleAtan2
  split_ifs <;> norm_num

/-- Lights a quarter of a turn apart. -/
def exampleGroup : List Light := [exampleLight "1" 1 0, exampleLight "2" 0 1]

theorem angles_exampleGroup : exampleGroup.map (angleOf exampleAtan2) =
    [0, 884279719003555 / 562949953421312 * 180 / (314159265 / 100000000)] := by
  norm_num [exampleGroup, exampleLight, angleOf, Vector.getAngle, exampleAtan2]

theorem exampleGroup_right : MarksRight exampleAtan2 exampleGroup 0 where
  gap := by
    rw [angles_exampleGroup]
    intro a ha b hb hhalf
    simp only [List.mem_cons, List.not_mem_nil, or_false] at ha hb
    rcases ha with rfl | rfl <;> rcases hb with rfl | rfl <;> norm_num at hhalf
  above := by
    intro p q h
    have hzero : (0 : ℚ) ∈ exampleGroup.map (angleOf exampleAtan2) := by
      rw [angles_exampleGroup]
      simp
    have hangles : ∀ a ∈ exampleGroup.map (angleOf exampleAtan2), IsAngle a := fun a ha => by
      obtain ⟨l, -, rfl⟩ := List.mem_map.mp ha
      exact isAngle_angleOf exampleAtan2_halfTurn l
    obtain ⟨rfl, rfl⟩ := h.unique hangles (neighbours_self ⟨le_rfl, by norm_num⟩ hangles hzero)
    norm_num
  apart := by
    intro l hl l' hl' hsame _
    simp only [exampleGroup, List.mem_cons, List.not_mem_nil, or_false] at hl hl'
    rcases hl with rfl | rfl <;> rcases hl' with rfl | rfl
    · rfl
    · exact absurd hsame (by norm_num [exampleLight, angleOf, Vector.getAngle, exampleAtan2])
    · exact absurd hsame (by norm_num [exampleLight, angleOf, Vector.getAngle, exampleAtan2])
    · rfl

/-- A group is marked, and once more when the effect is enabled. -/
theorem determined_of_fits_example :
    Determined exampleAtan2 (run exampleAtan2 [.updateGroup (some exampleGroup), .enable] {}) := by
  refine determined_of_fits exampleAtan2_halfTurn ?_ _ (List.prefix_refl _)
  have hright : ∀ lights ∈ some exampleGroup, IsAngle 0 → Spread exampleAtan2 lights → MarksRight exampleAtan2 lights 0 := by
    rintro lights hlights - -
    obtain rfl : exampleGroup = lights := Option.some.inj hlights
    exact exampleGroup_right
  exact ⟨⟨fun light hcolours => by simp [colours] at hcolours, hright⟩, hright, trivial⟩

/-- A light that is nearest and not coloured. -/
theorem not_determined_of_nearest {l : Light} (hgroup : e.group = some lights) (hangle : e.angle = t) (ht : IsAngle t)
    (hl : l ∈ lights) (hspread : Spread atan2 lights)
    (hnear : Nearest (lights.map (angleOf atan2)) t (angleOf atan2 l)) (hcolours : e.colours l = false) :
    ¬ Determined atan2 e := by
  intro h
  have hall := h l
  rw [hcolours, hgroup, hangle] at hall
  unfold ToColour at hall
  dsimp only at hall
  rw [if_pos ⟨ht, hspread⟩] at hall
  exact Bool.false_ne_true (hall.mpr ⟨l, hl, rfl, hnear⟩)

def exampleBelow : List Light := [exampleLight "1" 1 0, exampleLight "2" 0 (-1), exampleLight "3" 1 (-1)]

def exampleDiagonals : List Light := [exampleLight "1" 1 1, exampleLight "2" 1 (-1)]

theorem isAngle_example (lights : List Light) : ∀ a ∈ lights.map (angleOf exampleAtan2), IsAngle a := fun a ha => by
  obtain ⟨l, -, rfl⟩ := List.mem_map.mp ha
  exact isAngle_angleOf exampleAtan2_halfTurn l

theorem nearest_exampleBelow :
    Nearest (exampleBelow.map (angleOf exampleAtan2)) 290 (angleOf exampleAtan2 (exampleLight "3" 1 (-1))) := by
  have hangles : exampleBelow.map (angleOf exampleAtan2) =
      [0, -884279719003555 / 562949953421312 * 180 / (314159265 / 100000000) + 360,
        -884279719003555 / 1125899906842624 * 180 / (314159265 / 100000000) + 360] := by
    norm_num [exampleBelow, exampleLight, angleOf, Vector.getAngle, exampleAtan2]
  have hneighbours : Neighbours (exampleBelow.map (angleOf exampleAtan2)) 290
      (-884279719003555 / 562949953421312 * 180 / (314159265 / 100000000) + 360)
      (-884279719003555 / 1125899906842624 * 180 / (314159265 / 100000000) + 360) := by
    refine neighbours_between (isAngle_example _) (by simp [hangles]) (by simp [hangles]) (by norm_num) (by norm_num) ?_
    rw [hangles]
    norm_num
  refine (nearest_iff (isAngle_example _) hneighbours).mpr (.inr ?_)
  norm_num [exampleLight, angleOf, Vector.getAngle, exampleAtan2, around, down, up]

theorem nearest_exampleDiagonals :
    Nearest (exampleDiagonals.map (angleOf exampleAtan2)) 10 (angleOf exampleAtan2 (exampleLight "2" 1 (-1))) := by
  have hangles : exampleDiagonals.map (angleOf exampleAtan2) =
      [884279719003555 / 1125899906842624 * 180 / (314159265 / 100000000),
        -884279719003555 / 1125899906842624 * 180 / (314159265 / 100000000) + 360] := by
    norm_num [exampleDiagonals, exampleLight, angleOf, Vector.getAngle, exampleAtan2]
  have hneighbours : Neighbours (exampleDiagonals.map (angleOf exampleAtan2)) 10
      (-884279719003555 / 1125899906842624 * 180 / (314159265 / 100000000) + 360)
      (884279719003555 / 1125899906842624 * 180 / (314159265 / 100000000)) := by
    refine neighbours_outside (isAngle_example _) (by simp [hangles]) (by simp [hangles]) ?_ (.inl (by norm_num))
    rw [hangles]
    norm_num
  refine (nearest_iff (isAngle_example _) hneighbours).mpr (.inl ?_)
  norm_num [exampleLight, angleOf, Vector.getAngle, exampleAtan2, around, down, up]

/-- The light of a group is still coloured for the next group. Of lights at 0, 270 and 315 degrees the last one is not
coloured for 290, and of lights at 45 and 315 degrees not for 10. -/
theorem exists_not_determined :
    ¬ Determined exampleAtan2 (run exampleAtan2
        [.updateGroup (some [exampleLight "1" 1 0]), .updateGroup (some [exampleLight "2" 1 0])] {}) ∧
      ¬ Determined exampleAtan2 (run exampleAtan2 [.setAngle 290, .updateGroup (some exampleBelow)] {}) ∧
      ¬ Determined exampleAtan2 (run exampleAtan2 [.setAngle 10, .updateGroup (some exampleDiagonals)] {}) := by
  refine ⟨fun h => ?_, ?_, ?_⟩
  · have hcoloured := (h (exampleLight "1" 1 0)).mp (by decide +kernel)
    change ToColour exampleAtan2 (some [exampleLight "2" 1 0]) 0 _ at hcoloured
    have hspread : ¬ (IsAngle 0 ∧ Spread exampleAtan2 [exampleLight "2" 1 0]) := by
      rintro ⟨-, a, ha, b, hb, hne⟩
      rw [List.mem_singleton.mp ha, List.mem_singleton.mp hb] at hne
      exact hne rfl
    unfold ToColour at hcoloured
    dsimp only at hcoloured
    rw [if_neg hspread] at hcoloured
    obtain ⟨l, hl, hid⟩ := hcoloured
    have hids : (marks 0 (lightMap exampleAtan2 [exampleLight "2" 1 0]).entries).map Light.id = ["2"] := by decide +kernel
    have htwo : l.id = "2" := List.mem_singleton.mp (hids ▸ List.mem_map_of_mem (f := Light.id) hl)
    rw [htwo] at hid
    exact absurd hid (by decide)
  · exact not_determined_of_nearest (t := 290) rfl rfl ⟨by norm_num, by norm_num⟩ (by simp [exampleBelow])
      ⟨exampleLight "1" 1 0, by simp [exampleBelow], exampleLight "2" 0 (-1), by simp [exampleBelow], by decide +kernel⟩
      nearest_exampleBelow (by decide +kernel)
  · exact not_determined_of_nearest (t := 10) rfl rfl ⟨by norm_num, by norm_num⟩ (by simp [exampleDiagonals])
      ⟨exampleLight "1" 1 1, by simp [exampleDiagonals], exampleLight "2" 1 (-1), by simp [exampleDiagonals],
        by decide +kernel⟩ nearest_exampleDiagonals (by decide +kernel)

end HueStream.Effects.RadialEffect
