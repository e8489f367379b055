import HueStream.Lib.TakeOver
import HueStream.Lights.BasicGroupLightController
import HueStream.Retriever.Summary

/-! # Groups that share lights with the selected one

After a call each other group takes over the brightness and on state of the lights it shares, and its summary
is made of those alone, as often as the selected group lists them. Its other reachable lights are left out. So
the summary is what it should be only when both make no difference (`Balanced`). -/

namespace HueStream.Lights

open HueStream.Data HueStream.Lib HueStream.Lib.TakeOver HueStream.Retriever

/-- The lights of the selected group with the values a call gives them. -/
def fromLights (op : Operation) (b : Bridge) : List Light :=
  match b.groups[selectedIndex b]? with
  | none => []
  | some group => (op.updateGroup group).physicalLights.map op.setLight

/-- The ids of the lights of the selected group. -/
def selectedIds (b : Bridge) : List String :=
  match b.groups[selectedIndex b]? with
  | none => []
  | some group => group.physicalLights.map (·.id)

/-- What a call promises: every group but the selected one is summarised, and its lights that are not shared
with the selected one are unchanged. -/
def OthersSummarised (b : Bridge) (c : BasicGroupLightController) : Prop :=
  ∃ b', c.bridge = some b' ∧ b'.groups.length = b.groups.length ∧
    ∀ i g g', b.groups[i]? = some g → b'.groups[i]? = some g' → i ≠ selectedIndex b →
      Summarised g' ∧ (g'.physicalLights.filter fun light => light.id ∉ selectedIds b) =
        g.physicalLights.filter fun light => light.id ∉ selectedIds b

/-- The lights of the selected group that a group has too, as reachable ones. -/
def shared (lights : List Light) (g : Group) : List Light :=
  met Light.id Light.id Light.reachable lights g.physicalLights

/-- The reachable lights of a group that it does not share. -/
def unshared (lights : List Light) (g : Group) : List Light :=
  (overlooked Light.id (lights.map Light.id) g.physicalLights).filter Light.reachable

/-- A group that shares no reachable light is summarised before. For any other, further listings of a shared
light in the selected group make the same difference to the shared lights as the lights that are not shared:
to whether one is on, and to the mean of their brightness. -/
def Balanced (lights : List Light) (g : Group) : Prop :=
  if shared lights g = [] then Summarised g
  else
    let counted := latest Light.id (shared lights g)
    let again := repeated Light.id (shared lights g)
    ((∃ light ∈ counted ++ again, light.on = true) ↔ ∃ light ∈ counted ++ unshared lights g, light.on = true) ∧
      mean ((counted ++ again).map (·.brightness)) = mean ((counted ++ unshared lights g).map (·.brightness))

variable {σ : BridgeSettings} {pow : ℚ → ℚ} {b : Bridge} {c : BasicGroupLightController} {op : Operation}
  {lights : List Light} {g : Group}

/-! ### One group -/

theorem mean_perm {l l' : List ℚ} (h : l.Perm l') : mean l = mean l' := by
  rw [mean, mean, h.sum_eq, h.length_eq]

/-- What is written to a light. -/
def setShared (fromLight groupLight : Light) : Light :=
  { groupLight with brightness := fromLight.brightness, on := fromLight.on }

/-- The lights of a group after it has taken over those of the selected group. -/
def lightsAfter (lights : List Light) (g : Group) : List Light :=
  takeAll Light.id Light.id setShared lights g.physicalLights

theorem foldl_updateGroupLight (acc : Aggregate) :
    let seen := met Light.id Light.id Light.reachable lights acc.lightsList
    lights.foldl updateGroupLight acc =
      { lightsList := takeAll Light.id Light.id setShared lights acc.lightsList
        brightness := acc.brightness + (seen.map fun light => light.brightness / 100).sum
        isOn := acc.isOn || seen.any (·.on)
        numReachableLights := acc.numReachableLights + seen.length } := by
  induction lights generalizing acc with
  | nil => simp [met, takeAll]
  | cons light lights ih =>
    have hkept : met Light.id Light.id Light.reachable lights (takeOver light acc.lightsList) =
        met Light.id Light.id Light.reachable lights acc.lightsList :=
      have hid : ∀ f a, (setShared f a).id = a.id := fun _ _ => rfl
      met_take hid (fun _ _ => rfl) light
    have hall : takeAll Light.id Light.id setShared (light :: lights) acc.lightsList =
        takeAll Light.id Light.id setShared lights (takeOver light acc.lightsList) := rfl
    have hseen : met Light.id Light.id Light.reachable (light :: lights) acc.lightsList =
        if (acc.lightsList.find? fun groupLight => groupLight.id = light.id).any Light.reachable then
          light :: met Light.id Light.id Light.reachable lights acc.lightsList
        else met Light.id Light.id Light.reachable lights acc.lightsList := List.filter_cons
    dsimp only
    rw [List.foldl_cons, ih, hall, hseen]
    unfold updateGroupLight
    cases hfind : acc.lightsList.find? fun groupLight => groupLight.id = light.id with
    | none =>
      have hsame : takeOver light acc.lightsList = acc.lightsList :=
        modifyFirst_eq_self (by simpa using hfind)
      simp [hsame]
    | some groupLight =>
      cases hreach : groupLight.reachable with
      | false => simp [hkept, hreach]
      | true => simp [hkept, hreach, Bool.or_assoc, add_assoc, add_comm 1]

theorem updateGroupLights_eq : updateGroupLights lights g =
    if shared lights g = [] then { g with physicalLights := lightsAfter lights g }
    else { g with
      physicalLights := lightsAfter lights g
      onState := (shared lights g).any (·.on)
      brightnessState := mean ((shared lights g).map (·.brightness)) / 100 } := by
  have hsum : ∀ l : List Light, (l.map fun light => light.brightness / 100).sum =
      (l.map (·.brightness)).sum / 100 := by
    intro l
    simp only [div_eq_mul_inv, List.sum_map_mul_right]
  unfold updateGroupLights
  rw [foldl_updateGroupLight]
  by_cases hnil : shared lights g = []
  · have hlen : (met Light.id Light.id Light.reachable lights g.physicalLights).length = 0 :=
      List.length_eq_zero_iff.mpr hnil
    simp only [hlen, hnil, if_true]
    rfl
  · have hlen : 0 < (met Light.id Light.id Light.reachable lights g.physicalLights).length :=
      List.length_pos_iff.mpr hnil
    simp only [zero_add, hlen, if_true, hnil, if_false, Bool.false_or, hsum, mean, List.length_map]
    rw [div_right_comm]
    rfl

/-- The reachable lights of a group hold the latest values of those it shares. -/
theorem lightsAfter_perm (lights : List Light) (g : Group) {γ : Type} (v : Bool → ℚ → γ) :
    (((lightsAfter lights g).filter Light.reachable).map fun light => v light.on light.brightness).Perm
      ((latest Light.id (shared lights g) ++ unshared lights g).map fun light => v light.on light.brightness) := by
  rw [List.map_append]
  exact takeAll_perm (fun _ _ => rfl) (fun _ _ => rfl) fun _ _ => rfl

/-- **The summary of another group.** -/
theorem summarised_updateGroupLights_iff : Summarised (updateGroupLights lights g) ↔ Balanced lights g := by
  have hmean := mean_perm (lightsAfter_perm lights g fun _ brightness => brightness)
  have hon : (∃ light ∈ lightsAfter lights g, light.reachable = true ∧ light.on = true) ↔
      ∃ light ∈ latest Light.id (shared lights g) ++ unshared lights g, light.on = true := by
    have hperm := (lightsAfter_perm lights g fun on _ => on).mem_iff (a := true)
    simpa only [List.mem_map, List.mem_filter, and_assoc] using hperm
  have hshared : (latest Light.id (shared lights g) ++ repeated Light.id (shared lights g)).Perm (shared lights g) :=
    latest_append_repeated_perm _
  rw [updateGroupLights_eq, Balanced]
  by_cases hnil : shared lights g = []
  · have hnone : ∀ k ∈ lights.map Light.id,
        (g.physicalLights.find? fun light => light.id = k).any Light.reachable = false := by
      intro k hk
      obtain ⟨light, hlight, rfl⟩ := List.mem_map.mp hk
      by_contra hmet
      have hmem : light ∈ shared lights g := List.mem_filter.mpr ⟨hlight, by simpa using hmet⟩
      rw [hnil] at hmem
      cases hmem
    have hunshared : unshared lights g = g.physicalLights.filter Light.reachable :=
      overlooked_filter_of_none hnone
    rw [if_pos hnil, if_pos hnil]
    rw [hnil, hunshared] at hmean hon
    change _ = mean ((g.physicalLights.filter Light.reachable).map (·.brightness)) at hmean
    unfold Summarised
    dsimp only
    rw [hmean, hon]
    simp only [latest, List.nil_append, List.mem_filter, and_assoc]
  · rw [if_neg hnil, if_neg hnil]
    dsimp only [Summarised]
    rw [hmean, hon, mean_perm (hshared.map _), div_left_inj' (by norm_num)]
    refine and_congr_left fun _ => ?_
    have hany : (shared lights g).any (·.on) = true ↔
        ∃ light ∈ latest Light.id (shared lights g) ++ repeated Light.id (shared lights g), light.on = true := by
      simp only [List.any_eq_true, hshared.mem_iff]
    rw [hany]

theorem mean_append_eq_iff {l m : List ℚ} (h : l ≠ []) : mean l = mean (l ++ m) ↔ m = [] ∨ mean m = mean l := by
  by_cases hm : m = []
  · simp [hm]
  · have hl : (l.length : ℚ) ≠ 0 := by simpa using h
    have hm' : (m.length : ℚ) ≠ 0 := by simpa using hm
    have hlm : (l.length + m.length : ℚ) ≠ 0 := by
      have hpos : 0 < l.length + m.length := Nat.add_pos_left (List.length_pos_iff.mpr h) _
      exact_mod_cast hpos.ne'
    simp only [mean, List.sum_append, List.length_append, Nat.cast_add, hm, false_or]
    rw [div_eq_div_iff hl hlm, div_eq_div_iff hm' hl]
    constructor
    · intro heq
      linarith
    · intro heq
      linarith

theorem latest_of_nodup (h : (lights.map Light.id).Nodup) : latest Light.id lights = lights := by
  induction lights with
  | nil => rfl
  | cons light lights ih =>
    rw [List.map_cons, List.nodup_cons] at h
    rw [latest, if_neg h.1, ih h.2]

/-- When the selected group lists no light twice: no light that is not shared is on unless a shared one is, and
those that are not shared are as bright, on average, as those that are. -/
theorem balanced_iff_of_nodup (hnodup : (lights.map Light.id).Nodup) (hne : shared lights g ≠ []) :
    Balanced lights g ↔
      ((∃ light ∈ unshared lights g, light.on = true) → ∃ light ∈ shared lights g, light.on = true) ∧
      (unshared lights g = [] ∨
        mean ((unshared lights g).map (·.brightness)) = mean ((shared lights g).map (·.brightness))) := by
  have hshared : ((shared lights g).map Light.id).Nodup := hnodup.sublist (List.filter_sublist.map _)
  have hmean := mean_append_eq_iff (l := (shared lights g).map (·.brightness))
    (m := (unshared lights g).map (·.brightness)) (by simpa using hne)
  rw [Balanced, if_neg hne, latest_of_nodup hshared, repeated_eq_nil hshared]
  dsimp only
  rw [List.append_nil, List.map_append, hmean, List.map_eq_nil_iff]
  refine and_congr_left fun _ => ?_
  simp only [List.mem_append, or_and_right, exists_or]
  exact ⟨fun h hunshared => h.mpr (.inr hunshared), fun h => ⟨.inl, fun hor => hor.elim id h⟩⟩

/-! ### A call -/

theorem getBaseUrl_ne (b : Bridge) (useClipV2 eventing : Bool) : b.getBaseUrl σ useClipV2 eventing ≠ "" := by
  intro heq
  have hlist := congrArg String.toList heq
  simp [Bridge.getBaseUrl, Bridge.getApiRootUrl, Bridge.getUrl] at hlist

/-- The address of a bridge is never empty, so that the loop over the lights comes to its end. -/
theorem putLights_eq (σ : BridgeSettings) (b : Bridge) (op : Operation) (lights : List Light) : ∃ puts,
    BasicGroupLightController.putLights σ b op lights = (lights.map op.setLight, puts, true) := by
  induction lights with
  | nil => exact ⟨[], rfl⟩
  | cons light lights ih =>
    obtain ⟨puts, hputs⟩ := ih
    refine ⟨{ op.body with url := b.getBaseUrl σ true false ++ "/light/" ++ light.id } :: puts, ?_⟩
    rw [BasicGroupLightController.putLights, if_neg (getBaseUrl_ne b true false), hputs]
    rfl

/-- The other groups take over the lights of the selected one. -/
theorem setLights_getElem? {i : ℕ} (hvalid : b.isValidGroupSelected = true) (hi : i ≠ selectedIndex b) :
    (BasicGroupLightController.setLights σ b op).1.groups[i]? =
      b.groups[i]?.map (updateGroupLights (fromLights op b)) := by
  obtain ⟨group, hgroup⟩ : ∃ group, b.groups[selectedIndex b]? = some group := by
    rw [Bridge.isValidGroupSelected, Bridge.getGroup, Bridge.getGroupById, List.find?_eq_getElem?_findIdx] at hvalid
    exact Option.isSome_iff_exists.mp hvalid
  obtain ⟨puts, hputs⟩ := putLights_eq σ b op (op.updateGroup group).physicalLights
  unfold BasicGroupLightController.setLights fromLights
  simp only [hgroup, hputs, List.getElem?_mapIdx, hi, if_false, if_true]

theorem setLights_length :
    (BasicGroupLightController.setLights σ b op).1.groups.length = b.groups.length := by
  unfold BasicGroupLightController.setLights
  split
  · rfl
  · exact List.length_mapIdx

/-- A call neither adds lights to the selected group nor takes any away. -/
theorem fromLights_ids (pow : ℚ → ℚ) (call : LightCall) :
    (fromLights (call.operation pow) b).map Light.id = selectedIds b := by
  unfold fromLights selectedIds
  cases b.groups[selectedIndex b]? with
  | none => rfl
  | some group =>
    cases call with
    | _ => simp [LightCall.operation, Operation.setOn, Operation.setBrightness, Operation.setColor,
        Operation.setPreset, Operation.setPresetValues, updateGroupOn, updateGroupBrightness, updateGroupColor]

theorem physicalLights_updateGroupLights :
    (updateGroupLights lights g).physicalLights = lightsAfter lights g := by
  rw [updateGroupLights_eq]
  split_ifs <;> rfl

/-- **When the other groups are summarised.** After a call on a bridge of the second version with a valid
selected group they are exactly when each of them is balanced, or when nothing is done, when each of them was
summarised before. -/
theorem othersSummarised_iff (call : LightCall) (hb : c.bridge = some b)
    (hclip : b.isSupportingClipV2 σ = true) (hvalid : b.isValidGroupSelected = true) :
    OthersSummarised b (c.execute σ (call.operation pow)) ↔
      ∀ i g, b.groups[i]? = some g → i ≠ selectedIndex b →
        if b.isConnectable σ = true then Balanced (fromLights (call.operation pow) b) g else Summarised g := by
  unfold BasicGroupLightController.execute OthersSummarised
  rw [hb]
  by_cases hconn : b.isConnectable σ = true
  · simp only [hconn, hvalid, hclip, Bool.not_true, Bool.or_self, Bool.false_eq_true, if_false, if_true,
      Option.some.injEq, exists_eq_left', setLights_length, true_and]
    constructor
    · intro h i g hg hi
      have hg' : (BasicGroupLightController.setLights σ b (call.operation pow)).1.groups[i]? = _ :=
        setLights_getElem? hvalid hi
      rw [hg, Option.map_some] at hg'
      exact summarised_updateGroupLights_iff.mp (h i g _ hg hg' hi).1
    · intro h i g g' hg hg' hi
      rw [setLights_getElem? hvalid hi, hg, Option.map_some] at hg'
      obtain rfl := Option.some.inj hg'
      refine ⟨summarised_updateGroupLights_iff.mpr (h i g hg hi), ?_⟩
      rw [physicalLights_updateGroupLights, ← fromLights_ids pow call]
      exact filter_takeAll fun _ _ => rfl
  · simp only [hconn, Bool.not_false, Bool.true_or, Bool.false_eq_true, if_true, if_false, hb,
      Option.some.injEq, exists_eq_left', true_and]
    constructor
    · intro h i g hg hi
      exact (h i g g hg hg hi).1
    · intro h i g g' hg hg' hi
      obtain rfl := Option.some.inj (hg.symm.trans hg')
      exact ⟨h i g hg hi, rfl⟩

instance (g : Group) : Decidable (Summarised g) := by
  unfold Summarised
  infer_instance

instance (lights : List Light) (g : Group) : Decidable (Balanced lights g) := by
  unfold Balanced
  infer_instance

/-- A bridge whose selected group `a` has the light `1`; the group `b` has it too, with other lights. -/
def overlappingBridge (others : List Light) : Bridge :=
  { id := "1", ipAddress := "10.0.0.1", modelId := "BSB002", user := "user", isAuthorized := true
    swversion := "1948086000", selectedGroup := "a"
    groups := [{ id := "a", physicalLights := [{ id := "1", on := true, brightness := 50 }] },
      { id := "b", physicalLights := { id := "1", on := true, brightness := 50 } :: others }] }

/-- The group has no other lights. -/
theorem othersSummarised_setOn : OthersSummarised (overlappingBridge [])
    (BasicGroupLightController.execute {} { bridge := some (overlappingBridge []) }
      (LightCall.operation id (.setOn false))) := by
  have hall : ∀ i < 2, ∀ g ∈ (overlappingBridge []).groups[i]?, i ≠ selectedIndex (overlappingBridge []) →
      if (overlappingBridge []).isConnectable {} = true then
        Balanced (fromLights (LightCall.operation id (.setOn false)) (overlappingBridge [])) g
      else Summarised g := by decide +kernel
  refine (othersSummarised_iff (.setOn false) rfl (by decide +kernel) (by decide +kernel)).mpr ?_
  intro i g hg hi
  exact hall i (List.getElem?_eq_some_iff.mp hg).1 g hg hi

/-- The group has another light, which is on and stays so: switching the shared one off makes the group off. -/
theorem exists_not_othersSummarised :
    let b := overlappingBridge [{ id := "2", on := true, brightness := 100 }]
    let c := BasicGroupLightController.execute {} { bridge := some b } (LightCall.operation id (.setOn false))
    ¬ OthersSummarised b c ∧ (c.bridge.bind fun b' => b'.groups[1]?).map
      (fun g => (g.onState, g.brightnessState)) = some (false, 1 / 2) := by
  intro b c
  refine ⟨?_, by decide +kernel⟩
  rintro ⟨b', hb', -, h⟩
  have hbad : (c.bridge.bind fun b' => b'.groups[1]?).map (fun g => decide (Summarised g)) = some false := by
    decide +kernel
  rw [hb'] at hbad
  obtain ⟨g', hg', hnot⟩ := Option.map_eq_some_iff.mp hbad
  exact of_decide_eq_false hnot (h 1 _ g' rfl hg' (by decide +kernel)).1

end HueStream.Lights
