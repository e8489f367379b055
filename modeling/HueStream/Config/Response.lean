import HueStream.Config.Groups

/-! # The end of a configuration request

`ParseResponseAndExecuteCallback` makes of an answer either a new configuration of the bridge or a failure. The
flags of the bridge are set before the parts of the configuration are looked for, and a failure ends the
streaming of the selected group.

* `failsCleanly`: what a failure leaves as it was.
* `exists_changed_by_failure`: what it does not. -/

namespace HueStream.Config

open HueStream.Data HueStream.Flow HueStream.Json HueStream.Lib

/-- The error of the first entry of an array that has one. -/
def errorOf (root : JSONNode) : Option JSONNode :=
  if root.isArray then root.asArray.findSome? fun entry => entry.find "error" else none

section Parsing

variable (atof : String → ℚ) (pow : ℚ → ℚ) (σ : BridgeSettings) (useForcedActivation : Bool) (configType : ConfigType)
  (root : JSONNode) (b : Bridge)

/-- `CheckForNoErrorsInResponse`; `CLIP_ERROR_TYPE_UNAUTHORIZED_USER` is 1. -/
def checkForNoErrorsInResponse : Bool × Bridge :=
  match errorOf root with
  | some error =>
    if (error.find "type").any fun type => type.asLong atof = 1 then
      (false, { b with isAuthorized := false, isValidIp := true })
    else (false, { b with isValidIp := false })
  | none =>
    (true, { b with isAuthorized := if configType = .full then true else b.isAuthorized, isValidIp := true })

/-- `ParseResponseAndExecuteCallback` up to `Finish`; `none` is an exception. -/
def parseResponse : Option (OperationResult × Bridge) :=
  if root.isNull then some (.failed, { b with isValidIp := false })
  else
    let checked := checkForNoErrorsInResponse atof configType root b
    if !checked.1 then some (.failed, checked.2)
    else do
      let parsed ← parseConfig configType root checked.2
      if !parsed.1 then return (.failed, parsed.2)
      if configType = .full then
        let b ← parseGroups atof pow root parsed.2
        let b ← parseCapabilities atof root σ useForcedActivation b
        return (.success, b)
      return (.success, parsed.2)

/-- The groups after the selected one, if the user of the bridge streams to it, has been set inactive. -/
def deactivated : List Group :=
  if b.getGroup.any fun group => group.active && group.owner = b.user then
    modifyFirst (fun group => group.id = b.selectedGroup)
      (fun group => { group with active := false, owner := "" }) b.groups
  else b.groups

/-- `Finish`, up to the callback. -/
def finish (result : OperationResult) : Bridge :=
  if result = .failed then { b with groups := deactivated b } else b

def parseResponseAndExecuteCallback : Option (OperationResult × Bridge) :=
  (parseResponse atof pow σ useForcedActivation configType root b).map fun outcome =>
    (outcome.1, finish outcome.2 outcome.1)

end Parsing

/-- A full answer that has a configuration, but not the groups or the lights. -/
def HasConfigOnly (configType : ConfigType) (root : JSONNode) : Prop :=
  configType = .full ∧ root.isAttributeSet "config" = true ∧
    (root.isAttributeSet "groups" = false ∨ root.isAttributeSet "lights" = false)

/-- What a failure leaves as it was: all but the flags and the streaming of the selected group. -/
structure FailsCleanly (configType : ConfigType) (root : JSONNode) (b b' : Bridge) : Prop where
  groups : b'.groups = deactivated b
  identity : ¬ HasConfigOnly configType root → b'.name = b.name ∧ b'.modelId = b.modelId ∧
    b'.apiversion = b.apiversion ∧ b'.swversion = b.swversion ∧ b'.id = b.id
  authorized : b'.isAuthorized = true → b.isAuthorized = true ∨ configType = .full ∧ errorOf root = none
  others : { b' with
    name := b.name, modelId := b.modelId, apiversion := b.apiversion, swversion := b.swversion, id := b.id
    groups := b.groups, isValidIp := b.isValidIp, isAuthorized := b.isAuthorized } = b

variable {atof : String → ℚ} {pow : ℚ → ℚ} {σ : BridgeSettings} {useForcedActivation : Bool}
  {configType : ConfigType} {root : JSONNode} {b b' b₁ : Bridge}

/-- Only the flags differ. -/
def SameButFlags (b b' : Bridge) : Prop :=
  { b' with isValidIp := b.isValidIp, isAuthorized := b.isAuthorized } = b

theorem deactivated_congr (hgroups : b'.groups = b.groups) (hselected : b'.selectedGroup = b.selectedGroup)
    (huser : b'.user = b.user) : deactivated b' = deactivated b := by
  have hgroup : b'.getGroup = b.getGroup := by
    unfold Bridge.getGroup Bridge.getGroupById
    rw [hgroups, hselected]
  unfold deactivated
  rw [hgroup, hgroups, hselected, huser]

/-- A failure after nothing but the flags was written. -/
theorem failsCleanly_of_flags (h : SameButFlags b b')
    (hauthorized : b'.isAuthorized = true → b.isAuthorized = true ∨ configType = .full ∧ errorOf root = none) :
    FailsCleanly configType root b (finish b' .failed) := by
  have heq : b = { b' with isValidIp := b.isValidIp, isAuthorized := b.isAuthorized } := h.symm
  have hdeactivated : deactivated b' = deactivated b := by
    rw [heq]
    exact deactivated_congr rfl rfl rfl
  refine ⟨hdeactivated, fun _ => ?_, hauthorized, ?_⟩
  · rw [heq]
    exact ⟨rfl, rfl, rfl, rfl, rfl⟩
  · rw [heq]
    rfl

variable (atof configType root b) in
/-- The flags after the check. -/
theorem check_eq : SameButFlags b (checkForNoErrorsInResponse atof configType root b).2 ∧
    ((checkForNoErrorsInResponse atof configType root b).1 = true ↔ errorOf root = none) ∧
    ((checkForNoErrorsInResponse atof configType root b).2.isAuthorized = true →
      b.isAuthorized = true ∨ configType = .full ∧ errorOf root = none) := by
  unfold checkForNoErrorsInResponse
  cases herror : errorOf root with
  | some error =>
    dsimp only
    split_ifs with htype
    · refine ⟨rfl, by simp, fun h => ?_⟩
      cases h
    · exact ⟨rfl, by simp, fun h => .inl h⟩
  | none =>
    refine ⟨rfl, by simp, fun h => ?_⟩
    by_cases hfull : configType = .full
    · exact .inr ⟨hfull, rfl⟩
    · dsimp only at h
      rw [if_neg hfull] at h
      exact .inl h

/-- `ParseConfig` fails before it has written anything but a flag, or where it misses the groups or the
lights. -/
theorem parseConfig_failed (h : parseConfig configType root b = some (false, b')) :
    b' = { b with isValidIp := false } ∨ HasConfigOnly configType root ∧
      { b' with
        name := b.name, modelId := b.modelId, apiversion := b.apiversion, swversion := b.swversion, id := b.id
        isValidIp := b.isValidIp } = b := by
  unfold parseConfig at h
  cases hnode : configNode configType root with
  | none =>
    rw [hnode] at h
    obtain ⟨-, rfl⟩ := Prod.mk.inj (Option.some.inj h)
    exact .inl rfl
  | some config =>
    rw [hnode] at h
    simp only [Option.bind_eq_bind, Option.bind_eq_some_iff] at h
    obtain ⟨thisVersion, -, h⟩ := h
    split_ifs at h with hmissing
    · obtain ⟨-, rfl⟩ := Prod.mk.inj (Option.some.inj h)
      obtain ⟨hfull, hmissing⟩ := hmissing
      refine .inr ⟨⟨hfull, ?_, by simpa using hmissing⟩, rfl⟩
      subst hfull
      have hconfig : root.find "config" = some config := hnode
      unfold JSONNode.isAttributeSet
      rw [hconfig]
      rfl
    · cases h

/-- The three ways to fail. -/
theorem parseResponse_failed (h : parseResponse atof pow σ useForcedActivation configType root b = some (.failed, b')) :
    b' = { b with isValidIp := false } ∨ b' = (checkForNoErrorsInResponse atof configType root b).2 ∨
      (checkForNoErrorsInResponse atof configType root b).1 = true ∧
        parseConfig configType root (checkForNoErrorsInResponse atof configType root b).2 = some (false, b') := by
  by_cases hnull : root.isNull = true
  · rw [parseResponse, if_pos hnull] at h
    exact .inl (Prod.mk.inj (Option.some.inj h)).2.symm
  · rw [parseResponse, if_neg hnull] at h
    by_cases hcheck : (checkForNoErrorsInResponse atof configType root b).1 = true
    · simp only [hcheck, Bool.not_true, Bool.false_eq_true, if_false, Option.bind_eq_bind,
        Option.bind_eq_some_iff] at h
      obtain ⟨⟨parsed, b₁⟩, hparse, h⟩ := h
      cases parsed with
      | false =>
        obtain rfl := (Prod.mk.inj (Option.some.inj h)).2
        exact .inr (.inr ⟨hcheck, hparse⟩)
      | true =>
        -- What comes after `ParseConfig` succeeds or throws.
        simp only [Bool.not_true, Bool.false_eq_true, if_false] at h
        by_cases hfull : configType = .full
        · simp [hfull, Option.bind_eq_some_iff] at h
        · simp [hfull] at h
    · rw [Bool.not_eq_true] at hcheck
      simp only [hcheck, Bool.not_false, if_true] at h
      exact .inr (.inl (Prod.mk.inj (Option.some.inj h)).2.symm)

/-- **A failed request leaves the configuration.** Only the flags change and the streaming of the selected group
ends, unless the answer has a configuration without groups or lights; and only an answer to a full request in
which there is no error authorizes. -/
theorem failsCleanly
    (h : parseResponseAndExecuteCallback atof pow σ useForcedActivation configType root b = some (.failed, b')) :
    FailsCleanly configType root b b' := by
  obtain ⟨⟨result, b₁⟩, hresponse, hfinish⟩ := Option.map_eq_some_iff.mp h
  obtain ⟨rfl, rfl⟩ := Prod.mk.inj hfinish
  obtain ⟨hflags, hnoErrors, hauthorized⟩ := check_eq atof configType root b
  rcases parseResponse_failed hresponse with rfl | rfl | ⟨hcheck, hparse⟩
  · exact failsCleanly_of_flags rfl Or.inl
  · exact failsCleanly_of_flags hflags hauthorized
  · generalize (checkForNoErrorsInResponse atof configType root b).2 = b₀ at hflags hauthorized hparse
    rcases parseConfig_failed hparse with rfl | ⟨honly, hwritten⟩
    · exact failsCleanly_of_flags hflags hauthorized
    · have heq : b = { b₀ with isValidIp := b.isValidIp, isAuthorized := b.isAuthorized } := hflags.symm
      have hgroups : b₁.groups = b₀.groups := by rw [← hwritten]
      have hselected : b₁.selectedGroup = b₀.selectedGroup := by rw [← hwritten]
      have huser : b₁.user = b₀.user := by rw [← hwritten]
      have hflag : b₁.isAuthorized = b₀.isAuthorized := by rw [← hwritten]
      refine ⟨?_, fun hnot => absurd honly hnot, fun h => hauthorized (hflag ▸ h), ?_⟩
      · rw [heq]
        exact deactivated_congr hgroups hselected huser
      · have hrest := congrArg (fun b₀ : Bridge => { b₀ with
          isValidIp := b.isValidIp, isAuthorized := b.isAuthorized }) hwritten
        simp only [hgroups] at hrest
        refine Eq.trans ?_ (hrest.trans hflags)
        rw [heq]
        rfl

/-- A bridge to which the user of this application streams. -/
def streamingBridge : Bridge where
  name := "Kitchen"
  id := "0017880000000001"
  user := "user"
  isAuthorized := true
  groups := [{ id := "1", active := true, owner := "user" }]
  selectedGroup := "1"

/-- An error that is none of authorization. -/
def unknownError : JSONNode := .array [.node [("error", .node [("type", .number 3 "3")])]]

theorem failsCleanly_example : ∃ b', parseResponseAndExecuteCallback (fun _ => 0) id {} true .full unknownError
    streamingBridge = some (.failed, b') ∧ FailsCleanly .full unknownError streamingBridge b' := by
  have hsome : (parseResponseAndExecuteCallback (fun _ => 0) id {} true .full unknownError streamingBridge).any
      (fun outcome => outcome.1 = .failed) = true := by decide +kernel
  obtain ⟨⟨result, b'⟩, hparse, hresult⟩ := (Option.any_eq_true _ _).mp hsome
  obtain rfl : result = .failed := of_decide_eq_true hresult
  exact ⟨b', hparse, failsCleanly hparse⟩

/-- A failure ends the streaming of the selected group. An answer without any part of a configuration authorizes
the bridge, and one without lights has the name and the id of the bridge replaced. -/
theorem exists_changed_by_failure :
    (∃ b', parseResponseAndExecuteCallback (fun _ => 0) id {} true .full unknownError streamingBridge =
      some (.failed, b') ∧ b'.groups.map Group.active = [false] ∧ streamingBridge.groups.map Group.active = [true]) ∧
    (∃ b', parseResponseAndExecuteCallback (fun _ => 0) id {} true .full (.node []) {} = some (.failed, b') ∧
      b'.isAuthorized = true) ∧
    ∃ b', parseResponseAndExecuteCallback (fun _ => 0) id {} true .full
      (.node [("config", .node []), ("groups", .node [])]) streamingBridge = some (.failed, b') ∧
      b'.name = "" ∧ b'.id = "" := by
  refine ⟨?_, ?_, ?_⟩
  · have hsome : (parseResponseAndExecuteCallback (fun _ => 0) id {} true .full unknownError streamingBridge).any
        (fun outcome => outcome.1 = .failed ∧ outcome.2.groups.map Group.active = [false] ∧
          streamingBridge.groups.map Group.active = [true]) = true := by decide +kernel
    obtain ⟨⟨result, b'⟩, hparse, hresult⟩ := (Option.any_eq_true _ _).mp hsome
    obtain ⟨rfl, hgroups⟩ := of_decide_eq_true hresult
    exact ⟨b', hparse, hgroups⟩
  · have hsome : (parseResponseAndExecuteCallback (fun _ => 0) id {} true .full (.node []) {}).any
        (fun outcome => outcome.1 = .failed ∧ outcome.2.isAuthorized = true) = true := by decide +kernel
    obtain ⟨⟨result, b'⟩, hparse, hresult⟩ := (Option.any_eq_true _ _).mp hsome
    obtain ⟨rfl, hauthorized⟩ := of_decide_eq_true hresult
    exact ⟨b', hparse, hauthorized⟩
  · have hsome : (parseResponseAndExecuteCallback (fun _ => 0) id {} true .full
        (.node [("config", .node []), ("groups", .node [])]) streamingBridge).any
        (fun outcome => outcome.1 = .failed ∧ outcome.2.name = "" ∧ outcome.2.id = "") = true := by decide +kernel
    obtain ⟨⟨result, b'⟩, hparse, hresult⟩ := (Option.any_eq_true _ _).mp hsome
    obtain ⟨rfl, hidentity⟩ := of_decide_eq_true hresult
    exact ⟨b', hparse, hidentity⟩

end HueStream.Config
