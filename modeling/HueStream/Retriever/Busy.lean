import HueStream.Retriever.Summary

/-! # The busy flag

Whether a bridge is busy is decided where the stream of a group is parsed: for a group that is added
before it is in the list, not at all when one is deleted, and not when the bridge turns out to be
streaming. So each of the three events has its own condition for the flag to be right afterwards. -/

namespace HueStream.Retriever

open HueStream.Data HueStream.Flow HueStream.Json HueStream.Lib

variable {ε : Context} {c c' : Cache} {n : JSONNode}

/-- The sessions a bridge has left. -/
def sessionsLeft (b : Bridge) : ℤ := b.maxNoStreamingSessions - b.getCurrentNoStreamingSessions

/-- Whether the selected group is active and may be taken over. -/
def canBeOvertaken (ε : Context) (b : Bridge) : Bool :=
  b.getGroup.any (·.active) && ε.useForcedActivation

theorem isBusyNow_eq (ε : Context) (b : Bridge) :
    isBusyNow ε b = (sessionsLeft b ≤ 0 && !canBeOvertaken ε b) := by
  have hvalid : (b.isValidGroupSelected && b.getGroup.any (·.active)) = b.getGroup.any (·.active) := by
    unfold Bridge.isValidGroupSelected
    cases b.getGroup <;> simp
  simp only [isBusyNow, sessionsLeft, canBeOvertaken, hvalid]
  rfl

/-- A bridge with what an event says about the stream of the first group with an id. -/
def withStream (b : Bridge) (id : String) (active : Bool) (owner : String) : Bridge :=
  { b with groups := modifyFirst (fun g => g.id = id) (fun g => { g with active, owner }) b.groups }

/-- The events after which the busy flag is right.

* A group that is added is not active; or it takes neither the last session nor is the missing
  selected group; or, where it is that, some session was left; or the selected group can be taken
  over anyway.
* An update that makes the bridge streaming leaves a session, or groups may be taken over; an update
  of an unknown group finds the flag right.
* A deletion finds the flag as it is to be without the group. -/
def keepsBusy (ε : Context) (c : Cache) : Change → Bool
  | ⟨.add, .entertainmentConfiguration, n⟩ =>
    !activeAfter n {} ||
      if c.bridge.getGroup.isNone && c.bridge.selectedGroup = n.deserializeString "id" &&
          ε.useForcedActivation then 1 ≤ sessionsLeft c.bridge
      else sessionsLeft c.bridge ≠ 1 || canBeOvertaken ε c.bridge
  | ⟨.update, .entertainmentConfiguration, n⟩ => (n.find "id").all fun id =>
    match c.bridge.getGroupById id.asString with
    | none => c.bridge.isBusy = isBusyNow ε c.bridge
    | some group =>
      let b := withStream c.bridge id.asString (activeAfter n group) (ownerAfter n group)
      !b.isStreaming ε.settings || ε.useForcedActivation || 1 ≤ sessionsLeft b
  | ⟨.delete, .entertainmentConfiguration, n⟩ => (n.find "id").all fun id =>
    let rest := c.bridge.groups.eraseP fun g => g.id = id.asString
    let selectedGroup := if c.sendFeedback && c.bridge.selectedGroup = id.asString then ""
      else c.bridge.selectedGroup
    c.bridge.isBusy = (c.bridge.maxNoStreamingSessions ≤ rest.countP (·.active) &&
      !((rest.find? (·.id = selectedGroup)).any (·.active) && ε.useForcedActivation))
  | _ => true

/-! ### A group that is added -/

theorem sessionsLeft_append (b : Bridge) (group : Group) :
    sessionsLeft { b with groups := b.groups ++ [group] } =
      sessionsLeft b - if group.active then 1 else 0 := by
  simp only [sessionsLeft, Bridge.getCurrentNoStreamingSessions, List.countP_append,
    List.countP_singleton]
  split_ifs <;> push_cast <;> omega

theorem canBeOvertaken_append (b : Bridge) (group : Group) :
    canBeOvertaken ε { b with groups := b.groups ++ [group] } =
      (canBeOvertaken ε b || (b.getGroup.isNone && b.selectedGroup = group.id && group.active &&
        ε.useForcedActivation)) := by
  have hgetGroup : ({ b with groups := b.groups ++ [group] } : Bridge).getGroup =
      b.getGroup.or (if group.id = b.selectedGroup then some group else none) := by
    simp only [Bridge.getGroup, Bridge.getGroupById, List.find?_append, List.find?_singleton,
      decide_eq_true_eq]
  simp only [canBeOvertaken, hgetGroup]
  cases b.getGroup with
  | some old => simp
  | none => by_cases hid : group.id = b.selectedGroup <;> simp [hid, eq_comm]

theorem isBusyNow_append_iff (b : Bridge) (group : Group) :
    isBusyNow ε b = isBusyNow ε { b with groups := b.groups ++ [group] } ↔
      (!group.active ||
        if b.getGroup.isNone && b.selectedGroup = group.id && ε.useForcedActivation then
          decide (1 ≤ sessionsLeft b)
        else sessionsLeft b ≠ 1 || canBeOvertaken ε b) = true := by
  rw [isBusyNow_eq, isBusyNow_eq, sessionsLeft_append, canBeOvertaken_append]
  cases hactive : group.active with
  | false => simp
  | true =>
    by_cases hnew : (b.getGroup.isNone && b.selectedGroup = group.id && ε.useForcedActivation) = true
    · have hnone : canBeOvertaken ε b = false := by
        simp only [Bool.and_eq_true, Option.isNone_iff_eq_none] at hnew
        simp [canBeOvertaken, hnew.1.1]
      rw [if_pos hnew, hnone]
      simp only [Bool.and_eq_true, decide_eq_true_eq] at hnew
      simp only [hnew]
      simp
      omega
    · rw [if_neg hnew]
      have hold : (b.getGroup.isNone && decide (b.selectedGroup = group.id) && true &&
          ε.useForcedActivation) = false := by simpa using hnew
      rw [hold, Bool.or_false]
      cases canBeOvertaken ε b with
      | true => simp
      | false =>
        have hless : (sessionsLeft b ≤ 0 ↔ sessionsLeft b - 1 ≤ 0) ↔ sessionsLeft b ≠ 1 := by omega
        simp only [Bool.not_false, Bool.and_true, Bool.not_true, Bool.false_or, Bool.or_false, if_true,
          decide_eq_true_eq, decide_eq_decide]
        exact hless

/-! ### A group whose stream changes -/

theorem of_isStreaming {σ : BridgeSettings} {b : Bridge} (h : b.isStreaming σ = true) :
    b.isBusy = false ∧ b.getGroup.any (·.active) = true := by
  rw [Bridge.isStreaming, decide_eq_true_eq] at h
  unfold Bridge.getStatus at h
  cases hgroup : b.getGroup with
  | none => simp only [hgroup, ite_eq_iff, reduceCtorEq, and_false, or_false] at h
  | some group =>
    simp only [hgroup, ite_eq_iff, reduceCtorEq, and_false, or_false, false_or] at h
    obtain ⟨-, -, -, -, -, -, -, -, hbusy, hstreaming, -⟩ := h
    rw [Bool.and_eq_true] at hstreaming
    exact ⟨Bool.eq_false_iff.mpr hbusy, hstreaming.1⟩

/-- The group an update has made has the stream the event tells of. -/
theorem map_streamOf_put {id : String} {old new : Group} (hold : c.bridge.getGroupById id = some old)
    (hid : new.id = old.id) (hactive : new.active = activeAfter n old)
    (howner : new.owner = ownerAfter n old) :
    (c.putGroup (some id) new).bridge.groups.map streamOf =
      (withStream c.bridge id (activeAfter n old) (ownerAfter n old)).groups.map streamOf := by
  refine map_modifyFirst_congr fun group hgroup => ?_
  obtain rfl : old = group := Option.some.inj (hold.symm.trans hgroup)
  simp only [streamOf, hid, hactive, howner]

/-! ### The three events -/

/-- **The busy flag is right** after an event about an entertainment configuration, handled while the
bridge is not streaming, exactly when the event keeps it so. -/
theorem busy_iff {change : Change} (hec : change.resource = .entertainmentConfiguration)
    (hhandle : handle ε c change = some c') (hidle : c.bridge.isStreaming ε.settings = false) :
    c'.bridge.isBusy = isBusyNow ε c'.bridge ↔ keepsBusy ε c change = true := by
  obtain ⟨eventType, resource, n⟩ := change
  obtain rfl : resource = _ := hec
  cases eventType with
  | add =>
    obtain ⟨group, _, _, _, hgroup, -, rfl⟩ := addEntertainmentConfiguration_cases hhandle
    obtain ⟨lights, channels, -, -, hid, hactive, -⟩ := hgroup
    have hbefore : (updateBusy ε c).bridge.isBusy = isBusyNow ε c.bridge := by
      simp [updateBusy, hidle]
    have hafter : isBusyNow ε c.bridge =
        isBusyNow ε { c.bridge with groups := c.bridge.groups ++ [group] } ↔
          keepsBusy ε c ⟨.add, .entertainmentConfiguration, n⟩ = true := by
      have happend := isBusyNow_append_iff (ε := ε) c.bridge group
      rw [hactive, hid] at happend
      exact happend
    rw [← hafter, ← hbefore]
    rfl
  | update =>
    obtain ⟨id, hid, ⟨hnone, rfl⟩ | ⟨old, new, _, _, _, hold,
        ⟨lights, channels, -, -, hnewid, hactive, howner, -⟩, -, rfl⟩⟩ :=
      updateEntertainmentConfiguration_cases hhandle
    · simp [keepsBusy, hid, hnone]
    have hstreams := map_streamOf_put hold hnewid hactive howner
    set b := withStream c.bridge id.asString (activeAfter n old) (ownerAfter n old) with hb
    have hstreaming : (c.putGroup (some id.asString) new).bridge.isStreaming ε.settings =
        b.isStreaming ε.settings := isStreaming_congr ε.settings hstreams
    have hbusy : isBusyNow ε (c.putGroup (some id.asString) new).bridge = isBusyNow ε b :=
      isBusyNow_congr hstreams
    have hkeeps : keepsBusy ε c ⟨.update, .entertainmentConfiguration, n⟩ =
        (!b.isStreaming ε.settings || ε.useForcedActivation || decide (1 ≤ sessionsLeft b)) := by
      simp only [keepsBusy, hid, Option.all_some, hold, hb]
    have hflag : (updateBusy ε (c.putGroup (some id.asString) new)).bridge.isBusy =
        if b.isStreaming ε.settings then c.bridge.isBusy else isBusyNow ε b := by
      rw [← hstreaming, ← hbusy]
      rfl
    have hnow : isBusyNow ε (updateBusy ε (c.putGroup (some id.asString) new)).bridge =
        isBusyNow ε b := hbusy
    rw [hkeeps]
    show (updateBusy ε (c.putGroup (some id.asString) new)).bridge.isBusy =
      isBusyNow ε (updateBusy ε (c.putGroup (some id.asString) new)).bridge ↔ _
    rw [hflag, hnow]
    by_cases hstreams : b.isStreaming ε.settings = true
    · obtain ⟨hidle, hactive⟩ := of_isStreaming hstreams
      have hidle : c.bridge.isBusy = false := hidle
      have hleft : 0 < sessionsLeft b ↔ 1 ≤ sessionsLeft b := by omega
      rw [if_pos hstreams, hidle, isBusyNow_eq, canBeOvertaken, hactive, hstreams]
      cases ε.useForcedActivation <;> simp [hleft]
    · simp [hstreams]
  | delete =>
    obtain ⟨id, _, hid, rfl⟩ := deleteEntertainmentConfiguration_cases hhandle
    simp only [keepsBusy, hid, Option.all_some, decide_eq_true_eq]
    rw [isBusyNow_eq]
    simp only [sessionsLeft, Bridge.getCurrentNoStreamingSessions, canBeOvertaken, Bridge.getGroup,
      Bridge.getGroupById, tsub_le_iff_right, zero_add]

/-! ### The last session is taken -/

/-- A device that is a bridge. -/
def bridgeDevice : JSONNode := .node [("id", .string "device"),
  ("services", .array [.node [("rid", .string "bridge"), ("rtype", .string "bridge")]])]

/-- The bridge, which has one streaming session. -/
def bridgeNode : JSONNode := .node [("id", .string "bridge"), ("bridge_id", .string "1")]

/-- A fetch of the bridge alone. -/
def fetchBridge : List Input :=
  [.item bridgeDevice, .resourceDone, .resourceDone, .resourceDone, .item bridgeNode] ++
    List.replicate 5 .resourceDone

/-- An entertainment configuration with this status. -/
def configurationWith (status : String) : Change :=
  ⟨.add, .entertainmentConfiguration, .node [("id", .string "group"), ("status", .string status)]⟩

theorem busy_iff_inactive : ∃ c' : Cache, handle {} {} (configurationWith "inactive") = some c' ∧
    c'.bridge.isBusy = isBusyNow {} c'.bridge := by
  have h : (handle {} {} (configurationWith "inactive")).isSome = true := by decide +kernel
  obtain ⟨c', hc'⟩ := Option.isSome_iff_exists.mp h
  exact ⟨c', hc', (busy_iff rfl hc' (by decide)).mpr (by decide)⟩

/-- A bridge with one session, which an added group takes, does not count as busy. -/
theorem exists_busy_bridge_with_flag_unset :
    ∃ ts c c', (retriever {}).Run ts c ∧ c.resourceToGet = none ∧
      c.bridge.isStreaming ({} : Context).settings = false ∧
      handle {} c (configurationWith "active") = some c' ∧
      ¬ c'.bridge.isBusy = isBusyNow {} c'.bridge := by
  obtain ⟨ts, c, hrun, h⟩ := Machine.exists_run (M := retriever {}) (s := {}) fetchBridge
    (fun _ c => c.resourceToGet = none && !c.bridge.isStreaming ({} : Context).settings &&
      (handle {} c (configurationWith "active")).any fun c' =>
        c'.bridge.isBusy ≠ isBusyNow {} c'.bridge)
    cleared_empty (by decide +kernel)
  rw [Bool.and_eq_true, Bool.and_eq_true, decide_eq_true_eq, Bool.not_eq_true',
    Option.any_eq_true] at h
  obtain ⟨⟨hnone, hidle⟩, c', hc', hne⟩ := h
  exact ⟨ts, c, c', hrun, hnone, hidle, hc', of_decide_eq_true hne⟩

end HueStream.Retriever
