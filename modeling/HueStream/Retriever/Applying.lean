import HueStream.Retriever.Deleting

/-! # What a light update leaves out

An event may ask for several attributes of a light, and the light may have copies in several groups and
zones. `UpdateLight` takes the first member of its chain that the event has, writes to the first copy in each
list, and writes a colour no more once a copy has shown it. So an event is applied just as far as what is left
out at a copy is what this copy shows already (`Covers`). -/

namespace HueStream.Retriever

open HueStream.Data HueStream.Json HueStream.Lib

/-- The supported attributes an event has. -/
structure LightRequest where
  name : Option String := none
  on : Option Bool := none
  brightness : Option ℚ := none
  color : Option (ℚ × ℚ) := none
  dynamicEnabled : Option Bool := none

namespace LightRequest

variable (ε : Context) (r : LightRequest)

def ofNode (n : JSONNode) : LightRequest where
  name := (n.find "metadata").bind fun metadata => (metadata.asNode.find "name").map (·.asString)
  on := (n.find "on").bind fun on => (on.find "on").map (·.asBool)
  brightness := (n.find "dimming").bind fun dimming => (dimming.find "brightness").map (·.asFloat ε.atof)
  color := (n.find "color").bind fun color => (color.find "xy").bind fun xy => do
    return ((← xy.asNode.find "x").asFloat ε.atof, (← xy.asNode.find "y").asFloat ε.atof)
  dynamicEnabled := (n.find "dynamics").bind fun dynamics =>
    (dynamics.find "status").map fun status => decide (status.asString ≠ "none")

/-- A light with all that is asked for; a colour is shown at the brightness that goes with it. -/
def apply (light : Light) : Light :=
  let brightness := r.brightness.getD light.brightness
  { light with
    name := r.name.getD light.name
    on := r.on.getD light.on
    brightness
    color := r.color.elim light.color fun xy => Color.ofXY ε.pow xy.1 xy.2 brightness 100
    dynamicEnabled := r.dynamicEnabled.getD light.dynamicEnabled }

/-- A light shows all that is asked for. -/
def Stored (light : Light) : Prop := r.apply ε light = light

/-- Zones are not asked for the dynamic flag. -/
def inZone : LightRequest := { r with dynamicEnabled := none }

/-- What is asked for besides what an update changes. -/
def without : LightUpdate → LightRequest
  | .nothing => r
  | .name _ => { r with name := none }
  | .on _ => { r with on := none }
  | .brightness _ => { r with brightness := none }
  | .color .. => { r with color := none }
  | .dynamic _ => { r with dynamicEnabled := none }

/-- The update is part of what is asked for. -/
def Asks : LightUpdate → Prop
  | .nothing => True
  | .name newName => r.name = some newName
  | .on newOnState => r.on = some newOnState
  | .brightness newBrightness => r.brightness = some newBrightness
  | .color newX newY => r.color = some (newX, newY) ∧ r.brightness = none
  | .dynamic newDynamicEnabled => r.dynamicEnabled = some newDynamicEnabled

/-- In a list of lights nothing is left out by an update of the first copy that is not stored there already. -/
def Covers (update : LightUpdate) (id : String) : List Light → Prop
  | [] => True
  | light :: lights =>
    if light.id = id then
      (r.without update).Stored ε (update.apply ε light) ∧ ∀ other ∈ lights, other.id = id → r.Stored ε other
    else Covers update id lights

end LightRequest

namespace LightUpdate

variable (ε : Context)

/-- What is left of the update after one group. -/
def afterGroup (update : LightUpdate) (id : String) (group : Group) : LightUpdate :=
  ((group.physicalLights.find? (·.id = id)).map (update.after ε)).getD update

/-- What is written to zones. -/
def inZone : LightUpdate → LightUpdate
  | .dynamic _ => .nothing
  | update => update

end LightUpdate

namespace LightRequest

variable (ε : Context) (r : LightRequest)

/-- In a list of groups nothing is left out that is not stored there already. -/
def CoversGroups (id : String) : LightUpdate → List Group → Prop
  | _, [] => True
  | update, group :: groups =>
    r.Covers ε update id group.physicalLights ∧ CoversGroups id (update.afterGroup ε id group) groups

/-- So for all groups and zones. -/
def CoversAll (update : LightUpdate) (id : String) (c : Cache) : Prop :=
  r.CoversGroups ε id update c.bridge.groups ∧ ∀ zone ∈ c.bridge.zones,
    r.inZone.Covers ε (c.bridge.groups.foldl (fun u group => u.afterGroup ε id group) update).inZone id
      zone.physicalLights

/-- Every copy of the light has all that is asked for, and all other lights are as before. -/
def AppliedIn (id : String) (c c' : Cache) : Prop :=
  c'.bridge.groups.map (·.physicalLights) = c.bridge.groups.map (fun group =>
      group.physicalLights.map fun light => if light.id = id then r.apply ε light else light) ∧
    c'.bridge.zones.map (·.physicalLights) = c.bridge.zones.map fun zone =>
      zone.physicalLights.map fun light => if light.id = id then r.inZone.apply ε light else light

instance : DecidablePred (r.Stored ε) := fun light => inferInstanceAs (Decidable (_ = light))

instance decidableCovers (update : LightUpdate) (id : String) :
    ∀ lights, Decidable (r.Covers ε update id lights)
  | [] => inferInstanceAs (Decidable True)
  | light :: lights =>
    have := decidableCovers update id lights
    inferInstanceAs (Decidable (if light.id = id then _ else _))

instance decidableCoversGroups (id : String) :
    ∀ update groups, Decidable (r.CoversGroups ε id update groups)
  | _, [] => inferInstanceAs (Decidable True)
  | update, group :: groups =>
    have := decidableCoversGroups id (update.afterGroup ε id group) groups
    inferInstanceAs (Decidable (_ ∧ _))

instance (update : LightUpdate) (id : String) (c : Cache) : Decidable (r.CoversAll ε update id c) :=
  inferInstanceAs (Decidable (_ ∧ _))

instance (id : String) (c c' : Cache) : Decidable (r.AppliedIn ε id c c') :=
  inferInstanceAs (Decidable (_ ∧ _))

end LightRequest

/-- The event is applied everywhere. -/
def AppliesUpdate (ε : Context) (n : JSONNode) (id : String) (c : Cache) : Prop :=
  ∃ c', updateLight ε c n = some c' ∧ (LightRequest.ofNode ε n).AppliedIn ε id c c'

variable {ε : Context} {c c' : Cache} {n idNode curLightNode : JSONNode} {id : String} {r : LightRequest}
  {update : LightUpdate} {light : Light} {lights : List Light} {groups : List Group}

/-! ### One light -/

namespace LightRequest

/-- The first member of the chain is part of what is asked for. -/
theorem asks_ofNode (h : LightUpdate.ofNode ε curLightNode n = some update) :
    (ofNode ε n).Asks update := by
  -- each member of the chain is asked for when the members before it are missing
  cases hmetadata : n.find "metadata" with
  | some metadata =>
    simp only [LightUpdate.ofNode, hmetadata] at h
    cases hname : metadata.asNode.find "name" with
    | none =>
      obtain rfl : LightUpdate.nothing = update := by simpa [hname] using h
      trivial
    | some newName =>
      obtain ⟨_, -, rfl⟩ := by simpa [hname, Option.bind_eq_some_iff] using h
      simp [Asks, ofNode, hmetadata, hname]
  | none =>
    cases hon : n.find "on" with
    | some onState =>
      simp only [LightUpdate.ofNode, hmetadata, hon] at h
      cases hnew : onState.find "on" with
      | none =>
        obtain rfl : LightUpdate.nothing = update := by simpa [hnew] using h
        trivial
      | some newOnState =>
        obtain ⟨_, -, rfl⟩ := by simpa [hnew, Option.bind_eq_some_iff] using h
        simp [Asks, ofNode, hon, hnew]
    | none =>
      cases hdimming : n.find "dimming" with
      | some dimmingState =>
        simp only [LightUpdate.ofNode, hmetadata, hon, hdimming] at h
        cases hnew : dimmingState.find "brightness" with
        | none =>
          obtain rfl : LightUpdate.nothing = update := by simpa [hnew] using h
          trivial
        | some newBrightness =>
          obtain ⟨_, -, rfl⟩ := by simpa [hnew, Option.bind_eq_some_iff] using h
          simp [Asks, ofNode, hdimming, hnew]
      | none =>
        cases hcolor : n.find "color" with
        | some colorState =>
          simp only [LightUpdate.ofNode, hmetadata, hon, hdimming, hcolor] at h
          cases hxy : colorState.find "xy" with
          | none =>
            obtain rfl : LightUpdate.nothing = update := by simpa [hxy] using h
            trivial
          | some xy =>
            obtain ⟨newX, hx, newY, hy, _, -, _, -, rfl⟩ := by
              simpa [hxy, Option.bind_eq_some_iff] using h
            simp [Asks, ofNode, hdimming, hcolor, hxy, hx, hy]
        | none =>
          cases hdynamics : n.find "dynamics" with
          | some dynamics =>
            simp only [LightUpdate.ofNode, hmetadata, hon, hdimming, hcolor, hdynamics] at h
            cases hstatus : dynamics.find "status" with
            | none =>
              obtain rfl : LightUpdate.nothing = update := by simpa [hstatus] using h
              trivial
            | some status =>
              obtain ⟨_, -, rfl⟩ := by simpa [hstatus, Option.bind_eq_some_iff] using h
              simp [Asks, ofNode, hdynamics, hstatus]
          | none =>
            obtain rfl : LightUpdate.nothing = update := by
              simpa [LightUpdate.ofNode, hmetadata, hon, hdimming, hcolor, hdynamics] using h
            trivial

theorem apply_eq (h : r.Asks update) (light : Light) :
    r.apply ε light = (r.without update).apply ε (update.apply ε light) := by
  cases update with
  | nothing => rfl
  | color newX newY =>
    obtain ⟨hcolor, hbrightness⟩ := h
    simp [apply, without, LightUpdate.apply, hcolor, hbrightness]
  | name newName =>
    have h : r.name = some newName := h
    simp [apply, without, LightUpdate.apply, h]
  | on newOnState =>
    have h : r.on = some newOnState := h
    simp [apply, without, LightUpdate.apply, h]
  | brightness newBrightness =>
    have h : r.brightness = some newBrightness := h
    simp [apply, without, LightUpdate.apply, h]
  | dynamic newDynamicEnabled =>
    have h : r.dynamicEnabled = some newDynamicEnabled := h
    simp [apply, without, LightUpdate.apply, h]

/-- An update does all that is asked for when the light shows the rest. -/
theorem apply_eq_iff (h : r.Asks update) : update.apply ε light = r.apply ε light ↔
    (r.without update).Stored ε (update.apply ε light) := by
  rw [apply_eq h, eq_comm]
  exact Iff.rfl

theorem Asks.inZone (h : r.Asks update) : r.inZone.Asks update.inZone := by
  cases update with
  | dynamic newDynamicEnabled => trivial
  | _ => exact h

theorem Asks.after (h : r.Asks update) (light : Light) : r.Asks (update.after ε light) := by
  cases update with
  | color newX newY =>
    unfold LightUpdate.after
    split_ifs
    · trivial
    · exact h
  | _ => exact h

theorem Asks.afterGroup (h : r.Asks update) (group : Group) : r.Asks (update.afterGroup ε id group) := by
  unfold LightUpdate.afterGroup
  cases group.physicalLights.find? (·.id = id) with
  | none => exact h
  | some light => exact h.after light

/-! ### Lists of lights and of groups -/

theorem modifyFirst_eq_map_iff (h : r.Asks update) : modifyFirst (·.id = id) (update.apply ε) lights =
    lights.map (fun light => if light.id = id then r.apply ε light else light) ↔
      r.Covers ε update id lights := by
  induction lights with
  | nil => simp [modifyFirst, Covers]
  | cons light lights ih =>
    by_cases hid : light.id = id
    · have hself : lights = lights.map (fun light => if light.id = id then r.apply ε light else light) ↔
          ∀ other ∈ lights, other.id = id → r.Stored ε other := by
        have hmap : lights.map (fun light => light) =
            lights.map (fun light => if light.id = id then r.apply ε light else light) ↔
            ∀ light ∈ lights, light = if light.id = id then r.apply ε light else light := List.map_inj_left
        rw [List.map_id'] at hmap
        rw [hmap]
        refine forall₂_congr fun other _ => ?_
        by_cases hother : other.id = id
        · simp [hother, Stored, eq_comm]
        · simp [hother]
      simp only [modifyFirst, Covers, List.map_cons, hid, decide_true, if_true, List.cons.injEq]
      rw [apply_eq_iff h, hself]
    · simp only [modifyFirst, Covers, List.map_cons, hid, decide_false, Bool.false_eq_true, if_false,
        List.cons_inj_right]
      exact ih

theorem afterGroup_eq (group : Group) (hnone : group.physicalLights.find? (·.id = id) = none) :
    update.afterGroup ε id group = update := by
  rw [LightUpdate.afterGroup, hnone]
  rfl

/-- A group has been updated at its first copy, whether or not it has one. -/
theorem updateLightInGroups_cons (ε : Context) (id : String) (update : LightUpdate) (group : Group)
    (groups : List Group) : ∃ updated group', updateLightInGroups ε id update (group :: groups) =
      ((updateLightInGroups ε id (update.afterGroup ε id group) groups).1, updated,
        group' :: (updateLightInGroups ε id (update.afterGroup ε id group) groups).2.2) ∧
      group'.physicalLights = modifyFirst (·.id = id) (update.apply ε) group.physicalLights := by
  cases hfind : group.physicalLights.find? (·.id = id) with
  | none =>
    refine ⟨(updateLightInGroups ε id update groups).2.1, group, ?_, ?_⟩
    · rw [afterGroup_eq group hfind]
      simp only [updateLightInGroups, hfind]
    · exact (modifyFirst_eq_self (by simpa using hfind)).symm
  | some light =>
    have hafter : update.afterGroup ε id group = update.after ε light := by
      rw [LightUpdate.afterGroup, hfind]
      rfl
    refine ⟨(updateLightInGroup ε update id group).1 || (updateLightInGroups ε id (update.after ε light) groups).2.1,
      (updateLightInGroup ε update id group).2, ?_, rfl⟩
    rw [hafter]
    simp only [updateLightInGroups, hfind]

theorem updateLightInGroups_fst (id : String) (update : LightUpdate) (groups : List Group) :
    (updateLightInGroups ε id update groups).1 =
      groups.foldl (fun u group => u.afterGroup ε id group) update := by
  induction groups generalizing update with
  | nil => rfl
  | cons group groups ih =>
    obtain ⟨updated, group', heq, -⟩ := updateLightInGroups_cons ε id update group groups
    rw [heq, List.foldl_cons, ih]

theorem physicalLights_groups_iff (h : r.Asks update) (id : String) (groups : List Group) :
    (updateLightInGroups ε id update groups).2.2.map (·.physicalLights) = groups.map (fun group =>
        group.physicalLights.map fun light => if light.id = id then r.apply ε light else light) ↔
      r.CoversGroups ε id update groups := by
  induction groups generalizing update with
  | nil => simp [updateLightInGroups, CoversGroups]
  | cons group groups ih =>
    obtain ⟨updated, group', heq, hlights⟩ := updateLightInGroups_cons ε id update group groups
    rw [heq, List.map_cons, List.map_cons, List.cons.injEq, hlights, modifyFirst_eq_map_iff h,
      ih (h.afterGroup group), CoversGroups]

theorem applyInZone_eq (update : LightUpdate) : update.applyInZone ε = update.inZone.apply ε := by
  funext light
  cases update <;> rfl

theorem physicalLights_zones_iff (h : r.Asks update) (id : String) (zones : List Zone) :
    (zones.map (updateLightInZone ε update id)).map (·.physicalLights) = zones.map (fun zone =>
        zone.physicalLights.map fun light => if light.id = id then r.inZone.apply ε light else light) ↔
      ∀ zone ∈ zones, r.inZone.Covers ε update.inZone id zone.physicalLights := by
  rw [List.map_map, List.map_inj_left]
  refine forall₂_congr fun zone _ => ?_
  rw [← modifyFirst_eq_map_iff h.inZone, ← applyInZone_eq]
  rfl

theorem Asks.foldl (h : r.Asks update) (id : String) (groups : List Group) :
    r.Asks (groups.foldl (fun u group => u.afterGroup ε id group) update) := by
  induction groups generalizing update with
  | nil => exact h
  | cons group groups ih => exact ih (h.afterGroup group)

end LightRequest

open LightRequest

/-- **What a light update leaves out.** An event about a known light is applied to every copy in every group and
zone if and only if the light has the members the code writes to, and each copy shows already what the code leaves
out there: at the first copy in a list all attributes but the first in the chain, at the others all of them, and a
colour in all lists that come after a group whose first copy shows it. -/
theorem appliesUpdate_iff (hid : n.find "id" = some idNode)
    (hnode : c.allLightMap.lookup idNode.asString = some curLightNode) :
    AppliesUpdate ε n idNode.asString c ↔ ∃ update, LightUpdate.ofNode ε curLightNode n = some update ∧
      (ofNode ε n).CoversAll ε update idNode.asString c := by
  unfold AppliesUpdate
  cases hupdate : LightUpdate.ofNode ε curLightNode n with
  | none =>
    have hnone : updateLight ε c n = none := by simp [updateLight, hid, hnode, hupdate]
    simp [hnone]
  | some update =>
    have hasks := asks_ofNode hupdate
    have hstep : ∃ feedbackMessageMap, updateLight ε c n = some { c with
        bridge := { c.bridge with
          groups := (updateLightInGroups ε idNode.asString update c.bridge.groups).2.2
          zones := c.bridge.zones.map (updateLightInZone ε
            (updateLightInGroups ε idNode.asString update c.bridge.groups).1 idNode.asString) }
        feedbackMessageMap } := by
      simp only [updateLight, hid, hnode, hupdate, Option.bind_eq_bind, Option.bind_some]
      exact ⟨_, rfl⟩
    obtain ⟨feedbackMessageMap, hstep⟩ := hstep
    have hgroups : _ ↔ (ofNode ε n).CoversGroups ε idNode.asString update c.bridge.groups :=
      physicalLights_groups_iff hasks _ _
    have hzones := physicalLights_zones_iff (ε := ε) (hasks.foldl (ε := ε) idNode.asString c.bridge.groups)
      idNode.asString c.bridge.zones
    rw [← updateLightInGroups_fst] at hzones
    constructor
    · rintro ⟨c', hc', happlied⟩
      obtain rfl := Option.some.inj (hstep.symm.trans hc')
      refine ⟨update, rfl, hgroups.mp happlied.1, ?_⟩
      rw [← updateLightInGroups_fst]
      exact hzones.mp happlied.2
    · rintro ⟨update', hupdate', hcovers⟩
      obtain rfl := Option.some.inj hupdate'
      refine ⟨_, hstep, hgroups.mpr hcovers.1, hzones.mpr ?_⟩
      rw [updateLightInGroups_fst]
      exact hcovers.2

/-- The lamp is switched off; with a brightness, if there is one. -/
def lampOff (brightness : List (String × JSONNode)) : JSONNode :=
  .node ([("id", .string "lamp"), ("on", .node [("on", .bool false)])] ++ brightness)

/-- A lamp of one group is switched off. -/
theorem appliesUpdate_iff_example : ∃ ts c, (retriever {}).Run ts c ∧
    c.bridge.groups.map (·.physicalLights.length) = [1] ∧ AppliesUpdate {} (lampOff []) "lamp" c := by
  obtain ⟨ts, c, hrun, h⟩ := Machine.exists_run (M := retriever {}) (s := {}) (fetchLamp [] [lampConfiguration])
    (fun _ c => c.bridge.groups.map (·.physicalLights.length) = [1] &&
      (c.allLightMap.lookup "lamp").any fun node =>
        (LightUpdate.ofNode {} node (lampOff [])).any fun update =>
          (ofNode {} (lampOff [])).CoversAll {} update "lamp" c)
    cleared_empty (by decide +kernel)
  simp only [Bool.and_eq_true, decide_eq_true_eq, Option.any_eq_true] at h
  obtain ⟨hone, node, hnode, update, hupdate, hcovers⟩ := h
  have hid : (lampOff []).find "id" = some (.string "lamp") := rfl
  exact ⟨ts, c, hrun, hone, (appliesUpdate_iff hid hnode).mpr ⟨update, hupdate, hcovers⟩⟩

/-- The event leaves something out. -/
def leavesOut (n : JSONNode) (id : String) (c : Cache) : Bool :=
  (updateLight {} c n).any fun c' => !decide ((ofNode {} n).AppliedIn {} id c c')

theorem not_appliesUpdate (h : leavesOut n id c = true) : ¬ AppliesUpdate {} n id c := by
  rintro ⟨c', hc', happlied⟩
  simp [leavesOut, hc', happlied] at h

/-- After a fetch, an event that switches a lamp off and dims it leaves the brightness of the lamp as it was; and one
that switches it off leaves the second of its two instances in a group on. -/
theorem exists_not_appliesUpdate :
    let dimmed := lampOff [("dimming", .node [("brightness", .number 50 "50")])]
    (∃ ts c, (retriever {}).Run ts c ∧ c.resourceToGet = none ∧ ¬ AppliesUpdate {} dimmed "lamp" c) ∧
    ∃ ts c, (retriever {}).Run ts c ∧ c.resourceToGet = none ∧ ¬ AppliesUpdate {} (lampOff []) "lamp" c := by
  intro dimmed
  constructor
  · obtain ⟨ts, c, hrun, h⟩ := Machine.exists_run (M := retriever {}) (s := {})
      (fetchLamp [] [lampConfiguration]) (fun _ c => c.resourceToGet = none && leavesOut dimmed "lamp" c)
      cleared_empty (by decide +kernel)
    simp only [Bool.and_eq_true, decide_eq_true_eq] at h
    exact ⟨ts, c, hrun, h.1, not_appliesUpdate h.2⟩
  · obtain ⟨ts, c, hrun, h⟩ := Machine.exists_run (M := retriever {}) (s := {})
      (fetchLamp [] [lampTwice]) (fun _ c => c.resourceToGet = none && leavesOut (lampOff []) "lamp" c)
      cleared_empty (by decide +kernel)
    simp only [Bool.and_eq_true, decide_eq_true_eq] at h
    exact ⟨ts, c, hrun, h.1, not_appliesUpdate h.2⟩

end HueStream.Retriever
