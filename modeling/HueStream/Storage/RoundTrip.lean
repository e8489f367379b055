import HueStream.Storage.Classes

/-! # What a restart leaves

What is written of an object is read back into a fresh one. The fields that are not written come back
with their defaults; `restored` says which these are. It changes nothing that is written, so the data
that is read is written the same. -/

namespace HueStream.Data

open HueStream.Json HueStream.Storage

variable {atof : String → ℚ} {σ : BridgeSettings}

/-! ### After a restart -/

/-- The raw components are not stored. -/
def Color.restored (c : Color) : Color := { c with rawRed := 0, rawGreen := 0, rawBlue := 0 }

def Light.restored (l : Light) : Light :=
  { l with
    color := l.color.restored
    reachable := true, on := false, dynamicEnabled := false, brightness := 0 }

def Scene.restored (s : Scene) : Scene := { s with lights := [], dynamic := false }

def Group.restored (g : Group) : Group :=
  { g with
    lights := g.lights.map Light.restored
    physicalLights := g.physicalLights.map Light.restored
    scenes := g.scenes.map Scene.restored
    active := false, owner := "", ownerName := "", proxyNode := {}, onState := true
    brightnessState := 1, channelToPhysicalLightsMap := ∅ }

def Zone.restored (z : Zone) : Zone := { z with toGroup := z.toGroup.restored }

/-- The app id becomes the user, as on the first version of the interface. -/
def Bridge.restored (b : Bridge) : Bridge :=
  { b with
    isBusy := false, appId := b.user
    groups := b.groups.map Group.restored
    zones := b.zones.map Zone.restored }

def StoredData.restored (d : StoredData) : StoredData :=
  { d with bridges := d.bridges.map Bridge.restored }

/-! ### Colours, locations and lights -/

theorem Color.deserialize_serialize (c : Color) :
    deserialize atof (.node c.serialize) {} = c.restored := by
  simp [deserialize, serialize, restored, deserializeValue]

theorem Location.deserialize_serialize (l : Location) : deserialize atof (.node l.serialize) = l := by
  simp [deserialize, serialize, deserializeValue]

theorem Location.build_serialize (l : Location) : build atof (.node l.serialize) = some l := by
  rw [build, Storage.build, if_pos (by simp [serialize]), deserialize_serialize]

theorem Light.build_serialize (l : Light) : build atof (.node l.serialize) = some l.restored := by
  simp [build, Storage.build, deserialize, serialize, restored, deserializeValue,
    setMemberIfAttributeExists, Color.deserialize_serialize, Location.deserialize_serialize]

theorem Scene.build_serialize (s : Scene) : build atof (.node s.serialize) = some s.restored := by
  simp [build, Storage.build, deserialize, serialize, restored, deserializeValue]

/-! ### Groups and zones -/

theorem deserializeEnum_class {n : JSONNode} {g : GroupClass}
    (h : n.find "ClassType" = some (Value.toNode
      (((GroupClass.serializeMap.find? (·.1 = g)).map Prod.snd).getD "other"))) :
    deserializeEnum atof GroupClass.serializeMap n "ClassType" .other = g := by
  rw [deserializeEnum, deserializeValue_of_find h]
  cases g <;> rfl

theorem deserializeEnum_archetype {n : JSONNode} {a : ZoneArchetype}
    (h : n.find "Archetype" = some (Value.toNode
      (((ZoneArchetype.serializeMap.find? (·.1 = a)).map Prod.snd).getD "other"))) :
    deserializeEnum atof ZoneArchetype.serializeMap n "Archetype" .other = a := by
  rw [deserializeEnum, deserializeValue_of_find h]
  cases a <;> rfl

/-- A group is read from any node that begins with its members. -/
theorem Group.deserialize_serializeAs {typeName : String} (more : Members) (g : Group) :
    deserialize atof (.node (g.serializeAs typeName ++ more)) {} = some g.restored := by
  have hlights : deserializeList (.node (g.serializeAs typeName ++ more)) "Lights" (Light.build atof) =
      some (g.lights.map Light.restored) :=
    deserializeList_of_find Light.serialize (by simp [serializeAs])
      fun l _ => l.build_serialize
  have hphysical : deserializeList (.node (g.serializeAs typeName ++ more)) "PhysicalLights"
      (Light.build atof) = some (g.physicalLights.map Light.restored) :=
    deserializeList_of_find Light.serialize (by simp [serializeAs])
      fun l _ => l.build_serialize
  have hscenes : deserializeList (.node (g.serializeAs typeName ++ more)) "Scenes"
      (Scene.build atof) = some (g.scenes.map Scene.restored) :=
    deserializeList_of_find Scene.serialize (by simp [serializeAs])
      fun s _ => s.build_serialize
  have hclass : deserializeEnum atof GroupClass.serializeMap (.node (g.serializeAs typeName ++ more))
      "ClassType" .other = g.classType :=
    deserializeEnum_class (by simp [serializeAs])
  simp only [deserialize, hlights, hphysical, hscenes, hclass, Option.bind_eq_bind, Option.bind_some,
    Option.pure_def, restored]
  simp [deserializeValue, serializeAs]

theorem Group.build_serialize (g : Group) : build atof (.node g.serialize) = some g.restored := by
  have hread : deserialize atof (.node (g.serializeAs "huestream.Group" ++ [])) {} = some g.restored :=
    deserialize_serializeAs [] g
  rw [List.append_nil] at hread
  rw [build, Storage.build, if_pos (by simp [serialize, serializeAs])]
  exact hread

theorem Zone.build_serialize (z : Zone) : build atof (.node z.serialize) = some z.restored := by
  have hread : Group.deserialize atof (.node z.serialize) {} = some z.toGroup.restored := by
    unfold serialize
    rw [List.append_assoc]
    exact Group.deserialize_serializeAs _ _
  have harchetype : deserializeEnum atof ZoneArchetype.serializeMap (.node z.serialize) "Archetype"
      .other = z.archetype :=
    deserializeEnum_archetype (by simp [serialize, Group.serializeAs])
  rw [build, Storage.build, if_pos (by simp [serialize, Group.serializeAs])]
  simp only [deserialize, hread, harchetype, Option.bind_eq_bind, Option.bind_some, Option.pure_def,
    restored]
  simp [deserializeValue, serialize, Group.serializeAs]

/-! ### Bridges -/

theorem Bridge.build_serialize (b : Bridge) (hint : IsInt b.maxNoStreamingSessions) :
    build atof (.node b.serialize) = some b.restored := by
  have hgroups : deserializeList (.node b.serialize) "Groups" (Group.build atof) =
      some (b.groups.map Group.restored) :=
    deserializeList_of_find Group.serialize (by simp [serialize, serializeBase])
      fun g _ => g.build_serialize
  have hzones : deserializeList (.node b.serialize) "Zones" (Zone.build atof) =
      some (b.zones.map Zone.restored) :=
    deserializeList_of_find Zone.serialize (by simp [serialize, serializeBase])
      fun z _ => z.build_serialize
  have hmax : deserializeValue atof (.node b.serialize) "MaxNoStreamingSessions" 0 =
      b.maxNoStreamingSessions := by
    rw [deserializeValue_of_find (c := Value.toNode b.maxNoStreamingSessions)
      (by simp [serialize, serializeBase]), ofNode_toNode_int hint]
  rw [build, Storage.build, if_pos (by simp [serialize, serializeBase])]
  simp only [deserialize, deserializeBase, hgroups, hzones, hmax, Option.bind_eq_bind,
    Option.bind_some, Option.pure_def, restored]
  simp [deserializeValue, serialize, serializeBase]

/-! ### Writing again -/

theorem Light.serialize_restored (l : Light) : l.restored.serialize = l.serialize := rfl

theorem Scene.serialize_restored (s : Scene) : s.restored.serialize = s.serialize := rfl

theorem Group.serializeAs_restored (typeName : String) (g : Group) :
    g.restored.serializeAs typeName = g.serializeAs typeName := by
  unfold serializeAs
  rw [show g.restored.lights = g.lights.map Light.restored from rfl,
    show g.restored.physicalLights = g.physicalLights.map Light.restored from rfl,
    show g.restored.scenes = g.scenes.map Scene.restored from rfl,
    serializeList_map Light.serialize_restored, serializeList_map Light.serialize_restored,
    serializeList_map Scene.serialize_restored]
  rfl

theorem Group.serialize_restored (g : Group) : g.restored.serialize = g.serialize :=
  g.serializeAs_restored _

theorem Zone.serialize_restored (z : Zone) : z.restored.serialize = z.serialize := by
  unfold serialize
  rw [show z.restored.toGroup = z.toGroup.restored from rfl, Group.serializeAs_restored]
  rfl

theorem Bridge.serialize_restored (b : Bridge) : b.restored.serialize = b.serialize := by
  unfold serialize
  rw [show b.restored.groups = b.groups.map Group.restored from rfl,
    show b.restored.zones = b.zones.map Zone.restored from rfl,
    serializeList_map Group.serialize_restored, serializeList_map Zone.serialize_restored]
  rfl

/-! ### The stored data -/

/-- The integers of the data are values of `int`. -/
def StoredData.Ints (d : StoredData) : Prop :=
  IsInt d.version ∧ ∀ b ∈ d.bridges, IsInt b.maxNoStreamingSessions

theorem StoredData.deserialize_serialize {d : StoredData} (hints : d.Ints) :
    deserialize atof (.node d.serialize) = some d.restored := by
  have hbridges : deserializeList (.node d.serialize) "Bridges" (Bridge.build atof) =
      some (d.bridges.map Bridge.restored) :=
    deserializeList_of_find Bridge.serialize (by simp [serialize])
      fun b hb => b.build_serialize (hints.2 b hb)
  have hversion : deserializeValue atof (.node d.serialize) "Version" 0 = d.version := by
    rw [deserializeValue_of_find (c := Value.toNode d.version) (by simp [serialize]),
      ofNode_toNode_int hints.1]
  simp only [deserialize, hbridges, hversion, Option.bind_eq_bind, Option.bind_some, Option.pure_def,
    restored]

theorem StoredData.serialize_restored (d : StoredData) : d.restored.serialize = d.serialize := by
  unfold serialize
  rw [show d.restored.bridges = d.bridges.map Bridge.restored from rfl,
    serializeList_map Bridge.serialize_restored]
  rfl

/-- The active bridge stays, also the empty one of an empty list. -/
theorem StoredData.getActiveBridge_restored (d : StoredData) :
    d.restored.getActiveBridge = d.getActiveBridge.restored := by
  unfold getActiveBridge restored
  rw [List.getLast?_map]
  cases d.bridges.getLast? with
  | none => rfl
  | some b => rfl

theorem StoredData.getAllKnownBridges_restored (d : StoredData) :
    d.restored.getAllKnownBridges σ = (d.getAllKnownBridges σ).map Bridge.restored := by
  unfold getAllKnownBridges restored
  rw [← List.map_reverse, List.filter_map]
  rfl

/-- **A restart keeps what is stored.** The data that is written is read back up to the fields that are
not written, and written the same again; the active bridge and the known bridges are the same ones. -/
theorem stored_round_trip (atof : String → ℚ) (σ : BridgeSettings) {d : StoredData} (hints : d.Ints) :
    StoredData.deserialize atof (.node d.serialize) = some d.restored ∧
    d.restored.serialize = d.serialize ∧
    d.restored.getActiveBridge = d.getActiveBridge.restored ∧
    d.restored.getAllKnownBridges σ = (d.getAllKnownBridges σ).map Bridge.restored :=
  ⟨StoredData.deserialize_serialize hints, d.serialize_restored, d.getActiveBridge_restored,
    d.getAllKnownBridges_restored⟩

/-- A bridge with a group that is streamed to and a zone with a light in another colour. -/
def storedExample : StoredData where
  version := 2
  bridges := [{}, {
    id := "b", user := "u", isBusy := true, maxNoStreamingSessions := 1
    groups := [{ id := "1", classType := .music, active := true, scenes := [{ id := "s" }] }]
    zones := [{ id := "z", archetype := .computer, lights := [{ id := "l", color := .ofRGB 1 0 0 }] }] }]

theorem stored_round_trip_example :
    (StoredData.deserialize (fun _ => 0) (.node storedExample.serialize)).map StoredData.serialize =
      some storedExample.serialize := by
  have hints : storedExample.Ints := by
    refine ⟨⟨by decide, by decide⟩, ?_⟩
    simp [storedExample, IsInt]
  obtain ⟨hread, hwrite, -, -⟩ := stored_round_trip (fun _ => 0) {} hints
  rw [hread, Option.map_some, hwrite]

end HueStream.Data
