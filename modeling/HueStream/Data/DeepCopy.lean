import HueStream.Data.Objects

/-! # What a cloned bridge shares with its original

`Bridge::Clone` allocates a bridge, its groups and zones, their channels, the physical lights of the groups
and the scenes of the zones. It does not follow the scenes and the channel map of a group, nor the physical
lights, the channel map and the lights of the scenes of a zone: these pointers are copied as they are, so
that both bridges hold the same objects. And the scenes lose their `dynamic` flag.

What the copy looks like is said level by level (`LightCopy` … `BridgeCopy`), once, by the rules for
programs that allocate. For each level follows when it shows what the original shows and when it reaches
new objects only; together `deepCopied_iff` says for which bridges the clone is a deep copy. -/

namespace HueStream.Data.Objects

open HueStream.Lib HeapM Obj

variable {β : Type} {h h' : Lib.Heap Obj} {p q x : Pointer} {ps qs : List Pointer}

/-! ### Pointers of a well-typed heap -/

@[simp] theorem asLight_eq {o : Obj} {l : Light} : asLight o = some l ↔ o = .light l := by
  cases o <;> simp [asLight]

@[simp] theorem asLights_eq {o : Obj} : asLights o = some ps ↔ o = .lights ps := by
  cases o <;> simp [asLights]

@[simp] theorem asScene_eq {o : Obj} {s : SceneOf Pointer} : asScene o = some s ↔ o = .scene s := by
  cases o <;> simp [asScene]

@[simp] theorem asScenes_eq {o : Obj} : asScenes o = some ps ↔ o = .scenes ps := by
  cases o <;> simp [asScenes]

@[simp] theorem asGroup_eq_inl {o : Obj} {g : GroupOf Pointer Pointer Pointer} :
    asGroup o = some (.inl g) ↔ o = .group g := by
  cases o <;> simp [asGroup]

@[simp] theorem asGroup_eq_inr {o : Obj} {z : ZoneOf Pointer Pointer Pointer} :
    asGroup o = some (.inr z) ↔ o = .zone z := by
  cases o <;> simp [asGroup]

@[simp] theorem asGroups_eq {o : Obj} : asGroups o = some ps ↔ o = .groups ps := by
  cases o <;> simp [asGroups]

@[simp] theorem asZones_eq {o : Obj} : asZones o = some ps ↔ o = .zones ps := by
  cases o <;> simp [asZones]

@[simp] theorem asBridge_eq {o : Obj} {b : BridgeOf Pointer Pointer} :
    asBridge o = some b ↔ o = .bridge b := by
  cases o <;> simp [asBridge]

/-- A pointer that is null or points at what `f` reads. -/
def Points (h : Lib.Heap Obj) (f : Obj → Option β) (p : Pointer) : Prop :=
  p = none ∨ ∃ b, h.at? f p = some b

theorem points_of_slot (ks : List ObjKind) {o : Obj} (ho : h.Typed o) (hs : (p, ks) ∈ slots o)
    {f : Obj → Option β} (hf : ∀ o', kind o' ∈ ks → ∃ b, f o' = some b) : Points h f p := by
  cases p with
  | none => exact Or.inl rfl
  | some a =>
    obtain ⟨o', hget, hkind⟩ := ho _ hs a rfl
    obtain ⟨b, hb⟩ := hf o' hkind
    exact Or.inr ⟨b, by rw [Lib.Heap.at?_some hget, hb]⟩

theorem points_lights_of_slot {o : Obj} (ho : h.Typed o) (hs : (p, [ObjKind.lights]) ∈ slots o) :
    Points h asLights p :=
  points_of_slot _ ho hs fun o' hk => by cases o' <;> simp_all [kind]

theorem points_light (hh : h.WellTyped) (hps : h.at? asLights p = some ps) (hx : x ∈ ps) :
    Points h asLight x := by
  obtain ⟨a, o, -, ho, hf⟩ := Lib.Heap.exists_of_at? hps
  obtain rfl := asLights_eq.mp hf
  exact points_of_slot [.light] (hh a _ ho) (List.mem_map.mpr ⟨x, hx, rfl⟩) fun o' hk => by
    cases o' <;> simp_all [kind]

theorem points_scene (hh : h.WellTyped) (hps : h.at? asScenes p = some ps) (hx : x ∈ ps) :
    Points h asScene x := by
  obtain ⟨a, o, -, ho, hf⟩ := Lib.Heap.exists_of_at? hps
  obtain rfl := asScenes_eq.mp hf
  exact points_of_slot [.scene] (hh a _ ho) (List.mem_map.mpr ⟨x, hx, rfl⟩) fun o' hk => by
    cases o' <;> simp_all [kind]

theorem points_group (hh : h.WellTyped) (hps : h.at? asGroups p = some ps) (hx : x ∈ ps) :
    Points h asGroup x := by
  obtain ⟨a, o, -, ho, hf⟩ := Lib.Heap.exists_of_at? hps
  obtain rfl := asGroups_eq.mp hf
  exact points_of_slot [.group, .zone] (hh a _ ho) (List.mem_map.mpr ⟨x, hx, rfl⟩) fun o' hk => by
    cases o' <;> simp_all [kind, asGroup]

theorem points_zone (hh : h.WellTyped) (hps : h.at? asZones p = some ps) (hx : x ∈ ps) :
    Points h asGroup x := by
  obtain ⟨a, o, -, ho, hf⟩ := Lib.Heap.exists_of_at? hps
  obtain rfl := asZones_eq.mp hf
  exact points_of_slot [.zone] (hh a _ ho) (List.mem_map.mpr ⟨x, hx, rfl⟩) fun o' hk => by
    cases o' <;> simp_all [kind, asGroup]

theorem points_sceneLights (hh : h.WellTyped) {s : SceneOf Pointer} (hs : h.at? asScene p = some s) :
    Points h asLights s.lights := by
  obtain ⟨a, o, -, ho, hf⟩ := Lib.Heap.exists_of_at? hs
  obtain rfl := asScene_eq.mp hf
  exact points_lights_of_slot (hh a _ ho) (by simp [slots])

/-- The pointers of a group. -/
structure GroupPoints (h : Lib.Heap Obj) (g : GroupOf Pointer Pointer Pointer) : Prop where
  lights : Points h asLights g.lights
  physicalLights : Points h asLights g.physicalLights
  scenes : Points h asScenes g.scenes
  channels : Points h asChannels g.channelToPhysicalLightsMap

theorem groupPoints_of_slots {o : Obj} (ho : h.Typed o) {g : GroupOf Pointer Pointer Pointer}
    (hs : slots o = groupSlots g) : GroupPoints h g where
  lights := points_lights_of_slot ho (by simp [hs, groupSlots])
  physicalLights := points_lights_of_slot ho (by simp [hs, groupSlots])
  scenes := points_of_slot [.scenes] ho (by simp [hs, groupSlots]) fun o' hk => by
    cases o' <;> simp_all [kind]
  channels := points_of_slot [.channels] ho (by simp [hs, groupSlots]) fun o' hk => by
    cases o' <;> simp_all [kind, asChannels]

theorem groupPoints_inl (hh : h.WellTyped) {g : GroupOf Pointer Pointer Pointer}
    (hg : h.at? asGroup p = some (.inl g)) : GroupPoints h g := by
  obtain ⟨a, o, -, ho, hf⟩ := Lib.Heap.exists_of_at? hg
  obtain rfl := asGroup_eq_inl.mp hf
  exact groupPoints_of_slots (hh a _ ho) rfl

theorem groupPoints_inr (hh : h.WellTyped) {z : ZoneOf Pointer Pointer Pointer}
    (hz : h.at? asGroup p = some (.inr z)) : GroupPoints h z.toGroupOf := by
  obtain ⟨a, o, -, ho, hf⟩ := Lib.Heap.exists_of_at? hz
  obtain rfl := asGroup_eq_inr.mp hf
  exact groupPoints_of_slots (hh a _ ho) rfl

theorem points_bridge (hh : h.WellTyped) {b : BridgeOf Pointer Pointer}
    (hb : h.at? asBridge p = some b) : Points h asGroups b.groups ∧ Points h asZones b.zones := by
  obtain ⟨a, o, -, ho, hf⟩ := Lib.Heap.exists_of_at? hb
  obtain rfl := asBridge_eq.mp hf
  constructor
  · exact points_of_slot [.groups] (hh a _ ho) (by simp [slots]) fun o' hk => by
      cases o' <;> simp_all [kind]
  · exact points_of_slot [.zones] (hh a _ ho) (by simp [slots]) fun o' hk => by
      cases o' <;> simp_all [kind]

/-! ### Conditions on a bridge -/

/-- The list at `p` is there and all its entries satisfy `C`. -/
def Listed (h : Lib.Heap Obj) (items : Obj → Option (List Pointer)) (C : Pointer → Prop) (p : Pointer) : Prop :=
  ∃ ps, h.at? items p = some ps ∧ ∀ x ∈ ps, C x

/-- There is a list of lights without a null entry. -/
def LightsThere (h : Lib.Heap Obj) : Pointer → Prop := Listed h asLights fun x => ∃ l, h.at? asLight x = some l

/-- A condition on the scenes, one on the groups and one on the zones of a bridge. -/
structure Condition where
  scene : SceneOf Pointer → Prop
  group : GroupOf Pointer Pointer Pointer → Prop
  zone : ZoneOf Pointer Pointer Pointer → Prop

/-- The group or zone at `p` is complete: the lists that cloning follows are there without null entries.
It satisfies the condition, and so do the scenes of a zone. -/
def GroupMeets (h : Lib.Heap Obj) (c : Condition) (p : Pointer) : Prop :=
  (∃ g, h.at? asGroup p = some (.inl g) ∧ LightsThere h g.lights ∧ LightsThere h g.physicalLights ∧
    c.group g) ∨
  ∃ z, h.at? asGroup p = some (.inr z) ∧ LightsThere h z.lights ∧
    Listed h asScenes (fun x => ∃ s, h.at? asScene x = some s ∧ c.scene s) z.scenes ∧ c.zone z

/-- The groups and zones of the bridge are complete and satisfy the condition. -/
def Meets (h : Lib.Heap Obj) (c : Condition) (b : BridgeOf Pointer Pointer) : Prop :=
  Listed h asGroups (GroupMeets h c) b.groups ∧ Listed h asZones (GroupMeets h c) b.zones

/-- No condition. -/
def complete : Condition := ⟨fun _ => True, fun _ => True, fun _ => True⟩

/-- No scene is dynamic. -/
def notDynamic : Condition := ⟨fun s => s.dynamic = false, fun _ => True, fun _ => True⟩

/-- The pointers that cloning copies as they are are null. -/
def nothingShared : Condition where
  scene s := s.lights = none
  group g := g.scenes = none ∧ g.channelToPhysicalLightsMap = none
  zone z := z.physicalLights = none ∧ z.channelToPhysicalLightsMap = none

theorem Listed.imp {items : Obj → Option (List Pointer)} {C C' : Pointer → Prop}
    (hp : Listed h items C p) (hC : ∀ x, C x → C' x) : Listed h items C' p := by
  obtain ⟨ps, hps, hall⟩ := hp
  exact ⟨ps, hps, fun x hx => hC x (hall x hx)⟩

theorem GroupMeets.complete {c : Condition} (hp : GroupMeets h c p) : GroupMeets h complete p := by
  rcases hp with ⟨g, hg, hl, hp, -⟩ | ⟨z, hz, hl, hs, -⟩
  · exact Or.inl ⟨g, hg, hl, hp, trivial⟩
  · exact Or.inr ⟨z, hz, hl, hs.imp fun x hx => hx.imp fun s hs => ⟨hs.1, trivial⟩, trivial⟩

theorem Meets.complete {c : Condition} {b : BridgeOf Pointer Pointer} (hb : Meets h c b) :
    Meets h complete b :=
  ⟨hb.1.imp fun _ => GroupMeets.complete, hb.2.imp fun _ => GroupMeets.complete⟩

/-! ### What the copies look like

`h` is the heap before the cloning and `h'` any later one, `p` the original and `q` its copy. -/

def LightCopy (h h' : Lib.Heap Obj) (p q : Pointer) : Prop :=
  ∃ l, h.at? asLight p = some l ∧ New h h' q (.light l)

/-- The copy of a list, entry by entry. -/
def ListCopy (items : Obj → Option (List Pointer)) (wrap : List Pointer → Obj)
    (R : Lib.Heap Obj → Lib.Heap Obj → Pointer → Pointer → Prop) (h h' : Lib.Heap Obj) (p q : Pointer) : Prop :=
  ∃ ps qs, h.at? items p = some ps ∧ New h h' q (wrap qs) ∧ List.Forall₂ (R h h') ps qs

def LightsCopy : Lib.Heap Obj → Lib.Heap Obj → Pointer → Pointer → Prop := ListCopy asLights .lights LightCopy

def SceneCopy (h h' : Lib.Heap Obj) (p q : Pointer) : Prop :=
  ∃ s, h.at? asScene p = some s ∧ New h h' q (.scene { s with dynamic := false })

def ScenesCopy : Lib.Heap Obj → Lib.Heap Obj → Pointer → Pointer → Prop := ListCopy asScenes .scenes SceneCopy

def GroupCopy (h h' : Lib.Heap Obj) (p q : Pointer) : Prop :=
  (∃ g lights physicalLights, h.at? asGroup p = some (.inl g) ∧ LightsCopy h h' g.lights lights ∧
    LightsCopy h h' g.physicalLights physicalLights ∧
    New h h' q (.group { g with lights, physicalLights })) ∨
  ∃ z lights scenes, h.at? asGroup p = some (.inr z) ∧ LightsCopy h h' z.lights lights ∧
    ScenesCopy h h' z.scenes scenes ∧ New h h' q (.zone { z with lights, scenes })

def BridgeCopy (h h' : Lib.Heap Obj) (p q : Pointer) : Prop :=
  ∃ b groups zones, h.at? asBridge p = some b ∧ ListCopy asGroups .groups GroupCopy h h' b.groups groups ∧
    ListCopy asZones .zones GroupCopy h h' b.zones zones ∧
    New h h' q (.bridge { b with groups, zones })

section Grows

variable {R : Lib.Heap Obj → Lib.Heap Obj → Pointer → Pointer → Prop}

theorem grows_lightCopy (p : Pointer) : Grows fun h' => LightCopy h h' p := by
  rintro q h₁ h₂ hle ⟨l, hl, hnew⟩
  exact ⟨l, hl, hnew.of_le hle⟩

theorem grows_listCopy {items : Obj → Option (List Pointer)} {wrap : List Pointer → Obj}
    (hR : ∀ x, Grows fun h' => R h h' x) (p : Pointer) : Grows fun h' => ListCopy items wrap R h h' p := by
  rintro q h₁ h₂ hle ⟨ps, qs, hps, hnew, hall⟩
  exact ⟨ps, qs, hps, hnew.of_le hle, hall.imp fun x y hxy => hR x y h₁ h₂ hle hxy⟩

theorem grows_lightsCopy (p : Pointer) : Grows fun h' => LightsCopy h h' p :=
  grows_listCopy grows_lightCopy p

theorem grows_sceneCopy (p : Pointer) : Grows fun h' => SceneCopy h h' p := by
  rintro q h₁ h₂ hle ⟨s, hs, hnew⟩
  exact ⟨s, hs, hnew.of_le hle⟩

theorem grows_scenesCopy (p : Pointer) : Grows fun h' => ScenesCopy h h' p :=
  grows_listCopy grows_sceneCopy p

theorem grows_groupCopy (p : Pointer) : Grows fun h' => GroupCopy h h' p := by
  intro q h₁ h₂ hle
  rintro (⟨g, l, k, hg, hl, hk, hnew⟩ | ⟨z, l, k, hz, hl, hk, hnew⟩)
  · exact Or.inl ⟨g, l, k, hg, grows_lightsCopy _ l h₁ h₂ hle hl, grows_lightsCopy _ k h₁ h₂ hle hk,
      hnew.of_le hle⟩
  · exact Or.inr ⟨z, l, k, hz, grows_lightsCopy _ l h₁ h₂ hle hl, grows_scenesCopy _ k h₁ h₂ hle hk,
      hnew.of_le hle⟩

end Grows

/-! ### What the clone functions make -/

theorem makes_lightClone (hp : Points h asLight p) :
    Makes h (lightClone p) (∃ l, h.at? asLight p = some l) fun h' => LightCopy h h' p := by
  rcases hp with rfl | ⟨l, hl⟩
  · exact (Makes.read_null h _ _ _).mono (by simp) fun _ _ _ hr => hr
  · exact Makes.read hl ((Makes.new h (.light l)).mono (by simp [hl]) fun h' q _ hq => ⟨l, hl, hq⟩)

theorem makes_cloneList {items : Obj → Option (List Pointer)} {wrap : List Pointer → Obj}
    {clone : Pointer → HeapM Obj Pointer} {C : Pointer → Prop}
    {R : Lib.Heap Obj → Lib.Heap Obj → Pointer → Pointer → Prop} (hp : Points h items p)
    (hR : ∀ x, Grows fun h' => R h h' x)
    (hclone : ∀ ps, h.at? items p = some ps → ∀ x ∈ ps, Makes h (clone x) (C x) fun h' => R h h' x) :
    Makes h (cloneList items wrap clone p) (Listed h items C p) fun h' => ListCopy items wrap R h h' p := by
  rcases hp with rfl | ⟨ps, hps⟩
  · exact (Makes.read_null h _ _ _).mono (by simp [Listed]) fun _ _ _ hr => hr
  · have hitems := Makes.mapM (C := C) (R := fun h' => R h h') hR ps (hclone ps hps)
    have hgrows : Grows fun h' (ys : List Pointer) => List.Forall₂ (R h h') ps ys := by
      intro ys h₁ h₂ hle hys
      exact hys.imp fun x y hxy => hR x y h₁ h₂ hle hxy
    refine Makes.read hps ((hitems.bind hgrows fun qs => Makes.new h (wrap qs)).mono ?_ ?_)
    · simp [Listed, hps]
    · rintro h' q - ⟨qs, hall, hnew⟩
      exact ⟨ps, qs, hps, hnew, hall⟩

theorem makes_lightsClone (hh : h.WellTyped) (hp : Points h asLights p) :
    Makes h (cloneList asLights .lights lightClone p) (LightsThere h p) fun h' => LightsCopy h h' p :=
  makes_cloneList hp grows_lightCopy fun _ hps _ hx => makes_lightClone (points_light hh hps hx)

theorem makes_sceneClone (hp : Points h asScene p) :
    Makes h (sceneClone p) (∃ s, h.at? asScene p = some s ∧ complete.scene s)
      fun h' => SceneCopy h h' p := by
  rcases hp with rfl | ⟨s, hs⟩
  · exact (Makes.read_null h _ _ _).mono (by simp) fun _ _ _ hr => hr
  · exact Makes.read hs ((Makes.new h (.scene { s with dynamic := false })).mono (by simp [hs, complete])
      fun h' q _ hq => ⟨s, hs, hq⟩)

theorem makes_groupClone (hh : h.WellTyped) (hp : Points h asGroup p) :
    Makes h (groupClone p) (GroupMeets h complete p) fun h' => GroupCopy h h' p := by
  rcases hp with rfl | ⟨g | z, hg⟩
  · exact (Makes.read_null h _ _ _).mono (by simp [GroupMeets]) fun _ _ _ hr => hr
  · have hpoints := groupPoints_inl hh hg
    have hlights := makes_lightsClone hh hpoints.lights
    have hphysical := makes_lightsClone hh hpoints.physicalLights
    refine Makes.read hg ((hlights.bind (grows_lightsCopy _) fun l =>
      hphysical.bind (grows_lightsCopy _) fun k => Makes.new h _).mono ?_ ?_)
    · simp [GroupMeets, hg, complete]
    · rintro h' q - ⟨l, hl, k, hk, hnew⟩
      exact Or.inl ⟨g, l, k, hg, hl, hk, hnew⟩
  · have hpoints := groupPoints_inr hh hg
    have hlights := makes_lightsClone hh hpoints.lights
    have hscenes : Makes h (cloneList asScenes .scenes sceneClone z.scenes) _
        fun h' => ScenesCopy h h' z.scenes :=
      makes_cloneList hpoints.scenes grows_sceneCopy
        fun _ hps _ hx => makes_sceneClone (points_scene hh hps hx)
    refine Makes.read hg ((hlights.bind (grows_lightsCopy _) fun l =>
      hscenes.bind (grows_scenesCopy _) fun k => Makes.new h _).mono ?_ ?_)
    · simp [GroupMeets, hg, complete]
    · rintro h' q - ⟨l, hl, k, hk, hnew⟩
      exact Or.inr ⟨z, l, k, hg, hl, hk, hnew⟩

theorem makes_bridgeClone (hh : h.WellTyped) {b : BridgeOf Pointer Pointer}
    (hb : h.at? asBridge p = some b) :
    Makes h (bridgeClone p) (Meets h complete b) fun h' => BridgeCopy h h' p := by
  obtain ⟨hgroups, hzones⟩ := points_bridge hh hb
  have hg : Makes h (cloneList asGroups .groups groupClone b.groups) _
      fun h' => ListCopy asGroups .groups GroupCopy h h' b.groups :=
    makes_cloneList hgroups grows_groupCopy
      fun _ hps _ hx => makes_groupClone hh (points_group hh hps hx)
  have hz : Makes h (cloneList asZones .zones groupClone b.zones) _
      fun h' => ListCopy asZones .zones GroupCopy h h' b.zones :=
    makes_cloneList hzones grows_groupCopy
      fun _ hps _ hx => makes_groupClone hh (points_zone hh hps hx)
  refine Makes.read hb ((hg.bind (grows_listCopy grows_groupCopy _) fun gs =>
    hz.bind (grows_listCopy grows_groupCopy _) fun zs => Makes.new h _).mono ?_ ?_)
  · simp [Meets]
  · rintro h' q - ⟨gs, hgs, zs, hzs, hnew⟩
    exact ⟨b, gs, zs, hb, hgs, hzs, hnew⟩

/-! ### What the copies show -/

section Views

variable {items : Obj → Option (List Pointer)} {wrap : List Pointer → Obj}
  {R : Lib.Heap Obj → Lib.Heap Obj → Pointer → Pointer → Prop} {item : Lib.Heap Obj → Pointer → β}

theorem at?_eq_of_le (hle : h ≤ h') {f : Obj → Option β} (hp : Points h f p) :
    h'.at? f p = h.at? f p := by
  rcases hp with rfl | ⟨b, hb⟩
  · rfl
  · rw [hb, Lib.Heap.at?_of_le hle hb]

theorem listAt_of_le (hle : h ≤ h') (hp : Points h items p)
    (hitem : ∀ ps, h.at? items p = some ps → ∀ x ∈ ps, item h' x = item h x) :
    listAt items item h' p = listAt items item h p := by
  unfold listAt
  rw [at?_eq_of_le hle hp]
  cases hps : h.at? items p with
  | none => rfl
  | some ps => simpa using hitem ps hps

theorem lightsAt_of_le (hh : h.WellTyped) (hle : h ≤ h') (hp : Points h asLights p) :
    lightsAt h' p = lightsAt h p :=
  listAt_of_le hle hp fun _ hps _ hx => at?_eq_of_le hle (points_light hh hps hx)

theorem sceneAt_of_le (hh : h.WellTyped) (hle : h ≤ h') (hp : Points h asScene p) :
    sceneAt h' p = sceneAt h p := by
  unfold sceneAt
  rw [at?_eq_of_le hle hp]
  cases hs : h.at? asScene p with
  | none => rfl
  | some s => simp [SceneOf.map, lightsAt_of_le hh hle (points_sceneLights hh hs)]

theorem scenesAt_of_le (hh : h.WellTyped) (hle : h ≤ h') (hp : Points h asScenes p) :
    scenesAt h' p = scenesAt h p :=
  listAt_of_le hle hp fun _ hps _ hx => sceneAt_of_le hh hle (points_scene hh hps hx)

/-- Two lists that correspond entry by entry look the same when all corresponding entries do. -/
theorem map_eq_map_iff {X Y : Type} {Q : X → Y → Prop} {v : X → β} {v' : Y → β} {C : X → Prop} {xs : List X}
    {ys : List Y} (hxy : List.Forall₂ Q xs ys) (hQ : ∀ x y, Q x y → (v' y = v x ↔ C x)) :
    ys.map v' = xs.map v ↔ ∀ x ∈ xs, C x := by
  induction hxy with
  | nil => simp
  | cons hhead _ ih => simp [ih, hQ _ _ hhead]

theorem listAt_iff {C : Pointer → Prop} (hcopy : ListCopy items wrap R h h' p q)
    (hwrap : ∀ ps, items (wrap ps) = some ps)
    (hitem : ∀ x y, R h h' x y → (item h' y = item h x ↔ C x)) :
    listAt items item h' q = listAt items item h p ↔ Listed h items C p := by
  obtain ⟨ps, qs, hps, hnew, hall⟩ := hcopy
  simp only [listAt, hnew.at?, hwrap, hps, Option.map_some, Option.some.injEq, Listed,
    exists_eq_left']
  exact map_eq_map_iff hall hitem

theorem lightsAt_copy (hcopy : LightsCopy h h' p q) : lightsAt h' q = lightsAt h p := by
  refine (listAt_iff (C := fun _ => True) hcopy (fun _ => rfl) ?_).mpr ?_
  · rintro x y ⟨l, hl, hnew⟩
    simp [lightAt, hl, hnew.at?]
  · obtain ⟨ps, qs, hps, -⟩ := hcopy
    exact ⟨ps, hps, fun _ _ => trivial⟩

theorem lightsThere_of_copy (hcopy : LightsCopy h h' p q) : LightsThere h p := by
  obtain ⟨ps, qs, hps, -, hall⟩ := hcopy
  refine ⟨ps, hps, ?_⟩
  clear hps
  induction hall with
  | nil => simp
  | cons hhead _ ih =>
    obtain ⟨l, hl, -⟩ := hhead
    exact List.forall_mem_cons.mpr ⟨⟨l, hl⟩, ih⟩

theorem sceneAt_iff (hh : h.WellTyped) (hle : h ≤ h') (hcopy : SceneCopy h h' p q) :
    sceneAt h' q = sceneAt h p ↔ ∃ s, h.at? asScene p = some s ∧ notDynamic.scene s := by
  obtain ⟨s, hs, hnew⟩ := hcopy
  have hlights := lightsAt_of_le hh hle (points_sceneLights hh hs)
  simp only [sceneAt, hs, hnew.at?, asScene, Option.map_some, Option.some.injEq, exists_eq_left', SceneOf.map,
    hlights, SceneOf.mk.injEq, true_and, notDynamic]
  exact eq_comm

theorem groupAt_iff (hh : h.WellTyped) (hle : h ≤ h') (hcopy : GroupCopy h h' p q) :
    groupAt h' q = groupAt h p ↔ GroupMeets h notDynamic p := by
  rcases hcopy with ⟨g, l, k, hg, hl, hk, hnew⟩ | ⟨z, l, k, hz, hl, hk, hnew⟩
  · have hpoints := groupPoints_inl hh hg
    have hmeets : GroupMeets h notDynamic p :=
      Or.inl ⟨g, hg, lightsThere_of_copy hl, lightsThere_of_copy hk, trivial⟩
    refine iff_of_true ?_ hmeets
    simp [groupAt, hg, hnew.at?, asGroup, GroupOf.map, lightsAt_copy hl, lightsAt_copy hk,
      scenesAt_of_le hh hle hpoints.scenes, channelsAt, at?_eq_of_le hle hpoints.channels]
  · have hpoints := groupPoints_inr hh hz
    have hscenes : scenesAt h' k = scenesAt h z.scenes ↔ Listed h asScenes
        (fun x => ∃ s, h.at? asScene x = some s ∧ notDynamic.scene s) z.scenes :=
      listAt_iff hk (fun _ => rfl) fun x y => sceneAt_iff hh hle
    have hmeets : GroupMeets h notDynamic p ↔ scenesAt h' k = scenesAt h z.scenes := by
      rw [hscenes]
      simp [GroupMeets, hz, lightsThere_of_copy hl, notDynamic]
    rw [hmeets]
    simp [groupAt, hz, hnew.at?, asGroup, ZoneOf.map, GroupOf.map, lightsAt_copy hl,
      lightsAt_of_le hh hle hpoints.physicalLights, channelsAt, at?_eq_of_le hle hpoints.channels]

theorem bridgeAt_iff (hh : h.WellTyped) (hle : h ≤ h') {b : BridgeOf Pointer Pointer}
    (hb : h.at? asBridge p = some b) (hcopy : BridgeCopy h h' p q) :
    bridgeAt h' q = bridgeAt h p ↔ Meets h notDynamic b := by
  obtain ⟨b', gs, zs, hb', hgs, hzs, hnew⟩ := hcopy
  obtain rfl : b = b' := by simpa [hb] using hb'
  have hgroups : groupsAt h' gs = groupsAt h b.groups ↔ _ :=
    listAt_iff hgs (fun _ => rfl) fun x y => groupAt_iff hh hle
  have hzones : zonesAt h' zs = zonesAt h b.zones ↔ _ :=
    listAt_iff hzs (fun _ => rfl) fun x y => groupAt_iff hh hle
  rw [Meets, ← hgroups, ← hzones]
  simp [bridgeAt, hb, hnew.at?, asBridge, BridgeOf.map]

end Views

/-! ### What the copies reach -/

/-- All that the pointers reach was allocated after `h`. -/
def Inside (h h' : Lib.Heap Obj) (ps : List Pointer) : Prop :=
  ∀ a, h'.Held ps a → h.next ≤ a ∧ ∃ o, h'.get a = some o

theorem inside_nil : Inside h h' [] := fun _ ha => absurd ha Lib.Heap.not_held_nil

theorem inside_null : Inside h h' [none] := fun _ ha => absurd ha Lib.Heap.not_held_null

theorem inside_cons (hp : Inside h h' [p]) (hps : Inside h h' ps) : Inside h h' (p :: ps) := by
  intro a ha
  rcases Lib.Heap.held_cons.mp ha with ha | ha
  · exact hp a ha
  · exact hps a ha

theorem inside_new {o : Obj} (hnew : New h h' q o) (ho : Inside h h' (Layout.refs o)) :
    Inside h h' [q] := by
  obtain ⟨a, rfl, hlt, hget⟩ := hnew
  intro c hc
  rcases (Lib.Heap.held_object hget).mp hc with rfl | hc
  · exact ⟨hlt, o, hget⟩
  · exact ho c hc

section Lists

variable {items : Obj → Option (List Pointer)} {wrap : List Pointer → Obj}
  {R : Lib.Heap Obj → Lib.Heap Obj → Pointer → Pointer → Prop}

theorem inside_list (hcopy : ListCopy items wrap R h h' p q) (hrefs : ∀ ps, Layout.refs (wrap ps) = ps)
    {C : Pointer → Prop} (hC : Listed h items C p) (hitem : ∀ x y, C x → R h h' x y → Inside h h' [y]) :
    Inside h h' [q] := by
  obtain ⟨ps, qs, hps, hnew, hall⟩ := hcopy
  obtain ⟨ps', hps', hC⟩ := hC
  obtain rfl : ps = ps' := by simpa [hps] using hps'
  refine inside_new hnew ?_
  rw [hrefs]
  clear hnew hps hps'
  induction hall with
  | nil => exact inside_nil
  | cons hhead _ ih =>
    obtain ⟨hx, hxs⟩ := List.forall_mem_cons.mp hC
    exact inside_cons (hitem _ _ hx hhead) (ih hxs)

end Lists

theorem refs_lights : Layout.refs (Obj.lights ps) = ps := by
  simp [Layout.refs, Layout.slots, slots, Function.comp_def]

theorem refs_scenes : Layout.refs (Obj.scenes ps) = ps := by
  simp [Layout.refs, Layout.slots, slots, Function.comp_def]

theorem refs_groups : Layout.refs (Obj.groups ps) = ps := by
  simp [Layout.refs, Layout.slots, slots, Function.comp_def]

theorem refs_zones : Layout.refs (Obj.zones ps) = ps := by
  simp [Layout.refs, Layout.slots, slots, Function.comp_def]

theorem inside_lights (hcopy : LightsCopy h h' p q) : Inside h h' [q] := by
  refine inside_list hcopy (fun _ => refs_lights) (lightsThere_of_copy hcopy) ?_
  rintro x y - ⟨l, -, hnew⟩
  exact inside_new hnew inside_nil

theorem inside_scene (hcopy : SceneCopy h h' p q)
    (hp : ∃ s, h.at? asScene p = some s ∧ nothingShared.scene s) : Inside h h' [q] := by
  obtain ⟨s, hs, hnew⟩ := hcopy
  obtain ⟨s', hs', hlights⟩ := hp
  obtain rfl : s = s' := by simpa [hs] using hs'
  refine inside_new hnew (inside_cons ?_ inside_nil)
  rw [show s.lights = none from hlights]
  exact inside_null

theorem inside_group (hcopy : GroupCopy h h' p q) (hp : GroupMeets h nothingShared p) :
    Inside h h' [q] := by
  rcases hcopy with ⟨g, l, k, hg, hl, hk, hnew⟩ | ⟨z, l, k, hz, hl, hk, hnew⟩
  · simp only [GroupMeets, hg, Option.some.injEq, Sum.inl.injEq, exists_eq_left', reduceCtorEq, false_and,
      exists_false, or_false] at hp
    obtain ⟨-, -, hscenes, hchannels⟩ := hp
    refine inside_new hnew (inside_cons (inside_lights hl) (inside_cons (inside_lights hk)
      (inside_cons ?_ (inside_cons ?_ inside_nil))))
    · rw [hscenes]
      exact inside_null
    · rw [hchannels]
      exact inside_null
  · simp only [GroupMeets, hz, Option.some.injEq, Sum.inr.injEq, exists_eq_left', reduceCtorEq, false_and,
      exists_false, false_or] at hp
    obtain ⟨-, hscenes, hphysical, hchannels⟩ := hp
    refine inside_new hnew (inside_cons (inside_lights hl) (inside_cons ?_
      (inside_cons ?_ (inside_cons ?_ inside_nil))))
    · rw [hphysical]
      exact inside_null
    · exact inside_list hk (fun _ => refs_scenes) hscenes fun x y hx hxy => inside_scene hxy hx
    · rw [hchannels]
      exact inside_null

theorem inside_bridge {b : BridgeOf Pointer Pointer} (hb : h.at? asBridge p = some b)
    (hcopy : BridgeCopy h h' p q) (hmeets : Meets h nothingShared b) : Inside h h' [q] := by
  obtain ⟨b', gs, zs, hb', hgs, hzs, hnew⟩ := hcopy
  obtain rfl : b = b' := by simpa [hb] using hb'
  refine inside_new hnew (inside_cons ?_ (inside_cons ?_ inside_nil))
  · exact inside_list hgs (fun _ => refs_groups) hmeets.1 fun x y hx hxy => inside_group hxy hx
  · exact inside_list hzs (fun _ => refs_zones) hmeets.2 fun x y hx hxy => inside_group hxy hx

/-! ### Copies that reach nothing of the original -/

/-- The pointers `qs` reach nothing that `ps` reach. -/
def Clear (h : Lib.Heap Obj) (qs ps : List Pointer) : Prop := ∀ a, h.Held qs a → ¬ h.Held ps a

theorem Clear.item (hclear : Clear h qs ps) {y : Pointer} (hy : y ∈ qs) (hx : x ∈ ps) :
    Clear h [y] [x] :=
  fun a ha hb => hclear a (Lib.Heap.held_iff.mpr ⟨y, hy, ha⟩) (Lib.Heap.held_iff.mpr ⟨x, hx, hb⟩)

theorem Clear.null (hclear : Clear h qs ps) (hq : x ∈ qs) (hp : x ∈ ps) : x = none := by
  cases x with
  | none => rfl
  | some a => exact absurd (Lib.Heap.held_of_mem hp) (hclear a (Lib.Heap.held_of_mem hq))

/-- What is clear of each other at two objects is so at their pointers. -/
theorem Clear.refs (hle : h ≤ h') {f : Obj → Option β} {b : β} (hp : h.at? f p = some b) {o : Obj}
    (hnew : New h h' q o) (hclear : Clear h' [q] [p]) :
    ∃ o', f o' = some b ∧ Clear h' (Layout.refs o) (Layout.refs o') := by
  obtain ⟨a, o', rfl, ho', hb⟩ := Lib.Heap.exists_of_at? hp
  obtain ⟨c, rfl, -, hget⟩ := hnew
  refine ⟨o', hb, fun d hq hd => hclear d ?_ ?_⟩
  · exact (Lib.Heap.held_object hget).mpr (Or.inr hq)
  · exact (Lib.Heap.held_object (Lib.Heap.get_of_le hle ho')).mpr (Or.inr hd)

theorem Clear.list {items : Obj → Option (List Pointer)} {wrap : List Pointer → Obj}
    {R : Lib.Heap Obj → Lib.Heap Obj → Pointer → Pointer → Prop} {C : Pointer → Prop} (hle : h ≤ h')
    (hclear : Clear h' [q] [p]) (hcopy : ListCopy items wrap R h h' p q)
    (hitems : ∀ o ps, items o = some ps → o = wrap ps) (hrefs : ∀ ps, Layout.refs (wrap ps) = ps)
    (hitem : ∀ x y, R h h' x y → Clear h' [y] [x] → C x) : Listed h items C p := by
  obtain ⟨ps, qs, hps, hnew, hall⟩ := hcopy
  obtain ⟨o, ho, hclear⟩ := hclear.refs hle hps hnew
  rw [hitems o ps ho, hrefs, hrefs] at hclear
  refine ⟨ps, hps, ?_⟩
  clear hps hnew ho
  induction hall with
  | nil => simp
  | @cons x y xs ys hhead _ ih =>
    have hx := hitem x y hhead (hclear.item (by simp) (by simp))
    have hxs := ih fun a hq hp => hclear a (Lib.Heap.held_cons.mpr (Or.inr hq)) (Lib.Heap.held_cons.mpr (Or.inr hp))
    exact List.forall_mem_cons.mpr ⟨hx, hxs⟩

theorem Clear.scene (hle : h ≤ h') (hclear : Clear h' [q] [p]) (hcopy : SceneCopy h h' p q) :
    ∃ s, h.at? asScene p = some s ∧ nothingShared.scene s := by
  obtain ⟨s, hs, hnew⟩ := hcopy
  obtain ⟨o, ho, hclear⟩ := hclear.refs hle hs hnew
  obtain rfl := asScene_eq.mp ho
  exact ⟨s, hs, hclear.null (List.mem_singleton.mpr rfl) (List.mem_singleton.mpr rfl)⟩

theorem Clear.group (hle : h ≤ h') (hclear : Clear h' [q] [p]) (hcopy : GroupCopy h h' p q) :
    GroupMeets h nothingShared p := by
  rcases hcopy with ⟨g, l, k, hg, hl, hk, hnew⟩ | ⟨z, l, k, hz, hl, hk, hnew⟩
  · obtain ⟨o, ho, hclear⟩ := hclear.refs hle hg hnew
    obtain rfl := asGroup_eq_inl.mp ho
    refine Or.inl ⟨g, hg, lightsThere_of_copy hl, lightsThere_of_copy hk, ?_, ?_⟩
    · exact hclear.null (by simp [Layout.refs, Layout.slots, slots, groupSlots])
        (by simp [Layout.refs, Layout.slots, slots, groupSlots])
    · exact hclear.null (by simp [Layout.refs, Layout.slots, slots, groupSlots])
        (by simp [Layout.refs, Layout.slots, slots, groupSlots])
  · obtain ⟨o, ho, hclear⟩ := hclear.refs hle hz hnew
    obtain rfl := asGroup_eq_inr.mp ho
    have hscenes : Clear h' [k] [z.scenes] :=
      hclear.item (by simp [Layout.refs, Layout.slots, slots, groupSlots])
        (by simp [Layout.refs, Layout.slots, slots, groupSlots])
    refine Or.inr ⟨z, hz, lightsThere_of_copy hl, ?_, ?_, ?_⟩
    · exact hscenes.list hle hk (fun _ _ => asScenes_eq.mp) (fun _ => refs_scenes)
        fun x y hxy hclear => hclear.scene hle hxy
    · exact hclear.null (by simp [Layout.refs, Layout.slots, slots, groupSlots])
        (by simp [Layout.refs, Layout.slots, slots, groupSlots])
    · exact hclear.null (by simp [Layout.refs, Layout.slots, slots, groupSlots])
        (by simp [Layout.refs, Layout.slots, slots, groupSlots])

theorem Clear.bridge (hle : h ≤ h') {b : BridgeOf Pointer Pointer} (hb : h.at? asBridge p = some b)
    (hclear : Clear h' [q] [p]) (hcopy : BridgeCopy h h' p q) : Meets h nothingShared b := by
  obtain ⟨b', gs, zs, hb', hgs, hzs, hnew⟩ := hcopy
  obtain rfl : b = b' := by simpa [hb] using hb'
  obtain ⟨o, ho, hclear⟩ := hclear.refs hle hb hnew
  obtain rfl := asBridge_eq.mp ho
  have hgroups : Clear h' [gs] [b.groups] :=
    hclear.item (by simp [Layout.refs, Layout.slots, slots]) (by simp [Layout.refs, Layout.slots, slots])
  have hzones : Clear h' [zs] [b.zones] :=
    hclear.item (by simp [Layout.refs, Layout.slots, slots]) (by simp [Layout.refs, Layout.slots, slots])
  constructor
  · exact hgroups.list hle hgs (fun _ _ => asGroups_eq.mp) (fun _ => refs_groups)
      fun x y hxy hclear => hclear.group hle hxy
  · exact hzones.list hle hzs (fun _ _ => asZones_eq.mp) (fun _ => refs_zones)
      fun x y hxy hclear => hclear.group hle hxy

/-! ### Independence -/

/-- Every object could hold another value: a flag the other way round, one more null entry, another map. -/
theorem exists_other (h : Lib.Heap Obj) (o : Obj) (ho : h.Typed o) : ∃ o', o' ≠ o ∧ kind o' = kind o ∧
    h.Typed o' ∧ ∀ r, some r ∈ Layout.refs o' → some r ∈ Layout.refs o := by
  have hmore : ∀ (ps : List Pointer) (ks : List ObjKind),
      (∀ s ∈ ps.map (·, ks), ∀ a, s.1 = some a → ∃ o', h.get a = some o' ∧ kind o' ∈ s.2) →
      ∀ s ∈ (ps ++ [none]).map (·, ks), ∀ a, s.1 = some a → ∃ o', h.get a = some o' ∧ kind o' ∈ s.2 := by
    intro ps ks hps s hs a ha
    rw [List.map_append, List.mem_append] at hs
    rcases hs with hs | hs
    · exact hps s hs a ha
    · simp only [List.map_cons, List.map_nil, List.mem_singleton] at hs
      simp [hs] at ha
  cases o with
  | light l =>
    exact ⟨.light { l with on := !l.on }, fun heq => by simpa using congrArg Light.on (light.inj heq), rfl,
      ho, fun _ hr => hr⟩
  | lights ps =>
    exact ⟨.lights (ps ++ [none]), by simp, rfl, hmore ps _ ho, by simp [refs_lights]⟩
  | scene s =>
    exact ⟨.scene { s with dynamic := !s.dynamic },
      fun heq => by simpa using congrArg SceneOf.dynamic (scene.inj heq), rfl, ho, fun _ hr => hr⟩
  | scenes ps =>
    exact ⟨.scenes (ps ++ [none]), by simp, rfl, hmore ps _ ho, by simp [refs_scenes]⟩
  | channels m =>
    by_cases hm : m = ∅
    · have hne : m.insert "" [] ≠ m := by
        intro heq
        have hmem : "" ∈ m := heq ▸ (AList.mem_insert m).mpr (Or.inl rfl)
        simp [hm] at hmem
      exact ⟨.channels (m.insert "" []), fun heq => hne (channels.inj heq), rfl, ho, fun _ hr => hr⟩
    · exact ⟨.channels ∅, by simpa using Ne.symm hm, rfl, ho, fun _ hr => hr⟩
  | group g =>
    exact ⟨.group { g with active := !g.active },
      fun heq => by simpa using congrArg GroupOf.active (group.inj heq), rfl, ho, fun _ hr => hr⟩
  | zone z =>
    exact ⟨.zone { z with active := !z.active },
      fun heq => by simpa using congrArg (fun z => z.active) (zone.inj heq), rfl, ho, fun _ hr => hr⟩
  | groups ps =>
    exact ⟨.groups (ps ++ [none]), by simp, rfl, hmore ps _ ho, by simp [refs_groups]⟩
  | zones ps =>
    exact ⟨.zones (ps ++ [none]), by simp, rfl, hmore ps _ ho, by simp [refs_zones]⟩
  | bridge b =>
    exact ⟨.bridge { b with isBusy := !b.isBusy },
      fun heq => by simpa using congrArg BridgeOf.isBusy (bridge.inj heq), rfl, ho, fun _ hr => hr⟩

/-- What the original reaches is what it reached before. -/
theorem held_original (hh : h.WellTyped) (hle : h ≤ h') {b : BridgeOf Pointer Pointer}
    (hb : h.at? asBridge p = some b) {a : ℕ} (ha : h'.Held [p] a) : ∃ o, h.get a = some o := by
  obtain ⟨c, o, rfl, ho, -⟩ := Lib.Heap.exists_of_at? hb
  have hroot : ∀ r, some r ∈ [some c] → ∃ o, h.get r = some o := by
    intro r hr
    obtain rfl : r = c := by simpa using hr
    exact ⟨o, ho⟩
  exact Heap.Held.allocated hh hroot (Heap.Held.of_le hle (fun d => Heap.Held.allocated hh hroot) ha)

theorem clear_of_independent (hh : h.WellTyped) (hle : h ≤ h') {b : BridgeOf Pointer Pointer}
    (hb : h.at? asBridge p = some b) (hind : h'.Independent q p) : Clear h' [q] [p] := by
  intro a hq hp
  obtain ⟨o, ho⟩ := held_original hh hle hb hp
  obtain ⟨o', hne, hkind, htyped, hrefs⟩ := exists_other h' o ((hh a o ho).of_le hle)
  exact Lib.Heap.apart_of_independent hind (Lib.Heap.get_of_le hle ho) hne hkind htyped hrefs hq hp

theorem independent_of_inside (hh : h.WellTyped) (hle : h ≤ h') {b : BridgeOf Pointer Pointer}
    (hb : h.at? asBridge p = some b) (hq : Inside h h' [q]) : h'.Independent q p := by
  have hdisjoint : ∀ a, h'.Held [q] a → ¬ h'.Held [p] a := by
    intro a ha hp
    obtain ⟨o, ho⟩ := held_original hh hle hb hp
    have hold := Lib.Heap.lt_next ho
    have hnew := (hq a ha).1
    omega
  refine Lib.Heap.independent_of_apart (fun a ha => ⟨(hq a ha).2, hdisjoint a ha⟩) fun a ha => ⟨?_, ?_⟩
  · obtain ⟨o, ho⟩ := held_original hh hle hb ha
    exact ⟨o, Lib.Heap.get_of_le hle ho⟩
  · exact fun hheld => hdisjoint a hheld ha

/-! ### Deep copies -/

/-- `Bridge::Clone` gives a bridge that shows what the original shows, and then neither ever sees a change
made through the other. -/
def DeepCopied (h : Lib.Heap Obj) (p : Pointer) : Prop :=
  ∃ q h', bridgeClone p h = some (q, h') ∧ bridgeAt h' q = bridgeAt h p ∧ h'.Independent q p

theorem meets_of_deepCopied (hh : h.WellTyped) {b : BridgeOf Pointer Pointer}
    (hb : h.at? asBridge p = some b) (hcopied : DeepCopied h p) :
    Meets h notDynamic b ∧ Meets h nothingShared b := by
  obtain ⟨q, h', hclone, hshows, hind⟩ := hcopied
  obtain ⟨-, hle, hcopy⟩ := (makes_bridgeClone hh hb).sound h q h' h.le_refl hclone
  have hclear := clear_of_independent hh hle hb hind
  exact ⟨(bridgeAt_iff hh hle hb hcopy).mp hshows, hclear.bridge hle hb hcopy⟩

theorem deepCopied_of_meets (hh : h.WellTyped) {b : BridgeOf Pointer Pointer}
    (hb : h.at? asBridge p = some b) (hdynamic : Meets h notDynamic b)
    (hshared : Meets h nothingShared b) : DeepCopied h p := by
  have hmakes := makes_bridgeClone hh hb
  obtain ⟨q, h', hclone⟩ := hmakes.total h h.le_refl hshared.complete
  obtain ⟨-, hle, hcopy⟩ := hmakes.sound h q h' h.le_refl hclone
  exact ⟨q, h', hclone, (bridgeAt_iff hh hle hb hcopy).mpr hdynamic,
    independent_of_inside hh hle hb (inside_bridge hb hcopy hshared)⟩

/-- **A clone is a deep copy exactly of the complete bridges whose zones have no dynamic scene and whose
groups and zones hold nothing that cloning does not follow.** -/
theorem deepCopied_iff (hh : h.WellTyped) {b : BridgeOf Pointer Pointer}
    (hb : h.at? asBridge p = some b) :
    DeepCopied h p ↔ Meets h notDynamic b ∧ Meets h nothingShared b :=
  ⟨meets_of_deepCopied hh hb, fun hmeets => deepCopied_of_meets hh hb hmeets.1 hmeets.2⟩

/-- A bridge with one group, which has one light and neither scenes nor a channel map. -/
def plainGroup : Lib.Heap Obj :=
  .ofList
    [.bridge { groups := some 1, zones := some 2 }, .groups [some 3], .zones [],
      .group
        { lights := some 4, physicalLights := some 5, scenes := none, channelToPhysicalLightsMap := none },
      .lights [some 6], .lights [], .light {}]

theorem deepCopied_iff_example : DeepCopied plainGroup (some 0) := by
  have htyped : plainGroup.WellTyped := Lib.Heap.wellTyped_ofList (by decide)
  have hbridge : plainGroup.at? asBridge (some 0) = some { groups := some 1, zones := some 2 } := rfl
  have hlights : LightsThere plainGroup (some 4) := ⟨[some 6], rfl, by simpa using ⟨_, rfl⟩⟩
  have hphysical : LightsThere plainGroup (some 5) := ⟨[], rfl, by simp⟩
  have hgroup : GroupMeets plainGroup notDynamic (some 3) :=
    Or.inl ⟨_, rfl, hlights, hphysical, trivial⟩
  have hgroup' : GroupMeets plainGroup nothingShared (some 3) :=
    Or.inl ⟨_, rfl, hlights, hphysical, rfl, rfl⟩
  have hzones : ∀ c, Listed plainGroup asZones c (some 2) := fun c => ⟨[], rfl, by simp⟩
  have hgroups : ∀ c : Pointer → Prop, c (some 3) → Listed plainGroup asGroups c (some 1) :=
    fun c hc => ⟨[some 3], rfl, by simpa using hc⟩
  exact (deepCopied_iff htyped hbridge).mpr
    ⟨⟨hgroups _ hgroup, hzones _⟩, ⟨hgroups _ hgroup', hzones _⟩⟩

/-- A bridge with one zone, which has one dynamic scene; all else is as the constructors leave it. -/
def dynamicZone : Lib.Heap Obj :=
  .ofList
    [.bridge { groups := some 1, zones := some 2 }, .groups [], .zones [some 3],
      .zone
        { lights := some 4, physicalLights := some 5, scenes := some 6,
          channelToPhysicalLightsMap := some 7 },
      .lights [], .lights [], .scenes [some 8], .channels ∅, .scene { lights := some 9, dynamic := true },
      .lights []]

/-- Its clone is no deep copy: the scene of the copy is not dynamic, and both zones have one channel map. -/
theorem exists_not_deepCopied : dynamicZone.WellTyped ∧ (∃ b, dynamicZone.at? asBridge (some 0) = some b) ∧
    ¬ DeepCopied dynamicZone (some 0) := by
  have htyped : dynamicZone.WellTyped := Lib.Heap.wellTyped_ofList (by decide)
  refine ⟨htyped, ⟨_, rfl⟩, fun hcopied => ?_⟩
  have hzones : dynamicZone.at? asZones (some 2) = some [some 3] := rfl
  have hzone : dynamicZone.at? asGroup (some 3) = some (.inr
      { lights := some 4, physicalLights := some 5, scenes := some 6,
        channelToPhysicalLightsMap := some 7 }) := rfl
  have hscenes : dynamicZone.at? asScenes (some 6) = some [some 8] := rfl
  have hscene : dynamicZone.at? asScene (some 8) = some { lights := some 9, dynamic := true } := rfl
  have hmeets := (meets_of_deepCopied htyped rfl hcopied).1.2
  simp [Listed, GroupMeets, hzones, hzone, hscenes, hscene, notDynamic] at hmeets

end HueStream.Data.Objects
