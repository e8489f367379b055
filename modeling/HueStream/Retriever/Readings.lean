import HueStream.Retriever.Stretches

/-! # What the stored nodes say about a light

`stored` is what one would read off the stored nodes for a light, of what a copy of the light shows.
It depends on the node of the light, on the devices and on the Zigbee connectivity. New physical
lights of groups and zones show what is stored. A device that gets another name reads as before, and
an entry of the Zigbee connectivity matters for the lights alone that are connected through it. -/

namespace HueStream.Retriever

open HueStream.Data HueStream.Json HueStream.Lib

variable {ε : Context} {c c' : Cache} {n : JSONNode} {id : String} {light : Light}

/-- What a copy of a light shows. -/
structure Appearance where
  name : String
  on : Bool
  brightness : ℚ
  color : Color
  dynamicEnabled : Bool
  reachable : Bool
deriving DecidableEq

/-- The appearance of a light. -/
def appearance (light : Light) : Appearance :=
  { light with }

/-- What the stored nodes give for a light, parsed as the code parses them. -/
def stored (ε : Context) (c : Cache) (id : String) : Option Appearance :=
  (parseLightById ε c id).join.map appearance

/-- Each light node is stored under its own id. -/
def Keyed (c : Cache) : Prop :=
  ∀ id n, c.allLightMap.lookup id = some n → (n.find "id").map JSONNode.asString = some id

/-! ### The parts of a reading -/

theorem parseLightNode_id (h : parseLightNode ε n = some light) :
    (n.find "id").map JSONNode.asString = some light.id := by
  unfold parseLightNode at h
  cases hdimming : n.find "dimming" <;>
    cases hxy : (n.getAttributeValue "color").find "xy" <;>
    simp only [hdimming, hxy, Option.bind_eq_bind, Option.bind_eq_some_iff, Option.some.injEq,
      exists_eq_left'] at h
  case none.none =>
    obtain ⟨onNode, -, on, -, idNode, hid, rfl⟩ := h
    rw [hid, Option.map_some]
  case none.some =>
    obtain ⟨onNode, -, on, -, x, -, y, -, idNode, hid, rfl⟩ := h
    rw [hid, Option.map_some]
  case some.none =>
    obtain ⟨brightness, -, onNode, -, on, -, idNode, hid, rfl⟩ := h
    rw [hid, Option.map_some]
  case some.some =>
    obtain ⟨brightness, -, onNode, -, on, -, x, -, y, -, idNode, hid, rfl⟩ := h
    rw [hid, Option.map_some]

theorem parseLightInfo_eq_some :
    parseLightInfo ε c n = some light ↔ ∃ l model reachable, parseLightNode ε n = some l ∧
      parseModelId ε c.allDeviceMap l.id = some model ∧
      getReachable ε c.allDeviceMap c.allZigbeeConnectivityMap l.id = some reachable ∧
      light = { l with model, reachable } := by
  simp only [parseLightInfo, Option.bind_eq_bind, Option.bind_eq_some_iff, Option.some.injEq]
  constructor
  · rintro ⟨l, hl, model, hmodel, reachable, hreachable, rfl⟩
    exact ⟨l, model, reachable, hl, hmodel, hreachable, rfl⟩
  · rintro ⟨l, model, reachable, hl, hmodel, hreachable, rfl⟩
    exact ⟨l, hl, model, hmodel, reachable, hreachable, rfl⟩

theorem parseLightById_eq_some :
    parseLightById ε c id = some (some light) ↔
      ∃ n, c.allLightMap.lookup id = some n ∧ parseLightInfo ε c n = some light := by
  unfold parseLightById
  cases c.allLightMap.lookup id with
  | none => simp
  | some n => simp

theorem stored_eq_some {a : Appearance} :
    stored ε c id = some a ↔ ∃ l, parseLightById ε c id = some (some l) ∧ appearance l = a := by
  unfold stored
  rw [Option.map_eq_some_iff]
  simp only [Option.join_eq_some_iff]

/-- A parsed light has the id it was looked up with. -/
theorem Keyed.parseLightById_id (hkeyed : Keyed c)
    (h : parseLightById ε c id = some (some light)) : light.id = id := by
  obtain ⟨n, hn, hlight⟩ := parseLightById_eq_some.mp h
  obtain ⟨l, model, reachable, hl, -, -, rfl⟩ := parseLightInfo_eq_some.mp hlight
  have hid := parseLightNode_id hl
  rw [hkeyed id n hn, Option.some.injEq] at hid
  exact hid.symm

/-- **A reading** is made of the node of the light, which must be readable together with a device,
and of the connectivity. -/
theorem Keyed.stored_iff (hkeyed : Keyed c) {a : Appearance} :
    stored ε c id = some a ↔ ∃ n l, c.allLightMap.lookup id = some n ∧
      parseLightNode ε n = some l ∧ (parseModelId ε c.allDeviceMap id).isSome = true ∧
      getReachable ε c.allDeviceMap c.allZigbeeConnectivityMap id = some a.reachable ∧
      appearance { l with reachable := a.reachable } = a := by
  rw [stored_eq_some]
  constructor
  · rintro ⟨light, hlight, rfl⟩
    have hid := hkeyed.parseLightById_id hlight
    obtain ⟨n, hn, hinfo⟩ := parseLightById_eq_some.mp hlight
    obtain ⟨l, model, reachable, hl, hmodel, hreachable, rfl⟩ := parseLightInfo_eq_some.mp hinfo
    obtain rfl : l.id = id := hid
    exact ⟨n, l, hn, hl, by rw [hmodel]; rfl, hreachable, rfl⟩
  · rintro ⟨n, l, hn, hl, hmodel, hreachable, ha⟩
    have hid : l.id = id := by
      have := parseLightNode_id hl
      rw [hkeyed id n hn, Option.some.injEq] at this
      exact this.symm
    obtain ⟨model, hmodel⟩ := Option.isSome_iff_exists.mp hmodel
    refine ⟨{ l with model, reachable := a.reachable }, ?_, ha⟩
    refine parseLightById_eq_some.mpr ⟨n, hn, parseLightInfo_eq_some.mpr ?_⟩
    exact ⟨l, model, a.reachable, hl, hid ▸ hmodel, hid ▸ hreachable, rfl⟩

/-- Other devices or another connectivity: the reading stays, up to the reachable flag. -/
theorem Keyed.stored_of_reachable (hkeyed : Keyed c) {a : Appearance} {reachable : Bool}
    (h : stored ε c id = some a) (hlights : c'.allLightMap = c.allLightMap)
    (hmodel : (parseModelId ε c'.allDeviceMap id).isSome = true)
    (hreachable : getReachable ε c'.allDeviceMap c'.allZigbeeConnectivityMap id = some reachable) :
    stored ε c' id = some { a with reachable } := by
  obtain ⟨n, l, hn, hl, -, -, ha⟩ := hkeyed.stored_iff.mp h
  have hkeyed' : Keyed c' := fun id n hn => hkeyed id n (hlights ▸ hn)
  refine hkeyed'.stored_iff.mpr ⟨n, l, hlights ▸ hn, hl, hmodel, hreachable, ?_⟩
  rw [← ha]
  rfl

theorem stored_congr (hd : c'.allDeviceMap = c.allDeviceMap) (hl : c'.allLightMap = c.allLightMap)
    (hz : ReadAlike c.allZigbeeConnectivityMap c'.allZigbeeConnectivityMap) (id : String) :
    stored ε c' id = stored ε c id := by
  unfold stored
  rw [parseLightById_congr hd hl hz]

/-! ### New copies -/

theorem Keyed.stored_parseLightById (hkeyed : Keyed c)
    (h : parseLightById ε c id = some (some light)) :
    stored ε c light.id = some (appearance light) := by
  rw [hkeyed.parseLightById_id h]
  exact stored_eq_some.mpr ⟨light, h, rfl⟩

theorem mem_of_mapM_eq_some {α β : Type*} {f : α → Option (Option β)} {as : List α}
    {bs : List (Option β)} {b : β} (h : as.mapM f = some bs) (hb : b ∈ bs.filterMap fun b => b) :
    ∃ a ∈ as, f a = some (some b) := by
  induction as generalizing bs with
  | nil =>
    obtain rfl : bs = [] := by simpa using h.symm
    simp at hb
  | cons a as ih =>
    rw [List.mapM_cons] at h
    simp only [Option.bind_eq_bind, Option.bind_eq_some_iff, Option.pure_def,
      Option.some.injEq] at h
    obtain ⟨b₁, hb₁, bs, hbs, rfl⟩ := h
    rw [List.mem_filterMap] at hb
    obtain ⟨ob, hob, heq⟩ := hb
    rcases List.mem_cons.mp hob with rfl | hob
    · exact ⟨a, by simp, by rw [hb₁, heq]⟩
    · obtain ⟨a', ha', hfa'⟩ := ih hbs (List.mem_filterMap.mpr ⟨ob, hob, heq⟩)
      exact ⟨a', by simp [ha'], hfa'⟩

theorem Keyed.stored_parseServiceLocation (hkeyed : Keyed c)
    (h : parseServiceLocation ε c n = some (some light)) :
    stored ε c light.id = some (appearance light) := by
  simp only [parseServiceLocation, Option.bind_eq_bind, Option.bind_eq_some_iff] at h
  obtain ⟨service, -, rid, -, lightId, -, found, hfound, h⟩ := h
  cases found with
  | none => simp at h
  | some l =>
    have hl := hkeyed.stored_parseLightById hfound
    have hplaced : ∀ position : JSONNode, (if position.isNull then some (some l)
        else (parsePosition ε position).bind fun p => some (some { l with position := p })) =
          some (some light) → stored ε c light.id = some (appearance light) := by
      intro position h
      split_ifs at h
      · simp only [Option.some.injEq] at h
        exact h ▸ hl
      · simp only [Option.bind_eq_some_iff, Option.some.injEq] at h
        obtain ⟨p, -, rfl⟩ := h
        exact hl
    simp only at h
    split at h
    · obtain ⟨position, -, h⟩ := Option.bind_eq_some_iff.mp h
      exact hplaced position h
    · exact hplaced _ h
    · exact hplaced .null h

theorem Keyed.stored_parseLights {lights : List Light} (hkeyed : Keyed c)
    (h : parseLights ε c n = some (some lights)) (hlight : light ∈ lights) :
    stored ε c light.id = some (appearance light) := by
  unfold parseLights at h
  split at h
  · simp at h
  · simp only [Option.bind_eq_bind, Option.bind_eq_some_iff, Option.some.injEq] at h
    obtain ⟨parsed, hparsed, rfl⟩ := h
    obtain ⟨item, -, hitem⟩ := mem_of_mapM_eq_some hparsed hlight
    exact hkeyed.stored_parseServiceLocation hitem

theorem Keyed.stored_parseZoneLights {lights : List Light} (hkeyed : Keyed c)
    (h : parseZoneLights ε c n = some (some lights)) (hlight : light ∈ lights) :
    stored ε c light.id = some (appearance light) := by
  simp only [parseZoneLights] at h
  split_ifs at h
  all_goals first | simp only [Option.some.injEq, reduceCtorEq] at h | skip
  all_goals
    simp only [Option.bind_eq_bind, Option.bind_eq_some_iff, Option.some.injEq] at h
    obtain ⟨parsed, hparsed, rfl⟩ := h
    obtain ⟨item, -, hitem⟩ := mem_of_mapM_eq_some hparsed hlight
    simp only [parseZoneLight, Option.bind_eq_bind, Option.bind_eq_some_iff] at hitem
    obtain ⟨rtype, -, hitem⟩ := hitem
    split_ifs at hitem
    · simp only [Option.bind_eq_some_iff] at hitem
      obtain ⟨rid, -, hitem⟩ := hitem
      exact hkeyed.stored_parseLightById hitem
    · simp at hitem

/-! ### Another name for a device -/

theorem findM?_map {α β : Type} (f : α → β) (p : β → Option Bool) (as : List α) :
    (as.map f).findM? p = (as.findM? fun a => p (f a)).map (Option.map f) := by
  induction as with
  | nil => rfl
  | cons a as ih =>
    rw [List.map_cons, List.findM?, List.findM?]
    cases p (f a) with
    | none => rfl
    | some found =>
      cases found with
      | true => rfl
      | false => exact ih

/-- A device under another name. -/
def renamed (name : String) (device : JSONNode) : JSONNode :=
  (device.setPath ["metadata", "name"] (.string name)).getD device

theorem find_renamed {name member : String} (h : member ≠ "metadata") (device : JSONNode) :
    (renamed name device).find member = device.find member := by
  unfold renamed
  cases hset : device.setPath ["metadata", "name"] (.string name) with
  | none => rfl
  | some device' =>
    rw [JSONNode.setPath] at hset
    simp only [Option.bind_eq_bind, Option.bind_eq_some_iff] at hset
    obtain ⟨metadata, -, metadata', -, hset⟩ := hset
    rw [Option.getD_some, JSONNode.find_set hset, if_neg h]

/-- The devices, of which one was given another name. -/
theorem entries_put_renamed {devices : JSONNodeMap} {name : String} {old new : JSONNode}
    (hold : devices.lookup id = some old)
    (hnew : old.setPath ["metadata", "name"] (.string name) = some new) :
    ε.order.entries (devices.put id new) = (ε.order.entries devices).map fun device =>
      (device.1, if device.1 = id then renamed name device.2 else device.2) := by
  have hmem : id ∈ devices := by rw [← AList.lookup_isSome, hold]; rfl
  have hkeys : (devices.put id new).keys = devices.keys := by
    rw [JSONNodeMap.put, if_pos hmem]
    exact AList.keys_replace _ _ _
  unfold IterationOrder.entries
  rw [hkeys, List.map_filterMap]
  refine List.filterMap_congr fun key _ => ?_
  rw [JSONNodeMap.lookup_put]
  by_cases hkey : key = id
  · subst hkey
    simp [hold, renamed, hnew]
  · cases devices.lookup key <;> simp [hkey]

/-- A renamed device offers the same services and has the same product data. -/
theorem reading_put_renamed {devices : JSONNodeMap} {name : String} {old new : JSONNode}
    (hold : devices.lookup id = some old)
    (hnew : old.setPath ["metadata", "name"] (.string name) = some new) (lightId : String) :
    parseModelId ε (devices.put id new) lightId = parseModelId ε devices lightId ∧
      getZigbeeConnectivityIdFromLightId ε (devices.put id new) lightId =
        getZigbeeConnectivityIdFromLightId ε devices lightId := by
  have hrenamed : renamed name old = new := by rw [renamed, hnew]; rfl
  have hfind : ∀ member, member ≠ "metadata" → ∀ device : String × JSONNode,
      (if device.1 = id then renamed name device.2 else device.2).find member =
        device.2.find member := by
    intro member hmember device
    split_ifs
    · exact find_renamed hmember device.2
    · rfl
  have hoffers : ∀ device : String × JSONNode,
      offersService (if device.1 = id then renamed name device.2 else device.2) lightId =
        offersService device.2 lightId := by
    intro device
    simp only [offersService, hfind "services" (by decide) device]
  have hlookup : ∀ deviceId, (((devices.put id new).lookup deviceId).getD .empty).find "services" =
      ((devices.lookup deviceId).getD .empty).find "services" := by
    intro deviceId
    rw [JSONNodeMap.lookup_put]
    split_ifs with hdevice
    · rw [hdevice, hold, Option.getD_some, Option.getD_some, ← hrenamed]
      exact find_renamed (by decide) old
    · rfl
  constructor
  · simp only [parseModelId, entries_put_renamed hold hnew, findM?_map, hoffers]
    cases (ε.order.entries devices).findM? fun device => offersService device.2 lightId with
    | none => rfl
    | some device =>
      cases device with
      | none => rfl
      | some device => simp [hfind "product_data" (by decide) device]
  · simp only [getZigbeeConnectivityIdFromLightId, getServiceIdOfSameDevice,
      getDeviceIdFromServiceReferenceId, getDeviceReferenceIdFromReferenceType,
      entries_put_renamed hold hnew, findM?_map, hoffers, hlookup]
    cases (ε.order.entries devices).findM? fun device => offersService device.2 lightId with
    | none => rfl
    | some device => cases device <;> rfl

theorem stored_updateDevice (h : updateDevice c n = some c') (id : String) :
    stored ε c' id = stored ε c id := by
  rcases updateDevice_cases h with rfl | ⟨deviceId, old, new, name, sent, hold, hnew, rfl⟩
  · rfl
  · have hinfo : ∀ n, parseLightInfo ε { c with
        bridge := { c.bridge with name }, allDeviceMap := c.allDeviceMap.put deviceId new, sent } n =
        parseLightInfo ε c n := by
      intro n
      have hreading := reading_put_renamed (ε := ε) hold hnew
      simp only [parseLightInfo, getReachable, (hreading _).1, (hreading _).2]
    simp only [stored, parseLightById, hinfo]

/-! ### The connectivity of a light -/

/-- Whether a light is connected through an entry of the Zigbee connectivity. -/
def connectsThrough (ε : Context) (c : Cache) (lightId id : String) : Bool :=
  getZigbeeConnectivityIdFromLightId ε c.allDeviceMap lightId = some id

/-- The reachable flag a node of the Zigbee connectivity stands for; `none` without a status. -/
def reachableFlag (n : JSONNode) : Option Bool :=
  (n.find "status").map fun status => decide (status.asString = "connected")

theorem getReachable_eq (devices zigbee : JSONNodeMap) (lightId : String) :
    getReachable ε devices zigbee lightId =
      (getZigbeeConnectivityIdFromLightId ε devices lightId).bind fun zcId =>
        reachableFlag ((zigbee.lookup zcId).getD .empty) := by
  unfold getReachable reachableFlag
  simp only [Option.bind_eq_bind, Option.map_eq_bind]
  rfl

/-- An entry matters for the lights alone that are connected through it. -/
theorem getReachable_of_lookup {zigbee : JSONNodeMap} {node : Option JSONNode}
    (h : ∀ key, zigbee.lookup key =
      if key = id then node else c.allZigbeeConnectivityMap.lookup key) (lightId : String) :
    getReachable ε c.allDeviceMap zigbee lightId =
      if connectsThrough ε c lightId id then reachableFlag (node.getD .empty)
      else getReachable ε c.allDeviceMap c.allZigbeeConnectivityMap lightId := by
  rw [getReachable_eq, getReachable_eq, connectsThrough]
  cases getZigbeeConnectivityIdFromLightId ε c.allDeviceMap lightId with
  | none => simp
  | some zcId =>
    by_cases hzc : zcId = id
    · simp [h, hzc]
    · simp [h, hzc]

end HueStream.Retriever
