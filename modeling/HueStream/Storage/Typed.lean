import HueStream.Storage.Classes
import HueStream.Storage.Objects

/-! # Which JSON gives sound objects

An object is well typed if no pointer it holds is null or of another class than it was cast to, and the
objects in it are well typed. This depends only on the types that are written: the JSON fits a class if
every element of a list names a class of the element type, every member names one of its type or none that
the object builder knows, and all of these fit. An object is used by following pointers, which never fails
exactly when the object is well typed. -/

namespace HueStream.Storage

open HueStream.Json

variable {atof : String → ℚ}

/-! ### Well-typed objects -/

inductive WellTyped : Obj → Prop
  | intro {o : Obj} (nonnull : ∀ p ∈ o.pointers, p.2 ≠ none)
      (cast : ∀ p ∈ o.pointers, ∀ o' ∈ p.2, o'.cls.isA p.1 = true)
      (inner : ∀ p ∈ o.pointers, ∀ o' ∈ p.2, WellTyped o') : WellTyped o

/-- What goes wrong in the use of an object. -/
inductive Fault
  | nullPointer | otherClass

/-- A use of an object: from it to one of the objects it holds, and on from there. It ends where there is
no such pointer. -/
def Obj.follow : Obj → List ℕ → Except Fault Obj
  | o, [] => .ok o
  | o, i :: path =>
    match o.pointers[i]? with
    | none => .ok o
    | some (_, none) => .error .nullPointer
    | some (type, some o') => if o'.cls.isA type then o'.follow path else .error .otherClass

/-- No use of the object fails. -/
def Obj.Safe (o : Obj) : Prop := ∀ path, ∃ o', o.follow path = .ok o'

theorem Obj.sizeOf_of_mem_pointers {o o' : Obj} {p : ElementType × Option Obj} (hp : p ∈ o.pointers)
    (h : o' ∈ p.2) : sizeOf o' < sizeOf o := by
  obtain ⟨cls, pointers⟩ := o
  obtain ⟨type, pointer⟩ := p
  obtain rfl := Option.mem_def.mp h
  have hlt : sizeOf (type, some o') < sizeOf pointers := List.sizeOf_lt_of_mem hp
  simp at hlt ⊢
  omega

theorem WellTyped.safe {o : Obj} (h : WellTyped o) : o.Safe := by
  intro path
  induction path generalizing o with
  | nil => exact ⟨o, rfl⟩
  | cons i path ih =>
    obtain ⟨hnonnull, hcast, hinner⟩ := h
    cases hi : o.pointers[i]? with
    | none => exact ⟨o, by simp [Obj.follow, hi]⟩
    | some p =>
      have hp : p ∈ o.pointers := List.mem_of_getElem? hi
      obtain ⟨o', ho'⟩ := Option.ne_none_iff_exists'.mp (hnonnull p hp)
      obtain ⟨o'', hfollow⟩ := ih (hinner p hp o' ho')
      refine ⟨o'', ?_⟩
      obtain ⟨type, pointer⟩ := p
      obtain rfl : pointer = some o' := ho'
      simp [Obj.follow, hi, hcast _ hp o' rfl, hfollow]

/-- Following a pointer that is neither null nor of another class. -/
theorem Obj.Safe.follow {o : Obj} (h : o.Safe) {p : ElementType × Option Obj} (hp : p ∈ o.pointers) :
    ∃ o', p.2 = some o' ∧ o'.cls.isA p.1 = true ∧ o'.Safe := by
  obtain ⟨i, hi⟩ := List.getElem?_of_mem hp
  obtain ⟨type, pointer⟩ := p
  cases pointer with
  | none =>
    obtain ⟨o', ho'⟩ := h [i]
    simp [Obj.follow, hi] at ho'
  | some o' =>
    have hall : ∀ path, ∃ o'', (if o'.cls.isA type then o'.follow path else .error .otherClass) =
        Except.ok o'' := by
      intro path
      obtain ⟨o'', ho''⟩ := h (i :: path)
      simp only [Obj.follow, hi] at ho''
      exact ⟨o'', ho''⟩
    have hcast : o'.cls.isA type = true := by
      by_contra hcast
      obtain ⟨o'', ho''⟩ := hall []
      rw [if_neg hcast] at ho''
      cases ho''
    refine ⟨o', rfl, hcast, fun path => ?_⟩
    have := hall path
    rwa [if_pos hcast] at this

theorem Obj.Safe.wellTyped {o : Obj} (h : o.Safe) : WellTyped o := by
  refine ⟨fun p hp => ?_, fun p hp o' ho' => ?_, fun p hp o' ho' => ?_⟩
  · obtain ⟨o', ho', -⟩ := h.follow hp
    rw [ho']
    exact Option.some_ne_none o'
  · obtain ⟨o'', ho'', hcast, -⟩ := h.follow hp
    obtain rfl := Option.some.inj (ho''.symm.trans ho')
    exact hcast
  · obtain ⟨o'', ho'', -, hsafe⟩ := h.follow hp
    obtain rfl := Option.some.inj (ho''.symm.trans ho')
    have := Obj.sizeOf_of_mem_pointers hp ho'
    exact hsafe.wellTyped
termination_by sizeOf o

theorem wellTyped_iff_safe {o : Obj} : WellTyped o ↔ o.Safe := ⟨WellTyped.safe, Obj.Safe.wellTyped⟩

/-! ### The types that are written -/

/-- The JSON fits the class. -/
inductive Fits (atof : String → ℚ) : ObjectClass → JSONNode → Prop
  | intro {cls : ObjectClass} {n : JSONNode}
      (known : ∀ slot ∈ cls.slots atof n, slot.default = none →
        ∀ c ∈ slot.node, ObjectBuilder.build c ≠ none)
      (cast : ∀ slot ∈ cls.slots atof n, ∀ c ∈ slot.node, ∀ cls' ∈ ObjectBuilder.build c,
        cls'.isA slot.type = true)
      (inner : ∀ slot ∈ cls.slots atof n, ∀ c ∈ slot.node, ∀ cls' ∈ ObjectBuilder.build c,
        Fits atof cls' c) : Fits atof cls n

/-- An element of a list has a node, and the default of an attribute is of its type. -/
def Slot.Sound (slot : Slot) : Prop :=
  (slot.default = none → slot.node ≠ none) ∧
  ∀ default ∈ slot.default, ∀ cls ∈ default, cls.isA slot.type = true

theorem sound_elements {type : ElementType} {list : Option JSONNode} :
    ∀ slot ∈ elements type list, slot.Sound := by
  intro slot h
  obtain ⟨n, -, item, -, rfl⟩ := mem_elements.mp h
  exact ⟨fun _ => Option.some_ne_none item, by simp⟩

/-- The default of a member is of its type. -/
def Member.defaultFits : Member → Bool
  | .polymorphic _ type (some c) => c.isA type
  | _ => true

/-- Every default passes the cast of its member. -/
theorem ObjectClass.defaultFits (cls : ObjectClass) : ∀ m ∈ cls.members, m.defaultFits = true := by
  cases cls <;> decide

theorem Member.sound_slots {m : Member} (hdefault : m.defaultFits = true) (n : JSONNode) :
    ∀ slot ∈ m.slots n, slot.Sound := by
  intro slot hslot
  cases m with
  | list name type => exact sound_elements slot hslot
  | layers =>
    obtain ⟨layerNode, -, hslot⟩ := List.mem_flatMap.mp hslot
    exact sound_elements slot hslot
  | polymorphic name type default =>
    obtain rfl := List.mem_singleton.mp hslot
    refine ⟨by simp, fun d hd cls hcls => ?_⟩
    obtain rfl := Option.some.inj hd
    obtain rfl := Option.mem_def.mp hcls
    exact hdefault

theorem ObjectClass.sound_slots {cls : ObjectClass} {n : JSONNode} :
    ∀ slot ∈ cls.slots atof n, slot.Sound := by
  intro slot hslot
  unfold slots at hslot
  by_cases hversion : cls = .lightScript ∧ 0 < deserializeValue atof n "VerionMajor" (0 : ℤ)
  · rw [if_pos hversion] at hslot
    cases hslot
  · rw [if_neg hversion] at hslot
    obtain ⟨m, hm, hslot⟩ := List.mem_flatMap.mp hslot
    exact m.sound_slots (cls.defaultFits m hm) n slot hslot

/-! ### The objects that are read -/

@[simp] theorem deserialize_cls (cls : ObjectClass) (n : JSONNode) :
    (deserialize atof cls n).cls = cls := by
  rw [deserialize_eq]
  rfl

theorem mem_pointers_deserialize {cls : ObjectClass} {n : JSONNode} {p : ElementType × Option Obj} :
    p ∈ (deserialize atof cls n).pointers ↔
      ∃ slot ∈ cls.slots atof n, slot.pointer (slot.node.bind (deserializeFromJson atof)) = some p := by
  rw [deserialize_eq]
  exact List.mem_filterMap

theorem Slot.pointer_some (slot : Slot) (o : Obj) : slot.pointer (some o) = some (slot.type, some o) := by
  unfold pointer
  cases slot.default with
  | none => rfl
  | some default => rfl

theorem Slot.pointer_none {slot : Slot} {p : ElementType × Option Obj} (h : slot.pointer none = some p) :
    slot.default = none ∨ ∃ c, slot.default = some (some c) ∧ p = (slot.type, some (.mk c [])) := by
  unfold pointer at h
  cases hdefault : slot.default with
  | none => exact .inl rfl
  | some default =>
    simp only [hdefault, Option.none_or, Option.map_map, Option.map_eq_some_iff] at h
    obtain ⟨c, rfl, rfl⟩ := h
    exact .inr ⟨c, rfl, rfl⟩

/-- The pointer to an object that the object builder builds. -/
theorem mem_pointers_of_build {cls cls' : ObjectClass} {n c : JSONNode} {slot : Slot}
    (hslot : slot ∈ cls.slots atof n) (hc : c ∈ slot.node) (hcls : cls' ∈ ObjectBuilder.build c) :
    (slot.type, some (deserialize atof cls' c)) ∈ (deserialize atof cls n).pointers := by
  refine mem_pointers_deserialize.mpr ⟨slot, hslot, ?_⟩
  have hread : slot.node.bind (deserializeFromJson atof) = some (deserialize atof cls' c) := by
    rw [Option.mem_def.mp hc, Option.bind_some, deserializeFromJson, Option.mem_def.mp hcls]
    rfl
  rw [hread, Slot.pointer_some]

/-- Every pointer is to an object that was built or to a default one, or a null pointer in a list. -/
theorem pointer_cases {cls : ObjectClass} {n : JSONNode} {p : ElementType × Option Obj}
    (h : p ∈ (deserialize atof cls n).pointers) :
    ∃ slot ∈ cls.slots atof n,
      (∃ c ∈ slot.node, ∃ cls' ∈ ObjectBuilder.build c, p = (slot.type, some (deserialize atof cls' c))) ∨
      (∃ c, slot.default = some (some c) ∧ p = (slot.type, some (.mk c []))) ∨
      (slot.default = none ∧ ∃ c ∈ slot.node, ObjectBuilder.build c = none) := by
  obtain ⟨slot, hslot, hp⟩ := mem_pointers_deserialize.mp h
  refine ⟨slot, hslot, ?_⟩
  cases hnode : slot.node with
  | none =>
    rw [hnode, Option.bind_none] at hp
    rcases Slot.pointer_none hp with hdefault | hdefault
    · exact absurd hnode ((ObjectClass.sound_slots slot hslot).1 hdefault)
    · exact .inr (.inl hdefault)
  | some c =>
    rw [hnode, Option.bind_some, deserializeFromJson] at hp
    cases hbuild : ObjectBuilder.build c with
    | none =>
      rw [hbuild, Option.map_none] at hp
      rcases Slot.pointer_none hp with hdefault | hdefault
      · exact .inr (.inr ⟨hdefault, c, rfl, hbuild⟩)
      · exact .inr (.inl hdefault)
    | some cls' =>
      rw [hbuild, Option.map_some, Slot.pointer_some] at hp
      exact .inl ⟨c, rfl, cls', hbuild, (Option.some.inj hp).symm⟩

theorem wellTyped_default (c : ObjectClass) : WellTyped (.mk c []) := by
  refine ⟨?_, ?_, ?_⟩ <;> simp [Obj.pointers]

theorem Fits.wellTyped {cls : ObjectClass} {n : JSONNode} (h : Fits atof cls n) :
    WellTyped (deserialize atof cls n) := by
  induction h with
  | intro known cast inner ih =>
    refine ⟨fun p hp => ?_, fun p hp o ho => ?_, fun p hp o ho => ?_⟩
    · obtain ⟨slot, hslot, ⟨c, -, cls', -, rfl⟩ | ⟨c, -, rfl⟩ | ⟨hdefault, c, hc, hbuild⟩⟩ :=
        pointer_cases hp
      · exact Option.some_ne_none _
      · exact Option.some_ne_none _
      · exact absurd hbuild (known slot hslot hdefault c hc)
    · obtain ⟨slot, hslot, ⟨c, hc, cls', hcls, rfl⟩ | ⟨c, hc, rfl⟩ | ⟨hdefault, c, hc, hbuild⟩⟩ :=
        pointer_cases hp
      · obtain rfl := Option.some.inj ho
        rw [deserialize_cls]
        exact cast slot hslot c hc cls' hcls
      · obtain rfl := Option.some.inj ho
        exact (ObjectClass.sound_slots slot hslot).2 _ hc c rfl
      · exact absurd hbuild (known slot hslot hdefault c hc)
    · obtain ⟨slot, hslot, ⟨c, hc, cls', hcls, rfl⟩ | ⟨c, -, rfl⟩ | ⟨hdefault, c, hc, hbuild⟩⟩ :=
        pointer_cases hp
      · obtain rfl := Option.some.inj ho
        exact ih slot hslot c hc cls' hcls
      · obtain rfl := Option.some.inj ho
        exact wellTyped_default c
      · exact absurd hbuild (known slot hslot hdefault c hc)

theorem fits_of_wellTyped {cls : ObjectClass} {n : JSONNode} (h : WellTyped (deserialize atof cls n)) :
    Fits atof cls n := by
  obtain ⟨hnonnull, hcast, hinner⟩ := h
  refine ⟨fun slot hslot hdefault c hc hbuild => ?_, fun slot hslot c hc cls' hcls => ?_,
    fun slot hslot c hc cls' hcls => ?_⟩
  · have hread : slot.node.bind (deserializeFromJson atof) = none := by
      rw [Option.mem_def.mp hc, Option.bind_some, deserializeFromJson, hbuild, Option.map_none]
    have hnull : (slot.type, none) ∈ (deserialize atof cls n).pointers := by
      refine mem_pointers_deserialize.mpr ⟨slot, hslot, ?_⟩
      rw [hread, Slot.pointer, hdefault]
    exact hnonnull _ hnull rfl
  · have := hcast _ (mem_pointers_of_build hslot hc hcls) _ rfl
    rwa [deserialize_cls] at this
  · have := ObjectClass.sizeOf_of_mem_slots atof hslot hc
    exact fits_of_wellTyped (hinner _ (mem_pointers_of_build hslot hc hcls) _ rfl)
termination_by sizeOf n

theorem wellTyped_iff_fits {cls : ObjectClass} {n : JSONNode} :
    WellTyped (deserialize atof cls n) ↔ Fits atof cls n :=
  ⟨fits_of_wellTyped, Fits.wellTyped⟩

/-- **When reading gives sound objects.** Whatever class is read from whatever JSON, the object is well
typed, and no use of it dereferences a null pointer or takes an object for one of another class, exactly
when the types that are written fit. -/
theorem deserialize_sound_iff (atof : String → ℚ) (cls : ObjectClass) (n : JSONNode) :
    (WellTyped (deserialize atof cls n) ↔ Fits atof cls n) ∧
    ((deserialize atof cls n).Safe ↔ Fits atof cls n) :=
  ⟨wellTyped_iff_fits, wellTyped_iff_safe.symm.trans wellTyped_iff_fits⟩

/-- A bridge of an unknown type, a light in a list of groups, and a light as the effect of an action. -/
theorem exists_unsound_object :
    (deserialize (fun _ => 0) .hueStreamData (.node [("Bridges", .array
      [.node [("type", .string "huestream.Nope")]])])).follow [0] = .error .nullPointer ∧
    (deserialize (fun _ => 0) .bridge (.node [("Groups", .array
      [.node [("type", .string "huestream.Light")]])])).follow [0] = .error .otherClass ∧
    (deserialize (fun _ => 0) .action (.node [("Effect",
      .node [("type", .string "huestream.Light")])])).follow [0] = .error .otherClass := by
  have hgroup : (deserialize (fun _ => 0) .bridge (.node [("Groups", .array
      [.node [("type", .string "huestream.Light")]])])).pointers = [(.group,
        some (deserialize (fun _ => 0) .light (.node [("type", .string "huestream.Light")])))] := by
    rw [deserialize_eq]
    rfl
  have heffect : (deserialize (fun _ => 0) .action (.node [("Effect",
      .node [("type", .string "huestream.Light")])])).pointers = [(.animationEffect,
        some (deserialize (fun _ => 0) .light (.node [("type", .string "huestream.Light")])))] := by
    rw [deserialize_eq]
    rfl
  refine ⟨?_, ?_, ?_⟩
  · rw [deserialize_eq]
    rfl
  · simp [Obj.follow, hgroup, ObjectClass.isA]
  · simp [Obj.follow, heffect, ObjectClass.isA]

/-! ### The stored classes -/

/-- The JSON fits a class without a list or member of its own. -/
theorem fits_of_members_nil {cls : ObjectClass} (h : cls.members = []) (n : JSONNode) :
    Fits atof cls n := by
  have hnone : cls.slots atof n = [] := by simp [ObjectClass.slots, h]
  refine ⟨?_, ?_, ?_⟩ <;> simp [hnone]

/-- The JSON fits a class that reads only lists if every item names the class that is looked for, and fits
it. -/
theorem fits_of_lists {cls : ObjectClass} {n : JSONNode}
    (h : ∀ m ∈ cls.members, ∃ name type cls', m = .list name type ∧ cls'.isA type = true ∧
      ∀ list ∈ n.find name, ∀ c ∈ list.asArray,
        ObjectBuilder.build c = some cls' ∧ Fits atof cls' c) : Fits atof cls n := by
  have hslots : ∀ slot ∈ cls.slots atof n, ∃ cls', cls'.isA slot.type = true ∧
      ∀ c ∈ slot.node, ObjectBuilder.build c = some cls' ∧ Fits atof cls' c := by
    intro slot hslot
    have hmem : slot ∈ cls.members.flatMap (Member.slots n) := by
      unfold ObjectClass.slots at hslot
      by_cases hversion : cls = .lightScript ∧ 0 < deserializeValue atof n "VerionMajor" (0 : ℤ)
      · rw [if_pos hversion] at hslot
        cases hslot
      · rwa [if_neg hversion] at hslot
    obtain ⟨m, hm, hslot⟩ := List.mem_flatMap.mp hmem
    obtain ⟨name, type, cls', rfl, hisA, hitems⟩ := h m hm
    obtain ⟨list, hlist, item, hitem, rfl⟩ := mem_elements.mp hslot
    refine ⟨cls', hisA, fun c hc => ?_⟩
    obtain rfl := Option.some.inj hc
    exact hitems list hlist item hitem
  refine ⟨fun slot hslot _ c hc => ?_, fun slot hslot c hc cls' hcls => ?_,
    fun slot hslot c hc cls' hcls => ?_⟩
  · obtain ⟨cls', -, hitems⟩ := hslots slot hslot
    rw [(hitems c hc).1]
    exact Option.some_ne_none cls'
  · obtain ⟨cls'', hisA, hitems⟩ := hslots slot hslot
    obtain rfl := Option.some.inj ((hitems c hc).1.symm.trans hcls)
    exact hisA
  · obtain ⟨cls'', -, hitems⟩ := hslots slot hslot
    obtain rfl := Option.some.inj ((hitems c hc).1.symm.trans hcls)
    exact (hitems c hc).2

end HueStream.Storage

namespace HueStream.Data

open HueStream.Json HueStream.Storage

variable {atof : String → ℚ} {n : JSONNode}

/-- Every item of a list that was read is read by itself. -/
theorem exists_of_deserializeList {β : Type} {name : String} {build : JSONNode → Option β} {l : List β}
    (h : deserializeList n name build = some l) :
    ∀ list ∈ n.find name, ∀ c ∈ list.asArray, ∃ a, build c = some a := by
  intro list hlist
  have hitems : list.asArray.mapM build = some l := by
    rw [deserializeList, Option.mem_def.mp hlist] at h
    exact h
  clear h hlist
  generalize list.asArray = items at hitems
  induction items generalizing l with
  | nil => simp
  | cons item items ih =>
    rw [List.mapM_cons] at hitems
    simp only [Option.bind_eq_bind, Option.bind_eq_some_iff, Option.pure_def] at hitems
    obtain ⟨a, ha, l', hl', -⟩ := hitems
    intro c hc
    rcases List.mem_cons.mp hc with rfl | hc
    · exact ⟨a, ha⟩
    · exact ih hl' c hc

/-- An object that was read as one of the class names it. -/
theorem build_of_storageBuild {β : Type} {typeName : String} {cls : ObjectClass}
    {deserialize : JSONNode → Option β} {a : β}
    (hcls : ObjectBuilder.constructInstanceOf typeName = some cls)
    (h : Storage.build typeName deserialize n = some a) :
    ObjectBuilder.build n = some cls ∧ deserialize n = some a := by
  unfold Storage.build at h
  by_cases htype : (n.find "type").map JSONNode.asString = some typeName
  · rw [if_pos htype] at h
    obtain ⟨type, hfind, rfl⟩ := Option.map_eq_some_iff.mp htype
    refine ⟨?_, h⟩
    rw [ObjectBuilder.build, hfind, Option.bind_some, hcls]
  · rw [if_neg htype] at h
    cases h

theorem Group.fits_of_deserialize {cls : ObjectClass} {g g' : Group}
    (hcls : cls.members = ObjectClass.groupMembers) (h : deserialize atof n g = some g') :
    Fits atof cls n := by
  unfold deserialize at h
  simp only [Option.bind_eq_bind, Option.bind_eq_some_iff] at h
  obtain ⟨lights, hlights, physicalLights, hphysical, scenes, hscenes, -⟩ := h
  refine fits_of_lists fun m hm => ?_
  rw [hcls] at hm
  simp only [ObjectClass.groupMembers, List.mem_cons, List.not_mem_nil, or_false] at hm
  rcases hm with rfl | rfl | rfl
  · refine ⟨"Lights", .light, .light, rfl, rfl, fun list hlist c hc => ?_⟩
    obtain ⟨l, hl⟩ := exists_of_deserializeList hlights list hlist c hc
    exact ⟨(build_of_storageBuild rfl hl).1, fits_of_members_nil rfl c⟩
  · refine ⟨"PhysicalLights", .light, .light, rfl, rfl, fun list hlist c hc => ?_⟩
    obtain ⟨l, hl⟩ := exists_of_deserializeList hphysical list hlist c hc
    exact ⟨(build_of_storageBuild rfl hl).1, fits_of_members_nil rfl c⟩
  · refine ⟨"Scenes", .scene, .scene, rfl, rfl, fun list hlist c hc => ?_⟩
    obtain ⟨s, hs⟩ := exists_of_deserializeList hscenes list hlist c hc
    exact ⟨(build_of_storageBuild rfl hs).1, fits_of_members_nil rfl c⟩

theorem Bridge.fits_of_deserialize {b b' : Bridge} (h : deserialize atof n b = some b') :
    Fits atof .bridge n := by
  unfold deserialize at h
  simp only [Option.bind_eq_bind, Option.bind_eq_some_iff] at h
  obtain ⟨groups, hgroups, zones, hzones, -⟩ := h
  refine fits_of_lists fun m hm => ?_
  simp only [ObjectClass.members, List.mem_cons, List.not_mem_nil, or_false] at hm
  rcases hm with rfl | rfl
  · refine ⟨"Groups", .group, .group, rfl, rfl, fun list hlist c hc => ?_⟩
    obtain ⟨g, hg⟩ := exists_of_deserializeList hgroups list hlist c hc
    obtain ⟨hbuild, hread⟩ := build_of_storageBuild rfl hg
    exact ⟨hbuild, Group.fits_of_deserialize rfl hread⟩
  · refine ⟨"Zones", .zone, .zone, rfl, rfl, fun list hlist c hc => ?_⟩
    obtain ⟨z, hz⟩ := exists_of_deserializeList hzones list hlist c hc
    obtain ⟨hbuild, hread⟩ := build_of_storageBuild rfl hz
    unfold Zone.deserialize at hread
    simp only [Option.bind_eq_bind, Option.bind_eq_some_iff] at hread
    obtain ⟨g, hg, -⟩ := hread
    exact ⟨hbuild, Group.fits_of_deserialize rfl hg⟩

/-- **The stored data that is read is sound.** Where every object of the JSON is of the class that is
looked for, no use of the data that is loaded fails. -/
theorem StoredData.safe_of_deserialize {d : StoredData} (h : StoredData.deserialize atof n = some d) :
    (Storage.deserialize atof .hueStreamData n).Safe := by
  unfold StoredData.deserialize at h
  simp only [Option.bind_eq_bind, Option.bind_eq_some_iff] at h
  obtain ⟨bridges, hbridges, -⟩ := h
  refine (Fits.wellTyped (fits_of_lists fun m hm => ?_)).safe
  simp only [ObjectClass.members, List.mem_cons, List.not_mem_nil, or_false] at hm
  obtain rfl := hm
  refine ⟨"Bridges", .bridge, .bridge, rfl, rfl, fun list hlist c hc => ?_⟩
  obtain ⟨b, hb⟩ := exists_of_deserializeList hbridges list hlist c hc
  obtain ⟨hbuild, hread⟩ := build_of_storageBuild rfl hb
  exact ⟨hbuild, Bridge.fits_of_deserialize hread⟩

end HueStream.Data
