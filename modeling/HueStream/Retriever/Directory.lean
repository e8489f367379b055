import HueStream.Retriever.Summary

/-! # The ids in the cache

`Directory` is the abstract view of the cache under which ids are unique and scenes are known: the
ids of the groups, the zones with the ids of their scenes, and the keys of the two maps. An
`Operation` says what a change does to it, and `directory_of_handle` is the refinement: handling a
change is its operation on the directory. Consistency is then a matter of directories: it is kept by
every operation that is `Safe`. An addition does not look for the id, a zone is deleted without its
scenes, and a scene is sought in one zone only; what each of them asks for is in `Safe`. -/

namespace HueStream.Retriever

open HueStream.Data HueStream.Flow HueStream.Json HueStream.Lib

/-- The ids a cache holds. -/
structure Directory where
  groups : List String
  zones : List (String × List String)
  zoneKeys : Set String
  sceneKeys : Set String

/-- What a change does to the ids. A scene that is deleted is sought in one zone, or in none. -/
inductive Operation
  | none
  | addGroup (id : String)
  | deleteGroup (id : String)
  | addZone (id : String)
  | deleteZone (id : String)
  | addScene (zoneId id : String)
  | deleteScene (zoneId : Option String) (id : String)

namespace Directory

/-- Ids of groups, of zones and of the scenes in a zone are unique, and the keys of the scene map
are the ids of the scenes in the zones. -/
structure Consistent (d : Directory) : Prop where
  groups : d.groups.Nodup
  zones : (d.zones.map Prod.fst).Nodup
  scenes : ∀ zone ∈ d.zones, zone.2.Nodup
  sceneKeys : ∀ id, id ∈ d.sceneKeys ↔ ∃ zone ∈ d.zones, id ∈ zone.2

/-- No object of a kind has the id. -/
def Absent (d : Directory) (id : String) : Resource → Prop
  | .entertainmentConfiguration => id ∉ d.groups
  | .zone => id ∉ d.zones.map Prod.fst ∧ id ∉ d.zoneKeys
  | .scene => (∀ zone ∈ d.zones, id ∉ zone.2) ∧ id ∉ d.sceneKeys
  | _ => True

/-- The directory after an operation. -/
def apply (d : Directory) : Operation → Directory
  | .none => d
  | .addGroup id => { d with groups := d.groups ++ [id] }
  | .deleteGroup id => { d with groups := d.groups.erase id }
  | .addZone id => { d with zones := d.zones ++ [(id, [])], zoneKeys := insert id d.zoneKeys }
  | .deleteZone id => { d with
      zones := d.zones.eraseP fun zone => zone.1 = id
      zoneKeys := d.zoneKeys \ {id} }
  | .addScene zoneId id => { d with
      zones := modifyFirst (fun zone => zone.1 = zoneId) (fun zone => (zone.1, zone.2 ++ [id])) d.zones
      sceneKeys := { key | key ∈ d.sceneKeys ∨ key = id ∧ zoneId ∈ d.zones.map Prod.fst } }
  | .deleteScene none _ => d
  | .deleteScene (some zoneId) id => { d with
      zones := modifyFirst (fun zone => zone.1 = zoneId) (fun zone => (zone.1, zone.2.erase id)) d.zones
      sceneKeys := d.sceneKeys \ {id} }

/-- What an operation asks for: an id that is added is a new one, there or in its zone; the scenes of
a zone that is deleted are known to other zones; a scene that is deleted is in no zone but the one
it is sought in. -/
def Safe (d : Directory) : Operation → Prop
  | .addGroup id => id ∉ d.groups
  | .addZone id => id ∉ d.zones.map Prod.fst
  | .deleteZone id => ∀ zone ∈ d.zones, zone.1 = id → ∀ scene ∈ zone.2,
      ∃ other ∈ d.zones, other.1 ≠ id ∧ scene ∈ other.2
  | .addScene zoneId id => ∀ zone ∈ d.zones, zone.1 = zoneId → id ∉ zone.2
  | .deleteScene zoneId id => ∀ zone ∈ d.zones, id ∈ zone.2 → zoneId = some zone.1
  | _ => True

instance (d : Directory) (op : Operation) : Decidable (d.Safe op) :=
  match op with
  | .none => inferInstanceAs (Decidable True)
  | .addGroup id => inferInstanceAs (Decidable (id ∉ d.groups))
  | .deleteGroup _ => inferInstanceAs (Decidable True)
  | .addZone id => inferInstanceAs (Decidable (id ∉ d.zones.map Prod.fst))
  | .deleteZone id => inferInstanceAs (Decidable (∀ zone ∈ d.zones, zone.1 = id →
      ∀ scene ∈ zone.2, ∃ other ∈ d.zones, other.1 ≠ id ∧ scene ∈ other.2))
  | .addScene zoneId id =>
    inferInstanceAs (Decidable (∀ zone ∈ d.zones, zone.1 = zoneId → id ∉ zone.2))
  | .deleteScene zoneId id =>
    inferInstanceAs (Decidable (∀ zone ∈ d.zones, id ∈ zone.2 → zoneId = some zone.1))

variable {d : Directory} {id zoneId : String}

/-! ### Operations keep directories consistent -/

theorem Consistent.deleteZone (h : d.Consistent) (hsafe : d.Safe (.deleteZone id)) :
    (d.apply (.deleteZone id)).Consistent := by
  have hmem : ∀ zone, zone ∈ (d.apply (.deleteZone id)).zones ↔ zone ∈ d.zones ∧ zone.1 ≠ id :=
    fun zone => mem_eraseP_of_nodup h.zones
  refine ⟨h.groups, h.zones.sublist ((List.eraseP_sublist).map _),
    fun zone hzone => h.scenes zone ((hmem zone).mp hzone).1, fun scene => ?_⟩
  rw [show (d.apply (.deleteZone id)).sceneKeys = d.sceneKeys from rfl, h.sceneKeys]
  constructor
  · rintro ⟨zone, hzone, hscene⟩
    by_cases hid : zone.1 = id
    · obtain ⟨other, hother, hne, hscene⟩ := hsafe zone hzone hid scene hscene
      exact ⟨other, (hmem other).mpr ⟨hother, hne⟩, hscene⟩
    · exact ⟨zone, (hmem zone).mpr ⟨hzone, hid⟩, hscene⟩
  · rintro ⟨zone, hzone, hscene⟩
    exact ⟨zone, ((hmem zone).mp hzone).1, hscene⟩

theorem map_fst_modifyZone (f : List String → List String) :
    (modifyFirst (fun zone => decide (zone.1 = zoneId)) (fun zone => (zone.1, f zone.2))
      d.zones).map Prod.fst = d.zones.map Prod.fst :=
  map_modifyFirst fun _ _ => rfl

theorem Consistent.addScene (h : d.Consistent) (hsafe : d.Safe (.addScene zoneId id)) :
    (d.apply (.addScene zoneId id)).Consistent := by
  have hmem : ∀ zone, zone ∈ (d.apply (.addScene zoneId id)).zones ↔
      zone ∈ d.zones ∧ zone.1 ≠ zoneId ∨
        ∃ old ∈ d.zones, old.1 = zoneId ∧ zone = (old.1, old.2 ++ [id]) :=
    fun zone => mem_modifyFirst_of_nodup h.zones
  refine ⟨h.groups, ?_, fun zone hz => ?_, fun key => ?_⟩
  · exact (map_fst_modifyZone (· ++ [id])).symm ▸ h.zones
  · rcases (hmem zone).mp hz with ⟨hz, -⟩ | ⟨old, hold, hid, rfl⟩
    · exact h.scenes zone hz
    · have hnew : id ∉ old.2 := hsafe old hold hid
      simpa using List.Nodup.concat hnew (h.scenes old hold)
  · have hkey : key ∈ (d.apply (.addScene zoneId id)).sceneKeys ↔
        key ∈ d.sceneKeys ∨ key = id ∧ zoneId ∈ d.zones.map Prod.fst := Iff.rfl
    rw [hkey, h.sceneKeys]
    constructor
    · rintro (⟨zone, hz, hkey⟩ | ⟨rfl, hz⟩)
      · by_cases hid : zone.1 = zoneId
        · exact ⟨_, (hmem _).mpr (.inr ⟨zone, hz, hid, rfl⟩), List.mem_append_left _ hkey⟩
        · exact ⟨zone, (hmem zone).mpr (.inl ⟨hz, hid⟩), hkey⟩
      · obtain ⟨zone, hz, hid⟩ := List.mem_map.mp hz
        exact ⟨_, (hmem _).mpr (.inr ⟨zone, hz, hid, rfl⟩), by simp⟩
    · rintro ⟨zone, hz, hkey⟩
      rcases (hmem zone).mp hz with ⟨hz, -⟩ | ⟨old, hold, hid, rfl⟩
      · exact .inl ⟨zone, hz, hkey⟩
      · rcases List.mem_append.mp hkey with hkey | hkey
        · exact .inl ⟨old, hold, hkey⟩
        · exact .inr ⟨List.mem_singleton.mp hkey, hid ▸ List.mem_map_of_mem hold⟩

theorem Consistent.deleteScene (h : d.Consistent) (hsafe : d.Safe (.deleteScene (some zoneId) id)) :
    (d.apply (.deleteScene (some zoneId) id)).Consistent := by
  have hmem : ∀ zone, zone ∈ (d.apply (.deleteScene (some zoneId) id)).zones ↔
      zone ∈ d.zones ∧ zone.1 ≠ zoneId ∨
        ∃ old ∈ d.zones, old.1 = zoneId ∧ zone = (old.1, old.2.erase id) :=
    fun zone => mem_modifyFirst_of_nodup h.zones
  refine ⟨h.groups, ?_, fun zone hz => ?_, fun key => ?_⟩
  · exact (map_fst_modifyZone (List.erase · id)).symm ▸ h.zones
  · rcases (hmem zone).mp hz with ⟨hz, -⟩ | ⟨old, hold, -, rfl⟩
    · exact h.scenes zone hz
    · exact (h.scenes old hold).erase id
  · have hkey : key ∈ (d.apply (.deleteScene (some zoneId) id)).sceneKeys ↔
        key ∈ d.sceneKeys ∧ key ≠ id := Iff.rfl
    rw [hkey, h.sceneKeys]
    constructor
    · rintro ⟨⟨zone, hz, hkey⟩, hne⟩
      by_cases hid : zone.1 = zoneId
      · exact ⟨_, (hmem _).mpr (.inr ⟨zone, hz, hid, rfl⟩), (List.mem_erase_of_ne hne).mpr hkey⟩
      · exact ⟨zone, (hmem zone).mpr (.inl ⟨hz, hid⟩), hkey⟩
    · rintro ⟨zone, hz, hin⟩
      rcases (hmem zone).mp hz with ⟨hold, hid⟩ | ⟨old, hold, hid, rfl⟩
      · refine ⟨⟨zone, hold, hin⟩, ?_⟩
        rintro rfl
        exact hid (Option.some.inj (hsafe zone hold hin)).symm
      · have hold' := (h.scenes old hold).mem_erase_iff.mp hin
        exact ⟨⟨old, hold, hold'.2⟩, hold'.1⟩

/-- **Every safe operation keeps a directory consistent.** -/
theorem Consistent.apply (h : d.Consistent) {op : Operation} (hsafe : d.Safe op) :
    (d.apply op).Consistent := by
  cases op with
  | none => exact h
  | addGroup id =>
    refine ⟨?_, h.zones, h.scenes, h.sceneKeys⟩
    simpa [Directory.apply] using List.Nodup.concat hsafe h.groups
  | deleteGroup id => exact ⟨h.groups.erase id, h.zones, h.scenes, h.sceneKeys⟩
  | addZone id =>
    refine ⟨h.groups, ?_, fun zone hz => ?_, fun key => ?_⟩
    · simpa [Directory.apply] using List.Nodup.concat hsafe h.zones
    · rcases List.mem_append.mp hz with hz | hz
      · exact h.scenes zone hz
      · simp [List.mem_singleton.mp hz]
    · rw [show (d.apply (.addZone id)).sceneKeys = d.sceneKeys from rfl, h.sceneKeys]
      simp [Directory.apply, or_and_right, exists_or]
  | deleteZone id => exact h.deleteZone hsafe
  | addScene zoneId id => exact h.addScene hsafe
  | deleteScene zoneId id =>
    cases zoneId with
    | none => exact h
    | some zoneId => exact h.deleteScene hsafe

/-! ### Deletions leave nothing behind -/

theorem absent_deleteGroup (h : d.Consistent) (id : String) :
    (d.apply (.deleteGroup id)).Absent id .entertainmentConfiguration :=
  fun hmem => (h.groups.mem_erase_iff.mp hmem).1 rfl

theorem absent_deleteZone (h : d.Consistent) (id : String) :
    (d.apply (.deleteZone id)).Absent id .zone := by
  refine ⟨fun hmem => ?_, fun hmem => hmem.2 rfl⟩
  obtain ⟨zone, hzone, hid⟩ := List.mem_map.mp hmem
  exact ((mem_eraseP_of_nodup h.zones).mp hzone).2 hid

theorem absent_deleteScene (h : d.Consistent) {zoneId : Option String}
    (hsafe : d.Safe (.deleteScene zoneId id)) :
    (d.apply (.deleteScene zoneId id)).Absent id .scene := by
  cases zoneId with
  | none =>
    have habsent : ∀ zone ∈ d.zones, id ∉ zone.2 := fun zone hz hid => by
      simpa using hsafe zone hz hid
    refine ⟨habsent, fun hkey => ?_⟩
    obtain ⟨zone, hz, hid⟩ := (h.sceneKeys id).mp hkey
    exact habsent zone hz hid
  | some zoneId =>
    have hkey : id ∉ (d.apply (.deleteScene (some zoneId) id)).sceneKeys := fun hmem => hmem.2 rfl
    refine ⟨fun zone hz hid => hkey ?_, hkey⟩
    exact ((h.apply hsafe).sceneKeys id).mpr ⟨zone, hz, hid⟩

end Directory

end HueStream.Retriever
