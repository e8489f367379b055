import Mathlib.Data.List.Induction
import Mathlib.Data.List.Pairwise
import Mathlib.Order.Lattice

/-! # Ordered maps

The entries of a map in the order of their keys, as a `std::map` has them. -/

namespace HueStream.Lib

variable {K α : Type} [LinearOrder K]

/-- The entries after `map[key] = value`. -/
def orderedPut (key : K) (value : α) : List (K × α) → List (K × α)
  | [] => [(key, value)]
  | entry :: entries =>
    if key < entry.1 then (key, value) :: entry :: entries
    else if key = entry.1 then (key, value) :: entries
    else entry :: orderedPut key value entries

theorem mem_orderedPut {key : K} {value : α} {entries : List (K × α)} {entry : K × α}
    (h : entry ∈ orderedPut key value entries) : entry = (key, value) ∨ entry ∈ entries := by
  induction entries with
  | nil => exact .inl (List.mem_singleton.mp h)
  | cons first entries ih =>
    rw [orderedPut] at h
    split_ifs at h
    · rcases List.mem_cons.mp h with rfl | h
      · exact .inl rfl
      · exact .inr h
    · rcases List.mem_cons.mp h with rfl | h
      · exact .inl rfl
      · exact .inr (List.mem_cons_of_mem first h)
    · rcases List.mem_cons.mp h with rfl | h
      · exact .inr (by simp)
      · rcases ih h with heq | hmem
        · exact .inl heq
        · exact .inr (List.mem_cons_of_mem first hmem)

theorem mem_keys_orderedPut {key k : K} {value : α} {entries : List (K × α)} :
    k ∈ (orderedPut key value entries).map Prod.fst ↔ k = key ∨ k ∈ entries.map Prod.fst := by
  induction entries with
  | nil => simp [orderedPut]
  | cons first entries ih =>
    rw [orderedPut]
    split_ifs with hlt heq
    · simp
    · simp [heq]
    · rw [List.map_cons, List.mem_cons, ih, List.map_cons, List.mem_cons]
      exact or_left_comm

theorem pairwise_orderedPut (key : K) (value : α) {entries : List (K × α)}
    (h : (entries.map Prod.fst).Pairwise (· < ·)) : ((orderedPut key value entries).map Prod.fst).Pairwise (· < ·) := by
  induction entries with
  | nil => simp [orderedPut]
  | cons first entries ih =>
    obtain ⟨hfirst, hrest⟩ := List.pairwise_cons.mp h
    rw [orderedPut]
    split_ifs with hlt heq
    · refine List.pairwise_cons.mpr ⟨fun k hk => ?_, h⟩
      rcases List.mem_cons.mp hk with rfl | hk
      · exact hlt
      · exact hlt.trans (hfirst k hk)
    · rw [List.map_cons, heq]
      exact h
    · rw [List.map_cons]
      refine List.pairwise_cons.mpr ⟨fun k hk => ?_, ih hrest⟩
      rcases mem_keys_orderedPut.mp hk with rfl | hk
      · exact lt_of_le_of_ne (not_lt.mp hlt) (Ne.symm heq)
      · exact hfirst k hk

/-- A map whose entries are in the order of their keys. -/
structure OrderedMap (K α : Type) [LinearOrder K] where
  entries : List (K × α)
  ordered : (entries.map Prod.fst).Pairwise (· < ·)

namespace OrderedMap

def empty : OrderedMap K α := ⟨[], .nil⟩

def put (map : OrderedMap K α) (key : K) (value : α) : OrderedMap K α :=
  ⟨orderedPut key value map.entries, pairwise_orderedPut key value map.ordered⟩

/-- The map of values that are put in one after another, each at its key. -/
def ofValues (key : α → K) (values : List α) : OrderedMap K α :=
  values.foldl (fun map value => map.put (key value) value) empty

variable {key : α → K} {values : List α}

theorem ofValues_concat (values : List α) (value : α) :
    ofValues key (values ++ [value]) = (ofValues key values).put (key value) value := by
  rw [ofValues, List.foldl_append]
  rfl

theorem of_mem_ofValues {entry : K × α} (h : entry ∈ (ofValues key values).entries) :
    entry.2 ∈ values ∧ key entry.2 = entry.1 := by
  induction values using List.reverseRecOn with
  | nil => simp [ofValues, empty] at h
  | append_singleton values value ih =>
    rw [ofValues_concat] at h
    rcases mem_orderedPut h with rfl | h
    · exact ⟨by simp, rfl⟩
    · exact ⟨List.mem_append_left _ (ih h).1, (ih h).2⟩

theorem mem_keys_ofValues {k : K} : k ∈ (ofValues key values).entries.map Prod.fst ↔ k ∈ values.map key := by
  induction values using List.reverseRecOn with
  | nil => simp [ofValues, empty]
  | append_singleton values value ih =>
    rw [ofValues_concat, put, mem_keys_orderedPut, ih, List.map_append, List.mem_append]
    simp [or_comm]

end OrderedMap

end HueStream.Lib
