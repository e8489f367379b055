import HueStream.Animations.Playing

/-! # Clones

`Clone` copies an animation with all objects in it, also where one of them stands at several places. The clone of an
object is named by its path, the indices that lead to it. Clones have the lengths of what they are clones of. -/

namespace HueStream.Animations

variable {ι κ S : Type}

namespace Animation

mutual

/-- `Clone`, with names for the new objects. -/
def clone (name : List ℕ → κ) : Animation ι S → Animation κ S
  | .missing => .missing
  | .leaf l => .leaf {
      id := name []
      repeatTimes := l.repeatTimes
      lengthMs := l.lengthMs
      updateValue := l.updateValue
      rewound := l.rewound
      getPositionFromValue := l.getPositionFromValue }
  | .sequence _ repeatTimes bookmarks sequences => .sequence (name []) repeatTimes bookmarks (cloneAll name 0 sequences)

/-- The loop of `SequenceAnimation::Clone`, where `i` is the index of the next element. -/
def cloneAll (name : List ℕ → κ) (i : ℕ) : List (Animation ι S) → List (Animation κ S)
  | [] => []
  | a :: as => clone (fun path => name (i :: path)) a :: cloneAll name (i + 1) as

end

/-- The object at a path. -/
def objectAt : Animation ι S → List ℕ → Option (Animation ι S)
  | a, [] => some a
  | .sequence _ _ _ sequences, i :: path => sequences[i]? >>= fun a => a.objectAt path
  | _, _ :: _ => none

/-- The identity of the object at a path. -/
def identAt (a : Animation ι S) (path : List ℕ) : Option ι := a.objectAt path >>= ident

end Animation

open Animation

variable {a : Animation ι S} {as : List (Animation ι S)} {name : List ℕ → κ}

theorem cloneAll_eq (name : List ℕ → κ) (i : ℕ) (as : List (Animation ι S)) :
    cloneAll name i as = as.mapIdx fun j a => a.clone fun path => name ((i + j) :: path) := by
  induction as generalizing i with
  | nil => rfl
  | cons a as ih =>
    rw [cloneAll, ih, List.mapIdx_cons]
    simp only [Nat.add_zero, Nat.add_assoc, Nat.add_comm 1]

theorem totals_congr {bs : List (Animation κ S)} (h : bs.map total = as.map total) (length : ℚ) :
    totals bs length = totals as length := by
  induction as generalizing bs length with
  | nil =>
    obtain rfl := List.map_eq_nil_iff.mp h
    rfl
  | cons a as ih =>
    obtain ⟨b, bs, rfl, hb, hbs⟩ := List.map_eq_cons_iff.mp h
    rw [totals, totals, hb, ih hbs]

theorem map_total_cloneAll {i : ℕ} (h : ∀ a ∈ as, ∀ name : List ℕ → κ, total (a.clone name) = total a) :
    (cloneAll name i as).map total = as.map total := by
  rw [cloneAll_eq]
  refine List.ext_getElem (by simp) fun j hj hj' => ?_
  have hlt : j < as.length := by simpa using hj'
  simp [h as[j] (List.getElem_mem hlt)]

theorem total_clone (a : Animation ι S) (name : List ℕ → κ) : total (a.clone name) = total a := by
  induction a using Animation.induction generalizing name with
  | missing => rfl
  | leaf l => rfl
  | sequence id repeatTimes bookmarks sequences ih =>
    rw [clone, total, total, totals_congr (map_total_cloneAll fun a ha name => ih a ha name)]

theorem totals_clone (name : List ℕ → κ) (i : ℕ) (as : List (Animation ι S)) (length : ℚ) :
    totals (cloneAll name i as) length = totals as length :=
  totals_congr (map_total_cloneAll fun a _ name => total_clone a name) length

theorem mem_cloneAll {i : ℕ} {b : Animation κ S} (h : b ∈ cloneAll name i as) :
    ∃ j, ∃ a : Animation ι S, as[j]? = some a ∧ b = a.clone fun path => name ((i + j) :: path) := by
  rw [cloneAll_eq, List.mem_mapIdx] at h
  obtain ⟨j, hj, rfl⟩ := h
  exact ⟨j, as[j], List.getElem?_eq_getElem hj, rfl⟩

theorem Playable.clone (h : Playable a) (name : List ℕ → κ) : Playable (a.clone name) := by
  induction a using Animation.induction generalizing name with
  | missing => cases h
  | leaf l =>
    cases h with
    | leaf hlength =>
      rw [Animation.clone]
      exact .leaf hlength
  | sequence id repeatTimes bookmarks sequences ih =>
    cases h with
    | sequence hsub hlength =>
      rw [Animation.clone]
      refine .sequence (fun b hb => ?_) ((totals_clone name 0 sequences 0).symm ▸ hlength)
      obtain ⟨j, a, ha, rfl⟩ := mem_cloneAll hb
      exact ih a (List.mem_of_getElem? ha) (hsub a (List.mem_of_getElem? ha)) _

/-- The objects of a clone are the clones of the objects. -/
theorem part_clone {b : Animation κ S} (h : Part b (a.clone name)) :
    ∃ path, ∃ a' : Animation ι S, a.objectAt path = some a' ∧ Part a' a ∧
      b = a'.clone fun path' => name (path ++ path') := by
  induction a using Animation.induction generalizing name with
  | missing =>
    cases h
    exact ⟨[], .missing, rfl, .refl, rfl⟩
  | leaf l =>
    cases h
    exact ⟨[], .leaf l, rfl, .refl, rfl⟩
  | sequence id repeatTimes bookmarks sequences ih =>
    cases h with
    | refl => exact ⟨[], .sequence id repeatTimes bookmarks sequences, rfl, .refl, rfl⟩
    | sub hmem hpart =>
      obtain ⟨j, a, ha, rfl⟩ := mem_cloneAll hmem
      obtain ⟨path, a', ha', hpart', rfl⟩ := ih a (List.mem_of_getElem? ha) hpart
      refine ⟨j :: path, a', ?_, .sub (List.mem_of_getElem? ha) hpart', ?_⟩
      · rw [objectAt, ha]
        exact ha'
      · simp only [Nat.zero_add, List.cons_append]

theorem has_clone {id : κ} (h : (a.clone name).Has id) : ∃ path, id = name path := by
  obtain ⟨b, hpart, hident⟩ := h
  obtain ⟨path, a', -, -, rfl⟩ := part_clone hpart
  refine ⟨path ++ [], ?_⟩
  cases a' with
  | missing => cases hident
  | leaf l => exact (Option.some.inj hident).symm
  | sequence id' repeatTimes bookmarks sequences => exact (Option.some.inj hident).symm

/-- The sequences in a clone are the clones of sequences. -/
theorem hasSequence_clone {id : κ} (h : (a.clone name).HasSequence id) :
    ∃ path id', id = name path ∧ a.identAt path = some id' ∧ a.HasSequence id' := by
  obtain ⟨repeatTimes, bookmarks, sequences, hpart⟩ := h
  obtain ⟨path, a', ha', hpart', heq⟩ := part_clone hpart
  cases a' with
  | missing => cases heq
  | leaf l => cases heq
  | sequence id' repeatTimes' bookmarks' sequences' =>
    rw [Animation.clone] at heq
    obtain ⟨hid, -⟩ := Animation.sequence.inj heq
    refine ⟨path ++ [], id', hid, ?_, _, _, _, hpart'⟩
    rw [List.append_nil, identAt, ha']
    rfl

end HueStream.Animations
