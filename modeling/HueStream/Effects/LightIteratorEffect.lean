import HueStream.Effects.Vector
import HueStream.Lib.StableInsert

/-! # The order of the lights

A `LightIteratorEffect` sorts the lights before it gives them their animations. `CompareLights` compares a key, and
negates the result when the order is inverted.

* `arranges_well_iff`: the comparison is one that can be sorted by unless it is negated. -/

namespace HueStream.Effects

open HueStream.Data HueStream.Lib

inductive IterationOrder
  | leftRight | frontBack | topBottom | clockwise | inOut | random | group
deriving DecidableEq

inductive IterationMode
  | single | cycle | bounce
deriving DecidableEq

/-- What a `LightIteratorEffect` is set to. -/
structure LightIteratorEffect where
  order : IterationOrder := .group
  mode : IterationMode := .cycle
  offset : ℚ := 0
  invertOrder : Bool := false

namespace LightIteratorEffect

variable (sqrt : ℚ → ℚ) (atan2 : ℚ → ℚ → ℚ) (e : LightIteratorEffect)

/-- `CompareLights`; `rand` is the number that `Rand(0, 1)` gives. -/
def compareLights (rand : ℚ) (i j : Light) : Bool :=
  let result := match e.order with
    | .leftRight => decide (i.position.x < j.position.x)
    | .frontBack => decide (j.position.y < i.position.y)
    | .topBottom => decide (j.position.z < i.position.z)
    | .clockwise =>
      let vectorI : Vector := { x := i.position.x, y := i.position.y }
      let vectorJ : Vector := { x := j.position.x, y := j.position.y }
      decide (vectorJ.getAngle atan2 < vectorI.getAngle atan2)
    | .inOut =>
      let vectorI : Vector := { x := i.position.x - 0, y := i.position.y - 0 }
      let vectorJ : Vector := { x := j.position.x - 0, y := j.position.y - 0 }
      decide (vectorI.getLength sqrt < vectorJ.getLength sqrt)
    | .random => decide (1 / 2 < rand)
    | .group => false
  if e.invertOrder then !result else result

/-- The order in which `CreateAnimations` goes through the lights: for the order of the group there is no sort. -/
def Arranges (rand : ℚ) (lights arranged : List Light) : Prop :=
  if e.order = .group then arranged = lights else Sorts (e.compareLights sqrt atan2 rand) lights arranged

/-- The key of an order. -/
def key (light : Light) : ℚ :=
  match e.order with
  | .leftRight => light.position.x
  | .frontBack => -light.position.y
  | .topBottom => -light.position.z
  | .clockwise => -({ x := light.position.x, y := light.position.y } : Vector).getAngle atan2
  | .inOut => ({ x := light.position.x, y := light.position.y } : Vector).getLength sqrt
  | .random => 0
  | .group => 0

/-- The sort, if there is one, is defined, and whatever it gives is in the order of the keys, reversed when the order
is inverted. -/
structure ArrangesWell (rand : ℚ) (lights : List Light) : Prop where
  strictWeak : e.order ≠ .group → StrictWeakOn (e.compareLights sqrt atan2 rand) lights
  exists_arranged : ∃ arranged, e.Arranges sqrt atan2 rand lights arranged
  perm : ∀ arranged, e.Arranges sqrt atan2 rand lights arranged → arranged.Perm lights
  ordered : ∀ arranged, e.Arranges sqrt atan2 rand lights arranged → arranged.Pairwise fun a b =>
    if e.invertOrder then e.key sqrt atan2 b ≤ e.key sqrt atan2 a else e.key sqrt atan2 a ≤ e.key sqrt atan2 b

variable {sqrt atan2 e} {rand : ℚ} {lights : List Light}

theorem compareLights_eq (horder : e.order ≠ .random) (i j : Light) : e.compareLights sqrt atan2 rand i j =
    (decide (e.key sqrt atan2 i < e.key sqrt atan2 j) ^^ e.invertOrder) := by
  unfold compareLights key
  cases hcase : e.order with
  | random => exact absurd hcase horder
  | _ => cases e.invertOrder <;> simp

/-- Without a sort the lights stay as they are. -/
theorem arrangesWell_of_group (hgroup : e.order = .group) : e.ArrangesWell sqrt atan2 rand lights := by
  have harranges : ∀ arranged, e.Arranges sqrt atan2 rand lights arranged ↔ arranged = lights := fun arranged => by
    rw [Arranges, if_pos hgroup]
  have hkey : ∀ light, e.key sqrt atan2 light = 0 := fun light => by rw [key, hgroup]
  refine ⟨fun hne => absurd hgroup hne, ⟨lights, (harranges _).mpr rfl⟩, fun arranged h => ?_, fun arranged _ => ?_⟩
  · rw [(harranges arranged).mp h]
  · refine List.pairwise_of_forall fun a b => ?_
    rw [hkey, hkey]
    split_ifs <;> exact le_rfl

/-- Without the negation the comparison is one by the key. -/
theorem arrangesWell_of_not_inverted (horder : e.order ≠ .random) (hgroup : e.order ≠ .group)
    (hinvert : e.invertOrder = false) : e.ArrangesWell sqrt atan2 rand lights := by
  have hcompare : ∀ i ∈ lights, ∀ j ∈ lights, e.compareLights sqrt atan2 rand i j =
      decide (e.key sqrt atan2 i < e.key sqrt atan2 j) := fun i _ j _ => by
    rw [compareLights_eq horder, hinvert, Bool.xor_false]
  have harranges : ∀ arranged, e.Arranges sqrt atan2 rand lights arranged ↔
      arranged.Perm lights ∧ SortedBy (e.key sqrt atan2) arranged := fun arranged => by
    rw [Arranges, if_neg hgroup, sorts_iff_of_key hcompare]
  obtain ⟨arranged, hsorts⟩ := exists_sorts_of_key hcompare
  refine ⟨fun _ => strictWeakOn_of_key hcompare, ⟨arranged, (harranges _).mpr ((sorts_iff_of_key hcompare).mp hsorts)⟩,
    fun arranged h => ((harranges arranged).mp h).1, fun arranged h => ?_⟩
  rw [hinvert]
  exact ((harranges arranged).mp h).2

/-- Without lights there is nothing to compare. -/
theorem arrangesWell_nil (hgroup : e.order ≠ .group) : e.ArrangesWell sqrt atan2 rand [] := by
  have harranges : ∀ arranged, e.Arranges sqrt atan2 rand [] arranged ↔ arranged = [] := fun arranged => by
    rw [Arranges, if_neg hgroup, sorts_nil]
  refine ⟨fun _ => StrictWeakOn.nil _, ⟨[], (harranges []).mpr rfl⟩, fun arranged h => ?_, fun arranged h => ?_⟩
  · rw [(harranges arranged).mp h]
  · rw [(harranges arranged).mp h]
    exact .nil

/-- **Sorting the lights.** For every order but the random one, the comparison that the lights are sorted by is a strict
weak order on them, and the lights end up in the order of their keys, exactly when the order is not inverted, or there
is nothing to sort. -/
theorem arranges_well_iff (horder : e.order ≠ .random) : e.ArrangesWell sqrt atan2 rand lights ↔
    e.order = .group ∨ e.invertOrder = false ∨ lights = [] := by
  constructor
  · intro h
    by_contra hnot
    obtain ⟨hgroup, hrest⟩ := not_or.mp hnot
    obtain ⟨hinvert, hne⟩ := not_or.mp hrest
    obtain ⟨light, hlight⟩ := List.exists_mem_of_ne_nil lights hne
    have hirrefl := (h.strictWeak hgroup).irrefl light hlight
    rw [compareLights_eq horder, Bool.eq_true_of_not_eq_false hinvert] at hirrefl
    simp at hirrefl
  · intro h
    by_cases hgroup : e.order = .group
    · exact arrangesWell_of_group hgroup
    · rcases h.resolve_left hgroup with hinvert | rfl
      · exact arrangesWell_of_not_inverted horder hgroup hinvert
      · exact arrangesWell_nil hgroup

/-- Two lights from left to right. -/
theorem arranges_well_iff_example : ({ order := .leftRight } : LightIteratorEffect).ArrangesWell id (fun y _ => y) 0
    [{ position := { x := 1 } }, { position := { x := -1 } }] :=
  (arranges_well_iff (by decide)).mpr (.inr (.inl rfl))

/-- From right to left, of two lights at the same place each one compares less than the other. -/
theorem exists_not_arranges_well : ∃ (e : LightIteratorEffect) (i j : Light), e.order = .leftRight ∧
    e.invertOrder = true ∧ i.position = j.position ∧ e.compareLights id (fun y _ => y) 0 i j = true ∧
      e.compareLights id (fun y _ => y) 0 j i = true ∧ ¬ e.ArrangesWell id (fun y _ => y) 0 [i, j] := by
  refine ⟨{ order := .leftRight, invertOrder := true }, { id := "1" }, { id := "2" }, rfl, rfl, rfl, by decide +kernel,
    by decide +kernel, fun h => ?_⟩
  have hasymm := (h.strictWeak (by decide)).asymm { id := "1" } (by simp) { id := "2" } (by simp) (by decide +kernel)
  exact absurd hasymm (by decide +kernel)

end LightIteratorEffect

end HueStream.Effects
