import Mathlib.Algebra.Order.Ring.Rat
import Mathlib.Tactic

/-! # Neighbours on a circle

Angles in degrees from 0 on and below 360. An angle has a neighbour on each side among other angles: the first one on
the way down and the first one on the way up, past 0 if need be.

* `nearest_iff`: the nearest angles in terms of two neighbours. -/

namespace HueStream.Lib

/-- An angle of a direction. -/
def IsAngle (a : ℚ) : Prop := 0 ≤ a ∧ a < 360

/-- The degrees from `t` down to `a`. -/
def down (t a : ℚ) : ℚ := if a ≤ t then t - a else t - a + 360

/-- The degrees from `t` up to `a`. -/
def up (t a : ℚ) : ℚ := if t ≤ a then a - t else a - t + 360

/-- The degrees between two angles, on the shorter way. -/
def around (t a : ℚ) : ℚ := min (down t a) (up t a)

/-- The first angles on the ways down and up. -/
structure Neighbours (angles : List ℚ) (t p q : ℚ) : Prop where
  below_mem : p ∈ angles
  below : ∀ a ∈ angles, down t p ≤ down t a
  above_mem : q ∈ angles
  above : ∀ a ∈ angles, up t q ≤ up t a

/-- The neighbours of `t`, and only one of them if it is closer than a quarter of their distances. -/
def Nearest (angles : List ℚ) (t a : ℚ) : Prop :=
  ∃ p q, Neighbours angles t p q ∧
    ((a = p ∧ ¬ 4 * around t q < around t p + around t q) ∨ (a = q ∧ ¬ 4 * around t p < around t p + around t q))

variable {angles : List ℚ} {t a p q p' q' : ℚ}

theorem down_nonneg (ht : IsAngle t) (ha : IsAngle a) : 0 ≤ down t a := by
  obtain ⟨h0, h1⟩ := ht
  obtain ⟨h2, h3⟩ := ha
  unfold down
  split_ifs <;> linarith

theorem up_nonneg (ht : IsAngle t) (ha : IsAngle a) : 0 ≤ up t a := by
  obtain ⟨h0, h1⟩ := ht
  obtain ⟨h2, h3⟩ := ha
  unfold up
  split_ifs <;> linarith

theorem down_inj (hp : IsAngle p) (hq : IsAngle q) (h : down t p = down t q) : p = q := by
  obtain ⟨h0, h1⟩ := hp
  obtain ⟨h2, h3⟩ := hq
  unfold down at h
  split_ifs at h <;> linarith

theorem up_inj (hp : IsAngle p) (hq : IsAngle q) (h : up t p = up t q) : p = q := by
  obtain ⟨h0, h1⟩ := hp
  obtain ⟨h2, h3⟩ := hq
  unfold up at h
  split_ifs at h <;> linarith

theorem around_self (t : ℚ) : around t t = 0 := by simp [around, down, up]

theorem around_pos (ht : IsAngle t) (ha : IsAngle a) (hne : a ≠ t) : 0 < around t a := by
  have hdown : 0 < down t a := by
    refine (down_nonneg ht ha).lt_of_ne' fun hzero => hne (down_inj (t := t) ha ht ?_)
    rw [hzero]
    simp [down]
  have hup : 0 < up t a := by
    refine (up_nonneg ht ha).lt_of_ne' fun hzero => hne (up_inj (t := t) ha ht ?_)
    rw [hzero]
    simp [up]
  exact lt_min hdown hup

/-- Neighbours are what they are. -/
theorem Neighbours.unique (hangles : ∀ a ∈ angles, IsAngle a) (h : Neighbours angles t p q)
    (h' : Neighbours angles t p' q') : p = p' ∧ q = q' :=
  ⟨down_inj (hangles p h.below_mem) (hangles p' h'.below_mem)
      (le_antisymm (h.below p' h'.below_mem) (h'.below p h.below_mem)),
    up_inj (hangles q h.above_mem) (hangles q' h'.above_mem)
      (le_antisymm (h.above q' h'.above_mem) (h'.above q h.above_mem))⟩

theorem nearest_iff (hangles : ∀ a ∈ angles, IsAngle a) (h : Neighbours angles t p q) : Nearest angles t a ↔
    ((a = p ∧ ¬ 4 * around t q < around t p + around t q) ∨
      (a = q ∧ ¬ 4 * around t p < around t p + around t q)) := by
  refine ⟨?_, fun hnear => ⟨p, q, h, hnear⟩⟩
  rintro ⟨p', q', h', hnear⟩
  obtain ⟨rfl, rfl⟩ := h.unique hangles h'
  exact hnear

theorem Neighbours.congr {angles' : List ℚ} (hmem : ∀ a, a ∈ angles ↔ a ∈ angles') (h : Neighbours angles t p q) :
    Neighbours angles' t p q :=
  ⟨(hmem p).mp h.below_mem, fun a ha => h.below a ((hmem a).mpr ha), (hmem q).mp h.above_mem, fun a ha =>
    h.above a ((hmem a).mpr ha)⟩

theorem nearest_congr {angles' : List ℚ} (hmem : ∀ a, a ∈ angles ↔ a ∈ angles') :
    Nearest angles t a ↔ Nearest angles' t a :=
  ⟨fun ⟨p, q, h, hnear⟩ => ⟨p, q, h.congr hmem, hnear⟩, fun ⟨p, q, h, hnear⟩ =>
    ⟨p, q, h.congr fun a => (hmem a).symm, hnear⟩⟩

/-- An angle that is there is its own neighbour. -/
theorem neighbours_self (ht : IsAngle t) (hangles : ∀ a ∈ angles, IsAngle a) (hmem : t ∈ angles) :
    Neighbours angles t t t := by
  refine ⟨hmem, fun a ha => ?_, hmem, fun a ha => ?_⟩
  · rw [down, if_pos le_rfl, sub_self]
    exact down_nonneg ht (hangles a ha)
  · rw [up, if_pos le_rfl, sub_self]
    exact up_nonneg ht (hangles a ha)

theorem nearest_self (ht : IsAngle t) (hangles : ∀ a ∈ angles, IsAngle a) (hmem : t ∈ angles) :
    Nearest angles t a ↔ a = t := by
  rw [nearest_iff hangles (neighbours_self ht hangles hmem), around_self]
  simp

/-- Two angles with none between them. -/
theorem neighbours_between (hangles : ∀ a ∈ angles, IsAngle a) (hp : p ∈ angles) (hq : q ∈ angles) (hpt : p < t)
    (htq : t < q) (hnone : ∀ a ∈ angles, a ≤ p ∨ q ≤ a) : Neighbours angles t p q := by
  have hle : ∀ a ∈ angles, 0 ≤ a ∧ a < 360 := hangles
  obtain ⟨h0, h1⟩ := hle p hp
  obtain ⟨h2, h3⟩ := hle q hq
  refine ⟨hp, fun a ha => ?_, hq, fun a ha => ?_⟩
  · obtain ⟨h4, h5⟩ := hle a ha
    unfold down
    rcases hnone a ha with hside | hside <;> split_ifs <;> linarith
  · obtain ⟨h4, h5⟩ := hle a ha
    unfold up
    rcases hnone a ha with hside | hside <;> split_ifs <;> linarith

/-- Outside all angles the neighbours are the greatest and the smallest one. -/
theorem neighbours_outside (hangles : ∀ a ∈ angles, IsAngle a) (hp : p ∈ angles) (hq : q ∈ angles)
    (hall : ∀ a ∈ angles, q ≤ a ∧ a ≤ p) (hout : t < q ∨ p < t) : Neighbours angles t p q := by
  have hle : ∀ a ∈ angles, 0 ≤ a ∧ a < 360 := hangles
  obtain ⟨h0, h1⟩ := hle p hp
  obtain ⟨h2, h3⟩ := hle q hq
  have hqp : q ≤ p := (hall p hp).1
  refine ⟨hp, fun a ha => ?_, hq, fun a ha => ?_⟩
  · obtain ⟨h4, h5⟩ := hle a ha
    obtain ⟨h6, h7⟩ := hall a ha
    unfold down
    rcases hout with hside | hside <;> split_ifs <;> linarith
  · obtain ⟨h4, h5⟩ := hle a ha
    obtain ⟨h6, h7⟩ := hall a ha
    unfold up
    rcases hout with hside | hside <;> split_ifs <;> linarith

end HueStream.Lib
