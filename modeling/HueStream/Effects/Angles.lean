import HueStream.Effects.Marking

/-! # Degrees between angles

`getDiffDegrees` takes the lesser of the difference and of the way past 0 before it removes the sign, so it is the
degrees on the shorter way up to half a turn above the second angle only. `isAngleBetween` asks for the shorter
way, except for opposite angles.

* `isCircular_iff`: when both are right for two angles.
* `exists_not_circular`: two angles 20 degrees apart. -/

namespace HueStream.Lib

variable {t a b : ℚ}

theorem around_of_le (ht : IsAngle t) (ha : IsAngle a) (h : a ≤ t) : around t a = min (t - a) (360 - (t - a)) := by
  obtain ⟨h0, h1⟩ := ht
  obtain ⟨h2, h3⟩ := ha
  rw [around, down, up, if_pos h]
  split_ifs with hle
  · obtain rfl : t = a := le_antisymm hle h
    rw [sub_self, min_self, sub_zero, min_eq_left (by norm_num)]
  · congr 1
    ring

theorem around_comm (ht : IsAngle t) (ha : IsAngle a) : around t a = around a t := by
  obtain ⟨h0, h1⟩ := ht
  obtain ⟨h2, h3⟩ := ha
  have hdown : t ≠ a → down t a = up a t := fun hne => by
    unfold down up
    split_ifs <;> ring
  have hup : t ≠ a → up t a = down a t := fun hne => by
    unfold down up
    split_ifs <;> ring
  by_cases hne : t = a
  · rw [hne]
  · rw [around, around, hdown hne, hup hne, min_comm]

theorem around_of_ge (ht : IsAngle t) (ha : IsAngle a) (h : t ≤ a) : around t a = min (a - t) (360 - (a - t)) := by
  rw [around_comm ht ha, around_of_le ha ht h]

theorem around_le (t a : ℚ) : around t a ≤ 180 := by
  by_contra hlt
  obtain ⟨hdown, hup⟩ := lt_min_iff.mp (not_le.mp hlt)
  unfold down at hdown
  unfold up at hup
  split_ifs at hdown hup <;> linarith

end HueStream.Lib

namespace HueStream.Effects.HueMath

open HueStream.Lib

variable {t a b : ℚ}

/-! ### `getDiffDegrees` -/

theorem getDiffDegrees_of_lt (ha : IsAngle a) (hb : IsAngle b) (h : b + 180 < a) : getDiffDegrees a b = a - b := by
  obtain ⟨h0, h1⟩ := ha
  obtain ⟨h2, h3⟩ := hb
  have hmin : min (b - a) (360 + a - b) = b - a := min_eq_left (by linarith)
  rw [getDiffDegrees, hmin, if_pos (by linarith)]
  ring

theorem getDiffDegrees_le_iff (ha : IsAngle a) (hb : IsAngle b) : getDiffDegrees a b ≤ 180 ↔ a ≤ b + 180 := by
  constructor
  · intro hle
    by_contra hlt
    rw [getDiffDegrees_of_lt ha hb (not_le.mp hlt)] at hle
    linarith
  · intro hle
    rw [getDiffDegrees_eq hb ha hle]
    exact around_le b a

theorem getDiffDegrees_eq_iff (ha : IsAngle a) (hb : IsAngle b) : getDiffDegrees a b = around a b ↔ a ≤ b + 180 := by
  constructor
  · intro heq
    rw [← getDiffDegrees_le_iff ha hb, heq]
    exact around_le a b
  · intro hle
    rw [getDiffDegrees_eq hb ha hle, around_comm hb ha]

theorem getDiffDegrees_eq_zero_iff (ha : IsAngle a) (hb : IsAngle b) : getDiffDegrees a b = 0 ↔ a = b := by
  constructor
  · intro hzero
    by_contra hne
    have hpos := getDiffDegrees_pos hb ha hne
    linarith
  · rintro rfl
    exact getDiffDegrees_self a

/-! ### `isAngleBetween` -/

theorem fmod_neg (x y : ℚ) : fmod (-x) y = -fmod x y := by
  have htruncate : truncate (-x / y) = -truncate (x / y) := by
    rw [neg_div, truncate, truncate, Rat.num_neg_eq_neg_num, Rat.den_neg_eq_den, Int.neg_tdiv]
  rw [fmod, fmod, htruncate]
  push_cast
  ring

/-- The degrees that the source brings into the range from 0 to 360. -/
theorem fmod_difference (ha : IsAngle a) (hb : IsAngle b) : fmod (fmod (b - a) 360 + 360) 360 = up a b := by
  obtain ⟨h0, h1⟩ := ha
  obtain ⟨h2, h3⟩ := hb
  rcases le_or_gt a b with hle | hlt
  · have hdiff : fmod (b - a) 360 = b - a := fmod_of_lt (by linarith) (by linarith)
    rw [hdiff, fmod_add (by linarith) (by linarith), up, if_pos hle]
  · have hdiff : fmod (b - a) 360 = b - a := by
      have hneg : b - a = -(a - b) := by ring
      rw [hneg, fmod_neg, fmod_of_lt (by linarith) (by linarith)]
    rw [hdiff, fmod_of_lt (by linarith) (by linarith), up, if_neg (not_le.mpr hlt)]

/-- Where the angles are not opposite, their order does not matter. -/
theorem isAngleBetween_comm (ha : IsAngle a) (hb : IsAngle b) (hab : a - b ≠ 180) (hba : b - a ≠ 180) (t : ℚ) :
    isAngleBetween t a b = isAngleBetween t b a := by
  rcases eq_or_ne a b with rfl | hne
  · rfl
  · have hsum : up a b + up b a = 360 := by
      unfold up
      rcases lt_or_gt_of_ne hne with hlt | hlt
      · rw [if_pos hlt.le, if_neg (not_le.mpr hlt)]
        ring
      · rw [if_neg (not_le.mpr hlt), if_pos hlt.le]
        ring
    have hhalf : up a b ≠ 180 := by
      unfold up
      split_ifs
      · exact hba
      · intro heq
        exact hab (by linarith)
    unfold isAngleBetween
    rw [fmod_difference ha hb, fmod_difference hb ha]
    dsimp only
    rcases lt_or_gt_of_ne hhalf with hlt | hlt
    · have hback : 180 ≤ up b a := by linarith
      rw [if_neg (not_le.mpr hlt), if_pos hback]
    · have hback : ¬ 180 ≤ up b a := by linarith
      rw [if_pos hlt.le, if_neg hback]

/-- For two angles in order, the angles between them are on the shorter way. -/
theorem isAngleBetween_iff_around (ht : IsAngle t) (ha : IsAngle a) (hb : IsAngle b) (hlt : a < b)
    (hhalf : b - a ≠ 180) : isAngleBetween t a b = true ↔ around t a + around t b = around a b := by
  have hab := around_of_ge ha hb hlt.le
  obtain ⟨h0, h1⟩ := ht
  obtain ⟨h2, h3⟩ := ha
  obtain ⟨h4, h5⟩ := hb
  rw [isAngleBetween_iff ⟨h2, h3⟩ ⟨h4, h5⟩ hlt, hab]
  rcases lt_or_gt_of_ne hhalf with hshort | hlong
  · rw [if_pos hshort, min_eq_left (by linarith)]
    rcases lt_or_ge t a with hta | hat
    · rw [around_of_ge ⟨h0, h1⟩ ⟨h2, h3⟩ hta.le, around_of_ge ⟨h0, h1⟩ ⟨h4, h5⟩ (by linarith)]
      refine iff_of_false (fun h => by linarith [h.1]) fun hsum => ?_
      rcases min_choice (a - t) (360 - (a - t)) with h6 | h6 <;>
        rcases min_choice (b - t) (360 - (b - t)) with h7 | h7 <;> rw [h6, h7] at hsum <;> linarith
    rcases le_or_gt t b with htb | hbt
    · rw [around_of_le ⟨h0, h1⟩ ⟨h2, h3⟩ hat, around_of_ge ⟨h0, h1⟩ ⟨h4, h5⟩ htb, min_eq_left (by linarith),
        min_eq_left (by linarith)]
      exact iff_of_true ⟨hat, htb⟩ (by ring)
    · rw [around_of_le ⟨h0, h1⟩ ⟨h2, h3⟩ hat, around_of_le ⟨h0, h1⟩ ⟨h4, h5⟩ hbt.le]
      refine iff_of_false (fun h => by linarith [h.2]) fun hsum => ?_
      rcases min_choice (t - a) (360 - (t - a)) with h6 | h6 <;>
        rcases min_choice (t - b) (360 - (t - b)) with h7 | h7 <;> rw [h6, h7] at hsum <;> linarith
  · rw [if_neg (not_lt.mpr hlong.le), min_eq_right (by linarith)]
    rcases le_or_gt t a with hta | hat
    · rw [around_of_ge ⟨h0, h1⟩ ⟨h2, h3⟩ hta, around_of_ge ⟨h0, h1⟩ ⟨h4, h5⟩ (by linarith), min_eq_left (by linarith),
        min_eq_right (by linarith)]
      exact iff_of_true (.inr hta) (by ring)
    rcases lt_or_ge t b with htb | hbt
    · rw [around_of_le ⟨h0, h1⟩ ⟨h2, h3⟩ hat.le, around_of_ge ⟨h0, h1⟩ ⟨h4, h5⟩ htb.le]
      refine iff_of_false (fun h => h.elim (fun h => by linarith) fun h => by linarith) fun hsum => ?_
      rcases min_choice (t - a) (360 - (t - a)) with h6 | h6 <;>
        rcases min_choice (b - t) (360 - (b - t)) with h7 | h7 <;> rw [h6, h7] at hsum <;> linarith
    · rw [around_of_le ⟨h0, h1⟩ ⟨h2, h3⟩ hat.le, around_of_le ⟨h0, h1⟩ ⟨h4, h5⟩ hbt, min_eq_right (by linarith),
        min_eq_left (by linarith)]
      exact iff_of_true (.inl hbt) (by ring)

/-- `isAngleBetween` asks whether the way between the two angles over the target is the shorter one, in whatever order
they come. -/
def AsksShorterWay (a b : ℚ) : Prop :=
  a - b ≠ 180 → b - a ≠ 180 → ∀ t, IsAngle t → isAngleBetween t a b = isAngleBetween t b a ∧
    (isAngleBetween t a b = true ↔ around t a + around t b = around a b)

theorem asksShorterWay (ha : IsAngle a) (hb : IsAngle b) : AsksShorterWay a b := by
  intro hab hba t ht
  have hcomm := isAngleBetween_comm ha hb hab hba t
  refine ⟨hcomm, ?_⟩
  rcases lt_trichotomy a b with hlt | rfl | hlt
  · exact isAngleBetween_iff_around ht ha hb hlt hba
  · have hself : isAngleBetween t a a = true ↔ t = a := by
      have hup : up a a = 0 := by simp [up]
      unfold isAngleBetween
      have hhalf : ¬ (180 : ℚ) ≤ 0 := by norm_num
      rw [fmod_difference ha ha, hup]
      dsimp only
      rw [if_neg hhalf, if_pos le_rfl, decide_eq_true_eq]
      exact ⟨fun h => le_antisymm h.2 h.1, fun h => ⟨h.ge, h.le⟩⟩
    rw [hself, around_self]
    constructor
    · rintro rfl
      rw [around_self, add_zero]
    · intro hsum
      by_contra hne
      have hpos := around_pos ht ha (Ne.symm hne)
      linarith
  · rw [hcomm, add_comm, around_comm ha hb]
    exact isAngleBetween_iff_around ht hb ha hlt hab

/-- Both functions are right for two angles. -/
structure IsCircular (a b : ℚ) : Prop where
  distance : getDiffDegrees a b = around a b
  symmetric : getDiffDegrees a b = getDiffDegrees b a
  within : 0 ≤ getDiffDegrees a b ∧ getDiffDegrees a b ≤ 180
  zero : getDiffDegrees a b = 0 ↔ a = b
  between : AsksShorterWay a b

/-- **Degrees between angles.** The distance on the circle and the angles between two angles are right exactly when these
are not more than half a turn apart as numbers; with the first one as the smaller angle, they are for all. -/
theorem isCircular_iff (ha : IsAngle a) (hb : IsAngle b) :
    (IsCircular a b ↔ |a - b| ≤ 180) ∧ (getDiffDegrees a b = around a b ↔ a ≤ b + 180) ∧ AsksShorterWay a b := by
  refine ⟨⟨fun h => ?_, fun h => ?_⟩, getDiffDegrees_eq_iff ha hb, asksShorterWay ha hb⟩
  · have hle : a ≤ b + 180 := (getDiffDegrees_le_iff ha hb).mp h.within.2
    have hle' : b ≤ a + 180 := (getDiffDegrees_le_iff hb ha).mp (h.symmetric ▸ h.within.2)
    rw [abs_le]
    constructor <;> linarith
  · obtain ⟨hge, hle⟩ := abs_le.mp h
    have hdistance := (getDiffDegrees_eq_iff ha hb).mpr (by linarith)
    have hback := (getDiffDegrees_eq_iff hb ha).mpr (by linarith)
    refine ⟨hdistance, ?_, ⟨getDiffDegrees_nonneg a b, (getDiffDegrees_le_iff ha hb).mpr (by linarith)⟩,
      getDiffDegrees_eq_zero_iff ha hb, asksShorterWay ha hb⟩
    rw [hdistance, hback, around_comm ha hb]

theorem isCircular_iff_example : IsCircular 270 100 ∧ getDiffDegrees 10 350 = around 10 350 := by
  have h270 : IsAngle 270 := ⟨by norm_num, by norm_num⟩
  have h100 : IsAngle 100 := ⟨by norm_num, by norm_num⟩
  have h10 : IsAngle 10 := ⟨by norm_num, by norm_num⟩
  have h350 : IsAngle 350 := ⟨by norm_num, by norm_num⟩
  exact ⟨(isCircular_iff h270 h100).1.mpr (by norm_num [abs_le]), (isCircular_iff h10 h350).2.1.mpr (by norm_num)⟩

/-- The two angles are 20 degrees apart on the circle. -/
theorem exists_not_circular : IsAngle 350 ∧ IsAngle 10 ∧ getDiffDegrees 350 10 = 340 ∧ getDiffDegrees 10 350 = 20 ∧
    ¬ IsCircular 350 10 := by
  have hthere : getDiffDegrees 350 10 = 340 := by norm_num [getDiffDegrees]
  have hback : getDiffDegrees 10 350 = 20 := by norm_num [getDiffDegrees]
  refine ⟨⟨by norm_num, by norm_num⟩, ⟨by norm_num, by norm_num⟩, hthere, hback, fun h => ?_⟩
  have hsymmetric := h.symmetric
  rw [hthere, hback] at hsymmetric
  norm_num at hsymmetric

end HueStream.Effects.HueMath
