import HueStream.Animations.Lookups
import HueStream.Lib.PiecewiseLinear
import Mathlib.Topology.Instances.Rat
import Mathlib.Topology.Order.Lattice

/-! # The value of a curve

A curve stands for the piecewise linear function through its points, with the end values outside, multiplied
and clipped by its options. The code gives the values at the ends and outside as they are, without this
correction; so it computes that function just as long as the correction leaves the end values alone and the
lookups stay inside the list. -/

namespace HueStream.Animations

open HueStream.Lib

def Point.pair (p : Point) : ℚ × ℚ := (p.x, p.y)

/-- The piecewise linear function through the points. -/
def interpolation : List Point → ℚ → ℚ
  | [], _ => 0
  | p :: points, x => piecewiseLinear p.pair (points.map Point.pair) x

namespace CurveData

variable (d : CurveData)

/-- At `x` the code gives the corrected value of the interpolation. -/
def Interpolates (x : ℚ) : Prop :=
  ∃ d', d.getInterpolatedValue x = some (d.correctValue (interpolation d.points x), d')

/-- The correction leaves the end value alone that is given at `x`, or the lookup between the ends stays
inside the list. -/
def CorrectedAt (x : ℚ) : Prop :=
  if d.points.length < 2 ∨ x ≤ d.getBegin then ∀ p ∈ d.points.head?, d.correctValue p.y = p.y
  else if d.getEnd ≤ x then ∀ p ∈ d.points.getLast?, d.correctValue p.y = p.y
  else d.TriesInside x

/-- The lower clip value is not greater than the upper one. -/
def ClipsOrdered : Prop :=
  ∀ options ∈ d.options, ∀ low ∈ options.clipMin, ∀ high ∈ options.clipMax, low ≤ high

/-- A value lies in the clip range. -/
def InClipRange (v : ℚ) : Prop :=
  ∀ options ∈ d.options, (∀ low ∈ options.clipMin, low ≤ v) ∧ ∀ high ∈ options.clipMax, v ≤ high

variable {d} {points : List Point} {x : ℚ} {a p q : Point} {i : ℕ}

/-! ### The correction -/

theorem correctValue_eq {options : CurveOptions} (h : d.options = some options) (v : ℚ) :
    d.correctValue v =
      options.clipMax.elim id min (options.clipMin.elim id max (v * options.multiplyFactor)) := by
  obtain ⟨factor, clipMin, clipMax⟩ := options
  cases clipMin with
  | none => cases clipMax <;> simp [correctValue, h, min_def_lt]
  | some low => cases clipMax <;> simp [correctValue, h, min_def_lt, max_comm low, max_def_lt]

theorem inClipRange_correctValue (h : d.ClipsOrdered) (v : ℚ) : d.InClipRange (d.correctValue v) := by
  intro options hoptions
  have hordered := h options hoptions
  rw [correctValue_eq hoptions]
  obtain ⟨factor, clipMin, clipMax⟩ := options
  constructor
  · rintro low rfl
    cases clipMax with
    | none => exact le_max_left low _
    | some high => exact le_min (hordered low rfl high rfl) (le_max_left low _)
  · rintro high rfl
    exact min_le_left high _

theorem continuous_correctValue (d : CurveData) : Continuous d.correctValue := by
  cases h : d.options with
  | none =>
    have hid : d.correctValue = id := by
      funext v
      simp [correctValue, h]
    rw [hid]
    exact continuous_id
  | some options =>
    rw [funext (correctValue_eq h)]
    obtain ⟨factor, clipMin, clipMax⟩ := options
    have hproduct : Continuous fun v : ℚ => v * factor := by fun_prop
    have hlow : Continuous fun v : ℚ => clipMin.elim id max (v * factor) := by
      cases clipMin with
      | none => exact hproduct
      | some low => exact continuous_const.max hproduct
    cases clipMax with
    | none => exact hlow
    | some high => exact continuous_const.min hlow

/-! ### The interpolation -/

theorem pairs_sorted (h : SortedBy Point.x (p :: points)) :
    (p.pair :: points.map Point.pair).Pairwise fun p q => p.1 ≤ q.1 := by
  rw [← List.map_cons, List.pairwise_map]
  exact h

/-- At the first point and before it. -/
theorem interpolation_of_le (hp : points[0]? = some p) (h : x ≤ p.x) : interpolation points x = p.y := by
  cases points with
  | nil => simp at hp
  | cons q points =>
    obtain rfl : q = p := by simpa using hp
    exact if_pos h

/-- From the last point on, behind the first. -/
theorem interpolation_of_ge (hsorted : SortedBy Point.x points) (hfirst : points[0]? = some q)
    (hq : q.x < x) (hp : points.getLast? = some p) (h : p.x ≤ x) : interpolation points x = p.y := by
  cases points with
  | nil => simp at hp
  | cons r points =>
    obtain rfl : r = q := by simpa using hfirst
    have hle : ∀ s ∈ points.map Point.pair, s.1 ≤ x := by
      intro s hs
      obtain ⟨t, ht, rfl⟩ := List.mem_map.mp hs
      obtain ⟨i, hi⟩ := List.getElem?_of_mem (List.mem_cons_of_mem r ht)
      rw [List.getLast?_eq_getElem?] at hp
      have hlt := (List.getElem?_eq_some_iff.mp hi).1
      exact (hsorted.le_of_getElem? hi hp (by omega)).trans h
    have hlast : (r :: points).getLast (by simp) = p := by
      rw [List.getLast?_eq_some_getLast (by simp)] at hp
      exact Option.some.inj hp
    calc interpolation (r :: points) x = through r.pair (points.map Point.pair) x := if_neg (not_le.mpr hq)
      _ = (((r :: points).map Point.pair).getLast (by simp)).2 := through_of_le hle
      _ = p.y := by
        rw [List.getLast_map, hlast]
        rfl

/-- Between two neighbours, behind the first point. -/
theorem interpolation_of_neighbours (hsorted : SortedBy Point.x points) (hfirst : points[0]? = some a)
    (ha : a.x < x) (hp : points[i]? = some p) (hq : points[i + 1]? = some q) (hpx : p.x ≤ x) (hxq : x < q.x) :
    interpolation points x = (q.y - p.y) * (x - p.x) / (q.x - p.x) + p.y := by
  cases points with
  | nil => simp at hp
  | cons r points =>
    obtain rfl : r = a := by simpa using hfirst
    have hpairs := pairs_sorted hsorted
    have hp' : (r.pair :: points.map Point.pair)[i]? = some p.pair := by
      rw [← List.map_cons, List.getElem?_map, hp]
      rfl
    have hq' : (r.pair :: points.map Point.pair)[i + 1]? = some q.pair := by
      rw [← List.map_cons, List.getElem?_map, hq]
      rfl
    calc interpolation (r :: points) x = through r.pair (points.map Point.pair) x := if_neg (not_le.mpr ha)
      _ = line p.pair q.pair x := through_of_getElem? hpairs hp' hq' hpx hxq

theorem continuous_interpolation (h : points.Pairwise fun p q => p.x < q.x) :
    Continuous (interpolation points) := by
  cases points with
  | nil => exact continuous_const
  | cons p points =>
    have hpairs : ((p :: points).map Point.pair).Pairwise fun p q => p.1 < q.1 := List.pairwise_map.mpr h
    exact continuous_piecewiseLinear hpairs.isChain

/-! ### The value -/

/-- Up to the first point, and when there is no other. -/
theorem getInterpolatedValue_first (hfirst : d.points[0]? = some p)
    (h : d.points.length < 2 ∨ x ≤ d.getBegin) : d.getInterpolatedValue x = some (p.y, d) := by
  have hhead : d.points.head? = some p := by rw [List.head?_eq_getElem?, hfirst]
  unfold getInterpolatedValue
  rw [hhead]
  split_ifs with htwo hbegin
  · rfl
  · rfl
  · exact absurd h (by simp [htwo, hbegin])
  · exact absurd h (by simp [htwo, hbegin])

theorem interpolation_first (hfirst : d.points[0]? = some p)
    (h : d.points.length < 2 ∨ x ≤ d.getBegin) : interpolation d.points x = p.y := by
  rw [getBegin_eq hfirst] at h
  rcases h with htwo | hle
  · have hone : d.points = [p] := by
      obtain ⟨hpos, -⟩ := List.getElem?_eq_some_iff.mp hfirst
      obtain ⟨q, hq⟩ := List.length_eq_one_iff.mp (by omega : d.points.length = 1)
      rw [hq] at hfirst ⊢
      simpa using hfirst
    rw [hone]
    exact ite_self _
  · exact interpolation_of_le hfirst hle

/-- An end value is right when the correction leaves it alone. -/
theorem exists_eq_some_iff {y v : ℚ} : (∃ d', some (y, d) = some (v, d')) ↔ v = y := by
  constructor
  · rintro ⟨d', h⟩
    exact (Prod.mk.inj (Option.some.inj h)).1.symm
  · rintro rfl
    exact ⟨d, rfl⟩

/-- **When the code gives the corrected interpolation at `x`.** -/
theorem interpolates_iff_correctedAt (hne : d.points ≠ []) (hsorted : SortedBy Point.x d.points) (x : ℚ) :
    d.Interpolates x ↔ d.CorrectedAt x := by
  have hpos : 0 < d.points.length := List.length_pos_iff.mpr hne
  have hfirst : d.points[0]? = some d.points[0] := List.getElem?_eq_getElem hpos
  unfold Interpolates CorrectedAt
  by_cases hout : d.points.length < 2 ∨ x ≤ d.getBegin
  · have hhead : d.points.head? = some d.points[0] := by rw [List.head?_eq_getElem?, hfirst]
    rw [getInterpolatedValue_first hfirst hout, interpolation_first hfirst hout, if_pos hout, hhead,
      exists_eq_some_iff]
    simp
  · rw [if_neg hout]
    obtain ⟨htwo, hbegin⟩ := not_or.mp hout
    have hbefore : d.points[0].x < x := by
      rw [← getBegin_eq hfirst]
      exact not_le.mp hbegin
    by_cases hend : d.getEnd ≤ x
    · have hlast : d.points[d.points.length - 1]? = some d.points[d.points.length - 1] :=
        List.getElem?_eq_getElem (by omega)
      have hget : d.points.getLast? = some d.points[d.points.length - 1] := by
        rw [List.getLast?_eq_getElem?, hlast]
      have hvalue : d.getInterpolatedValue x = some (d.points[d.points.length - 1].y, d) := by
        rw [getInterpolatedValue, if_neg htwo, if_neg hbegin, if_pos hend, hget]
        rfl
      have hle := hend
      rw [getEnd_eq hlast (by omega)] at hle
      rw [hvalue, interpolation_of_ge hsorted hfirst hbefore hget hle, if_pos hend, hget, exists_eq_some_iff]
      simp
    · rw [if_neg hend, getInterpolatedValue, if_neg htwo, if_neg hbegin, if_neg hend]
      by_cases hin : d.TriesInside x
      · obtain ⟨p, q, hp, hq, hpx, hxq⟩ := exists_neighbours hsorted hne (not_le.mp hbegin) (not_le.mp hend)
        obtain ⟨i, hi⟩ := getStartAndEndPoint_eq hsorted hin hp hq
        have hvalue := interpolation_of_neighbours hsorted hfirst hbefore hp hq hpx hxq
        refine iff_of_true ⟨d.remember i, ?_⟩ hin
        rw [hi, hvalue]
        show ((interpolate p q x).bind fun v => some ((d.remember i).correctValue v, d.remember i)) = _
        rw [interpolate_eq hpx hxq]
        rfl
      · rw [getStartAndEndPoint_of_not hsorted hin]
        simp [hin]

/-- **The value of a curve.** For every curve with a point, sorted x-coordinates and ordered clip values: at
every `x` the code gives the corrected interpolation if and only if the correction leaves the end value alone
that is given there, or the lookup between the ends stays inside the list. Where this is so for every `x`, the value
lies in the clip range, and it is continuous when the x-coordinates differ. -/
theorem interpolates_iff (hne : d.points ≠ []) (hsorted : SortedBy Point.x d.points)
    (hclips : d.ClipsOrdered) : (∀ x, d.Interpolates x ↔ d.CorrectedAt x) ∧
      ((∀ x, d.CorrectedAt x) →
        (∀ x v d', d.getInterpolatedValue x = some (v, d') → d.InClipRange v) ∧
        (d.points.Pairwise (fun p q => p.x < q.x) →
          ∃ f, Continuous f ∧ ∀ x, ∃ d', d.getInterpolatedValue x = some (f x, d'))) := by
  refine ⟨interpolates_iff_correctedAt hne hsorted, fun hall => ⟨fun x v d' hv => ?_, fun hdistinct => ?_⟩⟩
  · obtain ⟨d'', hvalue⟩ := (interpolates_iff_correctedAt hne hsorted x).mpr (hall x)
    rw [hvalue] at hv
    obtain ⟨rfl, -⟩ := Prod.mk.inj (Option.some.inj hv)
    exact inClipRange_correctValue hclips _
  · refine ⟨fun x => d.correctValue (interpolation d.points x), ?_, fun x => ?_⟩
    · exact (continuous_correctValue d).comp (continuous_interpolation hdistinct)
    · exact (interpolates_iff_correctedAt hne hsorted x).mpr (hall x)

/-- Two points, with a lower clip value below both. -/
theorem interpolates_iff_example :
    let d : CurveData := { options := some { clipMin := some 0 }, points := [⟨0, 1⟩, ⟨10, 2⟩] }
    d.Interpolates 5 ∧ interpolation d.points 5 = 3 / 2 := by
  intro d
  have hsorted : SortedBy Point.x d.points := by decide +kernel
  have hclips : d.ClipsOrdered := by
    rintro options hoptions low hlow high hhigh
    obtain rfl := Option.some.inj hoptions
    cases hhigh
  refine ⟨((interpolates_iff (by simp [d]) hsorted hclips).1 5).mpr ?_, by decide +kernel⟩
  show (if 2 < 2 ∨ (5 : ℚ) ≤ d.getBegin then _ else if d.getEnd ≤ 5 then _ else d.TriesInside 5)
  rw [if_neg (by decide +kernel), if_neg (by decide +kernel)]
  exact ⟨by simp [d], .inl (by decide +kernel)⟩

/-- Two points, with an upper clip value between their values. -/
def clippedCurve : CurveData := { options := some { clipMax := some 1 }, points := [⟨0, 0⟩, ⟨10, 2⟩] }

/-- At the second point the value leaves the clip range. -/
theorem exists_not_interpolates : ∃ d : CurveData, d.points.Pairwise (fun p q => p.x < q.x) ∧
    d.ClipsOrdered ∧ ¬ d.Interpolates 10 ∧ ∃ v d', d.getInterpolatedValue 10 = some (v, d') ∧
      ¬ d.InClipRange v := by
  have hend : clippedCurve.getInterpolatedValue 10 = some (2, clippedCurve) := by rfl
  refine ⟨clippedCurve, by decide +kernel, ?_, ?_, 2, clippedCurve, hend, ?_⟩
  · rintro options hoptions low hlow high hhigh
    obtain rfl := Option.some.inj hoptions
    cases hlow
  · rintro ⟨d', h⟩
    rw [hend] at h
    have hvalue := (Prod.mk.inj (Option.some.inj h)).1
    exact absurd hvalue (by decide +kernel)
  · intro hin
    have hle : (2 : ℚ) ≤ 1 := (hin _ rfl).2 1 rfl
    norm_num at hle

end CurveData

end HueStream.Animations
