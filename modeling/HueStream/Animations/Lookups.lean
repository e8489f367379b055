import HueStream.Animations.CurveData
import HueStream.Lib.Run

/-! # Looking up in a curve

A lookup tries the index it has found before and the next one, and looks at the point behind each of them.
When the first of the two is the last point, and this point is not the one it looks for, the other one is the
end of the list, and the point behind it is outside. Otherwise the lookup finds what the binary search
finds. -/

namespace HueStream.Animations

open HueStream.Json HueStream.Lib

/-- What is done with a curve. -/
inductive CurveUse
  | setPoints (points : List Point)
  | append (other : List Point)
  | appendPoint (point : Point)
  | appendPointLinearized (point : Point) (delta : ℚ)
  | deserialize (n : JSONNode)
  | getStartPoint (x : ℚ)
  | getInterpolatedValue (x : ℚ)
  | getStepValue (x : ℚ)

namespace CurveData

/-- The curve after it was used. -/
def use (atof : String → ℚ) (d : CurveData) : CurveUse → Option CurveData
  | .setPoints points => some { d with points }
  | .append other => some (d.append other)
  | .appendPoint point => some (d.appendPoint point)
  | .appendPointLinearized point delta => some (d.appendPointLinearized point delta)
  | .deserialize n => some (d.deserialize atof n)
  | .getStartPoint x => (d.getStartPoint x).map Prod.snd
  | .getInterpolatedValue x => (d.getInterpolatedValue x).map Prod.snd
  | .getStepValue x => (d.getStepValue x).map Prod.snd

end CurveData

/-- A new curve with sorted points, and uses of it that leave the points sorted. -/
def curves (atof : String → ℚ) : Machine CurveData CurveUse where
  Init d := SortedBy Point.x d.points ∧ d.lastIndex = 0
  step d use := (d.use atof use).filter fun d' => SortedBy Point.x d'.points

namespace CurveData

/-- A lookup reads nothing outside the list, and finds the position of the binary search. -/
def LooksUp (d : CurveData) : CurveUse → Prop
  | .getStartPoint x => ∃ d', d.getStartPoint x = some (binarySearch d.points x, d')
  | .getInterpolatedValue x => (d.getInterpolatedValue x).isSome = true
  | .getStepValue x => (d.getStepValue x).isSome = true
  | _ => True

/-- The index that is tried first is not that of the last point, or `x` is not before the last point. -/
def TriesInside (d : CurveData) (x : ℚ) : Prop :=
  d.points ≠ [] ∧ (d.startIndex + 1 < d.points.length ∨ d.getEnd ≤ x)

/-- When a lookup stays inside the list; the two values are looked up between the ends only. -/
def StaysInside (d : CurveData) : CurveUse → Prop
  | .getStartPoint x => d.TriesInside x
  | .getInterpolatedValue x | .getStepValue x =>
    d.points ≠ [] ∧ (d.points.length < 2 ∨ x ≤ d.getBegin ∨ d.TriesInside x)
  | _ => True

variable {d : CurveData} {points : List Point} {x : ℚ} {p q : Point} {i : ℕ}

/-! ### The binary search -/

theorem lt_x_iff (h : SortedBy Point.x points) (hp : points[i]? = some p) :
    x < p.x ↔ upperBound points x ≤ i := by
  obtain ⟨hi, rfl⟩ := List.getElem?_eq_some_iff.mp hp
  constructor
  · intro hlt
    by_contra hle
    have hnot := List.not_of_lt_findIdx (not_le.mp hle)
    simp [hlt] at hnot
  · intro hle
    have hu : points.findIdx (fun p => x < p.x) < points.length := lt_of_le_of_lt hle hi
    have hlt : x < (points[points.findIdx fun p => x < p.x]).x := by
      simpa using List.findIdx_getElem (w := hu)
    exact hlt.trans_le (h.le_of_getElem? (List.getElem?_eq_getElem hu) hp hle)

theorem upperBound_le : upperBound points x ≤ points.length := List.findIdx_le_length

/-- The binary search finds the last point at or before `x`. -/
theorem binarySearch_eq_iff (h : SortedBy Point.x points) (hp : points[i]? = some p) :
    binarySearch points x = i ↔ p.x ≤ x ∧ ∀ q, points[i + 1]? = some q → x < q.x := by
  have hle : upperBound points x ≤ points.length := upperBound_le
  obtain ⟨hi, -⟩ := List.getElem?_eq_some_iff.mp hp
  have hpx : p.x ≤ x ↔ ¬ upperBound points x ≤ i := by rw [← lt_x_iff h hp, not_lt]
  have hqx : (∀ q, points[i + 1]? = some q → x < q.x) ↔ upperBound points x ≤ i + 1 := by
    constructor
    · intro hall
      by_cases hnext : i + 1 < points.length
      · exact (lt_x_iff h (List.getElem?_eq_getElem hnext)).mp (hall _ (List.getElem?_eq_getElem hnext))
      · omega
    · intro hu q hq
      exact (lt_x_iff h hq).mpr hu
  rw [hpx, hqx, binarySearch]
  split_ifs with hzero
  · omega
  · omega

theorem binarySearch_of_lt (h : ∀ p ∈ points, x < p.x) : binarySearch points x = points.length := by
  have hzero : upperBound points x = 0 := by
    cases points with
    | nil => rfl
    | cons p points => simp [upperBound, List.findIdx_cons, h p (by simp)]
  rw [binarySearch, if_pos hzero]

/-! ### The shortcut -/

theorem isClosestLower_of_lt (h : SortedBy Point.x d.points) (hi : i < d.points.length) :
    d.isClosestLower i x = some (decide (binarySearch d.points x = i)) := by
  have hp : d.points[i]? = some d.points[i] := List.getElem?_eq_getElem hi
  have hlower : d.isValidAndLower i x = some (decide (d.points[i].x ≤ x)) := by
    rw [isValidAndLower, if_neg (by omega), hp]
    rfl
  have hnext : d.isLastOrNextIsHigher i x =
      some (decide (∀ q, d.points[i + 1]? = some q → x < q.x)) := by
    unfold isLastOrNextIsHigher
    split_ifs with hlast
    · have hnone : d.points[i + 1]? = none := List.getElem?_eq_none (by omega)
      simp [hnone]
    · have hq : d.points[i + 1]? = some d.points[i + 1] := List.getElem?_eq_getElem (by omega)
      simp [hq]
  rw [isClosestLower, hlower, hnext]
  simp [binarySearch_eq_iff h hp]

/-- The point behind the end is outside the list. -/
theorem isClosestLower_length : d.isClosestLower d.points.length x = none := by
  have hnone : d.points[d.points.length + 1]? = none := List.getElem?_eq_none (by omega)
  have hnext : d.isLastOrNextIsHigher d.points.length x = none := by
    rw [isLastOrNextIsHigher, if_neg (by omega), hnone]
    rfl
  rw [isClosestLower, hnext]
  cases d.isValidAndLower d.points.length x <;> rfl

theorem startIndex_lt (h : d.points ≠ []) : d.startIndex < d.points.length := by
  have hpos : 0 < d.points.length := List.length_pos_iff.mpr h
  unfold startIndex
  split_ifs with hle
  · exact hpos
  · exact not_le.mp hle

theorem getEnd_eq (h : d.points[i]? = some p) (hlast : i + 1 = d.points.length) : d.getEnd = p.x := by
  have hget : d.points.getLast? = some p := by
    rw [List.getLast?_eq_getElem?, ← h]
    congr 1
    omega
  have hpos : d.hasPoints = true := decide_eq_true (by omega)
  rw [getEnd, hpos, hget]
  rfl

/-- From the last point on the search finds that point. -/
theorem binarySearch_eq_last_iff (h : SortedBy Point.x d.points) (hlast : i + 1 = d.points.length) :
    binarySearch d.points x = i ↔ d.getEnd ≤ x := by
  have hp : d.points[i]? = some d.points[i] := List.getElem?_eq_getElem (by omega)
  have hnone : d.points[i + 1]? = none := List.getElem?_eq_none (by omega)
  rw [binarySearch_eq_iff h hp, getEnd_eq hp hlast, hnone]
  simp

/-- Inside the list the shortcut makes no difference. -/
theorem getStartPoint_of_triesInside (h : SortedBy Point.x d.points) (hin : d.TriesInside x) :
    ∃ i, d.getStartPoint x = some (binarySearch d.points x, d.remember i) := by
  obtain ⟨hne, hin⟩ := hin
  have hlt := startIndex_lt hne
  simp only [getStartPoint]
  rw [isClosestLower_of_lt h hlt]
  by_cases hlast : binarySearch d.points x = d.startIndex
  · exact ⟨d.startIndex, by simp [hlast]⟩
  · have hnext : d.startIndex + 1 < d.points.length := by
      by_contra hnot
      have hlength : d.startIndex + 1 = d.points.length := by omega
      exact hlast ((binarySearch_eq_last_iff h hlength).mpr (hin.resolve_left hnot))
    rw [isClosestLower_of_lt h hnext]
    by_cases hthen : binarySearch d.points x = d.startIndex + 1
    · exact ⟨d.startIndex + 1, by simp [hthen]⟩
    · by_cases hend : binarySearch d.points x = d.points.length
      · rw [hend] at hlast hthen
        exact ⟨d.startIndex, by simp [hlast, hthen, hend]⟩
      · exact ⟨binarySearch d.points x, by simp [hlast, hthen, hend]⟩

theorem getStartPoint_of_not (h : SortedBy Point.x d.points) (hout : ¬ d.TriesInside x) :
    d.getStartPoint x = none := by
  by_cases hne : d.points = []
  · have hstart : d.startIndex = d.points.length := by simp [startIndex, hne]
    simp only [getStartPoint]
    rw [hstart, isClosestLower_length]
    rfl
  · have hlt := startIndex_lt hne
    have hlast : d.startIndex + 1 = d.points.length := by
      by_contra hnot
      exact hout ⟨hne, .inl (by omega)⟩
    have hnot : binarySearch d.points x ≠ d.startIndex := fun heq =>
      hout ⟨hne, .inr ((binarySearch_eq_last_iff h hlast).mp heq)⟩
    simp only [getStartPoint]
    rw [isClosestLower_of_lt h hlt, hlast, isClosestLower_length]
    simp [hnot]

/-! ### Values -/

theorem getBegin_eq (h : d.points[0]? = some p) : d.getBegin = p.x := by
  obtain ⟨hpos, -⟩ := List.getElem?_eq_some_iff.mp h
  have hhas : d.hasPoints = true := decide_eq_true hpos
  rw [getBegin, hhas, List.head?_eq_getElem?, h]
  rfl

/-- Between the ends the search finds a point, and there is one behind it. -/
theorem exists_neighbours (h : SortedBy Point.x d.points) (hne : d.points ≠ []) (hbegin : d.getBegin < x)
    (hend : x < d.getEnd) : ∃ p q, d.points[binarySearch d.points x]? = some p ∧
      d.points[binarySearch d.points x + 1]? = some q ∧ p.x ≤ x ∧ x < q.x := by
  have hpos : 0 < d.points.length := List.length_pos_iff.mpr hne
  have hfirst : d.points[0]? = some d.points[0] := List.getElem?_eq_getElem hpos
  have hlast : d.points[d.points.length - 1]? = some d.points[d.points.length - 1] :=
    List.getElem?_eq_getElem (by omega)
  rw [getBegin_eq hfirst] at hbegin
  rw [getEnd_eq hlast (by omega)] at hend
  have hone : ¬ upperBound d.points x ≤ 0 := by
    rw [← lt_x_iff h hfirst]
    exact not_lt.mpr hbegin.le
  have hup : upperBound d.points x ≤ d.points.length - 1 := (lt_x_iff h hlast).mp hend
  have hsearch : binarySearch d.points x = upperBound d.points x - 1 := if_neg (by omega)
  have hp : d.points[binarySearch d.points x]? = some d.points[binarySearch d.points x] :=
    List.getElem?_eq_getElem (by omega)
  have hq : d.points[binarySearch d.points x + 1]? = some d.points[binarySearch d.points x + 1] :=
    List.getElem?_eq_getElem (by omega)
  obtain ⟨hle, hlt⟩ := (binarySearch_eq_iff h hp).mp rfl
  exact ⟨_, _, hp, hq, hle, hlt _ hq⟩

theorem getStartAndEndPoint_eq (h : SortedBy Point.x d.points) (hin : d.TriesInside x)
    (hp : d.points[binarySearch d.points x]? = some p)
    (hq : d.points[binarySearch d.points x + 1]? = some q) :
    ∃ i, d.getStartAndEndPoint x = some (some (p, q), d.remember i) := by
  obtain ⟨i, hi⟩ := getStartPoint_of_triesInside h hin
  obtain ⟨hlt, -⟩ := List.getElem?_eq_some_iff.mp hq
  have hbetween : ¬ (binarySearch d.points x = (d.remember i).points.length ∨
      binarySearch d.points x + 1 = (d.remember i).points.length) := by
    show ¬ (binarySearch d.points x = d.points.length ∨ binarySearch d.points x + 1 = d.points.length)
    omega
  refine ⟨i, ?_⟩
  rw [getStartAndEndPoint, hi]
  show (if _ then _ else _) = _
  rw [if_neg hbetween]
  show (d.points[binarySearch d.points x]?.bind fun p => d.points[binarySearch d.points x + 1]?.bind _) = _
  rw [hp, hq]
  rfl

theorem getStartAndEndPoint_of_not (h : SortedBy Point.x d.points) (hout : ¬ d.TriesInside x) :
    d.getStartAndEndPoint x = none := by
  rw [getStartAndEndPoint, getStartPoint_of_not h hout]
  rfl

/-- Between two points of different x-coordinates the value is on their line. -/
theorem interpolate_eq (hp : p.x ≤ x) (hq : x < q.x) :
    interpolate p q x = some ((q.y - p.y) * (x - p.x) / (q.x - p.x) + p.y) := by
  have htime : ¬ (q.x - p.x = 0 ∧ x - p.x ≤ q.x - p.x) := by
    rintro ⟨hzero, -⟩
    linarith
  have hinside : ¬ q.x - p.x < x - p.x := by linarith
  rw [interpolate, if_neg htime, HueMath.linearTween, if_neg hinside]

/-- Both values are the y-coordinates of the ends outside, and are looked up between the ends. -/
theorem isSome_value_iff {between : Option (ℚ × CurveData)}
    (h : d.points ≠ [] → d.getBegin < x → x < d.getEnd → (between.isSome = true ↔ d.TriesInside x)) :
    (if d.points.length < 2 then d.points.head?.map fun p => (p.y, d)
      else if x ≤ d.getBegin then d.points.head?.map fun p => (p.y, d)
      else if d.getEnd ≤ x then d.points.getLast?.map fun p => (p.y, d)
      else between).isSome = true ↔
    d.points ≠ [] ∧ (d.points.length < 2 ∨ x ≤ d.getBegin ∨ d.TriesInside x) := by
  by_cases hne : d.points = []
  · simp [hne]
  · have hhead : d.points.head?.isSome = true := List.isSome_head?.mpr hne
    have hlast : d.points.getLast?.isSome = true := List.getLast?_isSome.mpr hne
    split_ifs with htwo hbegin hend
    · simp [hne, htwo, hhead]
    · simp [hne, hbegin, hhead]
    · have hin : d.TriesInside x := ⟨hne, .inr hend⟩
      simp [hne, hin, hlast]
    · rw [h hne (not_le.mp hbegin) (not_le.mp hend)]
      simp [hne, htwo, hbegin]

theorem isSome_getInterpolatedValue_iff (h : SortedBy Point.x d.points) :
    (d.getInterpolatedValue x).isSome = true ↔ d.StaysInside (.getInterpolatedValue x) := by
  refine isSome_value_iff fun hne hbegin hend => ?_
  by_cases hin : d.TriesInside x
  · obtain ⟨p, q, hp, hq, hle, hlt⟩ := exists_neighbours h hne hbegin hend
    obtain ⟨i, hi⟩ := getStartAndEndPoint_eq h hin hp hq
    rw [hi]
    simp [hin, interpolate_eq hle hlt]
  · rw [getStartAndEndPoint_of_not h hin]
    simp [hin]

theorem isSome_getStepValue_iff (h : SortedBy Point.x d.points) :
    (d.getStepValue x).isSome = true ↔ d.StaysInside (.getStepValue x) := by
  refine isSome_value_iff fun hne hbegin hend => ?_
  by_cases hin : d.TriesInside x
  · obtain ⟨p, q, hp, hq, -, -⟩ := exists_neighbours h hne hbegin hend
    obtain ⟨i, hi⟩ := getStartAndEndPoint_eq h hin hp hq
    rw [hi]
    simp [hin]
  · rw [getStartAndEndPoint_of_not h hin]
    simp [hin]

theorem looksUp_iff_of_sorted (h : SortedBy Point.x d.points) (use : CurveUse) :
    d.LooksUp use ↔ d.StaysInside use := by
  cases use with
  | getStartPoint x =>
    constructor
    · rintro ⟨d', hd'⟩
      show d.TriesInside x
      by_contra hout
      rw [getStartPoint_of_not h hout] at hd'
      cases hd'
    · intro hin
      obtain ⟨i, hi⟩ := getStartPoint_of_triesInside h hin
      exact ⟨_, hi⟩
  | getInterpolatedValue x => exact isSome_getInterpolatedValue_iff h
  | getStepValue x => exact isSome_getStepValue_iff h
  | _ => exact Iff.rfl

/-! ### Every history -/

variable {atof : String → ℚ} {ts : List (Transition CurveData CurveUse)}

theorem sorted_run (hrun : (curves atof).Run ts d) : SortedBy Point.x d.points := by
  refine hrun.invariant (fun d h => h.1) fun d use d' h _ => ?_
  obtain ⟨-, hsorted⟩ := Option.filter_eq_some_iff.mp h
  exact of_decide_eq_true hsorted

/-- **When a lookup finds what the binary search finds.** For every history of changes and lookups that kept
the points sorted: a lookup finds the position of the binary search, and reads nothing outside the list, if and
only if there is a point and the remembered index (zero when it is outside the list) is not that of the last
one, or `x` is not before the last point; the two values are looked up between the ends only. -/
theorem looksUp_iff (hrun : (curves atof).Run ts d) (use : CurveUse) : d.LooksUp use ↔ d.StaysInside use :=
  looksUp_iff_of_sorted (sorted_run hrun) use

instance (d : CurveData) (use : CurveUse) : Decidable (d.StaysInside use) := by
  cases use with
  | getStartPoint x => exact inferInstanceAs (Decidable (_ ∧ (_ ∨ _)))
  | getInterpolatedValue x => exact inferInstanceAs (Decidable (_ ∧ (_ ∨ _ ∨ (_ ∧ (_ ∨ _)))))
  | getStepValue x => exact inferInstanceAs (Decidable (_ ∧ (_ ∨ _ ∨ (_ ∧ (_ ∨ _)))))
  | _ => exact inferInstanceAs (Decidable True)

/-- The points `(0, 0)`, `(1, 1)` and so on. -/
def diagonal (n : ℕ) : List Point := (List.range n).map fun i => ⟨i, i⟩

/-- A history after which every lookup is right. -/
theorem looksUp_iff_example : ∃ ts d, (curves fun _ => 0).Run ts d ∧
    ts.length = 3 ∧ ∀ x, d.LooksUp (.getStartPoint x) := by
  obtain ⟨ts, d, hrun, h⟩ := Machine.exists_run (M := curves fun _ => 0) (s := {})
    [.setPoints (diagonal 4), .getInterpolatedValue (3 / 2), .appendPoint ⟨8, 0⟩]
    (fun ts d => ts.length = 3 && decide (d.points ≠ [] ∧ d.startIndex + 1 < d.points.length))
    ⟨.nil, rfl⟩ (by decide +kernel)
  rw [Bool.and_eq_true, decide_eq_true_eq, decide_eq_true_eq] at h
  exact ⟨ts, d, hrun, h.1, fun x => (looksUp_iff hrun _).mpr ⟨h.2.1, .inl h.2.2⟩⟩

/-- A lookup between the second and the third of three points, then two points instead of them: the next lookup
reads outside the list. So does one of a curve without points. -/
theorem exists_not_looksUp :
    (∃ ts d, (curves fun _ => 0).Run ts d ∧ ts.map Transition.label =
      [.setPoints (diagonal 3), .getInterpolatedValue (3 / 2), .setPoints (diagonal 2)] ∧
      ¬ d.LooksUp (.getInterpolatedValue (1 / 2))) ∧
    ∃ ts d, (curves fun _ => 0).Run ts d ∧ ts = [] ∧ d.points = [] ∧ ¬ d.LooksUp (.getStepValue 0) := by
  constructor
  · obtain ⟨ts, d, hrun, hlabels, h⟩ := Machine.exists_run_along (M := curves fun _ => 0) (s := {})
      [.setPoints (diagonal 3), .getInterpolatedValue (3 / 2), .setPoints (diagonal 2)]
      (fun _ d => !decide (d.StaysInside (.getInterpolatedValue (1 / 2)))) ⟨.nil, rfl⟩ (by decide +kernel)
    refine ⟨ts, d, hrun, hlabels, fun hlooks => ?_⟩
    have hin := (looksUp_iff_of_sorted (sorted_run hrun) _).mp hlooks
    rw [decide_eq_true hin] at h
    cases h
  · refine ⟨[], {}, .init ⟨.nil, rfl⟩, rfl, rfl, ?_⟩
    simp [LooksUp, getStepValue]

end CurveData

end HueStream.Animations
