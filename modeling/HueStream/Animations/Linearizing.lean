import HueStream.Animations.Interpolation
import HueStream.Lib.Lists

/-! # Leaving out points

`AppendPointLinearized` drops the last point when it is within `delta` of the line from the point before it to
the new one. The points that were dropped earlier are not looked at again: each time a point is dropped the
line over them turns, by up to `delta` at the dropped point and in proportion to the distance from the kept
point before. -/

namespace HueStream.Animations

open HueStream.Lib

/-- A point that was kept, and those behind it that were dropped. -/
structure Stretch where
  kept : Point
  dropped : List Point := []

namespace Stretch

def points (s : Stretch) : List Point := s.kept :: s.dropped

/-- How far, in units of `delta`, the line over the dropped point `p` can have turned, where `after` are the
points dropped after it: each of them, and `p` itself, counts by the ratio of the distances from the kept
point. -/
def drift (s : Stretch) (p : Point) (after : List Point) : ℚ :=
  ((p :: after).map fun q => (p.x - s.kept.x) / (q.x - s.kept.x)).sum

/-- The dropped points are near the line to the next point that is kept. -/
def Near (delta : ℚ) (s : Stretch) (next : Point) : Prop :=
  ∀ before p after, s.dropped = before ++ p :: after →
    |p.y - line s.kept.pair next.pair p.x| ≤ delta * s.drift p after

end Stretch

/-- The points of a curve to which `added` were appended, the newest stretch first. -/
structure Linearized (delta : ℚ) (added points : List Point) (stretches : List Stretch) : Prop where
  added : added = stretches.reverse.flatMap Stretch.points
  points : points = stretches.reverse.map Stretch.kept
  last : ∀ s ∈ stretches.head?, s.dropped = []
  near : stretches.IsChain fun next s => s.Near delta next.kept

namespace CurveData

/-- The points are appended one by one. -/
def appendPointsLinearized (d : CurveData) (points : List Point) (delta : ℚ) : CurveData :=
  points.foldl (fun d point => d.appendPointLinearized point delta) d

end CurveData

variable {delta : ℚ} {added points : List Point} {stretches : List Stretch} {s t : Stretch} {p next : Point}

theorem Stretch.near_nil (h : s.dropped = []) : s.Near delta next := by
  intro before p after hsplit
  simp [h] at hsplit

/-- A point that is dropped turns the line over those dropped before it. -/
theorem Stretch.Near.drop (h : s.Near delta p) (hx : ∀ q ∈ s.dropped, s.kept.x < q.x) (hp : s.kept.x < p.x)
    (hnear : |p.y - line s.kept.pair next.pair p.x| ≤ delta) :
    Stretch.Near delta { s with dropped := s.dropped ++ [p] } next := by
  intro before q after hsplit
  rcases split_concat hsplit with ⟨-, rfl, rfl⟩ | ⟨ws, rfl, hdropped⟩
  · have hone : (q.x - s.kept.x) / (q.x - s.kept.x) = 1 := div_self (sub_pos.mpr hp).ne'
    simpa [Stretch.drift, hone] using hnear
  · have hq : s.kept.x < q.x := hx q (by simp [hdropped])
    have hratio : 0 ≤ (q.x - s.kept.x) / (p.x - s.kept.x) :=
      div_nonneg (sub_pos.mpr hq).le (sub_pos.mpr hp).le
    have hturn : |line s.kept.pair p.pair q.x - line s.kept.pair next.pair q.x| ≤
        delta * ((q.x - s.kept.x) / (p.x - s.kept.x)) := by
      rw [line_sub_line (q := p.pair) hp.ne next.pair q.x, abs_mul]
      exact mul_le_mul hnear (abs_of_nonneg hratio).le (abs_nonneg _) ((abs_nonneg _).trans hnear)
    have hbefore := h before q ws hdropped
    have hdrift : Stretch.drift { s with dropped := s.dropped ++ [p] } q (ws ++ [p]) =
        s.drift q ws + (q.x - s.kept.x) / (p.x - s.kept.x) := by
      simp [Stretch.drift, add_assoc]
    calc |q.y - line s.kept.pair next.pair q.x|
        ≤ |q.y - line s.kept.pair p.pair q.x| +
          |line s.kept.pair p.pair q.x - line s.kept.pair next.pair q.x| := abs_sub_le _ _ _
      _ ≤ delta * s.drift q ws + delta * ((q.x - s.kept.x) / (p.x - s.kept.x)) := add_le_add hbefore hturn
      _ = delta * (s.drift q ws + (q.x - s.kept.x) / (p.x - s.kept.x)) := (mul_add _ _ _).symm
      _ = delta * Stretch.drift { s with dropped := s.dropped ++ [p] } q (ws ++ [p]) := by rw [hdrift]

namespace Linearized

theorem keep (h : Linearized delta added points stretches) (p : Point) :
    Linearized delta (added ++ [p]) (points ++ [p]) ({ kept := p } :: stretches) where
  added := by simp [h.added, Stretch.points]
  points := by simp [h.points]
  last := by
    rintro s ⟨⟩
    rfl
  near := List.isChain_cons.mpr ⟨fun s hs => Stretch.near_nil (h.last s hs), h.near⟩

theorem drop (h : Linearized delta added points (t :: s :: stretches))
    (hsorted : added.Pairwise fun p q => p.x < q.x)
    (hnear : |t.kept.y - line s.kept.pair p.pair t.kept.x| ≤ delta) :
    Linearized delta (added ++ [p]) (points.dropLast ++ [p])
      ({ kept := p } :: { s with dropped := s.dropped ++ [t.kept] } :: stretches) := by
  have hlast : t.dropped = [] := h.last t rfl
  obtain ⟨hst, hrest⟩ := List.isChain_cons_cons.mp h.near
  have hadded : added = stretches.reverse.flatMap Stretch.points ++ (s.points ++ [t.kept]) := by
    rw [h.added]
    simp [Stretch.points, hlast]
  have hpoints : (s.points ++ [t.kept]).Pairwise fun p q => p.x < q.x := by
    rw [hadded] at hsorted
    exact (List.pairwise_append.mp hsorted).2.1
  obtain ⟨hs, -⟩ := List.pairwise_cons.mp hpoints
  refine ⟨by simp [hadded, Stretch.points], by simp [h.points], ?_, ?_⟩
  · rintro s ⟨⟩
    rfl
  · refine List.isChain_cons_cons.mpr ⟨?_, ?_⟩
    · exact hst.drop (fun q hq => hs q (by simp [hq])) (hs t.kept (by simp)) hnear
    · exact List.isChain_cons.mpr (List.isChain_cons.mp hrest)

end Linearized

theorem kept_sublist (stretches : List Stretch) :
    (stretches.map Stretch.kept).Sublist (stretches.flatMap Stretch.points) := by
  induction stretches with
  | nil => exact .slnil
  | cons s stretches ih => exact .cons_cons _ (ih.trans (List.sublist_append_right _ _))

theorem Linearized.sublist (h : Linearized delta added points stretches) : points.Sublist added := by
  rw [h.added, h.points]
  exact kept_sublist _

namespace CurveData

/-- One more point, behind those before. -/
theorem exists_linearized_appendPoint {d : CurveData} (h : Linearized delta added d.points stretches)
    (hsorted : (added ++ [p]).Pairwise fun p q => p.x < q.x) :
    ∃ stretches', Linearized delta (added ++ [p]) (d.appendPointLinearized p delta).points stretches' := by
  obtain ⟨hadded, -, hp⟩ := List.pairwise_append.mp hsorted
  have hreverse : d.points.reverse = stretches.map Stretch.kept := by simp [h.points]
  unfold appendPointLinearized linearized
  rw [hreverse]
  rcases stretches with - | ⟨t, - | ⟨s, stretches⟩⟩
  · exact ⟨_, h.keep p⟩
  · exact ⟨_, h.keep p⟩
  · have hkept : ((stretches.reverse.map Stretch.kept ++ [s.kept]) ++ [t.kept]).Pairwise fun p q => p.x < q.x := by
      have hpoints := hadded.sublist h.sublist
      rw [h.points] at hpoints
      simpa using hpoints
    have hst : s.kept.x < t.kept.x := (List.pairwise_append.mp hkept).2.2 _ (by simp) _ (by simp)
    have htp : t.kept.x < p.x := hp _ (h.sublist.mem (by simp [h.points])) p (by simp)
    have hinter : interpolate s.kept p t.kept.x = some (line s.kept.pair p.pair t.kept.x) :=
      interpolate_eq hst.le htp
    simp only [List.map_cons, hinter]
    split_ifs with hnear
    · exact ⟨_, h.drop hadded hnear⟩
    · exact ⟨_, h.keep p⟩

theorem exists_linearized (hsorted : added.Pairwise fun p q => p.x < q.x) :
    ∃ stretches, Linearized delta added ((appendPointsLinearized {} added delta).points) stretches := by
  induction added using List.reverseRecOn with
  | nil => exact ⟨[], rfl, rfl, by simp, .nil⟩
  | append_singleton added p ih =>
    obtain ⟨stretches, h⟩ := ih (List.pairwise_append.mp hsorted).1
    rw [appendPointsLinearized, List.foldl_append]
    exact exists_linearized_appendPoint h hsorted

theorem exists_getInterpolatedValue {d : CurveData} (hoptions : d.options = none) (hindex : d.lastIndex = 0)
    (hne : d.points ≠ []) (hsorted : d.points.Pairwise fun p q => p.x < q.x) (x : ℚ) :
    ∃ d', d.getInterpolatedValue x = some (interpolation d.points x, d') := by
  have hle : SortedBy Point.x d.points := hsorted.imp le_of_lt
  have hcorrect : ∀ v, d.correctValue v = v := fun v => by simp [correctValue, hoptions]
  have hinterpolates : d.Interpolates x := by
    refine (interpolates_iff_correctedAt hne hle x).mpr ?_
    unfold CorrectedAt
    split_ifs with hfirst hend
    · exact fun p _ => hcorrect p.y
    · exact fun p _ => hcorrect p.y
    · obtain ⟨htwo, -⟩ := not_or.mp hfirst
      refine ⟨hne, .inl ?_⟩
      simp only [startIndex, hindex]
      split_ifs <;> simp <;> omega
  unfold Interpolates at hinterpolates
  rwa [hcorrect] at hinterpolates

theorem appendPointsLinearized_options (d : CurveData) (points : List Point) (delta : ℚ) :
    (d.appendPointsLinearized points delta).options = d.options ∧
      (d.appendPointsLinearized points delta).lastIndex = d.lastIndex := by
  induction points generalizing d with
  | nil => exact ⟨rfl, rfl⟩
  | cons p points ih => exact ih _

end CurveData

/-! ### The curve and the points that were added -/

theorem Stretch.drift_le {after : List Point} (hsorted : (s.kept :: p :: after).Pairwise fun p q => p.x < q.x) :
    s.drift p after ≤ after.length + 1 := by
  obtain ⟨hkept, hp⟩ := List.pairwise_cons.mp hsorted
  have hle : ∀ r ∈ (p :: after).map fun q => (p.x - s.kept.x) / (q.x - s.kept.x), r ≤ 1 := by
    intro r hr
    obtain ⟨q, hq, rfl⟩ := List.mem_map.mp hr
    have hkq : 0 < q.x - s.kept.x := sub_pos.mpr (hkept q hq)
    have hpq : p.x ≤ q.x := by
      rcases List.mem_cons.mp hq with rfl | hq
      · exact le_rfl
      · exact ((List.pairwise_cons.mp hp).1 q hq).le
    rw [div_le_one hkq]
    linarith
  have hsum := List.sum_le_card_nsmul _ 1 hle
  simpa [Stretch.drift] using hsum

theorem interpolation_of_mem {a b : Point} {ps₁ ps₂ : List Point} {x : ℚ} (heq : points = ps₁ ++ a :: b :: ps₂)
    (hsorted : points.Pairwise fun p q => p.x < q.x) (hax : a.x ≤ x) (hxb : x ≤ b.x) :
    interpolation points x = line a.pair b.pair x := by
  cases points with
  | nil => simp at heq
  | cons p points =>
    have hpairs : p.pair :: points.map Point.pair = ps₁.map Point.pair ++ a.pair :: b.pair :: ps₂.map Point.pair := by
      rw [← List.map_cons, heq]
      simp
    have hsorted' : (p.pair :: points.map Point.pair).Pairwise fun p q => p.1 < q.1 := by
      rw [← List.map_cons, List.pairwise_map]
      exact hsorted
    exact piecewiseLinear_of_mem hpairs hsorted' hax hxb

theorem interpolation_kept (hsorted : points.Pairwise fun p q => p.x < q.x) (hp : p ∈ points) :
    interpolation points p.x = p.y := by
  obtain ⟨ps₁, ps₂, rfl⟩ := List.append_of_mem hp
  rcases ps₁.eq_nil_or_concat' with rfl | ⟨ps₁, a, rfl⟩
  · exact CurveData.interpolation_of_le rfl le_rfl
  · have hap : a.x < p.x := (List.pairwise_append.mp hsorted).2.2 a (by simp) p (by simp)
    rw [interpolation_of_mem (List.append_assoc ps₁ [a] (p :: ps₂)) hsorted hap.le le_rfl]
    exact line_right (p := a.pair) (q := p.pair) hap.ne

namespace Linearized

variable (h : Linearized delta added points stretches)
include h

theorem head? : points.head? = added.head? := by
  rw [h.added, h.points]
  cases stretches.reverse with
  | nil => rfl
  | cons s stretches => rfl

theorem getLast? : points.getLast? = added.getLast? := by
  rw [h.added, h.points]
  cases stretches with
  | nil => rfl
  | cons s stretches =>
    have hlast : s.dropped = [] := h.last s rfl
    simp [Stretch.points, hlast]

/-- A dropped point lies between its kept point and the next one that is kept. -/
theorem within (hsorted : added.Pairwise fun p q => p.x < q.x) (hs : s ∈ stretches) {before after : List Point}
    (hsplit : s.dropped = before ++ p :: after) :
    |p.y - interpolation points p.x| ≤ delta * s.drift p after := by
  obtain ⟨us, vs, rfl⟩ := List.append_of_mem hs
  rcases us.eq_nil_or_concat' with rfl | ⟨us, t, rfl⟩
  · have hlast : s.dropped = [] := h.last s rfl
    simp [hlast] at hsplit
  · have hnear : s.Near delta t.kept := by
      have hchain := h.near
      rw [List.append_assoc] at hchain
      exact (List.isChain_cons_cons.mp (List.isChain_append.mp hchain).2.1).1
    have hpoints : points = vs.reverse.map Stretch.kept ++ s.kept :: t.kept :: us.reverse.map Stretch.kept := by
      rw [h.points]
      simp
    have hadded : (s.kept :: (before ++ p :: after) ++ t.kept :: t.dropped).Pairwise fun p q => p.x < q.x := by
      refine hsorted.sublist ?_
      rw [h.added, ← hsplit]
      simp [Stretch.points]
    have hsp : s.kept.x < p.x := (List.pairwise_cons.mp (List.pairwise_append.mp hadded).1).1 p (by simp)
    have hpt : p.x < t.kept.x := (List.pairwise_append.mp hadded).2.2 p (by simp) t.kept (by simp)
    rw [interpolation_of_mem hpoints (hsorted.sublist h.sublist) hsp.le hpt.le]
    exact hnear before p after hsplit

end Linearized

namespace CurveData

/-- **The error of a linearized curve.** The first and the last point are kept, and the code gives the interpolation
of the points that are. A kept point lies on it; a dropped one is off by at most `delta` for itself and for each
point that is dropped after it up to the next one that is kept, in proportion to the distances from the kept
point before. -/
theorem linearized_within (hsorted : added.Pairwise fun p q => p.x < q.x) (delta : ℚ) :
    let d := appendPointsLinearized {} added delta
    d.points.head? = added.head? ∧ d.points.getLast? = added.getLast? ∧
      (∀ p ∈ added, ∃ d', d.getInterpolatedValue p.x = some (interpolation d.points p.x, d')) ∧
      ∃ stretches : List Stretch, added = stretches.flatMap Stretch.points ∧
        d.points = stretches.map Stretch.kept ∧
        ∀ s ∈ stretches, interpolation d.points s.kept.x = s.kept.y ∧
          ∀ before p after, s.dropped = before ++ p :: after →
            |p.y - interpolation d.points p.x| ≤ delta * s.drift p after ∧
            s.drift p after ≤ after.length + 1 := by
  intro d
  obtain ⟨stretches, h⟩ : ∃ stretches, Linearized delta added d.points stretches := exists_linearized hsorted
  have hkept : d.points.Pairwise fun p q => p.x < q.x := hsorted.sublist h.sublist
  refine ⟨h.head?, h.getLast?, fun p hp => ?_, stretches.reverse, h.added, h.points, fun s hs => ⟨?_, ?_⟩⟩
  · obtain ⟨hoptions, hindex⟩ := appendPointsLinearized_options {} added delta
    have hne : d.points ≠ [] := by
      intro hnil
      have hhead := h.head?
      rw [hnil] at hhead
      simp [List.head?_eq_none_iff.mp hhead.symm] at hp
    exact exists_getInterpolatedValue hoptions hindex hne hkept p.x
  · refine interpolation_kept hkept ?_
    rw [h.points]
    exact List.mem_map_of_mem hs
  · intro before p after hsplit
    refine ⟨h.within hsorted (List.mem_reverse.mp hs) hsplit, Stretch.drift_le ?_⟩
    have hstretch : s.points.Sublist added := by
      rw [h.added, List.flatMap_def]
      exact List.sublist_flatten_of_mem (List.mem_map_of_mem hs)
    have hrest : (s.kept :: p :: after).Sublist s.points := by
      rw [Stretch.points, hsplit]
      exact .cons_cons _ (List.sublist_append_right _ _)
    exact hsorted.sublist (hrest.trans hstretch)

/-- Three points on a line and one off it. -/
theorem linearized_within_example :
    let d := appendPointsLinearized {} [⟨0, 0⟩, ⟨1, 1⟩, ⟨2, 2⟩, ⟨3, 9⟩] 1
    d.points = [⟨0, 0⟩, ⟨2, 2⟩, ⟨3, 9⟩] ∧
      ∃ stretches : List Stretch, d.points = stretches.map Stretch.kept ∧
        ∀ s ∈ stretches, ∀ before p after, s.dropped = before ++ p :: after →
          |p.y - interpolation d.points p.x| ≤ 1 * s.drift p after := by
  intro d
  obtain ⟨-, -, -, stretches, -, hpoints, hwithin⟩ := linearized_within
    (by decide +kernel : [⟨0, 0⟩, ⟨1, 1⟩, ⟨2, 2⟩, ⟨3, 9⟩].Pairwise fun p q : Point => p.x < q.x) 1
  exact ⟨by decide +kernel, stretches, hpoints, fun s hs before p after hsplit =>
    ((hwithin s hs).2 before p after hsplit).1⟩

/-- Four points of a curve that bends more and more, where `delta` is 1: the second point ends up at a distance of
three halves. -/
theorem exists_not_within : ∃ added : List Point, added.Pairwise (fun p q => p.x < q.x) ∧
    ∃ p ∈ added, 1 < |p.y - interpolation (appendPointsLinearized {} added 1).points p.x| :=
  ⟨[⟨0, 0⟩, ⟨1, 0⟩, ⟨2, 2⟩, ⟨3, 9 / 2⟩], by decide +kernel, ⟨1, 0⟩, by simp, by decide +kernel⟩

end CurveData

end HueStream.Animations
