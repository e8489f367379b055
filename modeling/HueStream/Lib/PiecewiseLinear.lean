import Mathlib.Algebra.Order.Field.Basic
import Mathlib.Data.List.Chain
import Mathlib.Tactic.FieldSimp
import Mathlib.Tactic.FunProp
import Mathlib.Tactic.Ring
import Mathlib.Topology.Algebra.Field
import Mathlib.Topology.Order.OrderClosed

/-! # Piecewise linear functions

A list of points, sorted by their first coordinates, is read as a function: linear between two points,
constant before the first one and from the last one on. From the last point at or before `x` the value at `x` is
read off (`through_of_getElem?`, `through_of_le`, `piecewiseLinear_of_mem`); where the first coordinates differ
the function is continuous (`continuous_piecewiseLinear`). -/

namespace HueStream.Lib

variable {𝕜 : Type*} [Field 𝕜]

/-- The line through two points. -/
def line (p q : 𝕜 × 𝕜) (x : 𝕜) : 𝕜 := (q.2 - p.2) * (x - p.1) / (q.1 - p.1) + p.2

theorem line_left (p q : 𝕜 × 𝕜) : line p q p.1 = p.2 := by simp [line]

theorem line_right {p q : 𝕜 × 𝕜} (h : p.1 ≠ q.1) : line p q q.1 = q.2 := by
  have hne : q.1 - p.1 ≠ 0 := sub_ne_zero.mpr (Ne.symm h)
  rw [line, mul_div_cancel_right₀ _ hne]
  ring

/-- Two lines from one point differ at any place as they do at one of the other points, in proportion. -/
theorem line_sub_line {p q : 𝕜 × 𝕜} (h : p.1 ≠ q.1) (r : 𝕜 × 𝕜) (x : 𝕜) :
    line p q x - line p r x = (q.2 - line p r q.1) * ((x - p.1) / (q.1 - p.1)) := by
  have hne : q.1 - p.1 ≠ 0 := sub_ne_zero.mpr (Ne.symm h)
  unfold line
  rw [mul_div_assoc, mul_div_right_comm]
  field_simp
  ring

theorem continuous_line [TopologicalSpace 𝕜] [IsTopologicalRing 𝕜] (p q : 𝕜 × 𝕜) :
    Continuous (line p q) := by
  unfold line
  simp only [div_eq_mul_inv]
  fun_prop

variable [LinearOrder 𝕜]

/-- From the point `p` on, through the points `ps`. -/
def through (p : 𝕜 × 𝕜) : List (𝕜 × 𝕜) → 𝕜 → 𝕜
  | [], _ => p.2
  | q :: ps, x => if q.1 ≤ x then through q ps x else line p q x

/-- Through the points, constant outside. -/
def piecewiseLinear (p : 𝕜 × 𝕜) (ps : List (𝕜 × 𝕜)) (x : 𝕜) : 𝕜 :=
  if x ≤ p.1 then p.2 else through p ps x

variable {p q a b : 𝕜 × 𝕜} {ps : List (𝕜 × 𝕜)} {x : 𝕜} {i : ℕ}

/-- Between two neighbours the function is their line. -/
theorem through_of_getElem? (hsorted : (p :: ps).Pairwise fun p q => p.1 ≤ q.1)
    (ha : (p :: ps)[i]? = some a) (hb : (p :: ps)[i + 1]? = some b) (hax : a.1 ≤ x) (hxb : x < b.1) :
    through p ps x = line a b x := by
  induction ps generalizing p i with
  | nil => simp at hb
  | cons q ps ih =>
    rw [List.getElem?_cons_succ] at hb
    obtain ⟨-, hrest⟩ := List.pairwise_cons.mp hsorted
    cases i with
    | zero =>
      obtain rfl : p = a := by simpa using ha
      obtain rfl : q = b := by simpa using hb
      rw [through, if_neg (not_le.mpr hxb)]
    | succ i =>
      rw [List.getElem?_cons_succ] at ha
      have hqa : q.1 ≤ a.1 := by
        rcases List.mem_cons.mp (List.mem_of_getElem? ha) with rfl | hmem
        · exact le_rfl
        · exact (List.pairwise_cons.mp hrest).1 a hmem
      rw [through, if_pos (hqa.trans hax)]
      exact ih hrest ha hb

/-- From the last point on the function is constant. -/
theorem through_of_le (h : ∀ q ∈ ps, q.1 ≤ x) :
    through p ps x = ((p :: ps).getLast (List.cons_ne_nil p ps)).2 := by
  induction ps generalizing p with
  | nil => rfl
  | cons q ps ih =>
    rw [through, if_pos (h q (by simp)), ih fun r hr => h r (by simp [hr])]
    rfl

theorem through_self (h : (p :: ps).IsChain fun p q => p.1 < q.1) : through p ps p.1 = p.2 := by
  cases ps with
  | nil => rfl
  | cons q ps =>
    obtain ⟨hlt, -⟩ := List.isChain_cons_cons.mp h
    rw [through, if_neg (not_le.mpr hlt), line_left]

theorem piecewiseLinear_eq_through (h : (p :: ps).IsChain fun p q => p.1 < q.1) (hx : p.1 ≤ x) :
    piecewiseLinear p ps x = through p ps x := by
  unfold piecewiseLinear
  split_ifs with hle
  · obtain rfl : x = p.1 := le_antisymm hle hx
    exact (through_self h).symm
  · rfl

/-- On the closed interval between two neighbours the function is their line. -/
theorem piecewiseLinear_of_mem {ps₁ ps₂ : List (𝕜 × 𝕜)} (heq : p :: ps = ps₁ ++ a :: b :: ps₂)
    (hsorted : (p :: ps).Pairwise fun p q => p.1 < q.1) (hax : a.1 ≤ x) (hxb : x ≤ b.1) :
    piecewiseLinear p ps x = line a b x := by
  induction ps₁ generalizing p ps with
  | nil =>
    obtain ⟨rfl, rfl⟩ := List.cons_eq_cons.mp heq
    obtain ⟨hlt, hrest⟩ := List.pairwise_cons.mp hsorted
    rw [piecewiseLinear_eq_through hsorted.isChain hax, through]
    split_ifs with hbx
    · obtain rfl : x = b.1 := le_antisymm hxb hbx
      rw [line_right (hlt b (by simp)).ne]
      exact through_self hrest.isChain
    · rfl
  | cons r ps₁ ih =>
    rw [List.cons_append] at heq
    obtain ⟨rfl, hps⟩ := List.cons_eq_cons.mp heq
    obtain ⟨hlt, hrest⟩ := List.pairwise_cons.mp hsorted
    have hpa : p.1 < a.1 := hlt a (by simp [hps])
    rw [piecewiseLinear_eq_through hsorted.isChain (hpa.le.trans hax)]
    cases ps with
    | nil => simp at hps
    | cons c ps =>
      have hca : c.1 ≤ a.1 := by
        have hmem : a ∈ c :: ps := by simp [hps]
        rcases List.mem_cons.mp hmem with rfl | ha
        · exact le_rfl
        · exact ((List.pairwise_cons.mp hrest).1 a ha).le
      have hcx : c.1 ≤ x := hca.trans hax
      rw [through, if_pos hcx, ← piecewiseLinear_eq_through hrest.isChain hcx]
      exact ih hps hrest

variable [TopologicalSpace 𝕜] [OrderClosedTopology 𝕜] [IsTopologicalRing 𝕜]

theorem continuous_through (h : (p :: ps).IsChain fun p q => p.1 < q.1) : Continuous (through p ps) := by
  induction ps generalizing p with
  | nil => exact continuous_const
  | cons q ps ih =>
    obtain ⟨hlt, hchain⟩ := List.isChain_cons_cons.mp h
    show Continuous fun x => if q.1 ≤ x then through q ps x else line p q x
    refine Continuous.if_le (ih hchain) (continuous_line p q) continuous_const continuous_id ?_
    -- at the point itself both branches have its value
    rintro x (rfl : q.1 = x)
    rw [through_self hchain, line_right hlt.ne]

theorem continuous_piecewiseLinear (h : (p :: ps).IsChain fun p q => p.1 < q.1) :
    Continuous (piecewiseLinear p ps) := by
  unfold piecewiseLinear
  refine Continuous.if_le continuous_const (continuous_through h) continuous_id continuous_const ?_
  rintro x (rfl : x = p.1)
  rw [through_self h]

end HueStream.Lib
