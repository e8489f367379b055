import HueStream.Animations.Leaves
import HueStream.Lib.Profile

/-! # Polynomial easings

The easings of `HueMath` that are polynomials in the time, over exact rationals. Each is a power that is taken from
the beginning, from the end, or from the beginning and from the end in the two halves of the time.

* `exists_profile`: each is a profile between its two values.
* `polynomialEasings_ease`: each goes from the one value to the other in one direction, and the two halves meet. -/

namespace HueStream.Animations.HueMath

open HueStream.Lib

variable (t b e d : ℚ)

def easeInQuad : ℚ :=
  let c := e - b
  if d < t then e
  else
    let t := t / d
    c * t * t + b

def easeOutQuad : ℚ :=
  let c := e - b
  if d < t then e
  else
    let t := t / d;
    -c * t * (t - 2) + b

def easeInCubic : ℚ :=
  let c := e - b
  if d < t then e
  else
    let t := t / d
    c * t * t * t + b

def easeOutCubic : ℚ :=
  let c := e - b
  if d < t then e
  else
    let t := t / d - 1
    c * (t * t * t + 1) + b

def easeInQuart : ℚ :=
  let c := e - b
  if d < t then e
  else
    let t := t / d
    c * t * t * t * t + b

def easeOutQuart : ℚ :=
  let c := e - b
  if d < t then e
  else
    let t := t / d - 1;
    -c * (t * t * t * t - 1) + b

def easeInQuint : ℚ :=
  let c := e - b
  if d < t then e
  else
    let t := t / d
    c * t * t * t * t * t + b

def easeOutQuint : ℚ :=
  let c := e - b
  if d < t then e
  else
    let t := t / d - 1
    c * (t * t * t * t * t + 1) + b

/-- The two branches of an in-out form, of `c`, `b` and the time in halves of the duration. -/
structure Branches where
  first : ℚ → ℚ → ℚ → ℚ
  second : ℚ → ℚ → ℚ → ℚ

/-- An in-out form. -/
def Branches.ease (branches : Branches) (t b e d : ℚ) : ℚ :=
  let c := e - b
  if d < t then e
  else
    let t := t / (d / 2)
    if t < 1 then branches.first c b t else branches.second c b t

def quad : Branches where
  first c b t := c / 2 * t * t + b
  second c b t :=
    let t := t - 1;
    -c / 2 * (t * (t - 2) - 1) + b

def cubic : Branches where
  first c b t := c / 2 * t * t * t + b
  second c b t :=
    let t := t - 2
    c / 2 * (t * t * t + 2) + b

def quart : Branches where
  first c b t := c / 2 * t * t * t * t + b
  second c b t :=
    let t := t - 2;
    -c / 2 * (t * t * t * t - 2) + b

def quint : Branches where
  first c b t := c / 2 * t * t * t * t * t + b
  second c b t :=
    let t := t - 2
    c / 2 * (t * t * t * t * t + 2) + b

theorem easeInOutQuad_eq : easeInOutQuad t b e d = quad.ease t b e d := rfl

def easeInOutCubic : ℚ := cubic.ease t b e d

def easeInOutQuart : ℚ := quart.ease t b e d

def easeInOutQuint : ℚ := quint.ease t b e d

/-- `linearTween .. easeInOutQuint`. -/
def polynomialEasings : List (ℚ → ℚ → ℚ → ℚ → ℚ) :=
  [linearTween, easeInQuad, easeOutQuad, easeInOutQuad, easeInCubic, easeOutCubic, easeInOutCubic, easeInQuart,
    easeOutQuart, easeInOutQuart, easeInQuint, easeOutQuint, easeInOutQuint]

/-! ### Profiles -/

/-- A function of the time whose values are those of a profile until the duration is over. -/
structure HasProfile (ease : ℚ → ℚ → ℚ → ℚ → ℚ) (p : ℚ → ℚ) : Prop where
  profile : Profile p
  during : ∀ t b e d, 0 < d → t ≤ d → ease t b e d = (e - b) * p (t / d) + b
  after : ∀ t b e d, d < t → ease t b e d = e

theorem linearTween_profile : HasProfile linearTween fun x => x ^ 1 := by
  refine ⟨.pow one_ne_zero, fun t b e d _ ht => ?_, fun t b e d ht => if_pos ht⟩
  rw [linearTween, if_neg ht.not_gt]
  ring

theorem easeInQuad_profile : HasProfile easeInQuad fun x => x ^ 2 := by
  refine ⟨.pow two_ne_zero, fun t b e d _ ht => ?_, fun t b e d ht => if_pos ht⟩
  rw [easeInQuad, if_neg ht.not_gt]
  ring

theorem easeInCubic_profile : HasProfile easeInCubic fun x => x ^ 3 := by
  refine ⟨.pow three_ne_zero, fun t b e d _ ht => ?_, fun t b e d ht => if_pos ht⟩
  rw [easeInCubic, if_neg ht.not_gt]
  ring

theorem easeInQuart_profile : HasProfile easeInQuart fun x => x ^ 4 := by
  refine ⟨.pow four_ne_zero, fun t b e d _ ht => ?_, fun t b e d ht => if_pos ht⟩
  rw [easeInQuart, if_neg ht.not_gt]
  ring

theorem easeInQuint_profile : HasProfile easeInQuint fun x => x ^ 5 := by
  refine ⟨.pow (by omega), fun t b e d _ ht => ?_, fun t b e d ht => if_pos ht⟩
  rw [easeInQuint, if_neg ht.not_gt]
  ring

theorem easeOutQuad_profile : HasProfile easeOutQuad fun x => 1 - (1 - x) ^ 2 := by
  refine ⟨(Profile.pow two_ne_zero).reverse, fun t b e d _ ht => ?_, fun t b e d ht => if_pos ht⟩
  rw [easeOutQuad, if_neg ht.not_gt]
  ring

theorem easeOutCubic_profile : HasProfile easeOutCubic fun x => 1 - (1 - x) ^ 3 := by
  refine ⟨(Profile.pow three_ne_zero).reverse, fun t b e d _ ht => ?_, fun t b e d ht => if_pos ht⟩
  rw [easeOutCubic, if_neg ht.not_gt]
  ring

theorem easeOutQuart_profile : HasProfile easeOutQuart fun x => 1 - (1 - x) ^ 4 := by
  refine ⟨(Profile.pow four_ne_zero).reverse, fun t b e d _ ht => ?_, fun t b e d ht => if_pos ht⟩
  rw [easeOutQuart, if_neg ht.not_gt]
  ring

theorem easeOutQuint_profile : HasProfile easeOutQuint fun x => 1 - (1 - x) ^ 5 := by
  refine ⟨(Profile.pow (by omega : (5 : ℕ) ≠ 0)).reverse, fun t b e d _ ht => ?_, fun t b e d ht => if_pos ht⟩
  rw [easeOutQuint, if_neg ht.not_gt]
  ring

/-- Two branches that are a power from the beginning and from the end. -/
theorem Branches.hasProfile {branches : Branches} {n : ℕ} (hn : n ≠ 0)
    (hfirst : ∀ c b t, branches.first c b t = c * (t ^ n / 2) + b)
    (hsecond : ∀ c b t, branches.second c b t = c * (1 - (2 - t) ^ n / 2) + b) :
    HasProfile branches.ease fun x => if 2 * x < 1 then (2 * x) ^ n / 2 else 1 - (2 - 2 * x) ^ n / 2 := by
  refine ⟨(Profile.pow hn).both, fun t b e d _ ht => ?_, fun t b e d ht => if_pos ht⟩
  have hhalf : t / (d / 2) = 2 * (t / d) := by
    rw [div_div_eq_mul_div]
    ring
  rw [Branches.ease, if_neg ht.not_gt]
  dsimp only
  rw [hhalf, hfirst, hsecond]
  split_ifs <;> rfl

/-- They meet in the middle. -/
theorem Branches.agree {branches : Branches} {n : ℕ}
    (hfirst : ∀ c b t, branches.first c b t = c * (t ^ n / 2) + b)
    (hsecond : ∀ c b t, branches.second c b t = c * (1 - (2 - t) ^ n / 2) + b) (c b : ℚ) :
    branches.first c b 1 = branches.second c b 1 := by
  have hone : (2 : ℚ) - 1 = 1 := by norm_num
  rw [hfirst, hsecond, hone, one_pow]
  ring

theorem quad_first (c b t : ℚ) : quad.first c b t = c * (t ^ 2 / 2) + b := by
  unfold quad
  ring

theorem quad_second (c b t : ℚ) : quad.second c b t = c * (1 - (2 - t) ^ 2 / 2) + b := by
  unfold quad
  ring

theorem cubic_first (c b t : ℚ) : cubic.first c b t = c * (t ^ 3 / 2) + b := by
  unfold cubic
  ring

theorem cubic_second (c b t : ℚ) : cubic.second c b t = c * (1 - (2 - t) ^ 3 / 2) + b := by
  unfold cubic
  ring

theorem quart_first (c b t : ℚ) : quart.first c b t = c * (t ^ 4 / 2) + b := by
  unfold quart
  ring

theorem quart_second (c b t : ℚ) : quart.second c b t = c * (1 - (2 - t) ^ 4 / 2) + b := by
  unfold quart
  ring

theorem quint_first (c b t : ℚ) : quint.first c b t = c * (t ^ 5 / 2) + b := by
  unfold quint
  ring

theorem quint_second (c b t : ℚ) : quint.second c b t = c * (1 - (2 - t) ^ 5 / 2) + b := by
  unfold quint
  ring

theorem exists_profile : ∀ ease ∈ polynomialEasings, ∃ p, HasProfile ease p := by
  have hquad : HasProfile easeInOutQuad _ := Branches.hasProfile two_ne_zero quad_first quad_second
  have hcubic : HasProfile easeInOutCubic _ := Branches.hasProfile three_ne_zero cubic_first cubic_second
  have hquart : HasProfile easeInOutQuart _ := Branches.hasProfile four_ne_zero quart_first quart_second
  have hquint : HasProfile easeInOutQuint _ := Branches.hasProfile (by omega) quint_first quint_second
  unfold polynomialEasings
  simp only [List.forall_mem_cons]
  exact ⟨⟨_, linearTween_profile⟩, ⟨_, easeInQuad_profile⟩, ⟨_, easeOutQuad_profile⟩, ⟨_, hquad⟩,
    ⟨_, easeInCubic_profile⟩, ⟨_, easeOutCubic_profile⟩, ⟨_, hcubic⟩, ⟨_, easeInQuart_profile⟩,
    ⟨_, easeOutQuart_profile⟩, ⟨_, hquart⟩, ⟨_, easeInQuint_profile⟩, ⟨_, easeOutQuint_profile⟩, ⟨_, hquint⟩,
    by simp⟩

/-- **Polynomial easings ease.** Each goes from `b` at the time 0 to `e` at the time `d` in one direction, never
leaves the values between them and stays at `e`; and the branches of the in-out forms agree in the middle. -/
theorem polynomialEasings_ease :
    (∀ ease ∈ polynomialEasings, ∀ b e d, 0 < d → Eases (fun t => ease t b e d) b e d) ∧
      ∀ branches ∈ [quad, cubic, quart, quint], ∀ b e d : ℚ, 0 < d →
        branches.first (e - b) b (d / 2 / (d / 2)) = branches.second (e - b) b (d / 2 / (d / 2)) := by
  constructor
  · intro ease hease b e d hd
    obtain ⟨p, hp⟩ := exists_profile ease hease
    exact hp.profile.eases hd (fun t ht => hp.during t b e d hd ht) fun t ht => hp.after t b e d ht
  · intro branches hbranches b e d hd
    have hmiddle : d / 2 / (d / 2) = 1 := div_self (by linarith)
    rw [hmiddle]
    simp only [List.mem_cons, List.not_mem_nil, or_false] at hbranches
    rcases hbranches with rfl | rfl | rfl | rfl
    · exact Branches.agree quad_first quad_second _ _
    · exact Branches.agree cubic_first cubic_second _ _
    · exact Branches.agree quart_first quart_second _ _
    · exact Branches.agree quint_first quint_second _ _

theorem polynomialEasings_ease_example : Eases (fun t => easeInOutQuint t 10 (-6) 2) 10 (-6) 2 ∧
    quart.first (-6 - 10) 10 ((2 : ℚ) / 2 / (2 / 2)) = quart.second (-6 - 10) 10 ((2 : ℚ) / 2 / (2 / 2)) :=
  ⟨polynomialEasings_ease.1 _ (by simp [polynomialEasings]) 10 (-6) 2 (by norm_num),
    polynomialEasings_ease.2 quart (by simp) 10 (-6) 2 (by norm_num)⟩

end HueStream.Animations.HueMath
