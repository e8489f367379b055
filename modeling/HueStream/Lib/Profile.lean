import Mathlib.Algebra.Order.Field.Basic
import Mathlib.Order.Interval.Set.UnorderedInterval
import Mathlib.Tactic.Linarith
import Mathlib.Tactic.Ring

/-! # Profiles of easings

A profile rises from 0 to 1 on the unit interval. Powers are profiles (`Profile.pow`); a profile that is run
backwards gives another one (`Profile.reverse`), and so does a profile that is followed by itself run backwards,
each of them in half of the interval (`Profile.both`). Between two values, a profile stays between them and
goes from the one to the other in one direction (`Profile.eases`). -/

namespace HueStream.Lib

variable {K : Type*} [Field K] [LinearOrder K] [IsStrictOrderedRing K] {p : K → K} {f : K → K} {b e d : K}

structure Profile (p : K → K) : Prop where
  zero : p 0 = 0
  one : p 1 = 1
  rises : ∀ x y, 0 ≤ x → x ≤ y → y ≤ 1 → p x ≤ p y

namespace Profile

omit [IsStrictOrderedRing K] in
theorem le_one (h : Profile p) {x : K} (hx : 0 ≤ x) (hx' : x ≤ 1) : p x ≤ 1 := by
  have hle := h.rises x 1 hx hx' le_rfl
  rwa [h.one] at hle

theorem pow {n : ℕ} (hn : n ≠ 0) : Profile fun x : K => x ^ n :=
  ⟨zero_pow hn, one_pow n, fun _ _ hx hxy _ => pow_le_pow_left₀ hx hxy n⟩

theorem reverse (h : Profile p) : Profile fun x => 1 - p (1 - x) := by
  refine ⟨?_, ?_, fun x y hx hxy hy => ?_⟩
  · rw [sub_zero, h.one, sub_self]
  · rw [sub_self, h.zero, sub_zero]
  · have hle := h.rises (1 - y) (1 - x) (by linarith) (by linarith) (by linarith)
    linarith

theorem both (h : Profile p) : Profile fun x => if 2 * x < 1 then p (2 * x) / 2 else 1 - p (2 - 2 * x) / 2 := by
  refine ⟨?_, ?_, fun x y hx hxy hy => ?_⟩
  · have hlt : 2 * (0 : K) < 1 := by linarith
    rw [if_pos hlt, mul_zero, h.zero, zero_div]
  · have hlt : ¬ 2 * (1 : K) < 1 := by linarith
    rw [if_neg hlt, mul_one, sub_self, h.zero, zero_div, sub_zero]
  · split_ifs with hbelow hbelow' hbelow'
    · have hle := h.rises (2 * x) (2 * y) (by linarith) (by linarith) (by linarith)
      linarith
    · have hfirst : p (2 * x) ≤ 1 := h.le_one (by linarith) (by linarith)
      have hsecond : p (2 - 2 * y) ≤ 1 := h.le_one (by linarith) (by linarith)
      linarith
    · linarith
    · have hle := h.rises (2 - 2 * y) (2 - 2 * x) (by linarith) (by linarith) (by linarith)
      linarith

end Profile

/-- From `b` to `e` in the time `d`: it goes in one direction, never leaves the values between them, and stays at
the end. -/
structure Eases (f : K → K) (b e d : K) : Prop where
  start : f 0 = b
  finish : f d = e
  after : ∀ t, d < t → f t = e
  rises : b ≤ e → ∀ s t, 0 ≤ s → s ≤ t → t ≤ d → f s ≤ f t
  falls : e ≤ b → ∀ s t, 0 ≤ s → s ≤ t → t ≤ d → f t ≤ f s
  between : ∀ t, 0 ≤ t → t ≤ d → f t ∈ Set.uIcc b e

theorem Profile.eases (h : Profile p) (hd : 0 < d) (hf : ∀ t, t ≤ d → f t = (e - b) * p (t / d) + b)
    (hafter : ∀ t, d < t → f t = e) : Eases f b e d := by
  have hstart : f 0 = b := by rw [hf 0 hd.le, zero_div, h.zero, mul_zero, zero_add]
  have hfinish : f d = e := by rw [hf d le_rfl, div_self hd.ne', h.one, mul_one, sub_add_cancel]
  have hprofile : ∀ s t, 0 ≤ s → s ≤ t → t ≤ d → p (s / d) ≤ p (t / d) := by
    intro s t hs hst ht
    exact h.rises _ _ (div_nonneg hs hd.le) (div_le_div_of_nonneg_right hst hd.le) ((div_le_one hd).mpr ht)
  have hrises : b ≤ e → ∀ s t, 0 ≤ s → s ≤ t → t ≤ d → f s ≤ f t := by
    intro hbe s t hs hst ht
    have hmul := mul_le_mul_of_nonneg_left (hprofile s t hs hst ht) (sub_nonneg.mpr hbe)
    rw [hf s (hst.trans ht), hf t ht]
    linarith
  have hfalls : e ≤ b → ∀ s t, 0 ≤ s → s ≤ t → t ≤ d → f t ≤ f s := by
    intro hbe s t hs hst ht
    have hmul := mul_le_mul_of_nonpos_left (hprofile s t hs hst ht) (sub_nonpos.mpr hbe)
    rw [hf s (hst.trans ht), hf t ht]
    linarith
  refine ⟨hstart, hfinish, hafter, hrises, hfalls, fun t ht htd => ?_⟩
  rcases le_total b e with hbe | hbe
  · have hlow := hrises hbe 0 t le_rfl ht htd
    have hhigh := hrises hbe t d ht htd le_rfl
    rw [Set.uIcc_of_le hbe]
    exact ⟨hstart ▸ hlow, hfinish ▸ hhigh⟩
  · have hhigh := hfalls hbe 0 t le_rfl ht htd
    have hlow := hfalls hbe t d ht htd le_rfl
    rw [Set.uIcc_of_ge hbe]
    exact ⟨hfinish ▸ hlow, hstart ▸ hhigh⟩

end HueStream.Lib
