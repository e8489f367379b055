import Mathlib.Algebra.Order.Field.Basic
import Mathlib.Tactic.Linarith
import Mathlib.Tactic.Ring

/-! # Compositing

A layer has a value and an opacity. Put over what lies below it, it shows its own value as far as it is
opaque and what is below as far as it is not; a stack of layers is composited from the top down. -/

namespace HueStream.Lib

variable {K : Type*} [Field K]

structure Layer (K : Type*) where
  value : K
  alpha : K

/-- A layer over what lies below it. -/
def Layer.over (layer : Layer K) (below : K) : K :=
  layer.alpha * layer.value + (1 - layer.alpha) * below

/-- A stack of layers, the top one first, over a background. -/
def composite (layers : List (Layer K)) (background : K) : K := layers.foldr Layer.over background

variable {layer : Layer K} {layers layers' : List (Layer K)} {background : K}

theorem composite_append : composite (layers ++ layers') background =
    composite layers (composite layers' background) :=
  List.foldr_append ..

theorem Layer.over_of_transparent (h : layer.alpha = 0) (below : K) : layer.over below = below := by
  unfold Layer.over
  rw [h]
  ring

theorem Layer.over_of_opaque (h : layer.alpha = 1) (below : K) : layer.over below = layer.value := by
  unfold Layer.over
  rw [h]
  ring

/-- A transparent layer changes nothing, wherever it is. -/
theorem composite_of_transparent (h : layer.alpha = 0) :
    composite (layers ++ layer :: layers') background = composite (layers ++ layers') background := by
  rw [composite_append, composite_append]
  exact congrArg (composite layers) (layer.over_of_transparent h _)

/-- Nothing below an opaque layer is seen. -/
theorem composite_of_opaque (h : layer.alpha = 1) : composite (layers ++ layer :: layers') background =
    composite layers layer.value := by
  rw [composite_append]
  exact congrArg (composite layers) (layer.over_of_opaque h _)

/-! ### Bounds -/

variable [LinearOrder K] [IsStrictOrderedRing K] {a b : K}

/-- A layer over a value of an interval stays in it when its own value does. -/
theorem Layer.over_mem_Icc (hvalue : layer.value ∈ Set.Icc a b) (halpha : layer.alpha ∈ Set.Icc 0 1)
    {below : K} (hbelow : below ∈ Set.Icc a b) : layer.over below ∈ Set.Icc a b := by
  obtain ⟨hvalue₀, hvalue₁⟩ := hvalue
  obtain ⟨hbelow₀, hbelow₁⟩ := hbelow
  have halpha₀ : 0 ≤ layer.alpha := halpha.1
  have hrest : 0 ≤ 1 - layer.alpha := sub_nonneg.mpr halpha.2
  unfold Layer.over
  constructor
  · have h₁ : layer.alpha * a ≤ layer.alpha * layer.value := mul_le_mul_of_nonneg_left hvalue₀ halpha₀
    have h₂ : (1 - layer.alpha) * a ≤ (1 - layer.alpha) * below :=
      mul_le_mul_of_nonneg_left hbelow₀ hrest
    linarith
  · have h₁ : layer.alpha * layer.value ≤ layer.alpha * b := mul_le_mul_of_nonneg_left hvalue₁ halpha₀
    have h₂ : (1 - layer.alpha) * below ≤ (1 - layer.alpha) * b :=
      mul_le_mul_of_nonneg_left hbelow₁ hrest
    linarith

theorem composite_mem_Icc (hlayers : ∀ layer ∈ layers, layer.value ∈ Set.Icc a b ∧
      layer.alpha ∈ Set.Icc 0 1) (hbackground : background ∈ Set.Icc a b) :
    composite layers background ∈ Set.Icc a b := by
  induction layers with
  | nil => exact hbackground
  | cons layer layers ih =>
    obtain ⟨hvalue, halpha⟩ := hlayers layer (by simp)
    have hbelow := ih fun layer hmem => hlayers layer (by simp [hmem])
    exact layer.over_mem_Icc hvalue halpha hbelow

end HueStream.Lib
