import Mathlib.Data.List.Nodup
import Mathlib.Order.Defs.LinearOrder
import Mathlib.Tactic

/-! # Closest pairs

A loop that looks for the smallest key keeps the first of the elements with it. A greedy pairing takes the closest pair
of what is free on both sides, and when nothing is free on one side it starts again with all of that side.

* `closest_spec`: the loop finds an element with the smallest key.
* `Pairing.balanced`: how often the elements that are used again are taken. -/

namespace HueStream.Lib

variable {α β K : Type} [LinearOrder K]

/-! ### The smallest key -/

/-- The loop over the rest `l`, from the index `i` on: `best` is the index of the element found so far. -/
def closestFrom (key : α → K) : List α → ℕ → ℕ → K → ℕ
  | [], _, best, _ => best
  | a :: l, i, best, smallest =>
    if key a < smallest then closestFrom key l (i + 1) i (key a) else closestFrom key l (i + 1) best smallest

/-- The index of the first element with the smallest key, where keys from `bound` on count as none. -/
def closest (key : α → K) (bound : K) (l : List α) : ℕ := closestFrom key l 0 0 bound

theorem closestFrom_spec (key : α → K) (l : List α) (i best : ℕ) (smallest : K) :
    (closestFrom key l i best smallest = best ∧ ∀ b ∈ l, smallest ≤ key b) ∨
      ∃ j a, l[j]? = some a ∧ closestFrom key l i best smallest = i + j ∧ key a < smallest ∧ ∀ b ∈ l, key a ≤ key b := by
  induction l generalizing i best smallest with
  | nil => exact .inl ⟨rfl, by simp⟩
  | cons a l ih =>
    rw [closestFrom]
    split_ifs with hlt
    · right
      rcases ih (i + 1) i (key a) with ⟨hfound, hle⟩ | ⟨j, b, hb, hfound, hless, hle⟩
      · refine ⟨0, a, rfl, hfound, hlt, fun b hb => ?_⟩
        rcases List.mem_cons.mp hb with rfl | hb
        · exact le_rfl
        · exact hle b hb
      · refine ⟨j + 1, b, hb, by rw [hfound]; omega, hless.trans hlt, fun c hc => ?_⟩
        rcases List.mem_cons.mp hc with rfl | hc
        · exact hless.le
        · exact hle c hc
    · rcases ih (i + 1) best smallest with ⟨hfound, hle⟩ | ⟨j, b, hb, hfound, hless, hle⟩
      · refine .inl ⟨hfound, fun b hb => ?_⟩
        rcases List.mem_cons.mp hb with rfl | hb
        · exact not_lt.mp hlt
        · exact hle b hb
      · refine .inr ⟨j + 1, b, hb, by rw [hfound]; omega, hless, fun c hc => ?_⟩
        rcases List.mem_cons.mp hc with rfl | hc
        · exact hless.le.trans (not_lt.mp hlt)
        · exact hle c hc

/-- In a list with elements the loop finds one with the smallest key. -/
theorem closest_spec {key : α → K} {bound : K} {l : List α} (hne : l ≠ []) (hbound : ∀ a ∈ l, key a ≤ bound) :
    ∃ a, l[closest key bound l]? = some a ∧ ∀ b ∈ l, key a ≤ key b := by
  rcases closestFrom_spec key l 0 0 bound with ⟨hfound, hle⟩ | ⟨j, a, ha, hfound, -, hle⟩
  · obtain ⟨a, rest, rfl⟩ := List.exists_cons_of_ne_nil hne
    refine ⟨a, by rw [closest, hfound]; rfl, fun b hb => ?_⟩
    exact (hbound a (by simp)).trans (hle b hb)
  · exact ⟨a, by rw [closest, hfound, Nat.zero_add]; exact ha, hle⟩

/-! ### Pairing -/

/-- The pairs that are taken while there are elements on the right side. Each is the closest one of what is free. When
nothing is free on the left side, all of `again` is. -/
inductive Pairing (distance : α → β → K) (again : List α) : List α → List β → List (α × β) → Prop
  | done {free : List α} : Pairing distance again free [] []
  | refill {free : List β} {picks : List (α × β)} (hne : free ≠ []) (h : Pairing distance again again free picks) :
      Pairing distance again [] free picks
  | pick {before after : List α} {before' after' : List β} {a : α} {b : β} {picks : List (α × β)}
      (hclosest : ∀ a' ∈ before ++ a :: after, ∀ b' ∈ before' ++ b :: after', distance a b ≤ distance a' b')
      (h : Pairing distance again (before ++ after) (before' ++ after') picks) :
      Pairing distance again (before ++ a :: after) (before' ++ b :: after') ((a, b) :: picks)

variable {distance : α → β → K} {again free : List α} {right : List β} {picks : List (α × β)}

/-- Every element of the right side is taken once. -/
theorem Pairing.perm (h : Pairing distance again free right picks) : (picks.map Prod.snd).Perm right := by
  induction h with
  | done => exact .refl _
  | refill _ _ ih => exact ih
  | pick _ _ ih =>
    rw [List.map_cons]
    exact (ih.cons _).trans List.perm_middle.symm

theorem Pairing.eq_nil (h : Pairing distance again free [] picks) : picks = [] :=
  List.map_eq_nil_iff.mp h.perm.eq_nil

/-- With nothing free the pairing starts with everything. -/
theorem Pairing.of_refill (h : Pairing distance again [] right picks) : Pairing distance again again right picks := by
  generalize hfree : ([] : List α) = free at h
  cases h with
  | done => exact .done
  | refill _ h => exact h
  | pick => simp at hfree

theorem Pairing.mem (h : Pairing distance again free right picks) (hfree : ∀ a ∈ free, a ∈ again) :
    ∀ pair ∈ picks, pair.1 ∈ again := by
  induction h with
  | done => simp
  | refill _ _ ih => exact ih fun a ha => ha
  | pick _ _ ih =>
    intro pair hpair
    rcases List.mem_cons.mp hpair with rfl | hpair
    · exact hfree _ (by simp)
    · exact ih (fun a ha => hfree a (by simp at ha ⊢; tauto)) pair hpair

/-- **What is used again is used evenly**: with what is not free any more, each element is taken `k` or `k + 1` times for
each time that it is there. -/
theorem Pairing.balanced [DecidableEq α] (h : Pairing distance again free right picks)
    (hfree : ∀ a, free.count a ≤ again.count a) :
    ∃ k, ∀ a, k * again.count a ≤ again.count a - free.count a + (picks.map Prod.fst).count a ∧
      again.count a - free.count a + (picks.map Prod.fst).count a ≤ (k + 1) * again.count a := by
  induction h with
  | done => exact ⟨0, fun a => by simp⟩
  | refill _ _ ih =>
    obtain ⟨k, hk⟩ := ih fun a => le_rfl
    refine ⟨k + 1, fun a => ?_⟩
    obtain ⟨hle, hle'⟩ := hk a
    rw [Nat.sub_self, Nat.zero_add] at hle hle'
    rw [List.count_nil, Nat.sub_zero, Nat.add_mul, Nat.add_mul (k + 1)]
    omega
  | @pick before after _ _ a b picks _ _ ih =>
    have hcount : ∀ a', (before ++ a :: after).count a' = (before ++ after).count a' + [a].count a' := fun a' => by
      rw [List.perm_middle.count_eq, List.count_cons, List.count_singleton]
    obtain ⟨k, hk⟩ := ih fun a' => (Nat.le_add_right _ _).trans ((hcount a').symm.trans_le (hfree a'))
    refine ⟨k, fun a' => ?_⟩
    have hused := hfree a'
    have hpick : (((a, b) :: picks).map Prod.fst).count a' = (picks.map Prod.fst).count a' + [a].count a' := by
      rw [List.map_cons, List.count_cons, List.count_singleton]
    rw [hcount a'] at hused ⊢
    rw [hpick]
    obtain ⟨hle, hle'⟩ := hk a'
    omega

end HueStream.Lib
