import Mathlib.Order.Lattice
import Mathlib.Data.List.Chain

/-! # Tilings

A list of half-open intervals of which each one ends where the next one starts. A point between the first start and
the last end lies in exactly one of them. -/

namespace HueStream.Lib

variable {α β : Type} [LinearOrder β] {start finish : α → β} {a : α} {l : List α} {p : β}

/-- Each interval ends where the next one starts; an interval may be empty. -/
structure Tiles (start finish : α → β) (l : List α) : Prop where
  start_le : ∀ a ∈ l, start a ≤ finish a
  chain : l.IsChain fun a b => finish a = start b

theorem Tiles.tail (h : Tiles start finish (a :: l)) : Tiles start finish l :=
  ⟨fun b hb => h.start_le b (List.mem_cons_of_mem a hb), h.chain.tail⟩

/-- All later intervals start at the end of the first one or after it. -/
theorem Tiles.le_start (h : Tiles start finish (a :: l)) : ∀ b ∈ l, finish a ≤ start b := by
  induction l generalizing a with
  | nil => simp
  | cons b l ih =>
    have hab : finish a = start b := (List.isChain_cons_cons.mp h.chain).1
    intro c hc
    rcases List.mem_cons.mp hc with rfl | hc
    · exact hab.le
    · exact (hab.le.trans (h.start_le b (by simp))).trans (ih h.tail c hc)

/-- A point lies in one of the intervals, which starts behind those before it and ends before those behind it. -/
theorem Tiles.exists_split (h : Tiles start finish l) {first last : α} (hfirst : l.head? = some first)
    (hlast : l.getLast? = some last) (hp : start first ≤ p) (hp' : p < finish last) :
    ∃ before a after, l = before ++ a :: after ∧ start a ≤ p ∧ p < finish a ∧
      (∀ b ∈ before, finish b ≤ start a) ∧ ∀ b ∈ after, finish a ≤ start b := by
  induction l generalizing first with
  | nil => simp at hfirst
  | cons a l ih =>
    obtain rfl : a = first := Option.some.inj hfirst
    by_cases ha : p < finish a
    · exact ⟨[], a, l, rfl, hp, ha, by simp, h.le_start⟩
    · cases l with
      | nil =>
        obtain rfl : a = last := Option.some.inj hlast
        exact absurd hp' ha
      | cons b l =>
        have hab : finish a = start b := (List.isChain_cons_cons.mp h.chain).1
        have hb : start b ≤ p := hab ▸ not_lt.mp ha
        obtain ⟨before, c, after, hsplit, hc, hc', hbefore, hafter⟩ := ih h.tail rfl hlast hb
        refine ⟨a :: before, c, after, by rw [hsplit, List.cons_append], hc, hc', fun d hd => ?_, hafter⟩
        rcases List.mem_cons.mp hd with rfl | hd
        · exact h.le_start c (by rw [hsplit]; simp)
        · exact hbefore d hd

end HueStream.Lib
