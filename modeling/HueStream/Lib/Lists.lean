import Mathlib.Algebra.GroupWithZero.Nat
import Mathlib.Data.List.Dedup
import Mathlib.Data.List.Induction
import Mathlib.Data.List.Nodup
import Mathlib.Data.List.Perm.Subperm
import Mathlib.Tactic.Ring

/-! # Lists that change in one place or block by block

A list is split at one of its elements (`split_concat`, `split_of_any`); an entry is the only one that is not
mapped to none (`filterMap_eq_toList`); an entry is set (`exists_set`, `countP_set_add`, `sum_map_set_add`,
`perm_filterMap_set`) or removed (`count_erase_add`, `countP_eraseP`, `eraseIdx_eq_filter_iff`).
`mapBlocks size f k l` is what `f` makes of the first `k` blocks of `size` elements of `l`: where `f` keeps the
length of a block and `g` undoes it, working with `g` undoes working with `f` (`mapBlocks_mapBlocks`). -/

namespace HueStream.Lib

variable {α : Type*} {l : List α} {a : α} {i n : ℕ}

/-- A split at an element after which there may be more: at the last one, or before it. -/
theorem split_concat {us vs : List α} {x : α} (h : l ++ [x] = us ++ a :: vs) :
    (us = l ∧ a = x ∧ vs = []) ∨ ∃ ws, vs = ws ++ [x] ∧ l = us ++ a :: ws := by
  rcases vs.eq_nil_or_concat' with rfl | ⟨ws, y, rfl⟩
  · obtain ⟨hl, hx⟩ := List.append_inj' h rfl
    exact .inl ⟨hl.symm, (List.singleton_injective hx).symm, rfl⟩
  · rw [← List.cons_append, ← List.append_assoc] at h
    obtain ⟨hl, hx⟩ := List.append_inj' h rfl
    obtain rfl := List.singleton_injective hx
    exact .inr ⟨ws, rfl, hl⟩

/-- A list at an index whose element is tested. -/
theorem split_of_any {p : α → Bool} (h : l[i]?.any p = true) :
    ∃ b, l = l.take i ++ b :: l.drop (i + 1) ∧ p b = true := by
  obtain ⟨b, hb, hp⟩ := (Option.any_eq_true _ _).mp h
  obtain ⟨hi, rfl⟩ := List.getElem?_eq_some_iff.mp hb
  refine ⟨l[i], ?_, hp⟩
  rw [← List.drop_eq_getElem_cons hi, List.take_append_drop]

/-- A list in which one entry at most is not mapped to none. -/
theorem filterMap_eq_toList {β : Type*} {f : α → Option β}
    (h : ∀ j b, l[j]? = some b → j ≠ i → f b = none) : l.filterMap f = (l[i]?.bind f).toList := by
  induction l generalizing i with
  | nil => rfl
  | cons c l ih =>
    cases i with
    | zero =>
      have hrest : l.filterMap f = [] := by
        refine List.filterMap_eq_nil_iff.mpr fun b hb => ?_
        obtain ⟨j, hj⟩ := List.getElem?_of_mem hb
        exact h (j + 1) b hj (Nat.succ_ne_zero j)
      cases hc : f c <;> simp [hc, hrest]
    | succ i =>
      have hc : f c = none := h 0 c rfl (Nat.zero_ne_add_one i)
      have hrest := ih (i := i) fun j b hj hne => h (j + 1) b hj (by omega)
      simp [hc, hrest]

theorem exists_set (h : l[i]? = some a) :
    ∃ pre post, l = pre ++ a :: post ∧ ∀ b, l.set i b = pre ++ b :: post := by
  induction l generalizing i with
  | nil => simp at h
  | cons c l ih =>
    cases i with
    | zero =>
      obtain rfl : c = a := by simpa using h
      exact ⟨[], l, rfl, fun _ => rfl⟩
    | succ i =>
      obtain ⟨pre, post, rfl, hset⟩ := ih h
      exact ⟨c :: pre, post, rfl, fun b => by rw [List.set_cons_succ, hset]; rfl⟩

theorem countP_set_add (p : α → Bool) (h : l[i]? = some a) (b : α) :
    (l.set i b).countP p + (if p a then 1 else 0) = l.countP p + if p b then 1 else 0 := by
  obtain ⟨pre, post, rfl, hset⟩ := exists_set h
  rw [hset]
  simp only [List.countP_append, List.countP_cons]
  omega

theorem sum_map_set_add (f : α → ℕ) (h : l[i]? = some a) (b : α) :
    ((l.set i b).map f).sum + f a = (l.map f).sum + f b := by
  obtain ⟨pre, post, rfl, hset⟩ := exists_set h
  rw [hset]
  simp only [List.map_append, List.map_cons, List.sum_append, List.sum_cons]
  omega

/-- The entries some function has a value at, with one more on each side. -/
theorem perm_filterMap_set {β : Type*} (f : α → Option β) (h : l[i]? = some a) (b : α) :
    ((f a).toList ++ (l.set i b).filterMap f).Perm ((f b).toList ++ l.filterMap f) := by
  obtain ⟨pre, post, rfl, hset⟩ := exists_set h
  have hcons (c : α) : (pre ++ c :: post).filterMap f =
      pre.filterMap f ++ ((f c).toList ++ post.filterMap f) := by
    rw [List.filterMap_append]
    cases hc : f c <;> simp [hc]
  rw [hset, hcons, hcons]
  have hswap : ((f a).toList ++ ((f b).toList ++ post.filterMap f)).Perm
      ((f b).toList ++ ((f a).toList ++ post.filterMap f)) := List.perm_append_comm_assoc _ _ _
  refine (List.perm_append_comm_assoc _ _ _).trans ((hswap.append_left _).trans ?_)
  exact List.perm_append_comm_assoc _ _ _

theorem countP_eraseP (p : α → Bool) (l : List α) : (l.eraseP p).countP p = l.countP p - 1 := by
  induction l with
  | nil => rfl
  | cons a l ih =>
    by_cases ha : p a = true
    · rw [List.eraseP_cons_of_pos ha, List.countP_cons_of_pos ha, Nat.add_sub_cancel]
    · rw [List.eraseP_cons_of_neg ha, List.countP_cons_of_neg ha, List.countP_cons_of_neg ha, ih]

/-- Erasing one element that matches erases all that match just when it is the only one. -/
theorem eraseIdx_eq_filter_iff {p : α → Bool} (h : l[i]? = some a) (ha : p a = true) :
    l.eraseIdx i = l.filter (fun b => !p b) ↔ l.countP p ≤ 1 := by
  induction l generalizing i with
  | nil => simp at h
  | cons c l ih =>
    cases i with
    | zero =>
      obtain rfl : c = a := by simpa using h
      rw [List.eraseIdx_cons_zero, List.filter_cons_of_neg (by simp [ha]), List.countP_cons_of_pos ha, eq_comm,
        List.filter_eq_self]
      have hnone : l.countP p + 1 ≤ 1 ↔ l.countP p = 0 := by omega
      rw [hnone, List.countP_eq_zero]
      simp
    | succ i =>
      rw [List.getElem?_cons_succ] at h
      rw [List.eraseIdx_cons_succ]
      by_cases hc : p c = true
      · have hpos : 0 < l.countP p := List.countP_pos_iff.mpr ⟨a, List.mem_of_getElem? h, ha⟩
        rw [List.filter_cons_of_neg (by simp [hc]), List.countP_cons_of_pos hc]
        refine iff_of_false (fun heq => ?_) (by omega)
        have hmem : c ∈ l.filter fun b => !p b := by
          rw [← heq]
          simp
        simp [hc] at hmem
      · rw [List.filter_cons_of_pos (by simp [hc]), List.countP_cons_of_neg hc, List.cons_inj_right, ih h]

/-- Numbers below a bound without repetitions. -/
theorem length_le_of_lt {l : List ℕ} (hnodup : l.Nodup) (h : ∀ i ∈ l, i < n) : l.length ≤ n := by
  have hperm : List.Subperm l (List.range n) := List.subperm_of_subset hnodup fun i hi => by simpa using h i hi
  simpa using hperm.length_le

/-! ### Block by block -/

section Blocks

variable {size k : ℕ} {f g : List α → List α}

/-- `f` on each of the first `k` blocks. -/
def mapBlocks (size : ℕ) (f : List α → List α) : ℕ → List α → List α
  | 0, _ => []
  | k + 1, l => f (l.take size) ++ mapBlocks size f k (l.drop size)

@[simp] theorem mapBlocks_zero : mapBlocks size f 0 l = [] := rfl

theorem mapBlocks_succ :
    mapBlocks size f (k + 1) l = f (l.take size) ++ mapBlocks size f k (l.drop size) := rfl

theorem length_mapBlocks (hf : ∀ b : List α, b.length = size → (f b).length = size)
    (h : l.length = k * size) : (mapBlocks size f k l).length = k * size := by
  induction k generalizing l with
  | zero => simp
  | succ k ih =>
    have hsplit : (k + 1) * size = size + k * size := by ring
    have hfirst : (l.take size).length = size := by
      rw [List.length_take]
      omega
    have hrest : (l.drop size).length = k * size := by
      rw [List.length_drop]
      omega
    rw [mapBlocks_succ, List.length_append, hf _ hfirst, ih hrest, hsplit]

/-- What is undone on every block is undone on the whole. -/
theorem mapBlocks_mapBlocks (hf : ∀ b : List α, b.length = size → (f b).length = size)
    (hgf : ∀ b : List α, b.length = size → g (f b) = b) (h : l.length = k * size) :
    mapBlocks size g k (mapBlocks size f k l) = l := by
  induction k generalizing l with
  | zero =>
    obtain rfl : l = [] := List.eq_nil_of_length_eq_zero (by omega)
    rfl
  | succ k ih =>
    have hsplit : (k + 1) * size = size + k * size := by ring
    have hfirst : (l.take size).length = size := by
      rw [List.length_take]
      omega
    have hrest : (l.drop size).length = k * size := by
      rw [List.length_drop]
      omega
    have hblock : (f (l.take size)).length = size := hf _ hfirst
    rw [mapBlocks_succ, mapBlocks_succ, List.take_append_of_le_length hblock.ge,
      List.take_of_length_le hblock.le, List.drop_append_of_le_length hblock.ge,
      List.drop_of_length_le hblock.le, List.nil_append, hgf _ hfirst, ih hrest,
      List.take_append_drop]

end Blocks

variable [DecidableEq α]

theorem count_erase_add (h : a ∈ l) (b : α) :
    (l.erase a).count b + (if b = a then 1 else 0) = l.count b := by
  rcases eq_or_ne b a with rfl | hne
  · have hpos := List.count_pos_iff.mpr h
    rw [List.count_erase_self, if_pos rfl]
    omega
  · rw [List.count_erase_of_ne hne, if_neg hne, Nat.add_zero]

theorem dedup_concat (l : List α) (x : α) : (l ++ [x]).dedup = l.dedup.filter (· ≠ x) ++ [x] := by
  induction l with
  | nil => simp
  | cons a l ih =>
    rw [List.cons_append, List.dedup_cons, List.dedup_cons, ih]
    by_cases hal : a ∈ l
    · simp [hal]
    · by_cases hax : a = x
      · subst hax
        simp [hal]
      · simp [hal, hax]

end HueStream.Lib

/-! ### Properties of histories

A history is a list, the oldest entry first. `Always P l` says that every entry of `l` is in order
given the entries before it; it is kept up by appending one entry at a time (`always_concat`), or a
stretch of entries that are all in order wherever they come (`Always.append`). In a history without
repetitions the order of two entries is that in any part that has them both (`pair_sublist_part`). -/

namespace HueStream.Lib

variable {α : Type*} {P Q : List α → α → Prop} {l m : List α} {x : α}

/-- Every entry of the history satisfies `P` of the entries before it. -/
def Always (P : List α → α → Prop) (l : List α) : Prop :=
  ∀ before x, before ++ [x] <+: l → P before x

@[simp] theorem always_nil : Always P [] := fun before x h => by simp at h

@[simp] theorem always_concat : Always P (l ++ [x]) ↔ Always P l ∧ P l x := by
  refine ⟨fun h => ⟨fun before y hy => h before y (hy.trans (List.prefix_append _ _)),
    h l x List.prefix_rfl⟩, fun ⟨h, hx⟩ before y hy => ?_⟩
  rcases List.prefix_concat_iff.mp hy with heq | hy
  · obtain ⟨rfl, rfl⟩ := by simpa using heq
    exact hx
  · exact h before y hy

/-- A stretch of entries may be appended when they are in order after any part of it. -/
theorem Always.append (h : Always P l) (hm : ∀ m₁ x m₂, m = m₁ ++ x :: m₂ → P (l ++ m₁) x) :
    Always P (l ++ m) := by
  induction m using List.reverseRecOn with
  | nil => simpa using h
  | append_singleton m x ih =>
    rw [← List.append_assoc, always_concat]
    refine ⟨ih fun m₁ y m₂ hy => hm m₁ y (m₂ ++ [x]) (by simp [hy]), hm m x [] rfl⟩

theorem Always.last (h : Always P l) (hx : l.getLast? = some x) : P l.dropLast x := by
  refine h _ x ?_
  rw [List.getLast?_eq_some_iff] at hx
  obtain ⟨l', rfl⟩ := hx
  simp

theorem Always.prefix (h : Always P l) (hm : m <+: l) : Always P m :=
  fun before x hx => h before x (hx.trans hm)

/-- Two elements of a list stand in it in one order or the other. -/
theorem pair_sublist_or {a b : α} (hne : a ≠ b) (ha : a ∈ l) (hb : b ∈ l) :
    [a, b].Sublist l ∨ [b, a].Sublist l := by
  obtain ⟨before, after, rfl⟩ := List.append_of_mem ha
  rcases List.mem_append.mp hb with hbefore | hafter
  · right
    exact (List.singleton_sublist.mpr hbefore).append
      (List.singleton_sublist.mpr (List.mem_cons_self))
  · left
    have hb' := List.mem_of_ne_of_mem hne.symm hafter
    exact ((List.singleton_sublist.mpr hb').cons_cons a).trans (List.sublist_append_right _ _)

/-- In a list without repetitions two elements are in the order that they have in a part of it. -/
theorem pair_sublist_part {a b : α} (hm : m.Sublist l) (hnodup : l.Nodup)
    (hpair : [a, b].Sublist l) (ha : a ∈ m) (hb : b ∈ m) : [a, b].Sublist m := by
  induction hm with
  | slnil => simp at ha
  | @cons m l x hm ih =>
    rw [List.nodup_cons] at hnodup
    cases hpair with
    | cons _ hpair => exact ih hnodup.2 hpair ha hb
    | cons_cons => exact absurd (hm.subset ha) hnodup.1
  | @cons_cons m l x hm ih =>
    rw [List.nodup_cons] at hnodup
    cases hpair with
    | cons _ hpair =>
      have hne : ∀ y ∈ [a, b], y ≠ x := by
        rintro y hy rfl
        exact hnodup.1 (hpair.subset hy)
      have ha' := List.mem_of_ne_of_mem (hne a (by simp)) ha
      have hb' := List.mem_of_ne_of_mem (hne b (by simp)) hb
      exact (ih hnodup.2 hpair ha' hb').cons x
    | cons_cons _ hpair =>
      have hne : b ≠ a := by
        rintro rfl
        exact hnodup.1 (hpair.subset (List.mem_singleton_self b))
      exact (List.singleton_sublist.mpr (List.mem_of_ne_of_mem hne hb)).cons_cons a

end HueStream.Lib
