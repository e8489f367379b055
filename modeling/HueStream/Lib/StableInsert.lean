import Mathlib.Data.List.Basic
import Mathlib.Data.List.Pairwise
import Mathlib.Order.Lattice

/-! # Stable insertion

`stableInsert key a l` puts `a` before the first element of `l` with a greater key. In a list sorted by
key this keeps the list sorted, and among the elements of one key the new one comes last: a list built
by such insertions is sorted, and the elements of each key are in the order of their insertion. A sort
that need not be stable is bound to one result exactly when the keys differ (`sorts_only_to_iff`).

A sort that is given a comparison asks for a strict weak order on the elements of its list (`StrictWeakOn`). It
then gives a permutation in which no element is less than one before it (`Sorts`). A comparison by a key is such
an order, and sorts by the key. -/

namespace HueStream.Lib

variable {α κ : Type*} [LinearOrder κ] {key : α → κ} {a b : α} {l l' : List α}

/-- `a` before the first element with a greater key, or at the end. -/
def stableInsert (key : α → κ) (a : α) (l : List α) : List α :=
  l.insertIdx (l.findIdx fun b => decide (key a < key b)) a

/-- The list is sorted by key. -/
def SortedBy (key : α → κ) (l : List α) : Prop := l.Pairwise fun a b => key a ≤ key b

instance (key : α → κ) : DecidablePred (SortedBy key) := fun l =>
  inferInstanceAs (Decidable (l.Pairwise _))

@[simp] theorem stableInsert_nil : stableInsert key a [] = [a] := rfl

theorem stableInsert_cons :
    stableInsert key a (b :: l) = if key a < key b then a :: b :: l else b :: stableInsert key a l := by
  unfold stableInsert
  rw [List.findIdx_cons]
  by_cases h : key a < key b
  · simp [h]
  · simp [h]

theorem stableInsert_perm : (stableInsert key a l).Perm (a :: l) :=
  List.perm_insertIdx _ _ List.findIdx_le_length

theorem mem_stableInsert : b ∈ stableInsert key a l ↔ b = a ∨ b ∈ l := by
  rw [stableInsert_perm.mem_iff, List.mem_cons]

/-- The split of the list at the place of the new element. -/
theorem stableInsert_eq (key : α → κ) (a : α) (l : List α) : ∃ l₁ l₂, l = l₁ ++ l₂ ∧
    stableInsert key a l = l₁ ++ a :: l₂ ∧ (∀ b ∈ l₁, key b ≤ key a) ∧ ∀ b, l₂.head? = some b → key a < key b := by
  induction l with
  | nil => exact ⟨[], [], rfl, rfl, by simp, by simp⟩
  | cons c l ih =>
    rw [stableInsert_cons]
    by_cases h : key a < key c
    · refine ⟨[], c :: l, rfl, by rw [if_pos h]; rfl, by simp, fun b hb => ?_⟩
      obtain rfl := Option.some.inj hb
      exact h
    · obtain ⟨l₁, l₂, rfl, heq, hle, hlt⟩ := ih
      refine ⟨c :: l₁, l₂, rfl, by rw [if_neg h, heq]; rfl, fun b hb => ?_, hlt⟩
      rcases List.mem_cons.mp hb with rfl | hb
      · exact not_lt.mp h
      · exact hle b hb

theorem SortedBy.le_of_getElem? (h : SortedBy key l) {i j : ℕ} (ha : l[i]? = some a) (hb : l[j]? = some b)
    (hij : i ≤ j) : key a ≤ key b := by
  obtain ⟨hi, rfl⟩ := List.getElem?_eq_some_iff.mp ha
  obtain ⟨hj, rfl⟩ := List.getElem?_eq_some_iff.mp hb
  rcases Nat.lt_or_eq_of_le hij with hlt | rfl
  · exact List.pairwise_iff_getElem.mp h i j hi hj hlt
  · exact le_rfl

theorem SortedBy.filter (h : SortedBy key l) (p : α → Bool) : SortedBy key (l.filter p) :=
  List.Pairwise.filter p h

/-- In a sorted list everything from the place of the new element on has a greater key. -/
theorem SortedBy.split (h : SortedBy key l) : ∃ l₁ l₂, l = l₁ ++ l₂ ∧
    stableInsert key a l = l₁ ++ a :: l₂ ∧ (∀ b ∈ l₁, key b ≤ key a) ∧ ∀ b ∈ l₂, key a < key b := by
  obtain ⟨l₁, l₂, rfl, heq, hle, hlt⟩ := stableInsert_eq key a l
  refine ⟨l₁, l₂, rfl, heq, hle, fun b hb => ?_⟩
  have hsorted : SortedBy key l₂ := (List.pairwise_append.mp h).2.1
  cases l₂ with
  | nil => cases hb
  | cons c l₂ =>
    have hc : key a < key c := hlt c rfl
    rcases List.mem_cons.mp hb with rfl | hb
    · exact hc
    · exact hc.trans_le ((List.pairwise_cons.mp hsorted).1 b hb)

theorem SortedBy.stableInsert (h : SortedBy key l) : SortedBy key (stableInsert key a l) := by
  obtain ⟨l₁, l₂, rfl, heq, hle, hlt⟩ := h.split (a := a)
  obtain ⟨h₁, h₂, h₁₂⟩ := List.pairwise_append.mp h
  rw [heq]
  refine List.pairwise_append.mpr ⟨h₁, List.pairwise_cons.mpr ⟨fun b hb => (hlt b hb).le, h₂⟩, ?_⟩
  intro b hb c hc
  rcases List.mem_cons.mp hc with rfl | hc
  · exact hle b hb
  · exact h₁₂ b hb c hc

/-- Among the elements of one key the new one comes last. -/
theorem SortedBy.filter_stableInsert (h : SortedBy key l) (k : κ) :
    (Lib.stableInsert key a l).filter (fun b => key b = k) =
      l.filter (fun b => key b = k) ++ [a].filter fun b => key b = k := by
  obtain ⟨l₁, l₂, rfl, heq, -, hlt⟩ := h.split (a := a)
  rw [heq, List.filter_append, List.filter_append, List.append_assoc, List.filter_cons]
  by_cases hk : key a = k
  · have hnone : l₂.filter (fun b => key b = k) = [] := by
      rw [List.filter_eq_nil_iff]
      intro b hb heq
      have hlt := hlt b hb
      rw [hk, of_decide_eq_true heq] at hlt
      exact lt_irrefl k hlt
    simp [hk, hnone]
  · simp [hk]

/-- An element whose key is not smaller than any goes to the end. -/
theorem stableInsert_of_le (h : ∀ b ∈ l, key b ≤ key a) : stableInsert key a l = l ++ [a] := by
  induction l with
  | nil => rfl
  | cons b l ih =>
    rw [stableInsert_cons, if_neg (not_lt.mpr (h b (by simp))), ih fun c hc => h c (by simp [hc])]
    rfl

/-- Insertion one by one keeps a list sorted. -/
theorem SortedBy.foldl (h : SortedBy key l) :
    SortedBy key (l'.foldl (fun l a => Lib.stableInsert key a l) l) := by
  induction l' generalizing l with
  | nil => exact h
  | cons a l' ih => exact ih h.stableInsert

theorem mem_foldl_stableInsert :
    b ∈ l'.foldl (fun l a => stableInsert key a l) l ↔ b ∈ l' ∨ b ∈ l := by
  induction l' generalizing l with
  | nil => simp
  | cons a l' ih =>
    rw [List.foldl_cons, ih, mem_stableInsert, List.mem_cons]
    tauto

/-- Inserting the elements of a sorted list one by one gives that list. -/
theorem SortedBy.foldl_stableInsert (h : SortedBy key (l ++ l')) :
    l'.foldl (fun l a => Lib.stableInsert key a l) l = l ++ l' := by
  induction l' generalizing l with
  | nil => simp
  | cons a l' ih =>
    obtain ⟨-, -, hle⟩ := List.pairwise_append.mp h
    have hend : Lib.stableInsert key a l = l ++ [a] :=
      stableInsert_of_le fun b hb => hle b hb a (by simp)
    have hsorted : SortedBy key ((l ++ [a]) ++ l') := by
      rw [List.append_assoc]
      exact h
    rw [List.foldl_cons, hend, ih hsorted, List.append_assoc]
    rfl

/-! ### Built by insertions -/

/-- The list `l` holds the elements of `given`, sorted by key, and among the elements of one key the order
is that of `given`. -/
structure StablySorted (key : α → κ) (given l : List α) : Prop where
  sorted : SortedBy key l
  perm : l.Perm given
  order : ∀ k, l.filter (fun b => key b = k) = given.filter fun b => key b = k

theorem StablySorted.nil : StablySorted key [] [] := ⟨.nil, .refl _, fun _ => rfl⟩

theorem StablySorted.insert {given : List α} (h : StablySorted key given l) (a : α) :
    StablySorted key (given ++ [a]) (Lib.stableInsert key a l) := by
  refine ⟨h.sorted.stableInsert, ?_, fun k => ?_⟩
  · have hperm : (Lib.stableInsert key a l).Perm (a :: given) := stableInsert_perm.trans (h.perm.cons a)
    exact hperm.trans (List.perm_append_singleton a given).symm
  · rw [h.sorted.filter_stableInsert, h.order, List.filter_append]

theorem StablySorted.foldl {given : List α} (h : StablySorted key given l) :
    StablySorted key (given ++ l') (l'.foldl (fun l a => Lib.stableInsert key a l) l) := by
  induction l' generalizing l given with
  | nil => simpa using h
  | cons a l' ih =>
    have hnext := ih (h.insert a)
    rw [List.append_assoc] at hnext
    exact hnext

/-! ### Sorting by any means -/

/-- The list with its elements inserted one by one. -/
def stableSort (key : α → κ) (l : List α) : List α := l.foldl (fun l a => stableInsert key a l) []

theorem sortedBy_stableSort : SortedBy key (stableSort key l) := SortedBy.foldl List.Pairwise.nil

theorem foldl_stableInsert_perm :
    (l'.foldl (fun l a => stableInsert key a l) l).Perm (l ++ l') := by
  induction l' generalizing l with
  | nil => simp
  | cons a l' ih =>
    refine ih.trans ?_
    refine (stableInsert_perm.append_right l').trans ?_
    exact List.perm_middle.symm

theorem stableSort_perm : (stableSort key l).Perm l := foldl_stableInsert_perm

/-- Two elements of equal keys can change places in a sorted list. -/
theorem SortedBy.swap {p q r : List α} (h : SortedBy key (p ++ a :: (q ++ b :: r)))
    (hkey : key a = key b) : SortedBy key (p ++ b :: (q ++ a :: r)) := by
  have hmap : ∀ l : List α, SortedBy key l ↔ (l.map key).Pairwise (· ≤ ·) := fun l =>
    List.pairwise_map.symm
  rw [hmap] at h ⊢
  simpa [hkey] using h

/-- A list without repetitions is the only way of sorting it by its keys when these increase strictly. -/
theorem sorts_only_to_iff (hl : l.Nodup) :
    (∀ l', l'.Perm l → SortedBy key l' → l' = l) ↔ l.Pairwise fun a b => key a < key b := by
  constructor
  · intro honly
    have hsorted : SortedBy key l := by
      have heq := honly (stableSort key l) stableSort_perm sortedBy_stableSort
      rw [← heq]
      exact sortedBy_stableSort
    rw [List.pairwise_iff_forall_sublist]
    intro a b hab
    have hle : key a ≤ key b := List.pairwise_iff_forall_sublist.mp hsorted hab
    refine lt_of_le_of_ne hle fun hkey => ?_
    obtain ⟨l₁, l₂, rfl, ha, hb⟩ := List.cons_sublist_iff.mp hab
    obtain ⟨p, q, rfl⟩ := List.append_of_mem ha
    obtain ⟨q', r, rfl⟩ := List.append_of_mem (List.singleton_sublist.mp hb)
    have hsplit : p ++ a :: q ++ (q' ++ b :: r) = p ++ a :: ((q ++ q') ++ b :: r) := by simp
    rw [hsplit] at hl hsorted honly
    have hperm : (p ++ b :: ((q ++ q') ++ a :: r)).Perm (p ++ a :: ((q ++ q') ++ b :: r)) := by
      refine List.Perm.append_left p ?_
      exact (List.perm_middle.cons b).trans ((List.Perm.swap a b _).trans (List.perm_middle.symm.cons a))
    have heq := honly _ hperm (hsorted.swap hkey)
    obtain ⟨rfl, -⟩ := List.cons.inj (List.append_cancel_left heq)
    have hnot := (List.nodup_cons.mp (List.nodup_append.mp hl).2.1).1
    exact hnot (by simp)
  · intro hlt l' hperm hsorted
    have hne : l.Pairwise fun a b => key a ≠ key b := hlt.imp fun hab => hab.ne
    have : Std.Symm fun a b : α => key a ≠ key b := ⟨fun _ _ h => h.symm⟩
    have hantisymm : ∀ a b, a ∈ l' → b ∈ l → key a ≤ key b → key b ≤ key a → a = b := by
      intro a b ha hb hab hba
      by_contra hab'
      exact hne.forall (hperm.subset ha) hb hab' (le_antisymm hab hba)
    exact hperm.eq_of_pairwise hantisymm hsorted (hlt.imp fun hab => hab.le)

/-! ### Comparisons -/

section Comparison

variable {lt : α → α → Bool}

/-- A strict weak order on the elements of the list. -/
structure StrictWeakOn (lt : α → α → Bool) (l : List α) : Prop where
  irrefl : ∀ a ∈ l, lt a a = false
  asymm : ∀ a ∈ l, ∀ b ∈ l, lt a b = true → lt b a = false
  trans : ∀ a ∈ l, ∀ b ∈ l, ∀ c ∈ l, lt a b = true → lt b c = true → lt a c = true
  incomparable : ∀ a ∈ l, ∀ b ∈ l, ∀ c ∈ l, lt a b = false ∧ lt b a = false → lt b c = false ∧ lt c b = false →
    lt a c = false ∧ lt c a = false

/-- What a sort may give. -/
def Sorts (lt : α → α → Bool) (l l' : List α) : Prop := l'.Perm l ∧ l'.Pairwise fun a b => lt b a = false

theorem StrictWeakOn.nil (lt : α → α → Bool) : StrictWeakOn lt [] := by
  constructor <;> simp

theorem sorts_nil : Sorts lt [] l' ↔ l' = [] := by
  constructor
  · exact fun h => List.Perm.eq_nil h.1
  · rintro rfl
    exact ⟨.refl [], .nil⟩

theorem strictWeakOn_of_key (h : ∀ a ∈ l, ∀ b ∈ l, lt a b = decide (key a < key b)) : StrictWeakOn lt l where
  irrefl := fun a ha => by simp [h a ha a ha]
  asymm := fun a ha b hb hab => by
    rw [h a ha b hb, decide_eq_true_eq] at hab
    rw [h b hb a ha, decide_eq_false_iff_not]
    exact hab.not_gt
  trans := fun a ha b hb c hc hab hbc => by
    rw [h a ha b hb, decide_eq_true_eq] at hab
    rw [h b hb c hc, decide_eq_true_eq] at hbc
    rw [h a ha c hc, decide_eq_true_eq]
    exact hab.trans hbc
  incomparable := fun a ha b hb c hc hab hbc => by
    rw [h a ha b hb, h b hb a ha, decide_eq_false_iff_not, decide_eq_false_iff_not] at hab
    rw [h b hb c hc, h c hc b hb, decide_eq_false_iff_not, decide_eq_false_iff_not] at hbc
    have heq : key a = key c := (le_antisymm (not_lt.mp hab.2) (not_lt.mp hab.1)).trans
      (le_antisymm (not_lt.mp hbc.2) (not_lt.mp hbc.1))
    rw [h a ha c hc, h c hc a ha, heq]
    simp

theorem sorts_iff_of_key (h : ∀ a ∈ l, ∀ b ∈ l, lt a b = decide (key a < key b)) :
    Sorts lt l l' ↔ l'.Perm l ∧ SortedBy key l' := by
  refine and_congr_right fun hperm => List.Pairwise.iff_of_mem fun ha hb => ?_
  rw [h _ (hperm.mem_iff.mp hb) _ (hperm.mem_iff.mp ha), decide_eq_false_iff_not, not_lt]

theorem exists_sorts_of_key (h : ∀ a ∈ l, ∀ b ∈ l, lt a b = decide (key a < key b)) : ∃ l', Sorts lt l l' :=
  ⟨stableSort key l, (sorts_iff_of_key h).mpr ⟨stableSort_perm, sortedBy_stableSort⟩⟩

end Comparison

end HueStream.Lib
