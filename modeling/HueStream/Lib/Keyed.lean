import HueStream.Lib.Lists
import Mathlib.Data.List.Induction
import Mathlib.Data.List.Nodup

/-! # Lists with a key

A list whose entries are told apart by a key, and the move of an entry to its end: the first entry with
the key of the new one goes. Keys that are pairwise different stay so (`nodup_moveToEnd`), and then what
goes is the one entry with that key (`mem_moveToEnd`).

Where lists of entries are moved to the end one after another, the last entry of a key stays
(`mem_foldl_moveToEnd`), and not that of the first list which has one (`firstFound`), unless no list replaces what
a former one has put there (`foldl_moveToEnd_iff`). A map that does not replace an entry keeps all entries with
new keys (`foldl_mapInsert`). -/

namespace HueStream.Lib

variable {α β κ : Type*} [DecidableEq κ] {key : α → κ} {l : List α} {a x : α}

/-- The list with `a` at its end and without the first entry of the key of `a`. -/
def moveToEnd (key : α → κ) (l : List α) (a : α) : List α :=
  l.eraseP (fun x => key x = key a) ++ [a]

theorem mem_of_mem_moveToEnd (h : x ∈ moveToEnd key l a) : x ∈ l ∨ x = a := by
  rcases List.mem_append.mp h with h | h
  · exact .inl (List.mem_of_mem_eraseP h)
  · exact .inr (List.mem_singleton.mp h)

theorem self_mem_moveToEnd : a ∈ moveToEnd key l a := by simp [moveToEnd]

theorem mem_moveToEnd_of_ne (h : x ∈ l) (hne : key x ≠ key a) : x ∈ moveToEnd key l a := by
  refine List.mem_append.mpr (.inl ((List.mem_eraseP_of_neg ?_).mpr h))
  simpa using hne

/-- With pairwise different keys the entry that goes is the only one with its key. -/
theorem key_ne_of_mem_eraseP (hnodup : (l.map key).Nodup)
    (h : x ∈ l.eraseP fun x => key x = key a) : key x ≠ key a := by
  induction l with
  | nil => simp at h
  | cons y l ih =>
    rw [List.map_cons, List.nodup_cons] at hnodup
    by_cases hy : key y = key a
    · rw [List.eraseP_cons_of_pos (by simpa using hy)] at h
      exact fun hx => hnodup.1 (hy ▸ hx ▸ List.mem_map_of_mem h)
    · rw [List.eraseP_cons_of_neg (by simpa using hy)] at h
      rcases List.mem_cons.mp h with rfl | h
      · exact hy
      · exact ih hnodup.2 h

theorem mem_moveToEnd (hnodup : (l.map key).Nodup) :
    x ∈ moveToEnd key l a ↔ x = a ∨ x ∈ l ∧ key x ≠ key a := by
  refine ⟨fun h => ?_, ?_⟩
  · rcases List.mem_append.mp h with h | h
    · exact .inr ⟨List.mem_of_mem_eraseP h, key_ne_of_mem_eraseP hnodup h⟩
    · exact .inl (List.mem_singleton.mp h)
  · rintro (rfl | ⟨h, hne⟩)
    · exact self_mem_moveToEnd
    · exact mem_moveToEnd_of_ne h hne

/-- Where no other entry has the key of `a`, only `a` itself can go. -/
theorem moveToEnd_eq_erase [DecidableEq α] (h : ∀ x ∈ l, key x = key a → x = a) :
    moveToEnd key l a = l.erase a ++ [a] := by
  unfold moveToEnd
  congr 1
  induction l with
  | nil => rfl
  | cons y l ih =>
    rw [List.forall_mem_cons] at h
    by_cases hy : y = a
    · subst hy
      simp
    · have hkey : key y ≠ key a := fun hkey => hy (h.1 hkey)
      rw [List.eraseP_cons_of_neg (by simpa using hkey), List.erase_cons_tail (by simpa using hy), ih h.2]

theorem nodup_moveToEnd (hnodup : (l.map key).Nodup) : ((moveToEnd key l a).map key).Nodup := by
  unfold moveToEnd
  rw [List.map_append, List.map_singleton, List.nodup_append]
  refine ⟨hnodup.sublist (List.eraseP_sublist.map key), List.nodup_singleton _, ?_⟩
  intro k hk k' hk'
  obtain ⟨x, hx, rfl⟩ := List.mem_map.mp hk
  rw [List.mem_singleton.mp hk']
  exact key_ne_of_mem_eraseP hnodup hx

/-! ### Several lists -/

variable {r : List α} {ls : List (List α)} {k : κ}

/-- The last entry with a key. -/
def lastWith (key : α → κ) (l : List α) (k : κ) : Option α := l.reverse.find? fun a => key a = k

/-- The last entry with a key in the first of the lists that have one. -/
def firstFound (key : α → κ) (ls : List (List α)) (k : κ) : Option α := ls.findSome? fun l => lastWith key l k

theorem lastWith_concat (l : List α) (a : α) :
    lastWith key (l ++ [a]) k = if key a = k then some a else lastWith key l k := by
  unfold lastWith
  rw [List.reverse_append, List.reverse_singleton, List.singleton_append, List.find?_cons]
  by_cases hkey : key a = k
  · simp [hkey]
  · simp [hkey]

theorem key_of_lastWith (h : lastWith key l k = some a) : key a = k := by
  have hfound := List.find?_some h
  exact of_decide_eq_true hfound

theorem firstFound_concat (ls : List (List α)) (l : List α) :
    firstFound key (ls ++ [l]) k = (firstFound key ls k).or (lastWith key l k) := by
  unfold firstFound
  rw [List.findSome?_append]
  simp

theorem key_of_firstFound (h : firstFound key ls k = some a) : key a = k := by
  obtain ⟨l, -, hl⟩ := List.exists_of_findSome?_eq_some h
  exact key_of_lastWith hl

theorem nodup_foldl_moveToEnd (h : (r.map key).Nodup) : ((l.foldl (moveToEnd key) r).map key).Nodup := by
  induction l generalizing r with
  | nil => exact h
  | cons a l ih => exact ih (nodup_moveToEnd h)

theorem mem_foldl_moveToEnd (h : (r.map key).Nodup) : x ∈ l.foldl (moveToEnd key) r ↔
    lastWith key l (key x) = some x ∨ lastWith key l (key x) = none ∧ x ∈ r := by
  induction l using List.reverseRecOn with
  | nil => simp [lastWith]
  | append_singleton l a ih =>
    have hnodup : ((l.foldl (moveToEnd key) r).map key).Nodup := nodup_foldl_moveToEnd h
    rw [List.foldl_append, List.foldl_cons, List.foldl_nil, mem_moveToEnd hnodup, ih, lastWith_concat]
    by_cases hkey : key a = key x
    · have hne : ¬ key x ≠ key a := fun hne => hne hkey.symm
      simp only [hkey, if_true, Option.some.injEq, reduceCtorEq, false_and, or_false]
      constructor
      · rintro (rfl | ⟨-, hne'⟩)
        · rfl
        · exact absurd rfl hne'
      · rintro rfl
        exact .inl rfl
    · have hxa : x ≠ a := by
        rintro rfl
        exact hkey rfl
      have hne : key x ≠ key a := fun heq => hkey heq.symm
      rw [if_neg hkey]
      constructor
      · rintro (heq | ⟨hmem, -⟩)
        · exact absurd heq hxa
        · exact hmem
      · intro hmem
        exact .inr ⟨hmem, hne⟩

/-- The entries stay those of the first lists exactly when a new list has at the end nothing else where there
is one. -/
theorem foldl_moveToEnd_iff (hnodup : (r.map key).Nodup)
    (hr : ∀ x, x ∈ r ↔ firstFound key ls (key x) = some x) :
    (∀ x, x ∈ l.foldl (moveToEnd key) r ↔ firstFound key (ls ++ [l]) (key x) = some x) ↔
      ∀ x ∈ r, ∀ a, lastWith key l (key x) = some a → a = x := by
  constructor
  · intro h x hx a ha
    have hkey : key a = key x := key_of_lastWith ha
    have hmem : a ∈ l.foldl (moveToEnd key) r := by
      rw [mem_foldl_moveToEnd hnodup, hkey]
      exact .inl ha
    have hfirst := (h a).mp hmem
    rw [firstFound_concat, hkey, (hr x).mp hx, Option.some_or, Option.some.injEq] at hfirst
    exact hfirst.symm
  · intro h x
    rw [mem_foldl_moveToEnd hnodup, firstFound_concat]
    cases hlast : lastWith key l (key x) with
    | none =>
      rw [Option.or_none, hr]
      simp
    | some a =>
      cases hfirst : firstFound key ls (key x) with
      | none => simp
      | some b =>
        have hkey : key b = key x := key_of_firstFound hfirst
        have hb : b ∈ r := by
          rw [hr, hkey]
          exact hfirst
        have hab : a = b := h b hb a (by rw [hkey]; exact hlast)
        simp [hab]

/-! ### Entries that stay -/

/-- `insert` of a `std::map`, which leaves an entry for the key as it is. -/
def mapInsert (map : List (κ × α)) (entry : κ × α) : List (κ × α) :=
  if map.any fun old => old.1 = entry.1 then map else map ++ [entry]

/-- Entries with new keys are all inserted. -/
theorem foldl_mapInsert {entries old : List (κ × α)} (h : ((old ++ entries).map Prod.fst).Nodup) :
    entries.foldl mapInsert old = old ++ entries := by
  induction entries generalizing old with
  | nil => simp
  | cons entry entries ih =>
    have hnew : (old.any fun before => before.1 = entry.1) = false := by
      rw [List.any_eq_false]
      intro before hbefore heq
      rw [List.map_append, List.nodup_append] at h
      exact h.2.2 before.1 (List.mem_map_of_mem hbefore) entry.1 (by simp) (of_decide_eq_true heq)
    have hadd : mapInsert old entry = old ++ [entry] := by simp [mapInsert, hnew]
    rw [List.foldl_cons, hadd, ih (by simpa using h), List.append_assoc, List.singleton_append]

theorem lookup_of_mem {entries : List (κ × α)} {key : κ} {value : α} (h : (entries.map Prod.fst).Nodup)
    (hmem : (key, value) ∈ entries) : entries.lookup key = some value := by
  obtain ⟨before, after, rfl⟩ := List.append_of_mem hmem
  have hbefore : before.lookup key = none := by
    rw [List.lookup_eq_none_iff]
    intro entry hentry
    rw [List.map_append, List.nodup_append] at h
    exact bne_iff_ne.mpr (Ne.symm (h.2.2 entry.1 (List.mem_map_of_mem hentry) key (by simp)))
  rw [List.lookup_append, hbefore, List.lookup_cons_self]
  rfl

theorem mem_of_lookup {entries : List (κ × α)} {key : κ} {value : α} (h : entries.lookup key = some value) :
    (key, value) ∈ entries := by
  obtain ⟨before, after, rfl, -⟩ := List.lookup_eq_some_iff.mp h
  simp

/-! ### The order of the last use

`l.Sublist uses.dedup` says that the entries of `l` stand in the order in which they were used last, since
`dedup` keeps the last occurrence of each use. A list that moves what is used to its end stays in this
order. -/

section Recency

variable {α κ : Type*} [DecidableEq α] [DecidableEq κ] {key : α → κ} {l uses : List α} {a : α}

theorem sublist_dedup_concat (h : l.Sublist uses.dedup) (ha : a ∉ l) : (l ++ [a]).Sublist (uses ++ [a]).dedup := by
  rw [dedup_concat]
  refine List.Sublist.append_right ?_ [a]
  have hself : l.filter (· ≠ a) = l := by
    rw [List.filter_eq_self]
    intro x hx
    have hne : x ≠ a := fun heq => ha (heq ▸ hx)
    simpa using hne
  rw [← hself]
  exact h.filter _

theorem moveToEnd_sublist_dedup (hnodup : (l.map key).Nodup) (h : l.Sublist uses.dedup) :
    (moveToEnd key l a).Sublist (uses ++ [a]).dedup :=
  sublist_dedup_concat (List.eraseP_sublist.trans h) fun ha => key_ne_of_mem_eraseP hnodup ha rfl

/-- The entry used most recently among those with `p` is the last of them. -/
theorem find?_reverse_of_sublist_dedup {p : α → Bool} (h : l.Sublist uses.dedup) :
    uses.reverse.find? (fun x => decide (x ∈ l) && p x) = l.reverse.find? p := by
  induction uses using List.reverseRecOn generalizing l with
  | nil =>
    obtain rfl : l = [] := by simpa using h
    rfl
  | append_singleton uses x ih =>
    rw [dedup_concat] at h
    obtain ⟨l, last, rfl, hl, hlast⟩ := List.sublist_append_iff.mp h
    have hx : x ∉ l := fun hx => by simpa using hl.subset hx
    have ih := ih (hl.trans List.filter_sublist)
    rw [List.reverse_append, List.reverse_singleton, List.singleton_append, List.find?_cons]
    rcases List.sublist_singleton.mp hlast with rfl | rfl
    · simpa [hx] using ih
    · rw [List.reverse_append, List.reverse_singleton, List.singleton_append, List.find?_cons]
      cases hp : p x with
      | true => simp
      | false =>
        have hsame : (fun y => decide (y ∈ l ++ [x]) && p y) = fun y => decide (y ∈ l) && p y := by
          funext y
          by_cases hy : y = x
          · simp [hy, hp]
          · simp [hy]
        rw [hsame]
        simpa using ih

end Recency

end HueStream.Lib
