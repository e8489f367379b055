import Mathlib.Data.List.Infix

/-! # Cutting a text at a pattern

`cut pat s` is the text before and after the first occurrence of `pat` in `s`. A text `overlaps` a
pattern when an occurrence of the pattern can begin in it, whatever comes behind; putting a text
without that in front moves the cut and changes nothing else.

A text is cut at several separators at the one that begins first, and at the longest one there, again and again. The
pieces are determined by that (`Cuts.unique`), have no separator in them (`Cuts.isFree`) and make up the text with
the separators between them (`Cuts.interleave`). Empty separators do not count. -/

namespace HueStream.Lib

section Separators

variable {α : Type*} {separators pieces removed pieces' removed' : List (List α)} {s before sep after : List α} {start : ℕ}

/-- The separator that begins first, and the longest one there. -/
structure IsFirst (separators : List (List α)) (s before sep after : List α) : Prop where
  split : s = before ++ sep ++ after
  mem : sep ∈ separators
  ne : sep ≠ []
  first : ∀ before' sep' after', s = before' ++ sep' ++ after' → sep' ∈ separators → sep' ≠ [] →
    before.length ≤ before'.length ∧ (before'.length = before.length → sep'.length ≤ sep.length)

/-- None of the separators occurs, apart from empty ones. -/
def IsFree (separators : List (List α)) (s : List α) : Prop := ∀ sep ∈ separators, sep ≠ [] → ¬ sep <:+: s

/-- The pieces of a string and the separators that are removed between them, from left to right. -/
inductive Cuts (separators : List (List α)) : List α → List (List α) → List (List α) → Prop
  | last {s : List α} (h : IsFree separators s) : Cuts separators s [s] []
  | cut {s before sep after : List α} {pieces removed : List (List α)} (h : IsFirst separators s before sep after)
      (hrest : Cuts separators after pieces removed) : Cuts separators s (before :: pieces) (sep :: removed)

/-- The pieces with the separators between them. -/
def interleave : List (List α) → List (List α) → List α
  | piece :: pieces, sep :: removed => piece ++ sep ++ interleave pieces removed
  | piece :: _, [] => piece
  | [], _ => []

theorem IsFirst.unique {before' sep' after' : List α} (h : IsFirst separators s before sep after)
    (h' : IsFirst separators s before' sep' after') : before = before' ∧ sep = sep' ∧ after = after' := by
  obtain ⟨hle, hlen⟩ := h.first before' sep' after' h'.split h'.mem h'.ne
  obtain ⟨hle', hlen'⟩ := h'.first before sep after h.split h.mem h.ne
  have hbefore : before.length = before'.length := by omega
  have hsep : sep.length = sep'.length := by
    have h1 := hlen hbefore.symm
    have h2 := hlen' hbefore
    omega
  have hsplit : before ++ sep ++ after = before' ++ sep' ++ after' := by rw [← h.split, ← h'.split]
  obtain ⟨hfront, hafter⟩ := List.append_inj hsplit (by rw [List.length_append, List.length_append, hbefore, hsep])
  obtain ⟨hb, hs⟩ := List.append_inj hfront hbefore
  exact ⟨hb, hs, hafter⟩

theorem IsFirst.not_isFree (h : IsFirst separators s before sep after) :
    ¬ IsFree separators s := fun hfree => hfree sep h.mem h.ne ⟨before, after, h.split.symm⟩

/-- No separator is in what comes before the first one. -/
theorem IsFirst.isFree_before (h : IsFirst separators s before sep after) :
    IsFree separators before := by
  rintro sep' hmem' hne' ⟨x, y, hxy⟩
  have hsplit : s = x ++ sep' ++ (y ++ sep ++ after) := by
    rw [h.split, ← hxy]
    simp only [List.append_assoc]
  have hle := (h.first x sep' _ hsplit hmem' hne').1
  have hpos : 0 < sep'.length := List.length_pos_of_ne_nil hne'
  rw [← hxy, List.length_append, List.length_append] at hle
  omega

theorem Cuts.unique (h : Cuts separators s pieces removed) (h' : Cuts separators s pieces' removed') :
    pieces = pieces' ∧ removed = removed' := by
  induction h generalizing pieces' removed' with
  | last hfree =>
    cases h' with
    | last => exact ⟨rfl, rfl⟩
    | cut hfirst => exact absurd hfree hfirst.not_isFree
  | cut hfirst _ ih =>
    cases h' with
    | last hfree => exact absurd hfree hfirst.not_isFree
    | cut hfirst' hrest' =>
      obtain ⟨rfl, rfl, rfl⟩ := hfirst.unique hfirst'
      obtain ⟨rfl, rfl⟩ := ih hrest'
      exact ⟨rfl, rfl⟩

theorem Cuts.isFree (h : Cuts separators s pieces removed) : ∀ piece ∈ pieces, IsFree separators piece := by
  induction h with
  | last hfree => simpa using hfree
  | cut hfirst _ ih => exact List.forall_mem_cons.mpr ⟨hfirst.isFree_before, ih⟩

theorem Cuts.interleave (h : Cuts separators s pieces removed) : interleave pieces removed = s := by
  induction h with
  | last => rfl
  | cut hfirst _ ih =>
    rw [hfirst.split, Lib.interleave, ih]

theorem prefix_drop_of_split (h : s.drop start = before ++ sep ++ after) :
    sep <+: s.drop (start + before.length) := by
  rw [← List.drop_drop, h, List.append_assoc, List.drop_left]
  exact List.prefix_append sep after

end Separators

/-! ### One pattern -/

variable {α : Type*} [DecidableEq α] {pat r s t a b : List α}

/-- The text before the first occurrence of the pattern, and the text after it. -/
def cut (pat : List α) : List α → Option (List α × List α)
  | [] => if pat = [] then some ([], []) else none
  | c :: s =>
    if pat.isPrefixOf (c :: s) then some ([], (c :: s).drop pat.length)
    else (cut pat s).map fun parts => (c :: parts.1, parts.2)

/-- An occurrence of the pattern can begin in the text: it is in it, or the text ends with a part
of it. -/
def overlaps (pat s : List α) : Bool :=
  s.tails.any fun t => t ≠ [] && (t.isPrefixOf pat || pat.isPrefixOf t)

theorem cut_eq_append (h : cut pat s = some (a, b)) : s = a ++ pat ++ b := by
  induction s generalizing a with
  | nil =>
    rw [cut] at h
    split_ifs at h with hpat
    obtain ⟨rfl, rfl⟩ := by simpa using h
    simp [hpat]
  | cons c s ih =>
    rw [cut] at h
    split_ifs at h with hstart
    · obtain ⟨rfl, rfl⟩ := by simpa using h
      obtain ⟨t, ht⟩ := List.isPrefixOf_iff_prefix.mp hstart
      simp [← ht]
    · obtain ⟨parts, hparts, heq⟩ := Option.map_eq_some_iff.mp h
      obtain ⟨rfl, rfl⟩ := by simpa using heq
      rw [ih (a := parts.1) (by rw [hparts])]
      simp

theorem overlaps_cons {c : α} :
    overlaps pat (c :: r) =
      ((c :: r).isPrefixOf pat || pat.isPrefixOf (c :: r) || overlaps pat r) := by
  simp [overlaps]

theorem cut_append_of_not_overlaps (h : overlaps pat r = false) :
    cut pat (r ++ s) = (cut pat s).map fun parts => (r ++ parts.1, parts.2) := by
  induction r with
  | nil => simp
  | cons c r ih =>
    rw [overlaps_cons, Bool.or_eq_false_iff, Bool.or_eq_false_iff] at h
    obtain ⟨⟨hbegins, hcontains⟩, hrest⟩ := h
    have hno : pat.isPrefixOf (c :: (r ++ s)) = false := by
      rw [Bool.eq_false_iff, ne_eq, List.isPrefixOf_iff_prefix]
      intro hstart
      rcases List.prefix_or_prefix_of_prefix hstart
        (List.prefix_append (c :: r) s) with hpre | hpre
      · rw [List.isPrefixOf_iff_prefix.mpr hpre] at hcontains
        contradiction
      · rw [List.isPrefixOf_iff_prefix.mpr hpre] at hbegins
        contradiction
    rw [List.cons_append, cut, if_neg (by simp [hno]), ih hrest, Option.map_map]
    rfl

theorem overlaps_eq_false_iff :
    overlaps pat r = false ↔ ∀ u, u <:+ r → u ≠ [] → ¬ u <+: pat ∧ ¬ pat <+: u := by
  simp only [overlaps, List.any_eq_false, List.mem_tails, Bool.and_eq_true, decide_eq_true_eq,
    Bool.or_eq_true, List.isPrefixOf_iff_prefix]
  constructor
  · intro h u hu hne
    have hnot := h u hu
    exact ⟨fun hpre => hnot ⟨hne, .inl hpre⟩, fun hpre => hnot ⟨hne, .inr hpre⟩⟩
  · rintro h u hu ⟨hne, hpre | hpre⟩
    · exact (h u hu hne).1 hpre
    · exact (h u hu hne).2 hpre

theorem overlaps_of_append (h : overlaps pat (r ++ s) = false) : overlaps pat s = false := by
  rw [overlaps_eq_false_iff] at h ⊢
  intro u hu hne
  exact h u (hu.trans (List.suffix_append r s)) hne

/-- No occurrence begins in the first text, whatever the second is, and none in the second. -/
theorem overlaps_append (hr : overlaps pat r = false) (hs : overlaps pat s = false) :
    overlaps pat (r ++ s) = false := by
  induction r with
  | nil => exact hs
  | cons c r ih =>
    have hwhole := overlaps_eq_false_iff.mp hr (c :: r) List.suffix_rfl (by simp)
    rw [overlaps_cons, Bool.or_eq_false_iff] at hr
    rw [List.cons_append, overlaps_cons, ih hr.2, Bool.or_false, Bool.or_eq_false_iff, Bool.eq_false_iff,
      Bool.eq_false_iff, ne_eq, ne_eq, List.isPrefixOf_iff_prefix, List.isPrefixOf_iff_prefix,
      ← List.cons_append]
    constructor
    · intro hpre
      exact hwhole.1 ((List.prefix_append _ s).trans hpre)
    · intro hpre
      rcases List.prefix_or_prefix_of_prefix hpre (List.prefix_append (c :: r) s) with hpat | hpat
      · exact hwhole.2 hpat
      · exact hwhole.1 hpat

theorem overlaps_of_part (h : pat <:+: r) (hne : pat ≠ []) : overlaps pat r = true := by
  obtain ⟨a, b, rfl⟩ := h
  refine List.any_eq_true.mpr ⟨pat ++ b, ?_, ?_⟩
  · rw [List.mem_tails, List.append_assoc]
    exact List.suffix_append a _
  · simp [hne]

/-- In a beginning of a text in which no occurrence can begin there is none. -/
theorem cut_eq_none_of_start (h : overlaps pat r = false) (hne : pat ≠ []) (hs : s <+: r) :
    cut pat s = none := by
  rw [Option.eq_none_iff_forall_not_mem]
  rintro ⟨a, b⟩ hcut
  obtain ⟨t, rfl⟩ := hs
  have hpart : pat <:+: s ++ t := ⟨a, b ++ t, by simp [cut_eq_append hcut]⟩
  rw [overlaps_of_part hpart hne] at h
  cases h

theorem cut_pat_append (hne : pat ≠ []) (s : List α) : cut pat (pat ++ s) = some ([], s) := by
  obtain ⟨c, t, rfl⟩ := List.exists_cons_of_ne_nil hne
  rw [List.cons_append, cut, ← List.cons_append, if_pos (by simp), List.drop_left]

theorem cut_append_pat (h : overlaps pat r = false) (hne : pat ≠ []) :
    cut pat (r ++ pat ++ s) = some (r, s) := by
  rw [List.append_assoc, cut_append_of_not_overlaps h, cut_pat_append hne]
  simp

/-- The cut is at the first occurrence. -/
theorem exists_cut_of_append (a b : List α) :
    ∃ r t, cut pat (a ++ pat ++ b) = some (r, t) ∧ r.length ≤ a.length := by
  induction a with
  | nil =>
    rcases pat with _ | ⟨c, pat⟩
    · cases b with
      | nil => exact ⟨[], [], rfl, le_rfl⟩
      | cons d b => exact ⟨[], d :: b, by simp [cut], le_rfl⟩
    · exact ⟨[], b, cut_pat_append (by simp) b, le_rfl⟩
  | cons c a ih =>
    obtain ⟨r, t, hcut, hlength⟩ := ih
    rw [List.cons_append, List.cons_append, cut]
    split_ifs
    · exact ⟨[], _, rfl, by simp⟩
    · exact ⟨c :: r, t, by rw [hcut]; rfl, by simpa using hlength⟩

end HueStream.Lib
