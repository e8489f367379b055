import HueStream.Lib.Text
import HueStream.Support.StringUtil

/-! # Splitting

`split` goes from one separator to the next: the one that is found first, and the longest one there.

* `exists_cuts_from`: what the loop pushes.
* `split_join`: what the pieces are, and that they make up the string. -/

namespace HueStream.Support

open HueStream.Lib

variable {α : Type*} [DecidableEq α] {s t pattern : List α} {separators processed : List (List α)} {start p len : ℕ}

/-! ### Finding -/

theorem find_eq_some (h : find s pattern start = some p) : start ≤ p ∧ pattern <+: s.drop p ∧
    ∀ q, start ≤ q → pattern <+: s.drop q → p ≤ q := by
  unfold find at h
  rw [List.find?_range_eq_some] at h
  simp only [Bool.and_eq_true, decide_eq_true_eq, List.isPrefixOf_iff_prefix, Bool.not_eq_true', Bool.and_eq_false_iff,
    decide_eq_false_iff_not] at h
  obtain ⟨⟨hstart, hprefix⟩, -, hbefore⟩ := h
  refine ⟨hstart, hprefix, fun q hq hprefix' => ?_⟩
  by_contra hlt
  rcases hbefore q (by omega) with hno | hno
  · exact hno hq
  · rw [← Bool.not_eq_true, List.isPrefixOf_iff_prefix] at hno
    exact hno hprefix'

/-- A pattern that is not empty is found if it is there. -/
theorem exists_find (hne : pattern ≠ []) (hp : start ≤ p) (h : pattern <+: s.drop p) :
    ∃ q, find s pattern start = some q ∧ q ≤ p := by
  have hlt : p < s.length := by
    by_contra hge
    rw [List.drop_eq_nil_of_le (by omega), List.prefix_nil] at h
    exact hne h
  cases hfind : find s pattern start with
  | none =>
    unfold find at hfind
    rw [List.find?_range_eq_none] at hfind
    have hno := hfind p (by omega)
    rw [List.isPrefixOf_iff_prefix.mpr h] at hno
    simp [hp] at hno
  | some q => exact ⟨q, rfl, (find_eq_some hfind).2.2 p hp h⟩

/-- What the loop over the separators has found among those it has seen. -/
def Found (s : List α) (start : ℕ) (processed : List (List α)) : Option ℕ × ℕ → Prop
  | (none, _) => ∀ sep ∈ processed, sep ≠ [] → find s sep start = none
  | (some p, len) => (∃ sep ∈ processed, sep ≠ [] ∧ find s sep start = some p ∧ sep.length = len) ∧
      ∀ sep ∈ processed, sep ≠ [] → ∀ q, find s sep start = some q → p ≤ q ∧ (q = p → sep.length ≤ len)

/-- A separator that is not better leaves what was found. -/
theorem Found.keep {state : Option ℕ × ℕ} {sep : List α} (h : Found s start processed state)
    (hsep : sep ≠ [] → ∀ q, find s sep start = some q →
      ∃ r, state.1 = some r ∧ r ≤ q ∧ (q = r → sep.length ≤ state.2)) :
    Found s start (processed ++ [sep]) state := by
  obtain ⟨result, len⟩ := state
  cases result with
  | none =>
    refine List.forall_mem_append.mpr ⟨h, List.forall_mem_singleton.mpr fun hne => ?_⟩
    rw [Option.eq_none_iff_forall_ne_some]
    intro q hq
    obtain ⟨r, hr, -⟩ := hsep hne q hq
    cases hr
  | some p =>
    obtain ⟨⟨sep', hmem, hsep'⟩, hleast⟩ := h
    refine ⟨⟨sep', List.mem_append_left _ hmem, hsep'⟩, List.forall_mem_append.mpr
      ⟨hleast, List.forall_mem_singleton.mpr fun hne q hq => ?_⟩⟩
    obtain ⟨r, hr, hle⟩ := hsep hne q hq
    obtain rfl := Option.some.inj hr
    exact hle

/-- A separator that is better takes the place of what was found. -/
theorem Found.replace {state : Option ℕ × ℕ} {sep : List α} (h : Found s start processed state) (hne : sep ≠ [])
    (hfind : find s sep start = some p) (hbetter : ∀ r ∈ state.1, p ≤ r ∧ (p = r → state.2 ≤ sep.length)) :
    Found s start (processed ++ [sep]) (some p, sep.length) := by
  obtain ⟨result, len⟩ := state
  refine ⟨⟨sep, by simp, hne, hfind, rfl⟩, List.forall_mem_append.mpr
    ⟨fun sep' hmem hne' q hq => ?_, List.forall_mem_singleton.mpr fun _ q hq => ?_⟩⟩
  · cases result with
    | none =>
      rw [h sep' hmem hne'] at hq
      cases hq
    | some r =>
      obtain ⟨hrq, hlen⟩ := h.2 sep' hmem hne' q hq
      obtain ⟨hpr, hlen'⟩ := hbetter r rfl
      refine ⟨by omega, fun hqp => ?_⟩
      have hle := hlen (by omega)
      have hle' : len ≤ sep.length := hlen' (by omega)
      omega
  · obtain rfl := Option.some.inj (hfind.symm.trans hq)
    exact ⟨le_rfl, fun _ => le_rfl⟩

theorem Found.step {state : Option ℕ × ℕ} (h : Found s start processed state) (sep : List α) :
    Found s start (processed ++ [sep]) (findSeparatorStep s start state sep) := by
  obtain ⟨result, len⟩ := state
  by_cases hempty : sep.length = 0
  · rw [findSeparatorStep, if_pos hempty]
    exact h.keep fun hne => absurd (List.length_eq_zero_iff.mp hempty) hne
  have hne : sep ≠ [] := fun hnil => hempty (by rw [hnil]; rfl)
  rw [findSeparatorStep, if_neg hempty]
  cases hfind : find s sep start with
  | none => exact h.keep fun _ q hq => by rw [hfind] at hq; cases hq
  | some p =>
    dsimp only
    split_ifs with hle hlonger
    · obtain ⟨rfl, hlen⟩ := hlonger
      refine h.keep fun _ q hq => ⟨p, rfl, ?_⟩
      obtain rfl := Option.some.inj (hfind.symm.trans hq)
      exact ⟨le_rfl, fun _ => by dsimp only; omega⟩
    · refine h.replace hne hfind fun r hr => ?_
      obtain rfl : result = some r := hr
      have hpr : p ≤ r := by simpa using hle
      refine ⟨hpr, fun heq => ?_⟩
      by_contra hlt
      exact hlonger ⟨by rw [heq], by dsimp only at hlt; omega⟩
    · cases result with
      | none => simp at hle
      | some r =>
        have hlt : r < p := by simpa using hle
        refine h.keep fun _ q hq => ⟨r, rfl, ?_⟩
        obtain rfl := Option.some.inj (hfind.symm.trans hq)
        exact ⟨hlt.le, fun heq => by omega⟩

theorem found_findSeparator (s : List α) (start : ℕ) (separators : List (List α)) :
    Found s start separators (findSeparator s start separators) := by
  induction separators using List.reverseRecOn with
  | nil =>
    intro sep hsep
    cases hsep
  | append_singleton processed sep ih =>
    rw [findSeparator, List.foldl_append]
    exact ih.step sep

/-! ### The first separator -/

theorem isFree_of_findSeparator (h : findSeparator s start separators = (none, len)) :
    IsFree separators (s.drop start) := by
  have hfound := found_findSeparator s start separators
  rw [h] at hfound
  rintro sep hmem hne ⟨before, after, hsplit⟩
  obtain ⟨q, hq, -⟩ := exists_find hne (Nat.le_add_right start before.length) (prefix_drop_of_split hsplit.symm)
  rw [hfound sep hmem hne] at hq
  cases hq

theorem isFirst_of_findSeparator (h : findSeparator s start separators = (some p, len)) :
    start ≤ p ∧ 0 < len ∧ p + len ≤ s.length ∧
      IsFirst separators (s.drop start) (substr s start (p - start)) (substr s p len) (s.drop (p + len)) := by
  have hfound := found_findSeparator s start separators
  rw [h] at hfound
  obtain ⟨⟨sep, hmem, hne, hfind, rfl⟩, hleast⟩ := hfound
  obtain ⟨hstart, hprefix, -⟩ := find_eq_some hfind
  have hpos : 0 < sep.length := List.length_pos_of_ne_nil hne
  have hlength := hprefix.length_le
  rw [List.length_drop] at hlength
  have hsep : substr s p sep.length = sep := (List.prefix_iff_eq_take.mp hprefix).symm
  have hbefore : (substr s start (p - start)).length = p - start := by
    rw [substr, List.length_take, List.length_drop]
    omega
  refine ⟨hstart, hpos, by omega, ?_, by rwa [hsep], by rwa [hsep], fun before' sep' after' hsplit hmem' hne' => ?_⟩
  · have hp : s.drop p = (s.drop start).drop (p - start) := by
      rw [List.drop_drop, Nat.add_sub_cancel' hstart]
    have hafter : substr s p sep.length ++ s.drop (p + sep.length) = s.drop p := by
      rw [substr, ← List.drop_drop, List.take_append_drop]
    rw [List.append_assoc, hafter, hp, substr, List.take_append_drop]
  · obtain ⟨q, hq, hle⟩ := exists_find hne' (Nat.le_add_right start before'.length) (prefix_drop_of_split hsplit)
    obtain ⟨hpq, hlen⟩ := hleast sep' hmem' hne' q hq
    rw [hbefore, hsep]
    exact ⟨by omega, fun heq => hlen (by omega)⟩

/-! ### Splitting at separators -/

/-- A token that is pushed if it is not empty. -/
def token (t : List α) : List (List α) := if 0 < t.length then [t] else []

/-- The loop of `split`, from the token at `startTokenPosition` on. -/
def splitFrom (s : List α) (separators : List (List α)) (startTokenPosition : ℕ) : List (List α) :=
  match _h : findSeparator s startTokenPosition separators with
  | (none, _) => token (substr s startTokenPosition s.length)
  | (some separatorPosition, separatorLength) =>
    token (substr s startTokenPosition (separatorPosition - startTokenPosition)) ++
      splitFrom s separators (separatorPosition + separatorLength)
termination_by s.length - startTokenPosition
decreasing_by
  have hbounds := isFirst_of_findSeparator _h
  omega

/-- `split(s, separators)`. -/
def split (s : List α) (separators : List (List α)) : List (List α) :=
  match (findSeparator s 0 separators).1 with
  | none => [s]
  | some _ => splitFrom s separators 0

omit [DecidableEq α] in
theorem token_eq (t : List α) : token t = [t].filter fun piece => !piece.isEmpty := by
  cases t <;> rfl

omit [DecidableEq α] in
theorem substr_length (s : List α) (i : ℕ) : substr s i s.length = s.drop i := by
  rw [substr, List.take_of_length_le]
  rw [List.length_drop]
  omega

theorem splitFrom_none (h : findSeparator s start separators = (none, len)) :
    splitFrom s separators start = token (s.drop start) := by
  rw [splitFrom]
  split
  · rw [substr_length]
  · rename_i heq
    rw [h] at heq
    cases heq

theorem splitFrom_some (h : findSeparator s start separators = (some p, len)) :
    splitFrom s separators start = token (substr s start (p - start)) ++ splitFrom s separators (p + len) := by
  rw [splitFrom]
  split
  · rename_i heq
    rw [h] at heq
    cases heq
  · rename_i heq
    rw [h] at heq
    obtain ⟨hp, rfl⟩ := Prod.mk.inj heq
    obtain rfl := Option.some.inj hp
    rfl

/-- What is pushed from a position on are the pieces of the rest that are not empty. -/
theorem exists_cuts_from (s : List α) (separators : List (List α)) (start : ℕ) :
    ∃ pieces removed, Cuts separators (s.drop start) pieces removed ∧
      splitFrom s separators start = pieces.filter fun piece => !piece.isEmpty := by
  induction start using splitFrom.induct s separators with
  | case1 start len h => exact ⟨[s.drop start], [], .last (isFree_of_findSeparator h), by rw [splitFrom_none h, token_eq]⟩
  | case2 start position len h ih =>
    obtain ⟨pieces, removed, hcuts, hpieces⟩ := ih
    obtain ⟨-, -, -, hfirst⟩ := isFirst_of_findSeparator h
    refine ⟨_, _, .cut hfirst hcuts, ?_⟩
    rw [splitFrom_some h, token_eq, hpieces, ← List.filter_append, List.singleton_append]

theorem split_of_isFree (h : IsFree separators s) : split s separators = [s] := by
  unfold split
  cases hfound : findSeparator s 0 separators with
  | mk result len =>
    cases result with
    | none => rfl
    | some p =>
      obtain ⟨-, -, -, hfirst⟩ := isFirst_of_findSeparator hfound
      exact absurd h hfirst.not_isFree

theorem split_of_not_isFree (h : ¬ IsFree separators s) : split s separators = splitFrom s separators 0 := by
  unfold split
  cases hfound : findSeparator s 0 separators with
  | mk result len =>
    cases result with
    | none => exact absurd (isFree_of_findSeparator hfound) h
    | some p => rfl

/-! ### Splitting at a character -/

omit [DecidableEq α] in
theorem intercalate_concat {elements : List (List α)} (hne : elements ≠ []) (delimiter e : List α) :
    delimiter.intercalate (elements ++ [e]) = delimiter.intercalate elements ++ delimiter ++ e := by
  induction elements with
  | nil => exact absurd rfl hne
  | cons x elements ih =>
    cases elements with
    | nil => simp
    | cons y elements =>
      rw [List.cons_append, List.cons_append, List.intercalate_cons_cons, ← List.cons_append, ih (by simp),
        List.intercalate_cons_cons]
      simp only [List.append_assoc]

omit [DecidableEq α] in
theorem join_eq (elements : List (List α)) (delimiter : List α) :
    join elements delimiter = delimiter.intercalate elements := by
  induction elements using List.reverseRecOn with
  | nil => rfl
  | append_singleton elements e ih =>
    have hconcat : join (elements ++ [e]) delimiter =
        (if 0 < elements.length then join elements delimiter ++ delimiter else join elements delimiter) ++ e := by
      simp [join, List.zipIdx_append]
    rw [hconcat, ih]
    by_cases hne : elements = []
    · subst hne
      simp
    · rw [if_pos (List.length_pos_of_ne_nil hne), intercalate_concat hne]

variable {c : α} {i j : ℕ}

/-- The character that is found, and what is before it. -/
theorem findChar_split (h : findChar s c i = some j) :
    s.drop i = substr s i (j - i) ++ c :: s.drop (j + 1) ∧ c ∉ substr s i (j - i) := by
  obtain ⟨hij, hlt, hat⟩ := findChar_bounds h
  have hget : s[j] = c := by rwa [List.getElem?_eq_getElem hlt, Option.some.injEq] at hat
  constructor
  · have hdrop : s.drop j = c :: s.drop (j + 1) := by rw [List.drop_eq_getElem_cons hlt, hget]
    have hrest : (s.drop i).drop (j - i) = s.drop j := by rw [List.drop_drop, Nat.add_sub_cancel' hij]
    rw [← hdrop, ← hrest, substr, List.take_append_drop]
  · intro hmem
    obtain ⟨k, hk, hkc⟩ := List.getElem_of_mem hmem
    have hk' : k < j - i := by
      rw [substr, List.length_take] at hk
      omega
    have hck : s[i + k]? = some c := by
      rw [← hkc, List.getElem?_eq_getElem (by omega)]
      simp [substr]
    unfold findChar at h
    rw [List.find?_range_eq_some] at h
    have hno := h.2.2 (i + k) (by omega)
    simp [hck] at hno

theorem findChar_none (h : findChar s c i = none) : c ∉ s.drop i := by
  intro hmem
  obtain ⟨k, hk, hkc⟩ := List.getElem_of_mem hmem
  rw [List.length_drop] at hk
  have hck : s[i + k]? = some c := by
    rw [← hkc, List.getElem?_eq_getElem (by omega), List.getElem_drop]
  unfold findChar at h
  rw [List.find?_range_eq_none] at h
  have hno := h (i + k) (by omega)
  simp [hck] at hno

theorem splitCharFrom_eq (s : List α) (c : α) (i : ℕ) : splitCharFrom s c i = (s.drop i).splitOn c := by
  induction i using splitCharFrom.induct s c with
  | case1 i j h ih =>
    obtain ⟨hsplit, hfree⟩ := findChar_split h
    have hstep : splitCharFrom s c i = substr s i (j - i) :: splitCharFrom s c (j + 1) := by
      rw [splitCharFrom]
      split
      · rename_i j' h'
        obtain rfl := Option.some.inj (h.symm.trans h')
        rfl
      · rename_i h'
        rw [h] at h'
        cases h'
    rw [hstep, ih, hsplit, List.splitOn_append_cons_self_of_not_mem hfree]
  | case2 i h =>
    have hstep : splitCharFrom s c i = [s.drop i] := by
      rw [splitCharFrom]
      split
      · rename_i h'
        rw [h] at h'
        cases h'
      · rw [substr_length]
    rw [hstep, List.splitOn_eq_singleton (findChar_none h)]

theorem splitChar_eq (s : List α) (c : α) : splitChar s c = s.splitOn c := by
  unfold splitChar
  cases h : findChar s c 0 with
  | none => exact (List.splitOn_eq_singleton (findChar_none h)).symm
  | some j => exact splitCharFrom_eq s c 0

/-- **Splitting.** A string is cut at the first separator and the longest one there, again and again; the pieces that
are not empty are what `split` gives, unless no separator occurs. Splitting at a character and joining with it undo each
other. -/
theorem split_join (s : List α) (separators : List (List α)) (c : α) :
    (∃ pieces removed, Cuts separators s pieces removed ∧
      (∀ pieces' removed', Cuts separators s pieces' removed' → pieces' = pieces ∧ removed' = removed) ∧
      (IsFree separators s → split s separators = [s]) ∧
      (¬ IsFree separators s → split s separators = pieces.filter fun piece => !piece.isEmpty) ∧
      (∀ piece ∈ split s separators, IsFree separators piece) ∧ interleave pieces removed = s) ∧
    join (splitChar s c) [c] = s ∧
    ∀ elements : List (List α), elements ≠ [] → (∀ e ∈ elements, c ∉ e) →
      splitChar (join elements [c]) c = elements := by
  refine ⟨?_, ?_, fun elements hne hfree => ?_⟩
  · obtain ⟨pieces, removed, hcuts, hpieces⟩ := exists_cuts_from s separators 0
    have hsplit : ¬ IsFree separators s → split s separators = pieces.filter fun piece => !piece.isEmpty :=
      fun hnot => (split_of_not_isFree hnot).trans hpieces
    refine ⟨pieces, removed, hcuts, fun _ _ h => h.unique hcuts, split_of_isFree, hsplit, fun piece hpiece => ?_,
      hcuts.interleave⟩
    by_cases hfree : IsFree separators s
    · rw [split_of_isFree hfree, List.mem_singleton] at hpiece
      rw [hpiece]
      exact hfree
    · rw [hsplit hfree] at hpiece
      exact hcuts.isFree piece (List.mem_of_mem_filter hpiece)
  · rw [join_eq, splitChar_eq, List.intercalate_splitOn]
  · rw [join_eq, splitChar_eq, List.splitOn_intercalate c hfree hne]

/-- An empty separator does not count, and an empty string at the end comes back. -/
theorem split_join_example : split ['a', 'b'] [[], ['c']] = [['a', 'b']] ∧
    splitChar (join [['a'], []] [',']) ',' = [['a'], []] := by
  obtain ⟨⟨pieces, removed, -, -, hnone, -⟩, -, hjoined⟩ := split_join ['a', 'b'] [[], ['c']] ','
  have hfree : IsFree [[], ['c']] ['a', 'b'] := by
    intro sep hmem hne
    have hsep : sep = ['c'] := by simpa [hne] using hmem
    rw [hsep]
    decide
  exact ⟨hnone hfree, hjoined [['a'], []] (by simp) (by simp)⟩

end HueStream.Support
