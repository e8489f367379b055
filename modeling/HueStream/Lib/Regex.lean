import Mathlib.Data.List.Basic
import Mathlib.Data.List.TakeWhile
import Mathlib.Tactic

/-! # Searching with a backtracking regular expression

A regular expression is read as a program that tries its alternatives in order: `r.ways s` lists all ways
in which `r` matches a front of `s`, the preferred one first, each with the groups it captures and what is
left of `s`. The first of them is the match; `search` looks for it from left to right.

What is proved is about texts made of lines. An expression that never takes the character that ends a line
sees of a text only its first line (`ways_append`), so that an expression for several lines is a product of
expressions for one line each (`head_ways_line`, `exists_line_of_ways`). -/

namespace HueStream.Lib

/-- Regular expressions; repetition is greedy and of single characters. -/
inductive Regex (α : Type*)
  | eps
  | chr (p : α → Bool)
  | many (p : α → Bool)
  | seq (r r' : Regex α)
  | opt (r : Regex α)
  | group (n : ℕ) (r : Regex α)

/-- Captured groups with their numbers. -/
abbrev Captures (α : Type*) := List (ℕ × List α)

namespace Regex

variable {α : Type*}

/-- A text, character by character. -/
def lit [DecidableEq α] : List α → Regex α
  | [] => eps
  | a :: w => seq (chr (· = a)) (lit w)

def plus (p : α → Bool) : Regex α := seq (chr p) (many p)

/-- Exactly `n` characters. -/
def times (p : α → Bool) : ℕ → Regex α
  | 0 => eps
  | n + 1 => seq (chr p) (times p n)

/-- What a greedy repetition may leave, the longest match first. -/
def rests (p : α → Bool) : List α → List (List α)
  | [] => [[]]
  | a :: s => if p a then rests p s ++ [a :: s] else [a :: s]

/-- All matches at the front of a text, the preferred first: captured groups, and the text left. -/
def ways : Regex α → List α → List (Captures α × List α)
  | eps, s => [([], s)]
  | chr _, [] => []
  | chr p, a :: s => if p a then [([], s)] else []
  | many p, s => (rests p s).map ([], ·)
  | seq r r', s => (r.ways s).flatMap fun m => (r'.ways m.2).map fun m' => (m.1 ++ m'.1, m'.2)
  | opt r, s => r.ways s ++ [([], s)]
  | group n r, s => (r.ways s).map fun m => ((n, s.take (s.length - m.2.length)) :: m.1, m.2)

/-- The leftmost match: captured groups, and the text after it. -/
def search (r : Regex α) : List α → Option (Captures α × List α)
  | [] => (r.ways []).head?
  | a :: s => ((r.ways (a :: s)).head?).or (search r s)

/-- The text of a group, if it took part in the match. -/
def captured (c : Captures α) (n : ℕ) : Option (List α) := (c.find? (·.1 = n)).map Prod.snd

/-! ### Single expressions -/

theorem rests_nil (p : α → Bool) : rests p [] = [[]] := rfl

theorem rests_cons (p : α → Bool) (a : α) (s : List α) :
    rests p (a :: s) = if p a then rests p s ++ [a :: s] else [a :: s] := rfl

theorem ways_eps (s : List α) : eps.ways s = [([], s)] := rfl

theorem ways_chr_nil (p : α → Bool) : (chr p).ways [] = [] := rfl

theorem ways_chr_cons (p : α → Bool) (a : α) (s : List α) :
    (chr p).ways (a :: s) = if p a then [([], s)] else [] := rfl

theorem ways_many (p : α → Bool) (s : List α) : (many p).ways s = (rests p s).map ([], ·) := rfl

theorem ways_seq (r r' : Regex α) (s : List α) :
    (seq r r').ways s = (r.ways s).flatMap fun m => (r'.ways m.2).map fun m' => (m.1 ++ m'.1, m'.2) := rfl

theorem ways_opt (r : Regex α) (s : List α) : (opt r).ways s = r.ways s ++ [([], s)] := rfl

theorem ways_group (n : ℕ) (r : Regex α) (s : List α) :
    (group n r).ways s = (r.ways s).map fun m => ((n, s.take (s.length - m.2.length)) :: m.1, m.2) := rfl

theorem search_nil (r : Regex α) : r.search [] = (r.ways []).head? := rfl

theorem search_cons (r : Regex α) (a : α) (s : List α) :
    r.search (a :: s) = ((r.ways (a :: s)).head?).or (r.search s) := rfl

theorem mem_ways_seq {r r' : Regex α} {s : List α} {m : Captures α × List α} :
    m ∈ (seq r r').ways s ↔ ∃ k ∈ r.ways s, ∃ k' ∈ r'.ways k.2, m = (k.1 ++ k'.1, k'.2) := by
  simp only [ways_seq, List.mem_flatMap, List.mem_map, eq_comm]

theorem mem_ways_chr {p : α → Bool} {s : List α} {m : Captures α × List α} :
    m ∈ (chr p).ways s ↔ ∃ a, p a = true ∧ s = a :: m.2 ∧ m.1 = [] := by
  cases s with
  | nil => simp [ways_chr_nil]
  | cons a s =>
    by_cases ha : p a
    · simp only [ways_chr_cons, ha, if_true, List.mem_singleton, List.cons.injEq]
      constructor
      · rintro rfl
        exact ⟨a, ha, ⟨rfl, rfl⟩, rfl⟩
      · rintro ⟨b, -, ⟨rfl, hs⟩, hm⟩
        exact Prod.ext hm hs.symm
    · simp only [ways_chr_cons, ha, Bool.false_eq_true, if_false, List.not_mem_nil, List.cons.injEq, false_iff]
      rintro ⟨b, hb, ⟨rfl, -⟩, -⟩
      exact ha hb

theorem mem_rests {p : α → Bool} {s u : List α} (hu : u ∈ rests p s) :
    ∃ x, s = x ++ u ∧ ∀ a ∈ x, p a = true := by
  induction s with
  | nil => exact ⟨[], by simpa [rests_nil, eq_comm] using hu, by simp⟩
  | cons a s ih =>
    rw [rests_cons] at hu
    split_ifs at hu with ha
    · rcases List.mem_append.mp hu with hu | hu
      · obtain ⟨x, rfl, hx⟩ := ih hu
        exact ⟨a :: x, rfl, List.forall_mem_cons.mpr ⟨ha, hx⟩⟩
      · exact ⟨[], (List.mem_singleton.mp hu).symm, by simp⟩
    · exact ⟨[], (List.mem_singleton.mp hu).symm, by simp⟩

theorem mem_rests_of_append {p : α → Bool} {x u : List α} (hx : ∀ a ∈ x, p a = true) :
    u ∈ rests p (x ++ u) := by
  induction x with
  | nil =>
    cases u with
    | nil => simp [rests_nil]
    | cons a u =>
      simp only [List.nil_append, rests_cons]
      split_ifs <;> simp
  | cons a x ih =>
    obtain ⟨ha, hx⟩ := List.forall_mem_cons.mp hx
    simp [rests_cons, ha, ih hx]

theorem head_rests (p : α → Bool) (s : List α) : (rests p s).head? = some (s.dropWhile p) := by
  induction s with
  | nil => rfl
  | cons a s ih =>
    rw [rests_cons]
    split_ifs with ha
    · rw [List.head?_append, ih, List.dropWhile_cons_of_pos ha]
      rfl
    · rw [List.dropWhile_cons_of_neg ha]
      rfl

theorem mem_ways_many {p : α → Bool} {s : List α} {m : Captures α × List α} :
    m ∈ (many p).ways s ↔ m.1 = [] ∧ ∃ x, s = x ++ m.2 ∧ ∀ a ∈ x, p a = true := by
  simp only [ways_many, List.mem_map]
  constructor
  · rintro ⟨u, hu, rfl⟩
    exact ⟨rfl, mem_rests hu⟩
  · rintro ⟨hm, x, rfl, hx⟩
    exact ⟨m.2, mem_rests_of_append hx, Prod.ext hm.symm rfl⟩

theorem mem_ways_plus {p : α → Bool} {s : List α} {m : Captures α × List α} :
    m ∈ (plus p).ways s ↔ m.1 = [] ∧ ∃ x, x ≠ [] ∧ s = x ++ m.2 ∧ ∀ a ∈ x, p a = true := by
  rw [plus, mem_ways_seq]
  constructor
  · rintro ⟨k, hk, k', hk', rfl⟩
    obtain ⟨a, ha, rfl, hnone⟩ := mem_ways_chr.mp hk
    obtain ⟨hnone', x, hx, hall⟩ := mem_ways_many.mp hk'
    exact ⟨by simp [hnone, hnone'], a :: x, by simp, by simp [hx], List.forall_mem_cons.mpr ⟨ha, hall⟩⟩
  · rintro ⟨hm, x, hne, rfl, hall⟩
    cases x with
    | nil => exact absurd rfl hne
    | cons a x =>
      obtain ⟨ha, hall⟩ := List.forall_mem_cons.mp hall
      refine ⟨([], x ++ m.2), mem_ways_chr.mpr ⟨a, ha, rfl, rfl⟩, ([], m.2),
        mem_ways_many.mpr ⟨rfl, x, rfl, hall⟩, ?_⟩
      exact Prod.ext hm rfl

theorem mem_ways_times {p : α → Bool} {n : ℕ} {s : List α} {m : Captures α × List α} :
    m ∈ (times p n).ways s ↔ m.1 = [] ∧ ∃ x, x.length = n ∧ s = x ++ m.2 ∧ ∀ a ∈ x, p a = true := by
  induction n generalizing s m with
  | zero =>
    simp only [times, ways_eps, List.mem_singleton, List.length_eq_zero_iff, Prod.ext_iff]
    constructor
    · rintro ⟨hm, hs⟩
      exact ⟨hm, [], rfl, hs.symm, by simp⟩
    · rintro ⟨hm, x, rfl, hs, -⟩
      exact ⟨hm, hs.symm⟩
  | succ n ih =>
    rw [times, mem_ways_seq]
    constructor
    · rintro ⟨k, hk, k', hk', rfl⟩
      obtain ⟨a, ha, rfl, hnone⟩ := mem_ways_chr.mp hk
      obtain ⟨hnone', x, hlength, hx, hall⟩ := ih.mp hk'
      exact ⟨by simp [hnone, hnone'], a :: x, by simp [hlength], by simp [hx],
        List.forall_mem_cons.mpr ⟨ha, hall⟩⟩
    · rintro ⟨hm, x, hlength, rfl, hall⟩
      obtain ⟨a, x, rfl⟩ := List.exists_cons_of_length_eq_add_one hlength
      obtain ⟨ha, hall⟩ := List.forall_mem_cons.mp hall
      refine ⟨([], x ++ m.2), mem_ways_chr.mpr ⟨a, ha, rfl, rfl⟩, ([], m.2),
        ih.mpr ⟨rfl, x, by simpa using hlength, rfl, hall⟩, ?_⟩
      exact Prod.ext hm rfl

theorem mem_ways_group {n : ℕ} {r : Regex α} {s : List α} {m : Captures α × List α} :
    m ∈ (group n r).ways s ↔
      ∃ k ∈ r.ways s, m = ((n, s.take (s.length - k.2.length)) :: k.1, k.2) := by
  simp only [ways_group, List.mem_map, eq_comm]

section Lit

variable [DecidableEq α]

theorem ways_lit_append (w s : List α) : (lit w).ways (w ++ s) = [([], s)] := by
  induction w with
  | nil => rfl
  | cons a w ih => simp [lit, ways_seq, ways_chr_cons, ih]

theorem mem_ways_lit {w s : List α} {m : Captures α × List α} :
    m ∈ (lit w).ways s ↔ m.1 = [] ∧ s = w ++ m.2 := by
  induction w generalizing s m with
  | nil => simp [lit, ways_eps, Prod.ext_iff, eq_comm]
  | cons a w ih =>
    rw [lit, mem_ways_seq]
    constructor
    · rintro ⟨k, hk, k', hk', rfl⟩
      obtain ⟨b, hb, rfl, hnone⟩ := mem_ways_chr.mp hk
      obtain ⟨hnone', hw⟩ := ih.mp hk'
      have hb : b = a := by simpa using hb
      exact ⟨by simp [hnone, hnone'], by simp [hb, hw]⟩
    · rintro ⟨hm, rfl⟩
      refine ⟨([], w ++ m.2), mem_ways_chr.mpr ⟨a, by simp, rfl, rfl⟩, ([], m.2), ih.mpr ⟨rfl, rfl⟩, ?_⟩
      exact Prod.ext hm rfl

end Lit

/-- A match takes a front of the text. -/
theorem suffix_of_mem_ways {r : Regex α} {s : List α} {m : Captures α × List α} (hm : m ∈ r.ways s) :
    m.2 <:+ s := by
  induction r generalizing s m with
  | eps =>
    obtain rfl : m = ([], s) := by simpa [ways_eps] using hm
    exact List.suffix_rfl
  | chr p =>
    obtain ⟨a, -, rfl, -⟩ := mem_ways_chr.mp hm
    exact List.suffix_cons a m.2
  | many p =>
    obtain ⟨-, x, rfl, -⟩ := mem_ways_many.mp hm
    exact List.suffix_append x m.2
  | seq r r' ih ih' =>
    obtain ⟨k, hk, k', hk', rfl⟩ := mem_ways_seq.mp hm
    exact (ih' hk').trans (ih hk)
  | opt r ih =>
    rcases List.mem_append.mp hm with hm | hm
    · exact ih hm
    · obtain rfl := List.mem_singleton.mp hm
      exact List.suffix_rfl
  | group n r ih =>
    obtain ⟨k, hk, rfl⟩ := mem_ways_group.mp hm
    have hsuffix : k.2 <:+ s := ih hk
    exact hsuffix

/-! ### Expressions within a line -/

/-- The expression never takes the character `a`. -/
def Rejects (a : α) : Regex α → Prop
  | eps => True
  | chr p => p a = false
  | many p => p a = false
  | seq r r' => r.Rejects a ∧ r'.Rejects a
  | opt r => r.Rejects a
  | group _ r => r.Rejects a

theorem rejects_lit [DecidableEq α] {a : α} {w : List α} (hw : a ∉ w) : (lit w).Rejects a := by
  induction w with
  | nil => trivial
  | cons b w ih =>
    obtain ⟨hb, hw⟩ := not_or.mp (mt List.mem_cons.mpr hw)
    exact ⟨decide_eq_false hb, ih hw⟩

theorem rejects_plus {a : α} {p : α → Bool} (hp : p a = false) : (plus p).Rejects a := ⟨hp, hp⟩

theorem rejects_times {a : α} {p : α → Bool} (hp : p a = false) (n : ℕ) : (times p n).Rejects a := by
  induction n with
  | zero => trivial
  | succ n ih => exact ⟨hp, ih⟩

theorem rests_append {a : α} {p : α → Bool} (hp : p a = false) (s t : List α) :
    rests p (s ++ a :: t) = (rests p s).map (· ++ a :: t) := by
  induction s with
  | nil => simp [rests_nil, rests_cons, hp]
  | cons b s ih =>
    simp only [List.cons_append, rests_cons, ih]
    split_ifs <;> simp

/-- **An expression that rejects `a` sees nothing from the first `a` on.** -/
theorem ways_append {a : α} {r : Regex α} (hr : r.Rejects a) (s t : List α) :
    r.ways (s ++ a :: t) = (r.ways s).map fun m => (m.1, m.2 ++ a :: t) := by
  induction r generalizing s with
  | eps => rfl
  | chr p =>
    cases s with
    | nil =>
      have hp : p a = false := hr
      simp [ways_chr_nil, ways_chr_cons, hp]
    | cons b s =>
      simp only [List.cons_append, ways_chr_cons]
      split_ifs <;> rfl
  | many p =>
    simp only [ways_many, rests_append hr, List.map_map]
    rfl
  | seq r r' ih ih' =>
    simp only [ways_seq, ih hr.1, List.flatMap_map, ih' hr.2, List.map_flatMap, List.map_map]
    rfl
  | opt r ih => simp [ways_opt, ih hr]
  | group n r ih =>
    simp only [ways_group, ih hr, List.map_map]
    refine List.map_congr_left fun m hm => ?_
    have hle : m.2.length ≤ s.length := (suffix_of_mem_ways hm).length_le
    have hlength : (s ++ a :: t).length - (m.2 ++ a :: t).length = s.length - m.2.length := by
      simp only [List.length_append]
      omega
    simp only [Function.comp_apply, hlength]
    rw [List.take_append_of_le_length (by omega)]

/-- What an expression that rejects `a` takes has no `a`. -/
theorem exists_front_of_mem_ways {a : α} {r : Regex α} (hr : r.Rejects a) {s : List α}
    {m : Captures α × List α} (hm : m ∈ r.ways s) : ∃ x, s = x ++ m.2 ∧ a ∉ x := by
  obtain ⟨x, hx⟩ := suffix_of_mem_ways hm
  refine ⟨x, hx.symm, fun hmem => ?_⟩
  obtain ⟨y, z, rfl⟩ := List.append_of_mem hmem
  rw [← hx, List.append_assoc, List.cons_append, ways_append hr] at hm
  obtain ⟨k, hk, hkm⟩ := List.mem_map.mp hm
  have hlength := congrArg (fun m => m.2.length) hkm
  simp only [List.length_append, List.length_cons] at hlength
  omega

/-- The ways in which the expression matches all of the text: the groups they capture. -/
def whole (r : Regex α) (s : List α) : List (Captures α) :=
  (r.ways s).filterMap fun m => if m.2.isEmpty then some m.1 else none

theorem mem_whole {r : Regex α} {s : List α} {c : Captures α} : c ∈ r.whole s ↔ (c, []) ∈ r.ways s := by
  simp only [whole, List.mem_filterMap]
  constructor
  · rintro ⟨m, hm, heq⟩
    split_ifs at heq with hempty
    obtain ⟨c', u⟩ := m
    obtain rfl : u = [] := by simpa using hempty
    obtain rfl : c' = c := by simpa using heq
    exact hm
  · intro hc
    exact ⟨(c, []), hc, by simp⟩

section Line

variable [DecidableEq α]

/-- A match of a line and of what follows: the line ends with `a :: w`, and the expression for it rejects
`a`. -/
theorem exists_line_of_ways {a : α} {w : List α} {q r : Regex α} (hq : q.Rejects a) {s : List α}
    (hs : (seq q (seq (lit (a :: w)) r)).ways s ≠ []) :
    ∃ x t, s = x ++ (a :: w) ++ t ∧ a ∉ x ∧ q.whole x ≠ [] ∧ r.ways t ≠ [] := by
  obtain ⟨m, hm⟩ := List.exists_mem_of_ne_nil _ hs
  obtain ⟨k, hk, k', hk', rfl⟩ := mem_ways_seq.mp hm
  obtain ⟨l, hl, l', hl', rfl⟩ := mem_ways_seq.mp hk'
  obtain ⟨-, hline⟩ := mem_ways_lit.mp hl
  obtain ⟨x, rfl, hx⟩ := exists_front_of_mem_ways hq hk
  refine ⟨x, l.2, by rw [hline, List.append_assoc], hx, ?_, List.ne_nil_of_mem hl'⟩
  rw [hline, List.cons_append, ways_append hq] at hk
  obtain ⟨n, hn, heq⟩ := List.mem_map.mp hk
  have hrest : n.2 = [] := by
    have := congrArg (fun m => m.2) heq
    simp only [hline, List.cons_append] at this
    exact List.append_left_eq_self.mp this
  refine List.ne_nil_of_mem (mem_whole.mpr ?_ : n.1 ∈ q.whole x)
  rw [← hrest]
  exact hn

/-- The matches of a line and of what follows are those of all of the line with those of what follows. -/
theorem ways_line {a : α} {w : List α} {q r : Regex α} (hq : q.Rejects a) {x : List α} (hx : a ∉ x)
    (t : List α) : (seq q (seq (lit (a :: w)) r)).ways (x ++ (a :: w) ++ t) =
      (q.whole x).flatMap fun c => (r.ways t).map fun m => (c ++ m.1, m.2) := by
  have hend : ∀ m ∈ q.ways x, (seq (lit (a :: w)) r).ways (m.2 ++ a :: (w ++ t)) =
      if m.2.isEmpty then r.ways t else [] := by
    intro m hm
    cases hrest : m.2 with
    | nil =>
      have hlit := ways_lit_append (a :: w) t
      rw [List.cons_append] at hlit
      simp [ways_seq, hlit]
    | cons b u =>
      have hb : b ∈ x := (suffix_of_mem_ways hm).subset (by simp [hrest])
      have hne : b ≠ a := by
        rintro rfl
        exact hx hb
      simp [lit, ways_seq, ways_chr_cons, hne]
  rw [ways_seq, List.append_assoc, List.cons_append, ways_append hq, List.flatMap_map, whole]
  generalize q.ways x = ms at hend
  induction ms with
  | nil => rfl
  | cons m ms ih =>
    obtain ⟨hm, hms⟩ := List.forall_mem_cons.mp hend
    rw [List.flatMap_cons, ih hms, hm, List.filterMap_cons]
    split_ifs <;> simp

theorem head_ways_line {a : α} {w : List α} {q r : Regex α} (hq : q.Rejects a) {x : List α} (hx : a ∉ x)
    {t : List α} {c : Captures α} {m : Captures α × List α} (hc : (q.whole x).head? = some c)
    (hm : (r.ways t).head? = some m) :
    ((seq q (seq (lit (a :: w)) r)).ways (x ++ (a :: w) ++ t)).head? = some (c ++ m.1, m.2) := by
  rw [ways_line hq hx]
  obtain ⟨cs, hcs⟩ := List.head?_eq_some_iff.mp hc
  obtain ⟨ms, hms⟩ := List.head?_eq_some_iff.mp hm
  simp [hcs, hms]

end Line

/-! ### The preferred match -/

theorem head_ways_seq {r r' : Regex α} {s : List α} {m m' : Captures α × List α}
    (hm : (r.ways s).head? = some m) (hm' : (r'.ways m.2).head? = some m') :
    ((seq r r').ways s).head? = some (m.1 ++ m'.1, m'.2) := by
  obtain ⟨ms, hms⟩ := List.head?_eq_some_iff.mp hm
  obtain ⟨ms', hms'⟩ := List.head?_eq_some_iff.mp hm'
  simp [ways_seq, hms, hms']

theorem head_ways_many (p : α → Bool) (s : List α) :
    ((many p).ways s).head? = some ([], s.dropWhile p) := by
  simp [ways_many, head_rests]

theorem head_ways_group {n : ℕ} {r : Regex α} {s : List α} {m : Captures α × List α}
    (hm : (r.ways s).head? = some m) :
    ((group n r).ways s).head? = some ((n, s.take (s.length - m.2.length)) :: m.1, m.2) := by
  simp [ways_group, hm]

theorem head_ways_opt {r : Regex α} {s : List α} {m : Captures α × List α}
    (hm : (r.ways s).head? = some m) : ((opt r).ways s).head? = some m := by
  simp [ways_opt, hm]

theorem head_ways_opt_of_nil {r : Regex α} {s : List α} (hs : r.ways s = []) :
    ((opt r).ways s).head? = some ([], s) := by
  simp [ways_opt, hs]

/-- A repetition before something that cannot begin with what is repeated. -/
theorem ways_many_seq {p : α → Bool} {r : Regex α} (hr : ∀ a t, p a = true → r.ways (a :: t) = [])
    (s : List α) : (seq (many p) r).ways s = r.ways (s.dropWhile p) := by
  simp only [ways_seq, ways_many, List.flatMap_map, List.nil_append, Prod.mk.eta, List.map_id']
  induction s with
  | nil => simp [rests_nil]
  | cons a s ih =>
    rw [rests_cons]
    split_ifs with ha
    · rw [List.flatMap_append, ih, List.dropWhile_cons_of_pos ha]
      simp [hr a s ha]
    · rw [List.dropWhile_cons_of_neg ha]
      simp

/-! ### Searching -/

theorem search_of_head {r : Regex α} {s : List α} {m : Captures α × List α}
    (hm : (r.ways s).head? = some m) : r.search s = some m := by
  cases s with
  | nil => exact hm
  | cons a s => simp [search_cons, hm]

/-- A front where no match begins is passed over. -/
theorem search_append {r : Regex α} {x t : List α} (hx : ∀ y, y <:+ x → y ≠ [] → r.ways (y ++ t) = []) :
    r.search (x ++ t) = r.search t := by
  induction x with
  | nil => rfl
  | cons a x ih =>
    have hfirst := hx (a :: x) List.suffix_rfl (by simp)
    rw [List.cons_append] at hfirst
    rw [List.cons_append, search_cons, hfirst]
    exact ih fun y hy => hx y (hy.trans (List.suffix_cons a x))

theorem search_eq_none {r : Regex α} {s : List α} (hs : ∀ y, y <:+ s → r.ways y = []) :
    r.search s = none := by
  induction s with
  | nil => simp [search_nil, hs [] List.suffix_rfl]
  | cons a s ih =>
    rw [search_cons, hs _ List.suffix_rfl]
    exact ih fun y hy => hs y (hy.trans (List.suffix_cons a s))

end Regex

end HueStream.Lib
