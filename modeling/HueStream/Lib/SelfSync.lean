import Mathlib.Data.List.Basic
import Mathlib.Data.List.Infix

/-! # Self-synchronizing codes

A character of the code is a unit that begins one, with as many units behind it as it asks for, none of which
begins a character. So the characters of a text are found wherever one looks: what can be read at some place is a
character of the text. `clean` keeps the complete characters of a list of units.

* `clean_append_char`: each complete character is kept, whatever is around it.
* `clean_take`: a text that is cut off anywhere and cleaned is its longest part that fits. -/

namespace HueStream.Lib

variable {α : Type*}

structure Code (α : Type*) where
  /-- How many units come behind one that begins a character. -/
  extra : α → Option ℕ
  isTail : α → Bool
  separate : ∀ b, isTail b = true → extra b = none

namespace Code

variable (C : Code α)

def IsChar (c : List α) : Prop :=
  ∃ b rest, c = b :: rest ∧ C.extra b = some rest.length ∧ ∀ x ∈ rest, C.isTail x = true

/-- Characters one after another. -/
inductive IsText : List α → Prop
  | nil : IsText []
  | append {c s : List α} (hc : C.IsChar c) (hs : IsText s) : IsText (c ++ s)

/-- The character at the head of a list. -/
def charAt : List α → Option (List α)
  | [] => none
  | b :: rest =>
    (C.extra b).bind fun n =>
      if n ≤ rest.length ∧ ∀ x ∈ rest.take n, C.isTail x = true then some (b :: rest.take n) else none

/-- The complete characters, wherever they begin. -/
def clean : List α → List α
  | [] => []
  | b :: rest => (C.charAt (b :: rest)).getD [] ++ clean rest

variable {C} {b : α} {c d s t rest post : List α} {n : ℕ}

theorem charAt_eq_some_iff : C.charAt s = some c ↔ C.IsChar c ∧ c <+: s := by
  cases s with
  | nil =>
    refine iff_of_false (by simp [charAt]) ?_
    rintro ⟨⟨b, rest, rfl, -⟩, hprefix⟩
    simp at hprefix
  | cons b s =>
    rw [charAt, Option.bind_eq_some_iff]
    constructor
    · rintro ⟨n, hn, hif⟩
      split_ifs at hif with hcomplete
      obtain rfl := Option.some.inj hif
      obtain ⟨hle, htail⟩ := hcomplete
      refine ⟨⟨b, s.take n, rfl, ?_, htail⟩, List.cons_prefix_cons.mpr ⟨rfl, List.take_prefix n s⟩⟩
      rw [hn, List.length_take, min_eq_left hle]
    · rintro ⟨⟨b', rest, rfl, hextra, htail⟩, hprefix⟩
      obtain ⟨rfl, hrest⟩ := List.cons_prefix_cons.mp hprefix
      have htake : s.take rest.length = rest := (List.prefix_iff_eq_take.mp hrest).symm
      refine ⟨rest.length, hextra, ?_⟩
      rw [htake, if_pos ⟨hrest.length_le, htail⟩]

/-- A unit behind the first one of a character begins none. -/
theorem charAt_of_isTail (h : C.isTail b = true) : C.charAt (b :: rest) = none := by
  rw [charAt, C.separate b h]
  rfl

theorem clean_tails (h : ∀ x ∈ t, C.isTail x = true) : C.clean (t ++ s) = C.clean s := by
  induction t with
  | nil => rfl
  | cons x t ih =>
    rw [List.forall_mem_cons] at h
    rw [List.cons_append, clean, charAt_of_isTail h.1, ih h.2]
    rfl

theorem clean_of_charAt (h : C.charAt s = some c) : C.clean s = c ++ C.clean (s.drop c.length) := by
  obtain ⟨hc, hprefix⟩ := charAt_eq_some_iff.mp h
  obtain ⟨t, rfl⟩ := hprefix
  obtain ⟨b, rest, rfl, -, htail⟩ := hc
  rw [List.drop_left, List.cons_append, clean, ← List.cons_append, h, clean_tails htail]
  rfl

theorem clean_cons_of_none (h : C.charAt (b :: rest) = none) : C.clean (b :: rest) = C.clean rest := by
  rw [clean, h]
  rfl

theorem clean_char (hc : C.IsChar c) (s : List α) : C.clean (c ++ s) = c ++ C.clean s := by
  have hchar : C.charAt (c ++ s) = some c := charAt_eq_some_iff.mpr ⟨hc, List.prefix_append c s⟩
  rw [clean_of_charAt hchar, List.drop_left]

/-- What a unit begins ends before one that is no tail. -/
theorem charAt_append (hne : s ≠ []) (hpost : ∀ x ∈ post.head?, C.isTail x = false) :
    C.charAt (s ++ post) = C.charAt s := by
  refine Option.ext fun c => ?_
  rw [charAt_eq_some_iff, charAt_eq_some_iff]
  refine and_congr_right fun hc => ⟨fun hprefix => ?_, fun hprefix => hprefix.trans (List.prefix_append s post)⟩
  rcases List.prefix_or_prefix_of_prefix hprefix (List.prefix_append s post) with h | h
  · exact h
  · -- A character that is longer than `s` has the first unit of what follows among its tails.
    obtain ⟨u, rfl⟩ := h
    obtain ⟨b, rest, hb, -, htail⟩ := hc
    cases u with
    | nil => rw [List.append_nil]
    | cons x u =>
      have hx : x ∈ post.head? := by
        obtain ⟨v, hv⟩ := hprefix
        rw [List.append_assoc] at hv
        have hpost' := List.append_cancel_left hv
        rw [← hpost']
        rfl
      have hmem : x ∈ rest := by
        cases s with
        | nil => exact absurd rfl hne
        | cons y s =>
          rw [List.cons_append] at hb
          rw [← (List.cons.inj hb).2]
          simp
      have hfalse := hpost x hx
      rw [htail x hmem] at hfalse
      cases hfalse

theorem clean_append (hpost : ∀ x ∈ post.head?, C.isTail x = false) (s : List α) :
    C.clean (s ++ post) = C.clean s ++ C.clean post := by
  induction s with
  | nil => rfl
  | cons b s ih =>
    rw [List.cons_append, clean, ← List.cons_append, charAt_append (by simp) hpost, ih, clean, List.append_assoc]

theorem isTail_head (hc : C.IsChar c) : ∀ x ∈ (c ++ s).head?, C.isTail x = false := by
  obtain ⟨b, rest, rfl, hextra, -⟩ := hc
  intro x hx
  obtain rfl : b = x := by simpa using hx
  by_contra htail
  rw [C.separate b (by simpa using htail)] at hextra
  cases hextra

/-- A complete character is kept, and what is around it as if it were alone. -/
theorem clean_append_char (hc : C.IsChar c) (s t : List α) : C.clean (s ++ c ++ t) = C.clean s ++ c ++ C.clean t := by
  rw [List.append_assoc, clean_append (isTail_head hc), clean_char hc, List.append_assoc]

theorem isText_clean (s : List α) : C.IsText (C.clean s) := by
  induction s with
  | nil => exact .nil
  | cons b s ih =>
    rw [clean]
    cases hchar : C.charAt (b :: s) with
    | none => exact ih
    | some c => exact .append (charAt_eq_some_iff.mp hchar).1 ih

theorem clean_sublist (s : List α) : (C.clean s).Sublist s := by
  induction hn : s.length using Nat.strong_induction_on generalizing s with
  | _ n ih =>
    cases s with
    | nil => exact .slnil
    | cons b s =>
      rw [List.length_cons] at hn
      cases hchar : C.charAt (b :: s) with
      | none =>
        rw [clean_cons_of_none hchar]
        exact (ih s.length (by omega) s rfl).cons b
      | some c =>
        rw [clean_of_charAt hchar]
        obtain ⟨hc, t, ht⟩ := charAt_eq_some_iff.mp hchar
        obtain ⟨b', rest, rfl, -, -⟩ := hc
        have hlength := congrArg List.length ht
        simp only [List.length_append, List.length_cons] at hlength
        rw [← ht, List.drop_left]
        exact (ih t.length (by omega) t rfl).append_left _

theorem clean_text (hs : C.IsText s) : C.clean s = s := by
  induction hs with
  | nil => rfl
  | append hc _ ih => rw [clean_char hc, ih]

/-! ### Cutting off -/

/-- Two characters at the head of one list are the same. -/
theorem IsChar.unique (hc : C.IsChar c) (hd : C.IsChar d) (h : c ++ s = d ++ t) : c = d ∧ s = t := by
  have hlength : c.length = d.length := by
    obtain ⟨b, rest, rfl, hextra, -⟩ := hc
    obtain ⟨b', rest', rfl, hextra', -⟩ := hd
    obtain ⟨rfl, -⟩ := List.cons.inj h
    rw [hextra, Option.some.injEq] at hextra'
    rw [List.length_cons, List.length_cons, hextra']
  exact List.append_inj h hlength

/-- Nothing is left of a character that is cut off. -/
theorem clean_take_char (hc : C.IsChar c) (hn : n < c.length) : C.clean (c.take n) = [] := by
  obtain ⟨b, rest, rfl, hextra, htail⟩ := hc
  cases n with
  | zero => rfl
  | succ n =>
    rw [List.length_cons] at hn
    have hnone : C.charAt (b :: rest.take n) = none := by
      have hshort : ¬ rest.length ≤ (rest.take n).length := by
        rw [List.length_take]
        omega
      rw [charAt, hextra, Option.bind_some, if_neg fun h => hshort h.1]
    have htake : ∀ x ∈ rest.take n, C.isTail x = true := fun x hx => htail x (List.mem_of_mem_take hx)
    have htails := clean_tails (s := []) htake
    rw [List.append_nil] at htails
    rw [List.take_succ_cons, clean_cons_of_none hnone, htails]
    rfl

/-- `v` is the longest text at the beginning of `u` with at most `n` units. -/
structure IsLongest (C : Code α) (u : List α) (n : ℕ) (v : List α) : Prop where
  start : v <+: u
  le : v.length ≤ n
  text : C.IsText v
  longest : ∀ t, t <+: u → t.length ≤ n → C.IsText t → t <+: v

theorem clean_take (hs : C.IsText s) (n : ℕ) : C.IsLongest s n (C.clean (s.take n)) := by
  induction hs generalizing n with
  | nil =>
    rw [List.take_nil]
    exact ⟨List.prefix_rfl, Nat.zero_le _, .nil, fun t ht _ _ => ht⟩
  | @append c s hc _ ih =>
    -- A text that is not empty begins with the character that the list begins with.
    have hhead : ∀ d t, C.IsChar d → d ++ t <+: c ++ s → d = c ∧ t <+: s := by
      rintro d t hd ⟨r, hr⟩
      rw [List.append_assoc] at hr
      obtain ⟨hdc, hts⟩ := hd.unique hc hr
      exact ⟨hdc, r, hts⟩
    by_cases hn : c.length ≤ n
    · obtain ⟨hstart, hle, htext, hlongest⟩ := ih (n - c.length)
      have htake : (c ++ s).take n = c ++ s.take (n - c.length) := by
        rw [List.take_append, List.take_of_length_le hn]
      rw [htake, clean_char hc]
      refine ⟨List.prefix_append_right_inj c |>.mpr hstart, ?_, .append hc htext, fun t ht htn hst => ?_⟩
      · rw [List.length_append]
        omega
      · cases hst with
        | nil => exact List.nil_prefix
        | @append d t hd ht' =>
          obtain ⟨rfl, hts⟩ := hhead d t hd ht
          rw [List.length_append] at htn
          exact List.prefix_append_right_inj d |>.mpr (hlongest t hts (by omega) ht')
    · have htake : (c ++ s).take n = c.take n := List.take_append_of_le_length (by omega)
      rw [htake, clean_take_char hc (by omega)]
      refine ⟨List.nil_prefix, Nat.zero_le _, .nil, fun t ht htn hst => ?_⟩
      cases hst with
      | nil => exact List.prefix_rfl
      | @append d t hd ht' =>
        obtain ⟨rfl, -⟩ := hhead d t hd ht
        rw [List.length_append] at htn
        omega

end Code

end HueStream.Lib
