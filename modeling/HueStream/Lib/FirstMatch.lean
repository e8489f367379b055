import Mathlib.Data.List.Basic

/-! # Changing and erasing the first element that matches

`modifyFirst p f l` applies `f` to the first element of `l` that satisfies `p`. A list with a match
splits around it (`modifyFirst_eq`), so what `modifyFirst` does to a list is read off that split; in
particular it goes unseen by any function `f` respects (`map_modifyFirst`). In a list whose elements
have unique keys the first element with a key is the only one. -/

namespace HueStream.Lib

variable {α β : Type*} {p : α → Bool} {f : α → α} {l : List α} {a b : α}

/-- `f` applied to the first element of the list that satisfies `p`. -/
def modifyFirst (p : α → Bool) (f : α → α) : List α → List α
  | [] => []
  | a :: l => if p a then f a :: l else a :: modifyFirst p f l

theorem modifyFirst_eq_self (h : ∀ a ∈ l, p a = false) : modifyFirst p f l = l := by
  induction l with
  | nil => rfl
  | cons a l ih =>
    simp only [List.mem_cons, forall_eq_or_imp] at h
    simp [modifyFirst, h.1, ih h.2]

/-- The split of a list around its first match, and the list with that match changed. -/
theorem modifyFirst_eq (h : l.find? p = some a) :
    ∃ l₁ l₂, l = l₁ ++ a :: l₂ ∧ (∀ b ∈ l₁, p b = false) ∧ p a = true ∧
      modifyFirst p f l = l₁ ++ f a :: l₂ := by
  induction l with
  | nil => simp at h
  | cons b l ih =>
    rw [List.find?_cons] at h
    cases hb : p b with
    | true =>
      obtain rfl : b = a := by simpa [hb] using h
      exact ⟨[], l, by simp, by simp, hb, by simp [modifyFirst, hb]⟩
    | false =>
      obtain ⟨l₁, l₂, rfl, hl₁, ha, heq⟩ := ih (by simpa [hb] using h)
      exact ⟨b :: l₁, l₂, rfl, by simpa [hb] using hl₁, ha, by simp [modifyFirst, hb, heq]⟩

theorem mem_modifyFirst (h : b ∈ modifyFirst p f l) :
    b ∈ l ∨ ∃ a, l.find? p = some a ∧ b = f a := by
  cases hfind : l.find? p with
  | none =>
    rw [modifyFirst_eq_self (by simpa using hfind)] at h
    exact .inl h
  | some a =>
    obtain ⟨l₁, l₂, rfl, -, -, heq⟩ := modifyFirst_eq (f := f) hfind
    rw [heq, List.mem_append, List.mem_cons] at h
    rcases h with h | rfl | h
    · exact .inl (by simp [h])
    · exact .inr ⟨a, rfl, rfl⟩
    · exact .inl (by simp [h])

/-- An element of the changed list is the changed match, or an element of the list without that match. -/
theorem mem_modifyFirst_eraseP (h : b ∈ modifyFirst p f l) :
    b ∈ l.eraseP p ∨ ∃ a, l.find? p = some a ∧ b = f a := by
  induction l with
  | nil => exact .inl h
  | cons c l ih =>
    rw [modifyFirst] at h
    split_ifs at h with hc
    · rw [List.eraseP_cons_of_pos hc, List.find?_cons_of_pos hc]
      rcases List.mem_cons.mp h with rfl | h
      · exact .inr ⟨c, rfl, rfl⟩
      · exact .inl h
    · rw [List.eraseP_cons_of_neg hc, List.find?_cons_of_neg hc, List.mem_cons]
      rcases List.mem_cons.mp h with rfl | h
      · exact .inl (.inl rfl)
      · exact (ih h).imp_left .inr

/-- A filter that takes neither the match nor what it is changed to sees no change. -/
theorem filter_modifyFirst {q : α → Bool} (h : ∀ a, p a = true → q a = false ∧ q (f a) = false) :
    (modifyFirst p f l).filter q = l.filter q := by
  induction l with
  | nil => rfl
  | cons a l ih =>
    by_cases hp : p a = true
    · obtain ⟨ha, hf⟩ := h a hp
      simp [modifyFirst, hp, ha, hf]
    · simp only [modifyFirst, hp, Bool.false_eq_true, if_false, List.filter_cons, ih]

/-- Nor does one that takes none of what is erased. -/
theorem filter_eraseP {q : α → Bool} (h : ∀ a, p a = true → q a = false) :
    (l.eraseP p).filter q = l.filter q := by
  induction l with
  | nil => rfl
  | cons a l ih =>
    by_cases hp : p a = true
    · rw [List.eraseP_cons_of_pos hp, List.filter_cons_of_neg (by simp [h a hp])]
    · rw [List.eraseP_cons_of_neg hp, List.filter_cons, List.filter_cons, ih]

theorem map_modifyFirst {g : α → β} (h : ∀ a, l.find? p = some a → g (f a) = g a) :
    (modifyFirst p f l).map g = l.map g := by
  cases hfind : l.find? p with
  | none => rw [modifyFirst_eq_self (by simpa using hfind)]
  | some a =>
    obtain ⟨l₁, l₂, rfl, -, -, heq⟩ := modifyFirst_eq (f := f) hfind
    rw [heq, List.map_append, List.map_append, List.map_cons, List.map_cons, h a hfind]

theorem map_modifyFirst_congr {f' : α → α} {g : α → β}
    (h : ∀ a, l.find? p = some a → g (f a) = g (f' a)) :
    (modifyFirst p f l).map g = (modifyFirst p f' l).map g := by
  induction l with
  | nil => rfl
  | cons a l ih =>
    by_cases hp : p a = true
    · have ha := h a (by rw [List.find?_cons_of_pos hp])
      simp [modifyFirst, hp, ha]
    · have hl := ih fun b hb => h b (by rw [List.find?_cons_of_neg hp, hb])
      simp [modifyFirst, hp, hl]

/-- Changing the first match before or after a map that knows the match. -/
theorem map_modifyFirst_eq {q : β → Bool} {f' : β → β} {g : α → β} (hq : ∀ a, q (g a) = p a)
    (hf : ∀ a, g (f a) = f' (g a)) :
    (modifyFirst p f l).map g = modifyFirst q f' (l.map g) := by
  induction l with
  | nil => rfl
  | cons a l ih =>
    simp only [modifyFirst, List.map_cons, hq]
    split <;> simp [hf, ih]

theorem modifyFirst_modifyFirst {f' : α → α} (h : ∀ a, p (f a) = true) :
    modifyFirst p f' (modifyFirst p f l) = modifyFirst p (f' ∘ f) l := by
  induction l with
  | nil => rfl
  | cons a l ih =>
    by_cases hp : p a = true
    · simp [modifyFirst, hp, h]
    · simp [modifyFirst, hp, ih]

/-! ### Unique keys -/

variable [DecidableEq β] {key : α → β} {x : β}

theorem mem_eraseP_of_nodup (h : (l.map key).Nodup) :
    a ∈ l.eraseP (fun b => key b = x) ↔ a ∈ l ∧ key a ≠ x := by
  induction l with
  | nil => simp
  | cons b l ih =>
    rw [List.map_cons, List.nodup_cons] at h
    by_cases hb : key b = x
    · rw [List.eraseP_cons_of_pos (by simpa using hb), List.mem_cons]
      refine ⟨fun ha => ⟨.inr ha, fun hax => h.1 ?_⟩, fun ⟨ha, hax⟩ => ha.resolve_left ?_⟩
      · rw [hb, ← hax]
        exact List.mem_map_of_mem ha
      · rintro rfl
        exact hax hb
    · rw [List.eraseP_cons_of_neg (by simpa using hb), List.mem_cons, List.mem_cons, ih h.2]
      constructor
      · rintro (rfl | ⟨ha, hax⟩)
        · exact ⟨.inl rfl, hb⟩
        · exact ⟨.inr ha, hax⟩
      · rintro ⟨rfl | ha, hax⟩
        · exact .inl rfl
        · exact .inr ⟨ha, hax⟩

theorem mem_modifyFirst_of_nodup (h : (l.map key).Nodup) :
    b ∈ modifyFirst (fun a => key a = x) f l ↔
      b ∈ l ∧ key b ≠ x ∨ ∃ a ∈ l, key a = x ∧ b = f a := by
  induction l with
  | nil => simp [modifyFirst]
  | cons c l ih =>
    rw [List.map_cons, List.nodup_cons] at h
    have hother : ∀ a ∈ l, key a ≠ key c := fun a ha heq => h.1 (heq ▸ List.mem_map_of_mem ha)
    by_cases hc : key c = x
    · subst hc
      simp only [modifyFirst, decide_true, if_true, List.mem_cons]
      constructor
      · rintro (rfl | hb)
        · exact .inr ⟨c, .inl rfl, rfl, rfl⟩
        · exact .inl ⟨.inr hb, hother b hb⟩
      · rintro (⟨rfl | hb, hne⟩ | ⟨a, rfl | ha, heq, rfl⟩)
        · exact absurd rfl hne
        · exact .inr hb
        · exact .inl rfl
        · exact absurd heq (hother a ha)
    · simp only [modifyFirst, hc, decide_false, Bool.false_eq_true, if_false, List.mem_cons, ih h.2]
      constructor
      · rintro (rfl | ⟨hb, hne⟩ | ⟨a, ha, heq, rfl⟩)
        · exact .inl ⟨.inl rfl, hc⟩
        · exact .inl ⟨.inr hb, hne⟩
        · exact .inr ⟨a, .inr ha, heq, rfl⟩
      · rintro (⟨rfl | hb, hne⟩ | ⟨a, rfl | ha, heq, rfl⟩)
        · exact .inl rfl
        · exact .inr (.inl ⟨hb, hne⟩)
        · exact absurd heq hc
        · exact .inr (.inr ⟨a, ha, heq, rfl⟩)

end HueStream.Lib
