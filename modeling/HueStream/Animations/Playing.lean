import HueStream.Animations.Keeping

/-! # Animations that take every marker

Whatever its leaves do, an animation takes every marker and can be rewound where nothing that is repeated has the
length 0 and no sequence in it is triggered. The loop of `UpdateValue` hands the position on to the
sub-animation into which it falls.

* `Playable.takes`: such an animation takes every marker.
* `updateValue_split`: the sub-animation of a position. -/

namespace HueStream.Animations

variable {ι S : Type}

namespace Animation

mutual

/-- The total length of an animation of which no sequence is triggered. -/
def total : Animation ι S → ℚ
  | .missing => 0
  | .leaf l => l.getTotalLength
  | .sequence _ repeatTimes _ sequences => repeatedLength (totals sequences 0) repeatTimes

/-- The total lengths, added up to `length`. -/
def totals : List (Animation ι S) → ℚ → ℚ
  | [], length => length
  | a :: as, length => if total a = INF then INF else totals as (length + total a)

end

end Animation

open Animation

/-- Nothing that is repeated has the length 0. -/
inductive Playable : Animation ι S → Prop
  | leaf {l : Leaf ι S} (hlength : ∀ repeatTimes ∈ l.repeatTimes, l.lengthMs ≠ 0) : Playable (.leaf l)
  | sequence {id : ι} {repeatTimes : ℚ} {bookmarks : List (String × ℤ)} {sequences : List (Animation ι S)}
      (hsub : ∀ a ∈ sequences, Playable a) (hlength : totals sequences 0 ≠ 0) :
      Playable (.sequence id repeatTimes bookmarks sequences)

/-- Every animation of the tree has a positive length, once and with its repetitions. -/
inductive Positive : Animation ι S → Prop
  | leaf {l : Leaf ι S} (hlength : 0 < l.lengthMs) (htotal : 0 < l.getTotalLength) : Positive (.leaf l)
  | sequence {id : ι} {repeatTimes : ℚ} {bookmarks : List (String × ℤ)} {sequences : List (Animation ι S)}
      (hsub : ∀ a ∈ sequences, Positive a) (hne : sequences ≠ [])
      (htotal : 0 < repeatedLength (totals sequences 0) repeatTimes) :
      Positive (.sequence id repeatTimes bookmarks sequences)

/-- The sequence is not triggered. -/
def Store.Rests (σ : Store ι S) (id : ι) : Prop := σ.startIndex id = 0 ∧ σ.offset id = 0

/-- No sequence in the animation is triggered. -/
def Animation.Rests (σ : Store ι S) (a : Animation ι S) : Prop := ∀ id, a.HasSequence id → σ.Rests id

/-- The markers, the starts and the offsets of the objects outside `moved` stay as they are, and the values and
current indices of those outside `shown`. -/
structure Confined (moved shown : ι → Prop) (σ σ' : Store ι S) : Prop where
  startIndex : ∀ id, ¬ moved id → σ'.startIndex id = σ.startIndex id
  offset : ∀ id, ¬ moved id → σ'.offset id = σ.offset id
  marker : ∀ id, ¬ moved id → σ'.marker id = σ.marker id
  value : ∀ id, ¬ shown id → σ'.value id = σ.value id
  currentIndex : ∀ id, ¬ shown id → σ'.currentIndex id = σ.currentIndex id

/-! ### Lengths -/

section Lengths

variable {a : Animation ι S} {as : List (Animation ι S)} {σ : Store ι S}

/-- The corrected marker is that of the position in its repetition, up to the end of the last one. -/
theorem corrected_eq {n : ℕ} {L x : ℚ} (hL : 0 < L) (hx : 0 ≤ x) (hcounted : x < L * 2 ^ 63) :
    corrected L n x = .ok (if x < L * (n + 1) then modLength L x else x) := by
  by_cases hlt : x < L * (n + 1)
  · rw [if_pos hlt]
    exact corrected_of_lt hL hx hlt hcounted
  · have hquotient : x / L < 2 ^ 63 := by
      rw [div_lt_iff₀ hL]
      linarith
    have htimes : (n : ℤ) < ⌊x / L⌋ := by
      rw [← Int.add_one_le_iff, Int.le_floor, le_div_iff₀ hL]
      push_cast
      linarith
    have hnot : ¬ ((⌊x / L⌋ : ℚ) ≤ n) := by
      have hcast : ((n : ℤ) : ℚ) < ⌊x / L⌋ := Int.cast_lt.mpr htimes
      exact not_le.mpr (by exact_mod_cast hcast)
    rw [if_neg hlt, corrected, if_neg hL.ne', toInt64_of_nonneg (div_nonneg hx hL.le) hquotient]
    simp only [hnot, if_false]

theorem modLength_of_lt {L x : ℚ} (hx : 0 ≤ x) (hlt : x < L) : modLength L x = x := by
  have hL : 0 < L := hx.trans_lt hlt
  have hfloor : ⌊x / L⌋ = 0 := by
    rw [Int.floor_eq_zero_iff]
    exact ⟨div_nonneg hx hL.le, (div_lt_one hL).mpr hlt⟩
  simp [modLength, hfloor]

theorem Positive.total_pos (h : Positive a) : 0 < total a := by
  cases h with
  | leaf _ htotal => exact htotal
  | sequence _ _ htotal => exact htotal

theorem totals_pos {length : ℚ} (h : ∀ a ∈ as, 0 < total a) (hlength : 0 ≤ length) (hne : as ≠ []) :
    0 < totals as length := by
  induction as generalizing length with
  | nil => exact absurd rfl hne
  | cons a as ih =>
    have ha : 0 < total a := h a (by simp)
    rw [totals]
    split_ifs
    · exact INF_pos
    · cases as with
      | nil =>
        rw [totals]
        linarith
      | cons b as => exact ih (fun b hb => h b (by simp [hb])) (by linarith) (by simp)

theorem Positive.playable (h : Positive a) : Playable a := by
  induction a using Animation.induction with
  | missing => cases h
  | leaf l =>
    cases h with
    | leaf hlength _ => exact .leaf fun _ _ => hlength.ne'
  | sequence id repeatTimes bookmarks sequences ih =>
    cases h with
    | sequence hsub hne htotal =>
      exact .sequence (fun a ha => ih a ha (hsub a ha))
        (totals_pos (fun a ha => (hsub a ha).total_pos) le_rfl hne).ne'

/-- Without endless elements the lengths are just added up. -/
theorem totals_eq {length : ℚ} (h : ∀ a ∈ as, total a ≠ INF) : totals as length = length + (as.map total).sum := by
  induction as generalizing length with
  | nil => simp [totals]
  | cons a as ih =>
    rw [totals, if_neg (h a (by simp)), ih fun b hb => h b (by simp [hb]), List.map_cons, List.sum_cons, add_assoc]

theorem totals_of_endless {length : ℚ} (h : ∃ a ∈ as, total a = INF) : totals as length = INF := by
  induction as generalizing length with
  | nil => simp at h
  | cons a as ih =>
    rw [totals]
    split_ifs with ha
    · rfl
    · obtain ⟨b, hb, hendless⟩ := h
      rcases List.mem_cons.mp hb with rfl | hb
      · exact absurd hendless ha
      · exact ih ⟨b, hb, hendless⟩

/-- A position below the lengths falls into one of the elements. -/
theorem exists_total_split {p : ℚ} (h : ∀ a ∈ as, 0 ≤ total a) (hp : 0 ≤ p) (hfinite : p < INF)
    (hlt : p < totals as 0) : ∃ before a after, as = before ++ a :: after ∧ (before.map total).sum ≤ p ∧
      p < (before.map total).sum + total a := by
  have hfalls : p < (as.map total).sum ∨ ∃ a ∈ as, total a = INF := by
    by_cases hendless : ∃ a ∈ as, total a = INF
    · exact .inr hendless
    · push Not at hendless
      rw [totals_eq hendless, zero_add] at hlt
      exact .inl hlt
  clear hlt
  induction as generalizing p with
  | nil =>
    rcases hfalls with hlt | ⟨a, ha, -⟩
    · exact absurd hp (not_le.mpr (by simpa using hlt))
    · simp at ha
  | cons b as ih =>
    by_cases hb : p < total b
    · exact ⟨[], b, as, rfl, by simpa using hp, by simpa using hb⟩
    · have hnonneg : 0 ≤ total b := h b (by simp)
      have hrest : p - total b < (as.map total).sum ∨ ∃ a ∈ as, total a = INF := by
        rcases hfalls with hlt | ⟨a, ha, hendless⟩
        · rw [List.map_cons, List.sum_cons] at hlt
          exact .inl (by linarith)
        · rcases List.mem_cons.mp ha with rfl | ha
          · rw [hendless] at hb
            exact absurd hfinite hb
          · exact .inr ⟨a, ha, hendless⟩
      obtain ⟨before, a, after, rfl, hle, hlt⟩ := ih (fun a ha => h a (by simp [ha])) (by linarith) (by linarith) hrest
      refine ⟨b :: before, a, after, rfl, ?_, ?_⟩ <;> rw [List.map_cons, List.sum_cons] <;> linarith

theorem lengthFrom_eq_totals {length : ℚ} (h : ∀ a ∈ as, a.getTotalLength σ = .ok (total a)) :
    lengthFrom σ as 0 length = .ok (totals as length) := by
  induction as generalizing length with
  | nil => simp [lengthFrom, totals]
  | cons a as ih =>
    rw [lengthFrom, h a (by simp), ok_bind, totals]
    split_ifs
    · rfl
    · exact ih fun b hb => h b (by simp [hb])

theorem lengthFrom_skip (length : ℚ) (i : ℕ) : lengthFrom σ as i length = lengthFrom σ (as.drop i) 0 length := by
  induction i generalizing as with
  | zero => rfl
  | succ i ih =>
    cases as with
    | nil => simp [lengthFrom]
    | cons a as =>
      rw [lengthFrom, ih]
      rfl

theorem Animation.Rests.sub {id : ι} {repeatTimes : ℚ} {bookmarks : List (String × ℤ)} {sequences : List (Animation ι S)}
    (h : Animation.Rests σ (.sequence id repeatTimes bookmarks sequences)) (ha : a ∈ sequences) :
    Animation.Rests σ a :=
  fun id' hid => h id' (hid.sub ha)

theorem Animation.Rests.self {id : ι} {repeatTimes : ℚ} {bookmarks : List (String × ℤ)} {sequences : List (Animation ι S)}
    (h : Animation.Rests σ (.sequence id repeatTimes bookmarks sequences)) : σ.Rests id :=
  h id ⟨_, _, _, .refl⟩

theorem Playable.getTotalLength_eq (h : Playable a) (hrests : a.Rests σ) : a.getTotalLength σ = .ok (total a) := by
  induction a using Animation.induction with
  | missing => cases h
  | leaf l => rfl
  | sequence id repeatTimes bookmarks sequences ih =>
    cases h with
    | sequence hsub _ =>
      have hlength : lengthFrom σ sequences 0 0 = .ok (totals sequences 0) :=
        lengthFrom_eq_totals fun a ha => ih a ha (hsub a ha) (hrests.sub ha)
      rw [getTotalLength, hrests.self.1, hlength]
      rfl

theorem Playable.getOffset_eq (h : Playable a) (hrests : a.Rests σ) : a.getOffset σ = .ok 0 := by
  cases h with
  | leaf => rfl
  | sequence => rw [getOffset, hrests.self.2]

end Lengths

/-! ### What stays -/

section Confined

theorem Confined.refl (moved shown : ι → Prop) (σ : Store ι S) : Confined moved shown σ σ :=
  ⟨fun _ _ => rfl, fun _ _ => rfl, fun _ _ => rfl, fun _ _ => rfl, fun _ _ => rfl⟩

variable [DecidableEq ι] {moved shown : ι → Prop} {σ σ' σ₀ : Store ι S} {a b : Animation ι S} {id : ι} {m : ℚ}

theorem Confined.setMarker (h : Confined moved shown σ₀ σ) (hid : moved id) (m : ℚ) :
    Confined moved shown σ₀ (σ.setMarker id m) := by
  refine ⟨h.startIndex, h.offset, fun id' hid' => ?_, h.value, h.currentIndex⟩
  have hne : id' ≠ id := fun heq => hid' (heq ▸ hid)
  simpa [Store.setMarker, hne] using h.marker id' hid'

theorem Confined.setValue (h : Confined moved shown σ₀ σ) (hid : shown id) (v : ℚ) :
    Confined moved shown σ₀ (σ.setValue id v) := by
  refine ⟨h.startIndex, h.offset, h.marker, fun id' hid' => ?_, h.currentIndex⟩
  have hne : id' ≠ id := fun heq => hid' (heq ▸ hid)
  simpa [Store.setValue, hne] using h.value id' hid'

theorem Confined.setFields (h : Confined moved shown σ₀ σ) (id : ι) (s : S) :
    Confined moved shown σ₀ (σ.setFields id s) :=
  ⟨h.startIndex, h.offset, h.marker, h.value, h.currentIndex⟩

theorem Confined.setCurrentIndex (h : Confined moved shown σ₀ σ) (hid : shown id) (i : ℤ) :
    Confined moved shown σ₀ (σ.setCurrentIndex id i) := by
  refine ⟨h.startIndex, h.offset, h.marker, h.value, fun id' hid' => ?_⟩
  have hne : id' ≠ id := fun heq => hid' (heq ▸ hid)
  simpa [Store.setCurrentIndex, hne] using h.currentIndex id' hid'

theorem Confined.startAt (h : Confined moved shown σ₀ σ) (hid : moved id) (startIndex : ℕ) (offset : ℚ) :
    Confined moved shown σ₀ (σ.startAt id startIndex offset) := by
  have hne : ∀ id', ¬ moved id' → id' ≠ id := fun id' hid' heq => hid' (heq ▸ hid)
  refine ⟨fun id' hid' => ?_, fun id' hid' => ?_, h.marker, h.value, h.currentIndex⟩
  · simpa [Store.startAt, hne id' hid'] using h.startIndex id' hid'
  · simpa [Store.startAt, hne id' hid'] using h.offset id' hid'

/-- Calls on an animation stay within its objects. -/
theorem keeps_confined (hmoved : ∀ id, a.Has id → moved id) (hshown : ∀ id, a.Has id → shown id) :
    Keeps (Confined moved shown σ₀) a where
  update := fun l hl _ m h =>
    have hid : a.Has l.id := ⟨_, hl, rfl⟩
    ((h.setMarker (hmoved l.id hid) m).setFields l.id _).setValue (hshown l.id hid) _
  rewound := fun l _ _ h => h.setFields l.id _
  marker := fun id hid _ m h => h.setMarker (hmoved id hid.has) m
  shown := fun id hid _ v i h => (h.setValue (hshown id hid.has) v).setCurrentIndex (hshown id hid.has) i
  reset := fun id hid _ h => (h.startAt (hmoved id hid.has) 0 0).setCurrentIndex (hshown id hid.has) (-1)

/-- No call triggers a sequence. -/
theorem keeps_rests (P : ι → Prop) (a : Animation ι S) : Keeps (fun σ => ∀ id, P id → σ.Rests id) a where
  update := fun _ _ _ _ h => h
  rewound := fun _ _ _ h => h
  marker := fun _ _ _ _ h => h
  shown := fun _ _ _ _ _ h => h
  reset := fun id _ _ h id' hid' => by
    by_cases heq : id' = id
    · subst heq
      simp [Store.Rests, Store.reset, Store.startAt, Store.setCurrentIndex]
    · simpa [Store.Rests, Store.reset, Store.startAt, Store.setCurrentIndex, heq] using h id' hid'

theorem Animation.Rests.setMarker (h : b.Rests σ) (hσ' : a.setMarker m σ = .ok σ') : b.Rests σ' :=
  (keeps_rests b.HasSequence a).callsKeep.1 m σ σ' hσ' h

theorem Animation.Rests.rewind (h : b.Rests σ) (hσ' : a.rewind σ = .ok σ') : b.Rests σ' :=
  (keeps_rests b.HasSequence a).callsKeep.2 σ σ' hσ' h

/-! ### Taking markers -/

/-- The animation takes every marker and can be rewound where no sequence in it is triggered. -/
structure Takes (a : Animation ι S) : Prop where
  setMarker : ∀ σ m, a.Rests σ → ∃ σ', a.setMarker m σ = .ok σ'
  rewind : ∀ σ, a.Rests σ → ∃ σ', a.rewind σ = .ok σ'

theorem takes_leaf {l : Leaf ι S} (h : Playable (.leaf l)) : Takes (.leaf l) := by
  have hset : ∀ (σ : Store ι S) m, ∃ σ', l.setMarker m σ = .ok σ' := by
    intro σ m
    cases h with
    | leaf hlength =>
      unfold Leaf.setMarker
      cases hrepeat : l.repeatTimes with
      | none => exact ⟨_, rfl⟩
      | some repeatTimes =>
        have hL : l.lengthMs ≠ 0 := hlength repeatTimes hrepeat
        simp only [corrected, if_neg hL]
        exact ⟨_, rfl⟩
  refine ⟨fun σ m _ => hset σ m, fun σ _ => ?_⟩
  obtain ⟨σ', hσ'⟩ := hset σ 0
  exact ⟨_, by rw [Animation.rewind, Leaf.rewind, hσ', ok_bind]⟩

theorem rewindAll_takes {as : List (Animation ι S)} (h : ∀ a ∈ as, Takes a) (hrests : ∀ a ∈ as, a.Rests σ) :
    ∃ σ', rewindAll as σ = .ok σ' := by
  induction as generalizing σ with
  | nil => exact ⟨σ, by rw [rewindAll]⟩
  | cons a as ih =>
    obtain ⟨σ₁, hσ₁⟩ := (h a (by simp)).rewind σ (hrests a (by simp))
    obtain ⟨σ₂, hσ₂⟩ := ih (fun b hb => h b (by simp [hb])) fun b hb => (hrests b (by simp [hb])).rewind hσ₁
    exact ⟨σ₂, by rw [rewindAll, hσ₁, ok_bind, hσ₂]⟩

/-- What the sequence `id` does with its element `a` at the index `i`, into which the position falls: it rewinds
it if it is not the current one, and passes the position on. -/
def enter (id : ι) (i : ℕ) (a : Animation ι S) (p : ℚ) (σ : Store ι S) : Except Fault (Store ι S) :=
  (if i = σ.currentIndex id then .ok σ else a.rewind σ) >>= fun σ =>
    a.setMarker p σ >>= fun σ => .ok ((σ.setValue id (a.getValue σ)).setCurrentIndex id i)

theorem updateValue_cons {as : List (Animation ι S)} (h : Playable a) (hrests : a.Rests σ) (i : ℕ) (p : ℚ) :
    updateValue id (a :: as) 0 i p σ =
      if p < total a then enter id i a p σ else updateValue id as 0 (i + 1) (p - total a) σ := by
  rw [updateValue, h.getTotalLength_eq hrests, h.getOffset_eq hrests, ok_bind, ok_bind, add_zero]
  rfl

theorem updateValue_skip (as : List (Animation ι S)) (skip i : ℕ) (p : ℚ) :
    updateValue id as skip i p σ = updateValue id (as.drop skip) 0 (i + skip) p σ := by
  induction skip generalizing as i with
  | zero => rfl
  | succ skip ih =>
    cases as with
    | nil => simp [updateValue]
    | cons a as =>
      rw [updateValue, ih, Nat.add_right_comm]
      rfl

theorem enter_takes (h : Takes a) (hrests : a.Rests σ) (id : ι) (i : ℕ) (p : ℚ) : ∃ σ', enter id i a p σ = .ok σ' := by
  obtain ⟨σ₁, hσ₁, hrests₁⟩ : ∃ σ₁, (if i = σ.currentIndex id then .ok σ else a.rewind σ) = Except.ok σ₁ ∧
      a.Rests σ₁ := by
    by_cases hi : (i : ℤ) = σ.currentIndex id
    · exact ⟨σ, if_pos hi, hrests⟩
    · obtain ⟨σ₁, hσ₁⟩ := h.rewind σ hrests
      exact ⟨σ₁, (if_neg hi).trans hσ₁, hrests.rewind hσ₁⟩
  obtain ⟨σ₂, hσ₂⟩ := h.setMarker σ₁ p hrests₁
  exact ⟨_, by rw [enter, hσ₁, ok_bind, hσ₂, ok_bind]⟩

theorem updateValue_takes {as : List (Animation ι S)} (h : ∀ a ∈ as, Playable a ∧ Takes a ∧ a.Rests σ) (id : ι)
    (i : ℕ) (p : ℚ) : ∃ σ', updateValue id as 0 i p σ = .ok σ' := by
  induction as generalizing i p with
  | nil => exact ⟨σ, by rw [updateValue]⟩
  | cons a as ih =>
    obtain ⟨hplayable, htakes, hrests⟩ := h a (by simp)
    rw [updateValue_cons hplayable hrests]
    by_cases hp : p < total a
    · rw [if_pos hp]
      exact enter_takes htakes hrests id i p
    · rw [if_neg hp]
      exact ih (fun b hb => h b (by simp [hb])) (i + 1) (p - total a)

/-- The loop of `UpdateValue` goes past the elements that end up to the position. -/
theorem updateValue_append {before : List (Animation ι S)} (as : List (Animation ι S)) {p : ℚ}
    (h : ∀ b ∈ before, Playable b ∧ b.Rests σ ∧ 0 ≤ total b) (hle : (before.map total).sum ≤ p) (i : ℕ) :
    updateValue id (before ++ as) 0 i p σ =
      updateValue id as 0 (i + before.length) (p - (before.map total).sum) σ := by
  induction before generalizing i p with
  | nil => simp
  | cons b before ih =>
    obtain ⟨hplayable, hrests, hnonneg⟩ := h b (by simp)
    have hsum : 0 ≤ (before.map total).sum := List.sum_nonneg fun x hx => by
      obtain ⟨c, hc, rfl⟩ := List.mem_map.mp hx
      exact (h c (by simp [hc])).2.2
    rw [List.map_cons, List.sum_cons] at hle ⊢
    have hb : ¬ p < total b := by linarith
    rw [List.cons_append, updateValue_cons hplayable hrests, if_neg hb, ih (fun c hc => h c (by simp [hc])) (by linarith),
      sub_sub, List.length_cons, Nat.add_right_comm, Nat.add_assoc]

/-- The loop of `UpdateValue` enters the element into which the position falls. -/
theorem updateValue_split {before after : List (Animation ι S)} {p : ℚ}
    (h : ∀ b ∈ before ++ [a], Playable b ∧ b.Rests σ ∧ 0 ≤ total b) (hle : (before.map total).sum ≤ p)
    (hlt : p < (before.map total).sum + total a) (i : ℕ) :
    updateValue id (before ++ a :: after) 0 i p σ =
      enter id (i + before.length) a (p - (before.map total).sum) σ := by
  obtain ⟨hplayable, hrests, -⟩ := h a (by simp)
  rw [updateValue_append _ (fun b hb => h b (by simp [hb])) hle, updateValue_cons hplayable hrests,
    if_pos (by linarith)]

theorem takes_sequence {repeatTimes : ℚ} {bookmarks : List (String × ℤ)} {sequences : List (Animation ι S)}
    (h : ∀ a ∈ sequences, Playable a ∧ Takes a) (hlength : totals sequences 0 ≠ 0) :
    Takes (.sequence id repeatTimes bookmarks sequences) := by
  have hset : ∀ (σ : Store ι S) m, Animation.Rests σ (.sequence id repeatTimes bookmarks sequences) →
      ∃ σ', (Animation.sequence id repeatTimes bookmarks sequences).setMarker m σ = .ok σ' := by
    intro σ m hrests
    have hlengths : lengthFrom σ sequences (σ.startIndex id) 0 = .ok (totals sequences 0) := by
      rw [hrests.self.1]
      exact lengthFrom_eq_totals fun a ha => (h a ha).1.getTotalLength_eq (hrests.sub ha)
    obtain ⟨p, hp⟩ : ∃ p, corrected (totals sequences 0) repeatTimes m = .ok p :=
      ⟨_, by rw [corrected, if_neg hlength]⟩
    have hsub : ∀ a ∈ sequences, Playable a ∧ Takes a ∧ a.Rests (σ.setMarker id p) := fun a ha =>
      ⟨(h a ha).1, (h a ha).2, (hrests.sub ha : a.Rests σ)⟩
    obtain ⟨σ', hσ'⟩ := updateValue_takes hsub id 0 (p - σ.offset id)
    refine ⟨σ', ?_⟩
    rw [Animation.setMarker, hlengths, ok_bind, hp, ok_bind, hrests.self.1]
    exact hσ'
  refine ⟨hset, fun σ hrests => ?_⟩
  obtain ⟨σ₁, hσ₁⟩ := rewindAll_takes (σ := σ) (fun a ha => (h a ha).2) fun a ha => hrests.sub ha
  have hrests₁ : Animation.Rests σ₁ (.sequence id repeatTimes bookmarks sequences) := fun id' hid' =>
    rewindAll_keeps (fun a _ => (keeps_rests _ a).callsKeep) hσ₁ hrests id' hid'
  obtain ⟨σ₂, hσ₂⟩ := hset σ₁ 0 hrests₁
  refine ⟨σ₂.reset id, ?_⟩
  have hrewind : (Animation.sequence id repeatTimes bookmarks sequences).rewind σ =
      rewindAll sequences σ >>= fun σ =>
        (Animation.sequence id repeatTimes bookmarks sequences).setMarker 0 σ >>= fun σ =>
          .ok (σ.reset id) := by
    simp only [rewind, Animation.setMarker, bind_assoc]
  rw [hrewind, hσ₁, ok_bind, hσ₂, ok_bind]

/-- **Every playable animation takes every marker.** -/
theorem Playable.takes (h : Playable a) : Takes a := by
  induction a using Animation.induction with
  | missing => cases h
  | leaf l => exact takes_leaf h
  | sequence id repeatTimes bookmarks sequences ih =>
    cases h with
    | sequence hsub hlength => exact takes_sequence (fun a ha => ⟨hsub a ha, ih a ha (hsub a ha)⟩) hlength

theorem rewindAll_rests {as : List (Animation ι S)} (h : ∀ a ∈ as, ∀ σ σ', a.rewind σ = .ok σ' → a.Rests σ')
    (hσ' : rewindAll as σ = .ok σ') : ∀ a ∈ as, a.Rests σ' := by
  induction as generalizing σ with
  | nil => simp
  | cons a as ih =>
    rw [rewindAll] at hσ'
    obtain ⟨σ₁, hσ₁, hrest⟩ := bind_eq_ok.mp hσ'
    intro b hb
    rcases List.mem_cons.mp hb with rfl | hb
    · exact rewindAll_keeps (fun c _ => (keeps_rests b.HasSequence c).callsKeep) hrest (h b (by simp) σ σ₁ hσ₁)
    · exact ih (fun c hc => h c (by simp [hc])) hrest b hb

/-- After `Rewind` no sequence is triggered. -/
theorem rests_of_rewind (h : a.rewind σ = .ok σ') : a.Rests σ' := by
  induction a using Animation.induction generalizing σ σ' with
  | missing =>
    rw [rewind] at h
    cases h
  | leaf l =>
    rintro id ⟨repeatTimes, bookmarks, sequences, hpart⟩
    cases hpart
  | sequence id repeatTimes bookmarks sequences ih =>
    rw [rewind] at h
    obtain ⟨σ₁, hσ₁, h⟩ := bind_eq_ok.mp h
    obtain ⟨L, -, h⟩ := bind_eq_ok.mp h
    obtain ⟨p, -, h⟩ := bind_eq_ok.mp h
    obtain ⟨σ₂, hσ₂, h⟩ := bind_eq_ok.mp h
    have hsub : ∀ a ∈ sequences, a.Rests σ₂ := fun a ha =>
      updateValue_keeps (fun b _ => (keeps_rests a.HasSequence b).callsKeep) (fun _ _ _ h => h) hσ₂
        (rewindAll_rests (fun b hb σ σ' => ih b hb) hσ₁ a ha)
    rw [← Except.ok.inj h]
    rintro id' ⟨repeatTimes', bookmarks', sequences', hpart⟩
    by_cases heq : id' = id
    · subst heq
      simp [Store.Rests, Store.reset, Store.startAt, Store.setCurrentIndex]
    · cases hpart with
      | refl => exact absurd rfl heq
      | sub ha hpart =>
        have hrest : σ₂.Rests id' := hsub _ ha id' ⟨_, _, _, hpart⟩
        simpa [Store.Rests, Store.reset, Store.startAt, Store.setCurrentIndex, heq] using hrest

end Confined

end HueStream.Animations
