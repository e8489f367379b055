import HueStream.Animations.Regular

/-! # What every call keeps

`SetMarker` and `Rewind` change the store in five ways: the update of a leaf, the end of its `Rewind`, and of a sequence
the marker, what it shows, and its reset. What these keep, every call that goes right keeps (`Keeps.setMarker`,
`Keeps.rewind`). So no call triggers a sequence, and a call changes nothing but the objects in the animation. -/

namespace HueStream.Animations

variable {ι S : Type}

namespace Animation

/-- The identity is that of an object in the animation. -/
def Has (a : Animation ι S) (id : ι) : Prop := ∃ b, Part b a ∧ b.ident = some id

/-- The identity is that of a sequence in the animation. -/
def HasSequence (a : Animation ι S) (id : ι) : Prop :=
  ∃ repeatTimes bookmarks sequences, Part (.sequence id repeatTimes bookmarks sequences) a

end Animation

open Animation

section Names

variable {a : Animation ι S} {id : ι}

theorem Animation.has_sub {repeatTimes : ℚ} {bookmarks : List (String × ℤ)} {sequences : List (Animation ι S)}
    {id' : ι} (ha : a ∈ sequences) (h : a.Has id') :
    (Animation.sequence id repeatTimes bookmarks sequences).Has id' := by
  obtain ⟨b, hpart, hident⟩ := h
  exact ⟨b, .sub ha hpart, hident⟩

theorem Animation.HasSequence.sub {repeatTimes : ℚ} {bookmarks : List (String × ℤ)}
    {sequences : List (Animation ι S)} {id' : ι} (ha : a ∈ sequences) (h : a.HasSequence id') :
    (Animation.sequence id repeatTimes bookmarks sequences).HasSequence id' := by
  obtain ⟨repeatTimes', bookmarks', sequences', hpart⟩ := h
  exact ⟨repeatTimes', bookmarks', sequences', .sub ha hpart⟩

theorem Animation.HasSequence.has (h : a.HasSequence id) : a.Has id := by
  obtain ⟨repeatTimes, bookmarks, sequences, hpart⟩ := h
  exact ⟨_, hpart, rfl⟩

end Names

variable [DecidableEq ι]

/-- The changes that calls on the animation are made of keep `J`. -/
structure Keeps (J : Store ι S → Prop) (a : Animation ι S) : Prop where
  update : ∀ l, Part (.leaf l) a → ∀ σ m, J σ → J (l.update m σ)
  rewound : ∀ l, Part (.leaf l) a → ∀ σ, J σ → J (σ.setFields l.id (l.rewound (σ.fields l.id)))
  marker : ∀ id, a.HasSequence id → ∀ σ m, J σ → J (σ.setMarker id m)
  shown : ∀ id, a.HasSequence id → ∀ σ v i, J σ → J ((σ.setValue id v).setCurrentIndex id i)
  reset : ∀ id, a.HasSequence id → ∀ σ, J σ → J (σ.reset id)

section

variable {J : Store ι S → Prop} {a : Animation ι S} {as : List (Animation ι S)} {σ σ' : Store ι S} {id : ι}

theorem Keeps.sub {repeatTimes : ℚ} {bookmarks : List (String × ℤ)} {sequences : List (Animation ι S)}
    (h : Keeps J (.sequence id repeatTimes bookmarks sequences)) (ha : a ∈ sequences) : Keeps J a where
  update := fun l hl => h.update l (.sub ha hl)
  rewound := fun l hl => h.rewound l (.sub ha hl)
  marker := fun id' hid => h.marker id' (hid.sub ha)
  shown := fun id' hid => h.shown id' (hid.sub ha)
  reset := fun id' hid => h.reset id' (hid.sub ha)

/-- Calls on the animation keep `J`. -/
def CallsKeep (J : Store ι S → Prop) (a : Animation ι S) : Prop :=
  (∀ m σ σ', a.setMarker m σ = .ok σ' → J σ → J σ') ∧ ∀ σ σ', a.rewind σ = .ok σ' → J σ → J σ'

theorem callsKeep_leaf {l : Leaf ι S} (h : Keeps J (.leaf l)) : CallsKeep J (.leaf l) := by
  have hset : ∀ m σ σ', l.setMarker m σ = .ok σ' → J σ → J σ' := by
    intro m σ σ' hσ' hJ
    unfold Leaf.setMarker at hσ'
    split at hσ'
    · rw [← Except.ok.inj hσ']
      exact h.update l .refl σ m hJ
    · obtain ⟨p, -, hupdate⟩ := bind_eq_ok.mp hσ'
      rw [← Except.ok.inj hupdate]
      exact h.update l .refl σ p hJ
  refine ⟨hset, fun σ σ' hσ' hJ => ?_⟩
  rw [Animation.rewind, Leaf.rewind] at hσ'
  obtain ⟨σ₁, hσ₁, hrewound⟩ := bind_eq_ok.mp hσ'
  rw [← Except.ok.inj hrewound]
  exact h.rewound l .refl σ₁ (hset 0 σ σ₁ hσ₁ hJ)

theorem rewindAll_keeps (h : ∀ a ∈ as, CallsKeep J a) (hσ' : rewindAll as σ = .ok σ') (hJ : J σ) : J σ' := by
  induction as generalizing σ with
  | nil =>
    rw [rewindAll] at hσ'
    exact Except.ok.inj hσ' ▸ hJ
  | cons a as ih =>
    rw [rewindAll] at hσ'
    obtain ⟨σ₁, hσ₁, hrest⟩ := bind_eq_ok.mp hσ'
    exact ih (fun b hb => h b (by simp [hb])) hrest ((h a (by simp)).2 σ σ₁ hσ₁ hJ)

theorem updateValue_keeps (h : ∀ a ∈ as, CallsKeep J a)
    (hshown : ∀ σ v i, J σ → J ((σ.setValue id v).setCurrentIndex id i)) {skip i : ℕ} {p : ℚ}
    (hσ' : updateValue id as skip i p σ = .ok σ') (hJ : J σ) : J σ' := by
  induction as generalizing skip i p with
  | nil =>
    rw [updateValue] at hσ'
    exact Except.ok.inj hσ' ▸ hJ
  | cons a as ih =>
    have hrest : ∀ skip i p, updateValue id as skip i p σ = .ok σ' → J σ' := fun skip i p hσ' =>
      ih (fun b hb => h b (by simp [hb])) hσ'
    cases skip with
    | succ skip =>
      rw [updateValue] at hσ'
      exact hrest skip (i + 1) p hσ'
    | zero =>
      rw [updateValue] at hσ'
      obtain ⟨total, -, hσ'⟩ := bind_eq_ok.mp hσ'
      obtain ⟨offset, -, hσ'⟩ := bind_eq_ok.mp hσ'
      dsimp only at hσ'
      by_cases hfalls : p < total + offset
      · rw [if_pos hfalls] at hσ'
        obtain ⟨σ₁, hσ₁, hσ'⟩ := bind_eq_ok.mp hσ'
        obtain ⟨σ₂, hσ₂, hσ'⟩ := bind_eq_ok.mp hσ'
        have hJ₁ : J σ₁ := by
          split_ifs at hσ₁
          · exact Except.ok.inj hσ₁ ▸ hJ
          · exact (h a (by simp)).2 σ σ₁ hσ₁ hJ
        rw [← Except.ok.inj hσ']
        exact hshown σ₂ _ _ ((h a (by simp)).1 p σ₁ σ₂ hσ₂ hJ₁)
      · rw [if_neg hfalls] at hσ'
        exact hrest 0 (i + 1) _ hσ'

/-- **Every call keeps what its changes keep.** -/
theorem Keeps.callsKeep (h : Keeps J a) : CallsKeep J a := by
  induction a using Animation.induction with
  | missing =>
    refine ⟨fun m σ σ' hσ' => ?_, fun σ σ' hσ' => ?_⟩
    · rw [Animation.setMarker] at hσ'
      cases hσ'
    · rw [Animation.rewind] at hσ'
      cases hσ'
  | leaf l => exact callsKeep_leaf h
  | sequence id repeatTimes bookmarks sequences ih =>
    have hself : (Animation.sequence id repeatTimes bookmarks sequences).HasSequence id := ⟨_, _, _, .refl⟩
    have hsub : ∀ a ∈ sequences, CallsKeep J a := fun a ha => ih a ha (h.sub ha)
    have hset : ∀ (σ σ' : Store ι S) (lengths : Except Fault ℚ) (m : ℚ), lengths >>= (fun lengthMs =>
        corrected lengthMs repeatTimes m >>= fun marker =>
          updateValue id sequences (σ.startIndex id) 0 (marker - σ.offset id) (σ.setMarker id marker)) = .ok σ' →
        J σ → J σ' := by
      intro σ σ' lengths m hσ' hJ
      obtain ⟨L, -, hσ'⟩ := bind_eq_ok.mp hσ'
      obtain ⟨p, -, hσ'⟩ := bind_eq_ok.mp hσ'
      exact updateValue_keeps hsub (h.shown id hself) hσ' (h.marker id hself σ p hJ)
    refine ⟨fun m σ σ' hσ' hJ => ?_, fun σ σ' hσ' hJ => ?_⟩
    · rw [Animation.setMarker] at hσ'
      exact hset σ σ' _ m hσ' hJ
    · rw [Animation.rewind] at hσ'
      obtain ⟨σ₁, hσ₁, hσ'⟩ := bind_eq_ok.mp hσ'
      have hJ₁ : J σ₁ := rewindAll_keeps hsub hσ₁ hJ
      obtain ⟨L, hL, hσ'⟩ := bind_eq_ok.mp hσ'
      obtain ⟨p, hp, hσ'⟩ := bind_eq_ok.mp hσ'
      obtain ⟨σ₂, hσ₂, hσ'⟩ := bind_eq_ok.mp hσ'
      rw [← Except.ok.inj hσ']
      exact h.reset id hself σ₂ (updateValue_keeps hsub (h.shown id hself) hσ₂ (h.marker id hself σ₁ p hJ₁))

end

end HueStream.Animations
