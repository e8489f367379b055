import HueStream.Animations.Playing
import HueStream.Animations.Shows

/-! # Triggering a sequence

`Trigger` stores the marker as an offset and starts at an element. Later the base class takes the marker modulo the
new length, before the offset is subtracted, and `IsPlaying` compares with the length of one repetition. So the
elements from the trigger on are played from the marker of the trigger only where there is no repetition, or where
that marker is 0. -/

namespace HueStream.Animations

open Animation

variable {ι S : Type}

/-- The two `Trigger` functions. -/
inductive TriggerCall
  | index (index : ℤ)
  | bookmark (bookmark : String)

/-- The index a call triggers. -/
def TriggerCall.target (s : SequenceAnimation ι S) : TriggerCall → Option ℤ
  | .index i => some i
  | .bookmark name => s.find name

def TriggerCall.run [DecidableEq ι] (s : SequenceAnimation ι S) (σ : Store ι S) :
    TriggerCall → Except Fault (Store ι S)
  | .index i => s.triggerIndex i σ
  | .bookmark name => s.trigger name σ

/-- A marker that is a number of type `double` and of which an `int64_t` counts the lengths `L`. -/
def Counted (L m : ℚ) : Prop := m < L * 2 ^ 63 ∧ m < INF

instance (L m : ℚ) : Decidable (Counted L m) := inferInstanceAs (Decidable (_ ∧ _))

namespace SequenceAnimation

variable (s : SequenceAnimation ι S) (i : ℕ) (m : ℚ)

/-- No sequence stands in itself. -/
def Apart : Prop := ∀ a ∈ s.sequences, ¬ a.Has s.id

/-- The sequence starts at the index `i`, with the offset `m`, and no sequence in it is triggered. -/
structure Triggered (σ : Store ι S) : Prop where
  startIndex : σ.startIndex s.id = i
  offset : σ.offset s.id = m
  rests : ∀ a ∈ s.sequences, a.Rests σ

theorem isPlaying_of_triggered {s : SequenceAnimation ι S} {i : ℕ} {m L : ℚ} {σ : Store ι S}
    (hplayable : ∀ a ∈ s.sequences, Playable a) (hi : i < s.sequences.length)
    (h : s.Triggered i m σ) (hL : totals (s.sequences.drop i) 0 = L) :
    s.isPlaying σ = .ok (decide (σ.marker s.id - m < L)) := by
  have hmem : s.sequences[i] ∈ s.sequences := List.getElem_mem hi
  have helement : s.element (σ.startIndex s.id) = .ok s.sequences[i] := by
    rw [element, h.startIndex, List.getElem?_eq_getElem hi]
  have hlength : s.getLengthMs σ = .ok L := by
    rw [getLengthMs, h.startIndex, lengthFrom_skip, ← hL]
    exact lengthFrom_eq_totals fun a ha =>
      (hplayable a (List.mem_of_mem_drop ha)).getTotalLength_eq (h.rests a (List.mem_of_mem_drop ha))
  rw [isPlaying, helement, ok_bind, (hplayable _ hmem).getOffset_eq (h.rests _ hmem), ok_bind, hlength, ok_bind,
    h.offset, add_zero]

theorem totals_drop_pos {s : SequenceAnimation ι S} {i : ℕ} (hpositive : ∀ a ∈ s.sequences, Positive a) (hi : i < s.sequences.length) :
    0 < totals (s.sequences.drop i) 0 :=
  totals_pos (fun a ha => (hpositive a (List.mem_of_mem_drop ha)).total_pos) le_rfl
    (List.drop_eq_nil_iff.not.mpr (not_le.mpr hi))

variable [DecidableEq ι]

/-- The sequence shows what the elements from the index `i` on have at the position `p`: the value of the
element into which it falls, at the position in it, which is rewound before unless it was the current one. -/
def ShowsAt (p : ℚ) (σ σ' : Store ι S) : Prop :=
  ∃ before a after σ₁ σ₂, s.sequences.drop i = before ++ a :: after ∧
    (before.map total).sum ≤ p ∧ p < (before.map total).sum + total a ∧
    (if σ.currentIndex s.id = (i + before.length : ℕ) then σ₁ = σ else a.rewind σ = .ok σ₁) ∧
    a.setMarker (p - (before.map total).sum) σ₁ = .ok σ₂ ∧ σ'.value s.id = a.getValue σ₂

/-- The elements from the index `i` on, of the length `L`, are played from the marker `m` on, and the sequence is
playing for as long as their repetitions last, whatever markers have followed that marker. -/
def PlaysFrom (L : ℚ) (σ : Store ι S) : Prop :=
  ∀ ds : List ℚ, (∀ d ∈ ds, 0 ≤ d ∧ Counted L (m + d)) →
    ∃ σ₁, s.setMarkers (ds.map (m + ·)) σ = .ok σ₁ ∧
      ∀ d, 0 ≤ d → Counted L (m + d) →
        ∃ σ₂, s.setMarker (m + d) σ₁ = .ok σ₂ ∧
          s.isPlaying σ₂ = .ok (decide (d < repeatedLength L s.repeatTimes)) ∧
          (d < repeatedLength L s.repeatTimes →
            ∃ marker, s.ShowsAt i (modLength L d) (σ₁.setMarker s.id marker) σ₂)

variable {s i m} {σ σ' : Store ι S} {L x p : ℚ}

/-! ### One marker -/

theorem setMarker_of_triggered (hplayable : ∀ a ∈ s.sequences, Playable a) (hapart : s.Apart)
    (h : s.Triggered i m σ) (hL : totals (s.sequences.drop i) 0 = L) (hne : L ≠ 0) (x : ℚ) :
    ∃ c σ', corrected L s.repeatTimes x = .ok c ∧ s.setMarker x σ = .ok σ' ∧
      updateValue s.id (s.sequences.drop i) 0 i (c - m) (σ.setMarker s.id c) = .ok σ' ∧
      s.Triggered i m σ' ∧ σ'.marker s.id = c := by
  obtain ⟨c, hc⟩ : ∃ c, corrected L s.repeatTimes x = .ok c := ⟨_, by rw [corrected, if_neg hne]⟩
  have hmarked : ∀ a ∈ s.sequences, a.Rests (σ.setMarker s.id c) := h.rests
  have hdrop : ∀ a ∈ s.sequences.drop i, a ∈ s.sequences := fun a ha => List.mem_of_mem_drop ha
  obtain ⟨σ', hσ'⟩ : ∃ σ', updateValue s.id (s.sequences.drop i) 0 i (c - m) (σ.setMarker s.id c) = .ok σ' :=
    updateValue_takes (fun a ha => ⟨hplayable a (hdrop a ha), (hplayable a (hdrop a ha)).takes, hmarked a (hdrop a ha)⟩)
      s.id i (c - m)
  have hkept : Confined (fun id => ∃ a ∈ s.sequences, a.Has id) (fun _ => True) (σ.setMarker s.id c) σ' :=
    updateValue_keeps (fun a ha => (keeps_confined (fun id hid => ⟨a, hdrop a ha, hid⟩) fun _ _ => trivial).callsKeep)
      (fun σ v k h => (h.setValue trivial v).setCurrentIndex trivial k) hσ' (.refl _ _ _)
  have hrests : ∀ a ∈ s.sequences, a.Rests σ' := fun a ha =>
    updateValue_keeps (fun b _ => (keeps_rests a.HasSequence b).callsKeep) (fun _ _ _ h => h) hσ' (hmarked a ha)
  have hout : ¬ ∃ a ∈ s.sequences, a.Has s.id := by
    rintro ⟨a, ha, hid⟩
    exact hapart a ha hid
  refine ⟨c, σ', hc, ?_, hσ', ⟨?_, ?_, hrests⟩, ?_⟩
  · have hlength : lengthFrom σ s.sequences (σ.startIndex s.id) 0 = .ok L := by
      rw [h.startIndex, lengthFrom_skip, ← hL]
      exact lengthFrom_eq_totals fun a ha => (hplayable a (hdrop a ha)).getTotalLength_eq (h.rests a (hdrop a ha))
    rw [SequenceAnimation.setMarker, toAnimation, Animation.setMarker, hlength, ok_bind, hc, ok_bind, h.startIndex,
      h.offset, updateValue_skip, zero_add, hσ']
  · rw [hkept.startIndex s.id hout]
    exact h.startIndex
  · rw [hkept.offset s.id hout]
    exact h.offset
  · rw [hkept.marker s.id hout]
    simp [Store.setMarker]

/-! ### Positions -/

/-- What the loop of `UpdateValue` makes of a position below the length. -/
theorem showsAt_of_updateValue (hpositive : ∀ a ∈ s.sequences, Positive a) (hrests : ∀ a ∈ s.sequences, a.Rests σ)
    (hp : 0 ≤ p) (hfinite : p < INF) (hlt : p < totals (s.sequences.drop i) 0)
    (hσ' : updateValue s.id (s.sequences.drop i) 0 i p σ = .ok σ') : s.ShowsAt i p σ σ' := by
  have hmem : ∀ a ∈ s.sequences.drop i, a ∈ s.sequences := fun a ha => List.mem_of_mem_drop ha
  obtain ⟨before, a, after, hsplit, hle, hfalls⟩ :=
    exists_total_split (fun a ha => (hpositive a (hmem a ha)).total_pos.le) hp hfinite hlt
  have hall : ∀ b ∈ before ++ [a], Playable b ∧ b.Rests σ ∧ 0 ≤ total b := by
    intro b hb
    have hbs : b ∈ s.sequences := by
      refine hmem b ?_
      rw [hsplit]
      simp only [List.mem_append, List.mem_cons, List.not_mem_nil, or_false] at hb ⊢
      tauto
    exact ⟨(hpositive b hbs).playable, hrests b hbs, (hpositive b hbs).total_pos.le⟩
  rw [hsplit, updateValue_split hall hle hfalls, enter] at hσ'
  obtain ⟨σ₁, hσ₁, hentered⟩ := bind_eq_ok.mp hσ'
  obtain ⟨σ₂, hσ₂, hvalue⟩ := bind_eq_ok.mp hentered
  refine ⟨before, a, after, σ₁, σ₂, hsplit, hle, hfalls, ?_, hσ₂, ?_⟩
  · split_ifs with hcurrent
    · rw [if_pos hcurrent.symm] at hσ₁
      exact (Except.ok.inj hσ₁).symm
    · rwa [if_neg (Ne.symm hcurrent)] at hσ₁
  · rw [← Except.ok.inj hvalue]
    simp [Store.setValue, Store.setCurrentIndex]

/-! ### The offset and the repetitions -/

/-- Where the marker of the trigger makes no difference, the position is that of the time since the trigger, and
lies below the length for as long as the repetitions last. -/
theorem corrected_of_harmless {n : ℕ} {d : ℚ} (hL : 0 < L) (hm : 0 ≤ m) (hd : 0 ≤ d) (hcounted : Counted L (m + d))
    (h : n = 0 ∨ m = 0 ∨ L = INF) : ∃ c, corrected L n (m + d) = .ok c ∧
      (d < repeatedLength L n → c - m = modLength L d) ∧ (c - m < L ↔ d < repeatedLength L n) := by
  refine ⟨_, corrected_eq hL (by linarith) hcounted.1, ?_⟩
  by_cases hendless : L = INF
  · have hlt : m + d < L := hendless ▸ hcounted.2
    have hall : m + d < L * (n + 1) := by
      have hn : (0 : ℚ) ≤ n := Nat.cast_nonneg n
      nlinarith
    have hd' : d < L := by linarith
    have htotal : repeatedLength L n = L := by rw [repeatedLength, if_pos (.inl hendless), hendless]
    rw [if_pos hall, modLength_of_lt (by linarith) hlt, modLength_of_lt hd hd', htotal, add_sub_cancel_left]
    exact ⟨fun _ => rfl, Iff.rfl⟩
  · rcases h with rfl | rfl | h
    · have hzero : ((0 : ℕ) : ℚ) ≠ INF := by
        rw [Nat.cast_zero]
        exact INF_pos.ne
      have htotal : repeatedLength L (0 : ℕ) = L := by
        rw [repeatedLength, if_neg (by simp only [hendless, hzero, or_self, not_false_eq_true])]
        simp
      have hc : (if m + d < L * ((0 : ℕ) + 1) then modLength L (m + d) else m + d) = m + d := by
        split_ifs with hlt
        · exact modLength_of_lt (by linarith) (by simpa using hlt)
        · rfl
      rw [hc, htotal, add_sub_cancel_left]
      exact ⟨fun hlt => (modLength_of_lt hd hlt).symm, Iff.rfl⟩
    · rw [zero_add] at hcounted ⊢
      rw [sub_zero]
      by_cases hlt : d < repeatedLength L n
      · have hrepetition : d < L * (n + 1) := lt_repetitions hL hlt hcounted.1
        rw [if_pos hrepetition]
        exact ⟨fun _ => rfl, iff_of_true (modLength_lt hL) hlt⟩
      · have htotal : repeatedLength L n = L * (n + 1) := by
          unfold repeatedLength at hlt ⊢
          split_ifs at hlt ⊢ with hINF
          · exact absurd hcounted.2 hlt
          · rfl
        have hbehind : L ≤ d := by
          rw [htotal] at hlt
          have hn : (0 : ℚ) ≤ n := Nat.cast_nonneg n
          nlinarith
        rw [if_neg (htotal ▸ hlt)]
        exact ⟨fun h => absurd h hlt, iff_of_false (not_lt.mpr hbehind) hlt⟩
    · exact absurd h hendless

theorem exists_setMarkers (hplayable : ∀ a ∈ s.sequences, Playable a) (hapart : s.Apart)
    (h : s.Triggered i m σ) (hne : totals (s.sequences.drop i) 0 ≠ 0) (xs : List ℚ) :
    ∃ σ', s.setMarkers xs σ = .ok σ' ∧ s.Triggered i m σ' := by
  induction xs generalizing σ with
  | nil => exact ⟨σ, rfl, h⟩
  | cons x xs ih =>
    obtain ⟨-, σ₁, -, hσ₁, -, h₁, -⟩ := setMarker_of_triggered hplayable hapart h rfl hne x
    obtain ⟨σ₂, hσ₂, h₂⟩ := ih h₁
    refine ⟨σ₂, ?_, h₂⟩
    rw [setMarkers, List.foldlM_cons, hσ₁]
    exact hσ₂

theorem playsFrom_of_harmless (hpositive : ∀ a ∈ s.sequences, Positive a) (hapart : s.Apart)
    (hi : i < s.sequences.length) {n : ℕ} (hcount : s.repeatTimes = n) (hm : 0 ≤ m) (h : s.Triggered i m σ)
    (hL : totals (s.sequences.drop i) 0 = L) (hharmless : n = 0 ∨ m = 0 ∨ L = INF) : s.PlaysFrom i m L σ := by
  have hplayable : ∀ a ∈ s.sequences, Playable a := fun a ha => (hpositive a ha).playable
  have hpos : 0 < L := hL ▸ totals_drop_pos hpositive hi
  intro ds hds
  obtain ⟨σ₁, hσ₁, h₁⟩ := exists_setMarkers hplayable hapart h (hL ▸ hpos.ne') (ds.map (m + ·))
  refine ⟨σ₁, hσ₁, fun d hd hcounted => ?_⟩
  obtain ⟨c, σ₂, hc, hσ₂, hupdate, h₂, hmarker⟩ :=
    setMarker_of_triggered hplayable hapart h₁ hL hpos.ne' (m + d)
  obtain ⟨c', hc', hposition, hplaying⟩ := corrected_of_harmless hpos hm hd hcounted hharmless
  rw [hcount, hc'] at hc
  obtain rfl := Except.ok.inj hc
  refine ⟨σ₂, hσ₂, ?_, fun hlt => ⟨c', ?_⟩⟩
  · rw [isPlaying_of_triggered hplayable hi h₂ hL, hmarker, hcount]
    simp only [hplaying]
  · rw [hcount] at hlt
    rw [hposition hlt] at hupdate
    have hbelow : modLength L d < L := modLength_lt hpos
    have hle : modLength L d ≤ d := by
      have hfloor : (0 : ℚ) ≤ ⌊d / L⌋ := by exact_mod_cast Int.floor_nonneg.mpr (div_nonneg hd hpos.le)
      unfold modLength
      nlinarith
    refine showsAt_of_updateValue hpositive h₁.rests (modLength_nonneg hpos) ?_ (hL ▸ hbelow) hupdate
    linarith [hcounted.2]

/-- With repetitions that come to an end, a marker of the trigger other than 0 makes the sequence end too
early. -/
theorem harmless_of_playsFrom (hpositive : ∀ a ∈ s.sequences, Positive a) (hapart : s.Apart)
    (hi : i < s.sequences.length) {n : ℕ} (hcount : s.repeatTimes = n) (hm : 0 ≤ m) (h : s.Triggered i m σ)
    (hL : totals (s.sequences.drop i) 0 = L) (hend : Counted L (repeatedLength L n)) (hsecond : Counted L (m + L))
    (hplays : s.PlaysFrom i m L σ) : n = 0 ∨ m = 0 := by
  by_contra hnot
  obtain ⟨hn, hm'⟩ := not_or.mp hnot
  have hplayable : ∀ a ∈ s.sequences, Playable a := fun a ha => (hpositive a ha).playable
  have hpos : 0 < L := hL ▸ totals_drop_pos hpositive hi
  have hmpos : 0 < m := lt_of_le_of_ne hm (Ne.symm hm')
  have hone : (1 : ℚ) ≤ n := by exact_mod_cast Nat.one_le_iff_ne_zero.mpr hn
  have htotal : repeatedLength L n = L * (n + 1) := by
    have hlt := hend.2
    unfold repeatedLength at hlt ⊢
    split_ifs at hlt ⊢
    · exact absurd hlt (lt_irrefl _)
    · rfl
  -- The first marker from which on neither a repetition nor the offset is left to subtract.
  have hx : m + max (repeatedLength L n - m) L = max (repeatedLength L n) (m + L) := by
    rw [← max_add_add_left, add_sub_cancel]
  have hd : 0 ≤ max (repeatedLength L n - m) L := hpos.le.trans (le_max_right _ _)
  have hcounted : Counted L (m + max (repeatedLength L n - m) L) := by
    rw [hx]
    exact ⟨max_lt hend.1 hsecond.1, max_lt hend.2 hsecond.2⟩
  obtain ⟨σ₁, hσ₁, hall⟩ := hplays [] (by simp)
  obtain rfl : σ = σ₁ := Except.ok.inj hσ₁
  obtain ⟨σ₂, hσ₂, hplaying, -⟩ := hall _ hd hcounted
  obtain ⟨c, σ₂', hc, hσ₂', -, h₂, hmarker⟩ :=
    setMarker_of_triggered hplayable hapart h hL hpos.ne' (m + max (repeatedLength L n - m) L)
  rw [hσ₂] at hσ₂'
  obtain rfl := Except.ok.inj hσ₂'
  have hbehind : ¬ m + max (repeatedLength L n - m) L < L * (n + 1) := by
    rw [hx, ← htotal]
    exact not_lt.mpr (le_max_left _ _)
  rw [hcount, corrected_eq hpos (by linarith) hcounted.1, if_neg hbehind] at hc
  obtain rfl := Except.ok.inj hc
  rw [isPlaying_of_triggered hplayable hi h₂ hL, hmarker, add_sub_cancel_left] at hplaying
  have hlt : max (repeatedLength L n - m) L < repeatedLength L n := by
    refine max_lt (by linarith) ?_
    rw [htotal]
    nlinarith
  have hdecide := Except.ok.inj hplaying
  rw [hcount, decide_eq_true hlt] at hdecide
  exact absurd (of_decide_eq_true hdecide) (not_lt.mpr (le_max_right _ _))

theorem TriggerCall.run_eq {call : TriggerCall} {s : SequenceAnimation ι S} {i : ℕ} (σ : Store ι S)
    (htarget : call.target s = some (i : ℤ)) (hi : i < 2 ^ 31) :
    call.run s σ = s.setMarker (σ.marker s.id) (σ.startAt s.id i (σ.marker s.id)) := by
  have hsize : SequenceAnimation.toSize i = i := by
    unfold SequenceAnimation.toSize
    omega
  cases call with
  | index j =>
    obtain rfl : j = i := Option.some.inj htarget
    rw [TriggerCall.run, SequenceAnimation.triggerIndex, SequenceAnimation.updateSequence, hsize]
  | bookmark name =>
    replace htarget : s.find name = some (i : ℤ) := htarget
    rw [TriggerCall.run, SequenceAnimation.trigger, htarget]
    simp only [SequenceAnimation.triggerIndex, SequenceAnimation.updateSequence, hsize]

/-- A trigger succeeds, and the elements of the sequence stay as they are triggered. -/
theorem exists_triggered {s : SequenceAnimation ι S} {i : ℕ} {σ : Store ι S} {call : TriggerCall}
    (hpositive : ∀ a ∈ s.sequences, Positive a) (hapart : s.Apart) (hrests : ∀ a ∈ s.sequences, a.Rests σ)
    (htarget : call.target s = some (i : ℤ)) (hi : i < 2 ^ 31) (hvalid : i < s.sequences.length) :
    ∃ σ', call.run s σ = .ok σ' ∧ s.Triggered i (σ.marker s.id) σ' := by
  have hstarted : s.Triggered i (σ.marker s.id) (σ.startAt s.id i (σ.marker s.id)) := by
    refine ⟨by simp [Store.startAt], by simp [Store.startAt], fun a ha id hid => ?_⟩
    have hne : id ≠ s.id := by
      rintro rfl
      exact hapart a ha hid.has
    have hrest : σ.Rests id := hrests a ha id hid
    simpa [Store.Rests, Store.startAt, hne] using hrest
  obtain ⟨-, σ', -, hσ', -, htriggered, -⟩ :=
    setMarker_of_triggered (fun a ha => (hpositive a ha).playable) hapart hstarted rfl
      (totals_drop_pos hpositive hvalid).ne' (σ.marker s.id)
  exact ⟨σ', (TriggerCall.run_eq σ htarget hi).trans hσ', htriggered⟩

theorem exampleLeaf_rests (i : ℕ) (σ : Store ℕ Fields) : Animation.Rests σ (.leaf (exampleLeaf i)) := by
  rintro id ⟨repeatTimes, bookmarks, sequences, hpart⟩
  cases hpart

theorem exampleLeaf_positive (i : ℕ) : Positive (.leaf (exampleLeaf i)) := by
  refine .leaf ?_ ?_ <;> simp [exampleLeaf, Leaf.tween, Leaf.getTotalLength]

theorem exampleSequence_apart (repeatTimes : ℚ) : (exampleSequence repeatTimes).Apart := by
  intro a ha
  rcases List.mem_pair.mp ha with rfl | rfl <;> rintro ⟨b, hpart, hident⟩ <;> cases hpart <;> cases hident

end SequenceAnimation

end HueStream.Animations
