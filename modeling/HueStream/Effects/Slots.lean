import HueStream.Effects.Iterating

/-! # The slots of the lights

Every light needs the same time for a colour animation: the tweens before and after it add up to what all other lights
need. So the lights stay in their slots over the repetitions.

* `segment`: a clone between its tweens.
* `setMarker_sequence`: what a light shows after a marker. -/

namespace HueStream.Effects

open HueStream.Data HueStream.Animations HueStream.Animations.Animation

namespace LightIteratorEffect

variable {ι : Type} {cosPi : ℚ → ℚ} {e : LightIteratorEffect} {color : AnimationChannel → Animation ι Fields} {n i : ℕ}
  {σ σ' : Store Made Fields} {c : AnimationChannel}

/-! ### Tweens that stay at 0 -/

/-- The tweens of the lights are from 0 to 0. -/
def Zero (σ : Store Made Fields) : Prop :=
  ∀ i k, ∃ t, σ.fields (.tween i k) = .tween t ∧ t.begin = 0 ∧ t.end = 0 ∧ t.beginValuePresent = true ∧
    t.tweenType = .linear

/-- The leaf is one of the tweens, or none of their objects. -/
def Quiet (cosPi : ℚ → ℚ) (l : Leaf Made Fields) : Prop :=
  (∃ i k time, l = Leaf.tween cosPi (.tween i k) time) ∨ ∀ i k, l.id ≠ .tween i k

theorem zero_setFields (h : Zero σ) {id : Made} {s : Fields}
    (hs : ∀ i k, id = .tween i k → ∃ t, s = .tween t ∧ t.begin = 0 ∧ t.end = 0 ∧ t.beginValuePresent = true ∧
      t.tweenType = .linear) : Zero (σ.setFields id s) := by
  intro i k
  by_cases heq : Made.tween i k = id
  · obtain ⟨t, rfl, ht⟩ := hs i k heq.symm
    exact ⟨t, by simp [Store.setFields, heq], ht⟩
  · obtain ⟨t, htween, ht⟩ := h i k
    exact ⟨t, by simp [Store.setFields, heq, htween], ht⟩

theorem keeps_zero {a : Animation Made Fields} (h : ∀ l, Part (.leaf l) a → Quiet cosPi l) : Keeps Zero a where
  update := fun l hl σ m hzero => by
    refine zero_setFields (σ := σ.setMarker l.id m) hzero fun i k hid => ?_
    rcases h l hl with ⟨i', k', time, rfl⟩ | hother
    · obtain ⟨rfl, rfl⟩ := Made.tween.inj hid
      obtain ⟨t, htween, hbegin, hend, hpresent, htype⟩ := hzero i' k'
      refine ⟨(t.updateValue cosPi (σ.value (.tween i' k')) m).1, ?_, ?_, hend, hpresent, htype⟩
      · simp [Leaf.tween, htween]
      · simp [TweenAnimation.updateValue, hpresent, hbegin]
    · exact absurd hid (hother i k)
  rewound := fun l hl σ hzero => by
    refine zero_setFields hzero fun i k hid => ?_
    rcases h l hl with ⟨i', k', time, rfl⟩ | hother
    · obtain ⟨rfl, rfl⟩ := Made.tween.inj hid
      obtain ⟨t, htween, ht⟩ := hzero i' k'
      exact ⟨{ t with atBeginning := true }, by simp [Leaf.tween, htween], ht⟩
    · exact absurd hid (hother i k)
  marker := fun _ _ _ _ hzero => hzero
  shown := fun _ _ _ _ _ hzero => hzero
  reset := fun _ _ _ hzero => hzero

/-- A sequence that enters one of the tweens shows 0. -/
theorem value_of_enter_tween (hzero : Zero σ) {id : Made} {j k : ℕ} {time p : ℚ}
    (h : enter id j (.leaf (Leaf.tween cosPi (.tween i k) time)) p σ = .ok σ') : σ'.value id = 0 := by
  have hquiet : ∀ l, Part (.leaf l) (.leaf (Leaf.tween cosPi (.tween i k) time)) → Quiet cosPi l := by
    rintro l ⟨⟩
    exact .inl ⟨i, k, time, rfl⟩
  have hkeeps : CallsKeep Zero (.leaf (Leaf.tween cosPi (.tween i k) time)) := (keeps_zero hquiet).callsKeep
  rw [enter] at h
  obtain ⟨σ₁, hσ₁, h⟩ := bind_eq_ok.mp h
  obtain ⟨σ₂, hσ₂, h⟩ := bind_eq_ok.mp h
  have hzero₁ : Zero σ₁ := by
    split_ifs at hσ₁
    · exact Except.ok.inj hσ₁ ▸ hzero
    · exact hkeeps.2 σ σ₁ hσ₁ hzero
  obtain ⟨t, htween, hbegin, hend, hpresent, htype⟩ := hzero₁ i k
  have hvalue : σ₂.value (.tween i k) = 0 := by
    rw [← Except.ok.inj (hσ₂ : Except.ok ((Leaf.tween cosPi (.tween i k) time).update p σ₁) = .ok σ₂)]
    simp only [Leaf.update, Leaf.tween, htween, Store.setValue, Store.setFields, Store.setMarker, Function.update_self,
      TweenAnimation.updateValue, hpresent, hbegin, hend, htype, TweenType.ease, HueMath.linearTween, Bool.not_true,
      Bool.false_and, Bool.false_eq_true, if_false, sub_zero, zero_mul, zero_div, add_zero, ite_self]
  rw [← Except.ok.inj h]
  simp [Store.setValue, Store.setCurrentIndex, Animation.getValue, Leaf.tween, hvalue]

/-! ### A clone between its tweens -/

theorem mem_tweens {k : ℕ} {a : Animation Made Fields} (h : a ∈ e.tweens cosPi n i k) :
    a = .leaf (Leaf.tween cosPi (.tween i k) (e.tweenTime n i k)) := by
  rw [tweens, List.mem_ite_nil_right] at h
  exact List.mem_singleton.mp h.2

theorem tweenTime_nonneg (hoffset : 0 ≤ e.offset) (k : ℕ) : 0 ≤ e.tweenTime n i k := by
  unfold tweenTime
  split_ifs <;> positivity

theorem total_tween (k : ℕ) :
    total (.leaf (Leaf.tween cosPi (.tween i k) (e.tweenTime n i k)) : Animation Made Fields) = e.tweenTime n i k := rfl

/-- The tweens that are left out would have the length 0. -/
theorem sum_tweens (hi : i < n) (k : ℕ) : ((e.tweens cosPi n i k).map total).sum = e.tweenTime n i k := by
  have hlast : n - 1 - i = 0 ↔ i = n - 1 := by omega
  unfold tweens tweenTime
  by_cases hk : k = 0 ∨ k = 3
  · simp only [hk, if_true]
    by_cases hzero : i = 0
    · simp [hzero]
    · simp only [ne_eq, hzero, not_false_eq_true, if_true, List.map_cons, List.map_nil, List.sum_singleton]
      rfl
  · simp only [hk, if_false]
    by_cases hzero : i = n - 1
    · simp [hzero]
    · simp only [ne_eq, hzero, not_false_eq_true, if_true, List.map_cons, List.map_nil, List.sum_singleton]
      rfl

theorem playable_tween (k : ℕ) (time : ℚ) : Playable (.leaf (Leaf.tween cosPi (Made.tween i k) time)) :=
  .leaf fun _ h => by simp [Leaf.tween] at h

theorem rests_tween (k : ℕ) (time : ℚ) : Animation.Rests σ (.leaf (Leaf.tween cosPi (.tween i k) time)) := by
  rintro id ⟨repeatTimes, bookmarks, sequences, hpart⟩
  cases hpart

/-- Up to the time of the tweens a sequence shows 0, and then goes on with what comes after them. -/
theorem updateValue_tweens (hoffset : 0 ≤ e.offset) (hi : i < n) (hzero : Zero σ) (id : Made) (k j : ℕ)
    (as : List (Animation Made Fields)) {p : ℚ} (hp : 0 ≤ p) (h : updateValue id (e.tweens cosPi n i k ++ as) 0 j p σ = .ok σ') :
    (p < e.tweenTime n i k → σ'.value id = 0) ∧ (e.tweenTime n i k ≤ p →
      updateValue id as 0 (j + (e.tweens cosPi n i k).length) (p - e.tweenTime n i k) σ = .ok σ') := by
  have hplayable : ∀ a ∈ e.tweens cosPi n i k, Playable a ∧ a.Rests σ ∧ 0 ≤ total a := fun a ha => by
    rw [mem_tweens ha]
    exact ⟨playable_tween k _, rests_tween k _, tweenTime_nonneg hoffset k⟩
  refine ⟨fun hlt => ?_, fun hle => ?_⟩
  · have hsum : ((e.tweens cosPi n i k).map total).sum = e.tweenTime n i k := sum_tweens hi k
    cases hlist : e.tweens cosPi n i k with
    | nil =>
      rw [hlist] at hsum
      simp at hsum
      linarith
    | cons a rest =>
      have ha : a ∈ e.tweens cosPi n i k := by simp [hlist]
      rw [hlist, List.cons_append, updateValue_cons (hplayable a ha).1 (hplayable a ha).2.1, mem_tweens ha,
        total_tween, if_pos hlt] at h
      exact value_of_enter_tween hzero h
  · rw [updateValue_append as hplayable (by rwa [sum_tweens hi]), sum_tweens hi] at h
    exact h

/-- A clone with the tweens before and after it: at 0 up to its slot and after it, and then what follows. -/
theorem segment (hoffset : 0 ≤ e.offset) (hi : i < n) (hzero : Zero σ) (id : Made) (k k' j : ℕ)
    (a : Animation Made Fields) (hplayable : Playable a) (hrests : a.Rests σ) (hpos : 0 < total a)
    (as : List (Animation Made Fields)) {p : ℚ} (hp : 0 ≤ p)
    (h : updateValue id (e.tweens cosPi n i k ++ (a :: e.tweens cosPi n i k' ++ as)) 0 j p σ = .ok σ') :
    (e.tweenTime n i k ≤ p → p < e.tweenTime n i k + total a →
      enter id (j + (e.tweens cosPi n i k).length) a (p - e.tweenTime n i k) σ = .ok σ') ∧
    (¬ (e.tweenTime n i k ≤ p ∧ p < e.tweenTime n i k + total a) →
      p < e.tweenTime n i k + total a + e.tweenTime n i k' → σ'.value id = 0) ∧
    (e.tweenTime n i k + total a + e.tweenTime n i k' ≤ p →
      updateValue id as 0 (j + (e.tweens cosPi n i k).length + 1 + (e.tweens cosPi n i k').length)
        (p - (e.tweenTime n i k + total a + e.tweenTime n i k')) σ = .ok σ') := by
  obtain ⟨hbefore, hrest⟩ := updateValue_tweens hoffset hi hzero id k j _ hp h
  have hnonneg := tweenTime_nonneg (n := n) (i := i) hoffset k'
  have hgo : e.tweenTime n i k + total a ≤ p → updateValue id (e.tweens cosPi n i k' ++ as) 0
      (j + (e.tweens cosPi n i k).length + 1) (p - e.tweenTime n i k - total a) σ = .ok σ' := fun hle => by
    have hentered := hrest (by linarith)
    rwa [List.cons_append, updateValue_cons hplayable hrests, if_neg (by linarith)] at hentered
  refine ⟨fun hle hlt => ?_, fun hnot hlt => ?_, fun hle => ?_⟩
  · have hentered := hrest hle
    rwa [List.cons_append, updateValue_cons hplayable hrests, if_pos (by linarith)] at hentered
  · by_cases hle : e.tweenTime n i k ≤ p
    · have hbehind : e.tweenTime n i k + total a ≤ p := not_lt.mp fun hlt => hnot ⟨hle, hlt⟩
      exact (updateValue_tweens hoffset hi hzero id k' _ as (by linarith) (hgo hbehind)).1 (by linarith)
    · exact hbefore (not_le.mp hle)
  · have hlast := (updateValue_tweens hoffset hi hzero id k' _ as (by linarith) (hgo (by linarith))).2 (by linarith)
    have hposition : p - e.tweenTime n i k - total a - e.tweenTime n i k' =
        p - (e.tweenTime n i k + total a + e.tweenTime n i k') := by ring
    rwa [hposition] at hlast

/-! ### The sequence of a light -/

theorem mem_pieces {a : Animation Made Fields} (h : a ∈ e.pieces cosPi color n i c) :
    (∃ k, a = .leaf (Leaf.tween cosPi (.tween i k) (e.tweenTime n i k))) ∨
      ∃ back, a = (color c).clone (.copy i c back) := by
  unfold pieces at h
  rcases List.mem_append.mp h with h | h
  · rcases List.mem_append.mp h with h | h
    · exact .inl ⟨0, mem_tweens h⟩
    · rcases List.mem_cons.mp h with rfl | h
      · exact .inr ⟨false, rfl⟩
      · exact .inl ⟨1, mem_tweens h⟩
  · rw [List.mem_ite_nil_right] at h
    rcases List.mem_append.mp h.2 with h | h
    · exact .inl ⟨2, mem_tweens h⟩
    · rcases List.mem_cons.mp h with rfl | h
      · exact .inr ⟨true, rfl⟩
      · exact .inl ⟨3, mem_tweens h⟩

/-- The tweens of a light take the time of all other lights. -/
theorem tweenTime_add (hi : i < n) : e.tweenTime n i 0 + e.tweenTime n i 1 = (n - 1 : ℕ) * e.offset ∧
    e.tweenTime n i 2 + e.tweenTime n i 3 = (n - 1 : ℕ) * e.offset := by
  have hsplit : ((n - 1 : ℕ) : ℚ) = (i : ℚ) + (n - 1 - i : ℕ) := by
    rw [← Nat.cast_add]
    congr 1
    omega
  simp only [tweenTime, true_or, or_true, if_true, OfNat.ofNat_ne_zero, OfNat.one_ne_ofNat, one_ne_zero, or_self, if_false,
    Nat.reduceEqDiff, hsplit]
  constructor <;> ring

theorem sum_pieces (hi : i < n) :
    ((e.pieces cosPi color n i c).map total).sum = e.passLength n (total (color c)) := by
  obtain ⟨hfirst, hsecond⟩ := tweenTime_add (e := e) hi
  unfold pieces passLength passes turn
  rw [List.map_append, List.sum_append, List.map_append, List.sum_append, List.map_cons, List.sum_cons,
    sum_tweens hi, sum_tweens hi, total_clone]
  by_cases hbounce : e.mode = .bounce
  · rw [if_pos hbounce, if_pos hbounce, List.map_append, List.sum_append, List.map_cons, List.sum_cons,
      sum_tweens hi, sum_tweens hi, total_clone]
    simp only [List.length_cons, List.length_nil]
    push_cast
    linarith
  · rw [if_neg hbounce, if_neg hbounce]
    simp only [List.map_nil, List.sum_nil, List.length_cons, List.length_nil]
    push_cast
    linarith

theorem shows_of_enter {s : SequenceAnimation Made Fields} {k : ℕ} {a : Animation Made Fields} {p : ℚ}
    (hk : s.sequences[k]? = some a) (h : enter s.id k a p σ = .ok σ') : Shows s a p σ σ' := by
  rw [enter] at h
  obtain ⟨σ₁, hσ₁, h⟩ := bind_eq_ok.mp h
  obtain ⟨σ₂, hσ₂, h⟩ := bind_eq_ok.mp h
  refine ⟨k, σ₁, σ₂, hk, ?_, hσ₂, ?_⟩
  · split_ifs with hcurrent
    · rw [if_pos hcurrent.symm] at hσ₁
      exact (Except.ok.inj hσ₁).symm
    · rwa [if_neg (Ne.symm hcurrent)] at hσ₁
  · rw [← Except.ok.inj h]
    simp [Store.setValue, Store.setCurrentIndex]

/-- What the loop of `UpdateValue` makes of a position in a pass. -/
theorem showsSlots_of_updateValue (hoffset : 0 ≤ e.offset) (hi : i < n) (hzero : Zero σ)
    (hplayable : Playable (color c)) (hpos : 0 < total (color c))
    (hrests : ∀ a ∈ e.pieces cosPi color n i c, a.Rests σ) {p : ℚ} (hp : 0 ≤ p)
    (hlt : p < e.passLength n (total (color c)))
    (h : updateValue (.channel i c) (e.pieces cosPi color n i c) 0 0 p σ = .ok σ') :
    ShowsSlots cosPi e color n i c p σ σ' := by
  obtain ⟨hfirst, hsecond⟩ := tweenTime_add (e := e) hi
  have hclone : ∀ back, (color c).clone (.copy i c back) ∈ e.pieces cosPi color n i c →
      Playable ((color c).clone (Made.copy i c back)) ∧ ((color c).clone (Made.copy i c back)).Rests σ ∧
        0 < total ((color c).clone (Made.copy i c back)) := fun back hmem =>
    ⟨hplayable.clone _, hrests _ hmem, by rwa [total_clone]⟩
  have hpieces : e.pieces cosPi color n i c = e.tweens cosPi n i 0 ++ ((color c).clone (.copy i c false) ::
      e.tweens cosPi n i 1 ++ if e.mode = .bounce then e.tweens cosPi n i 2 ++
        ((color c).clone (.copy i c true) :: e.tweens cosPi n i 3) else []) := by
    rw [pieces, List.append_assoc]
  obtain ⟨hplay, hrest, hlong⟩ := hclone false (by rw [hpieces]; simp)
  obtain ⟨hin, hout, hbehind⟩ := segment hoffset hi hzero (.channel i c) 0 1 0 _ hplay hrest hlong _ hp (hpieces ▸ h)
  rw [total_clone] at hin hout hbehind
  have hturn : e.tweenTime n i 0 + total (color c) + e.tweenTime n i 1 = e.turn n (total (color c)) := by
    rw [turn, ← hfirst]
    ring
  have hslot : e.slot n i (total (color c)) false = e.tweenTime n i 0 := by simp [slot, tweenTime]
  have hshows : e.slot n i (total (color c)) false ≤ p → p < e.slot n i (total (color c)) false + total (color c) →
      Shows (e.sequence cosPi color n i c) ((color c).clone (.copy i c false))
        (p - e.slot n i (total (color c)) false) σ σ' := fun hle hlt => by
    rw [hslot] at hle hlt ⊢
    refine shows_of_enter ?_ (hin hle hlt)
    change (e.pieces cosPi color n i c)[_]? = _
    rw [hpieces]
    simp
  rw [hturn] at hout hbehind
  by_cases hbounce : e.mode = .bounce
  · have hpasses : e.passes = [false, true] := if_pos hbounce
    rw [if_pos hbounce, ← List.append_nil (e.tweens cosPi n i 2 ++ _), List.append_assoc] at hbehind
    obtain ⟨hplay', hrest', hlong'⟩ := hclone true (by rw [hpieces, if_pos hbounce]; simp)
    have hback : e.turn n (total (color c)) ≤ p → _ := fun hle =>
      segment hoffset hi hzero (.channel i c) 2 3 _ _ hplay' hrest' hlong' [] (sub_nonneg.mpr hle) (hbehind hle)
    rw [total_clone] at hback
    have hslot' : e.slot n i (total (color c)) true = e.turn n (total (color c)) + e.tweenTime n i 2 := by
      simp [slot, tweenTime]
    have hnonneg := tweenTime_nonneg (n := n) (i := i) hoffset 2
    have htwice : p < e.turn n (total (color c)) + (e.tweenTime n i 2 + total (color c) + e.tweenTime n i 3) := by
      rw [passLength, hpasses, turn] at hlt
      simp only [List.length_cons, List.length_nil] at hlt
      push_cast at hlt
      rw [turn]
      linarith
    refine ⟨fun back _ => ?_, fun hnone => ?_⟩
    · cases back with
      | false => exact hshows
      | true =>
        intro hle hlt
        rw [hslot'] at hle hlt ⊢
        rw [← sub_sub]
        refine shows_of_enter ?_ ((hback (by linarith)).1 (by linarith) (by linarith))
        have hat : e.pieces cosPi color n i c = (e.tweens cosPi n i 0 ++ (color c).clone (.copy i c false) ::
            e.tweens cosPi n i 1 ++ e.tweens cosPi n i 2) ++
              (color c).clone (.copy i c true) :: e.tweens cosPi n i 3 := by
          rw [hpieces, if_pos hbounce]
          simp only [List.append_assoc, List.cons_append]
        change (e.pieces cosPi color n i c)[_]? = _
        rw [hat, List.getElem?_append_right (by simp; omega)]
        simp [Nat.add_assoc, Nat.add_comm, Nat.add_left_comm]
    · by_cases hle : e.turn n (total (color c)) ≤ p
      · refine (hback hle).2.1 (fun hin => hnone true (by simp [hpasses]) ?_) (by linarith)
        rw [hslot']
        exact ⟨by linarith [hin.1], by linarith [hin.2]⟩
      · refine hout (fun hin => hnone false (by simp [hpasses]) ?_) (not_le.mp hle)
        rwa [hslot]
  · have hpasses : e.passes = [false] := if_neg hbounce
    have hall : p < e.turn n (total (color c)) := by
      rwa [passLength, hpasses, List.length_singleton, Nat.cast_one, one_mul] at hlt
    refine ⟨fun back hmem => ?_, fun hnone => ?_⟩
    · rw [hpasses, List.mem_singleton] at hmem
      rw [hmem]
      exact hshows
    · refine hout (fun hin => hnone false (by simp [hpasses]) ?_) hall
      rwa [hslot]

/-! ### Markers -/

theorem tweenTime_le (hoffset : 0 ≤ e.offset) (hi : i < n) (k : ℕ) : e.tweenTime n i k ≤ (n - 1 : ℕ) * e.offset := by
  unfold tweenTime
  split_ifs
  · exact mul_le_mul_of_nonneg_right (Nat.cast_le.mpr (by omega)) hoffset
  · exact mul_le_mul_of_nonneg_right (Nat.cast_le.mpr (by omega)) hoffset

/-- A colour animation of a positive finite length, in which nothing that is repeated has the length 0. -/
structure Plays (a : Animation ι Fields) : Prop where
  playable : Playable a
  pos : 0 < total a
  finite : total a < INF

theorem piece_cases (hoffset : 0 ≤ e.offset) (hfinite : (n - 1 : ℕ) * e.offset < INF) (hi : i < n)
    (hcolor : Plays (color c)) {a : Animation Made Fields} (ha : a ∈ e.pieces cosPi color n i c) :
    Playable a ∧ total a ≠ INF := by
  rcases mem_pieces ha with ⟨k, rfl⟩ | ⟨back, rfl⟩
  · exact ⟨playable_tween k _, ((tweenTime_le hoffset hi k).trans_lt hfinite).ne⟩
  · exact ⟨hcolor.playable.clone _, (total_clone (color c) _).trans_ne hcolor.finite.ne⟩

theorem totals_pieces (hoffset : 0 ≤ e.offset) (hfinite : (n - 1 : ℕ) * e.offset < INF) (hi : i < n)
    (hcolor : Plays (color c)) :
    totals (e.pieces cosPi color n i c) 0 = e.passLength n (total (color c)) := by
  rw [totals_eq fun a ha => (piece_cases hoffset hfinite hi hcolor ha).2, zero_add, sum_pieces hi]

theorem passLength_pos (hoffset : 0 ≤ e.offset) {length : ℚ} (h : 0 < length) : 0 < e.passLength n length := by
  have hturn : 0 < e.turn n length := by
    unfold turn
    positivity
  unfold passLength passes
  split_ifs <;> simp [hturn]

theorem playable_sequence (hoffset : 0 ≤ e.offset) (hfinite : (n - 1 : ℕ) * e.offset < INF) (hi : i < n)
    (hcolor : Plays (color c)) : Playable (e.sequence cosPi color n i c).toAnimation := by
  refine .sequence (fun a ha => (piece_cases hoffset hfinite hi hcolor ha).1) ?_
  change totals (e.pieces cosPi color n i c) 0 ≠ 0
  rw [totals_pieces hoffset hfinite hi hcolor]
  exact (passLength_pos hoffset hcolor.pos).ne'

/-- All lights have the same length. -/
theorem getLengthMs_sequence (hoffset : 0 ≤ e.offset) (hfinite : (n - 1 : ℕ) * e.offset < INF) (hi : i < n)
    (hcolor : Plays (color c)) (hrests : (e.sequence cosPi color n i c).toAnimation.Rests σ) :
    (e.sequence cosPi color n i c).getLengthMs σ = .ok (e.passLength n (total (color c))) := by
  have hstart : σ.startIndex (.channel i c) = 0 := (Animation.Rests.self hrests).1
  have hlength : lengthFrom σ (e.pieces cosPi color n i c) 0 0 = .ok (totals (e.pieces cosPi color n i c) 0) :=
    lengthFrom_eq_totals fun a ha =>
      (piece_cases hoffset hfinite hi hcolor ha).1.getTotalLength_eq (Animation.Rests.sub hrests ha)
  rw [SequenceAnimation.getLengthMs]
  change lengthFrom σ (e.pieces cosPi color n i c) (σ.startIndex (.channel i c)) 0 = _
  rw [hstart, hlength, totals_pieces hoffset hfinite hi hcolor]

theorem exists_natCast_eq_INF : ∃ n : ℕ, (n : ℚ) = INF :=
  ⟨(2 ^ 53 - 1) * 2 ^ 971, by rw [INF, Nat.cast_mul, Nat.cast_pred (by positivity)]; simp only [Nat.cast_pow, Nat.cast_ofNat]⟩

/-- The marker of a sequence is that of the position in its pass. -/
theorem corrected_sequence {L m : ℚ} (hL : 0 < L) (hm : 0 ≤ m) (hcounted : m < L * 2 ^ 63)
    (hsingle : e.mode = .single → m < L) :
    corrected L (if e.mode = .single then 0 else INF) m = .ok (modLength L m) := by
  obtain ⟨n, hn⟩ := exists_natCast_eq_INF
  have hcorrected := corrected_eq (n := if e.mode = .single then 0 else n) hL hm hcounted
  have hrepeat : ((if e.mode = .single then 0 else n : ℕ) : ℚ) = if e.mode = .single then 0 else INF := by
    rw [Nat.cast_ite, Nat.cast_zero, hn]
  rw [hrepeat] at hcorrected
  rw [hcorrected, if_pos]
  split_ifs with hmode
  · rw [zero_add, mul_one]
    exact hsingle hmode
  · refine hcounted.trans_le (mul_le_mul_of_nonneg_left ?_ hL.le)
    linarith [two_pow_le_INF]

theorem setMarker_sequence (hoffset : 0 ≤ e.offset) (hfinite : (n - 1 : ℕ) * e.offset < INF) (hi : i < n)
    (hcolor : Plays (color c)) (hzero : Zero σ) (hrests : (e.sequence cosPi color n i c).toAnimation.Rests σ) {m : ℚ}
    (hm : 0 ≤ m) (hcounted : m < e.passLength n (total (color c)) * 2 ^ 63)
    (hsingle : e.mode = .single → m < e.passLength n (total (color c))) :
    ∃ σ', (e.sequence cosPi color n i c).setMarker m σ = .ok σ' ∧
      ShowsSlots cosPi e color n i c (modLength (e.passLength n (total (color c))) m)
        (σ.setMarker (.channel i c) (modLength (e.passLength n (total (color c))) m)) σ' := by
  have hL := passLength_pos (n := n) hoffset hcolor.pos
  obtain ⟨σ', hσ'⟩ := (playable_sequence hoffset hfinite hi hcolor).takes.setMarker σ m hrests
  refine ⟨σ', hσ', ?_⟩
  have hself : σ.Rests (.channel i c) := Animation.Rests.self hrests
  have hlength := getLengthMs_sequence hoffset hfinite hi hcolor hrests
  change lengthFrom σ (e.pieces cosPi color n i c) (σ.startIndex (.channel i c)) 0 = _ at hlength
  have hupdate : updateValue (.channel i c) (e.pieces cosPi color n i c) 0 0
      (modLength (e.passLength n (total (color c))) m)
      (σ.setMarker (.channel i c) (modLength (e.passLength n (total (color c))) m)) = .ok σ' := by
    rw [← hσ']
    change _ = lengthFrom σ (e.pieces cosPi color n i c) (σ.startIndex (.channel i c)) 0 >>= fun lengthMs =>
      corrected lengthMs (if e.mode = .single then 0 else INF) m >>= fun marker =>
        updateValue (.channel i c) (e.pieces cosPi color n i c) (σ.startIndex (.channel i c)) 0
          (marker - σ.offset (.channel i c)) (σ.setMarker (.channel i c) marker)
    rw [hlength, ok_bind, corrected_sequence hL hm hcounted hsingle, ok_bind, hself.1, hself.2, sub_zero]
  exact showsSlots_of_updateValue (σ := σ.setMarker (.channel i c) (modLength (e.passLength n (total (color c))) m))
    hoffset hi hzero hcolor.playable hcolor.pos (fun a ha => (Animation.Rests.sub hrests ha : a.Rests σ))
    (modLength_nonneg hL) (modLength_lt hL) hupdate

end LightIteratorEffect

end HueStream.Effects
