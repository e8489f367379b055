import HueStream.Animations.Leaves
import HueStream.Storage.Objects

/-! # Indices and lengths of a sequence from JSON

`SequenceAnimation` divides by the length of what is left from its start index on, and indexes its list with
the start index and with bookmarks, all without a check.

* `deserialize_defined_iff`: no call goes wrong exactly when the lengths from the start and from every index
  that is triggered are not zero, nor those of the repeated animations inside. -/

namespace HueStream.Animations

open HueStream.Json HueStream.Storage Animation

variable {ι S α β : Type}

/-! ### Conditions -/

/-- A length that a `RepeatableAnimation` divides by is not zero, in the tree; a pointer to no animation
is where `M` allows one. The lengths are those of the store `σ`, where nothing was triggered. -/
inductive Safe (M : Prop) (σ : Store ι S) : Animation ι S → Prop
  | missing (h : M) : Safe M σ .missing
  | leaf {l : Leaf ι S} (h : l.repeatTimes.isSome → l.lengthMs ≠ 0) : Safe M σ (.leaf l)
  | sequence {id : ι} {repeatTimes : ℚ} {bookmarks : List (String × ℤ)}
      {sequences : List (Animation ι S)} (hsub : ∀ a ∈ sequences, Safe M σ a)
      (h : lengthFrom σ sequences 0 0 ≠ .ok 0) :
      Safe M σ (.sequence id repeatTimes bookmarks sequences)

/-- There is no pointer to no animation in the tree. -/
inductive Present : Animation ι S → Prop
  | leaf {l : Leaf ι S} : Present (.leaf l)
  | sequence {id : ι} {repeatTimes : ℚ} {bookmarks : List (String × ℤ)}
      {sequences : List (Animation ι S)} (hsub : ∀ a ∈ sequences, Present a) :
      Present (.sequence id repeatTimes bookmarks sequences)

/-- The sequences in the tree are other objects than `top`. -/
inductive Avoids (top : ι) : Animation ι S → Prop
  | missing : Avoids top .missing
  | leaf {l : Leaf ι S} : Avoids top (.leaf l)
  | sequence {id : ι} {repeatTimes : ℚ} {bookmarks : List (String × ℤ)}
      {sequences : List (Animation ι S)} (hne : id ≠ top) (hsub : ∀ a ∈ sequences, Avoids top a) :
      Avoids top (.sequence id repeatTimes bookmarks sequences)

theorem Present.safe {σ : Store ι S} {a : Animation ι S} (h : Present a) (hsafe : Safe True σ a) :
    Safe False σ a := by
  induction a using Animation.induction with
  | missing => cases h
  | leaf l =>
    cases hsafe with
    | leaf hlength => exact .leaf hlength
  | sequence id repeatTimes bookmarks sequences ih =>
    cases h with
    | sequence hsub =>
      cases hsafe with
      | sequence hsafe hlength =>
        exact .sequence (fun a ha => ih a ha (hsub a ha) (hsafe a ha)) hlength

/-! ### Outcomes -/

/-- The computation goes right as `P` says, or it stops at a pointer to no animation, if `M` allows it. -/
def Outcome (M : Prop) (P : α → Prop) : Except Fault α → Prop
  | .ok a => P a
  | .error e => e = .missing ∧ M

variable {M : Prop}

theorem Outcome.bind {P : α → Prop} {Q : β → Prop} {x : Except Fault α} {f : α → Except Fault β}
    (hx : Outcome M P x) (hf : ∀ a, P a → Outcome M Q (f a)) : Outcome M Q (x >>= f) := by
  cases x with
  | ok a => exact hf a hx
  | error e => exact hx

theorem Outcome.mono {P Q : α → Prop} {x : Except Fault α} (hx : Outcome M P x)
    (h : ∀ a, P a → Q a) : Outcome M Q x := by
  cases x with
  | ok a => exact h a hx
  | error e => exact hx

theorem Outcome.exists_ok {P : α → Prop} {x : Except Fault α} (hx : Outcome False P x) :
    ∃ a, x = .ok a ∧ P a := by
  cases x with
  | ok a => exact ⟨a, rfl, hx⟩
  | error e => exact hx.2.elim

theorem corrected_outcome {L : ℚ} (hL : L ≠ 0) (repeatTimes m : ℚ) :
    Outcome M (fun _ => True) (corrected L repeatTimes m) := by
  unfold corrected
  rw [if_neg hL]
  trivial

/-! ### Lengths -/

section Lengths

variable {σ σ' : Store ι S} {a : Animation ι S} {as : List (Animation ι S)}

theorem lengthFrom_congr (h : ∀ a ∈ as, a.getTotalLength σ = a.getTotalLength σ') (skip : ℕ)
    (length : ℚ) : lengthFrom σ as skip length = lengthFrom σ' as skip length := by
  induction as generalizing skip length with
  | nil => rw [lengthFrom, lengthFrom]
  | cons a as ih =>
    have hrest := ih fun b hb => h b (by simp [hb])
    cases skip with
    | succ skip => rw [lengthFrom, lengthFrom, hrest]
    | zero => simp only [lengthFrom, h a (by simp), hrest]

/-- The length of a tree depends on the start indices of the sequences in it. -/
theorem getTotalLength_congr {top : ι} (hstart : ∀ id, id ≠ top → σ.startIndex id = σ'.startIndex id)
    (h : Avoids top a) : a.getTotalLength σ = a.getTotalLength σ' := by
  induction a using Animation.induction with
  | missing => rw [getTotalLength, getTotalLength]
  | leaf l => rw [getTotalLength, getTotalLength]
  | sequence id repeatTimes bookmarks sequences ih =>
    cases h with
    | sequence hne hsub =>
      have hsame := lengthFrom_congr (fun a ha => ih a ha (hsub a ha)) (σ.startIndex id) 0
      rw [getTotalLength, getTotalLength, hsame, hstart id hne]

theorem lengthFrom_outcome (h : ∀ a ∈ as, Outcome M (fun _ => True) (a.getTotalLength σ)) (skip : ℕ)
    (length : ℚ) : Outcome M (fun _ => True) (lengthFrom σ as skip length) := by
  induction as generalizing skip length with
  | nil =>
    rw [lengthFrom]
    trivial
  | cons a as ih =>
    have hrest := ih fun b hb => h b (by simp [hb])
    cases skip with
    | succ skip =>
      rw [lengthFrom]
      exact hrest skip length
    | zero =>
      rw [lengthFrom]
      refine (h a (by simp)).bind fun total _ => ?_
      split_ifs
      · trivial
      · exact hrest 0 _

theorem getTotalLength_outcome {σ₀ : Store ι S} (h : Safe M σ₀ a) :
    Outcome M (fun _ => True) (a.getTotalLength σ) := by
  induction a using Animation.induction with
  | missing =>
    cases h with
    | missing h => exact ⟨rfl, h⟩
  | leaf l => trivial
  | sequence id repeatTimes bookmarks sequences ih =>
    cases h with
    | sequence hsub =>
      rw [getTotalLength]
      exact (lengthFrom_outcome (fun a ha => ih a ha (hsub a ha)) _ _).bind fun _ _ => trivial

theorem getOffset_outcome {σ₀ : Store ι S} (h : Safe M σ₀ a) :
    Outcome M (fun _ => True) (a.getOffset σ) := by
  cases h with
  | missing h => exact ⟨rfl, h⟩
  | leaf => trivial
  | sequence => trivial

theorem getPositionFromValue_outcome {σ₀ : Store ι S} (h : Safe M σ₀ a) (value : ℚ) :
    Outcome M (fun _ => True) (a.getPositionFromValue σ value) := by
  cases h with
  | missing h => exact ⟨rfl, h⟩
  | leaf => trivial
  | sequence => trivial

/-- From an index outside the list there is no length left. -/
theorem lengthFrom_of_le {skip : ℕ} (h : as.length ≤ skip) (length : ℚ) :
    lengthFrom σ as skip length = .ok length := by
  induction as generalizing skip with
  | nil => rw [lengthFrom]
  | cons a as ih =>
    cases skip with
    | zero => simp at h
    | succ skip =>
      rw [lengthFrom]
      exact ih (by simpa using h)

end Lengths

/-! ### Safe animations work -/

variable {top : ι} {k : ℕ} {σ σ₀ : Store ι S} {a : Animation ι S}

/-- The sequence `top` starts at `k`, and no other sequence was triggered. -/
def Kept (top : ι) (k : ℕ) (σ : Store ι S) : Prop :=
  σ.startIndex top = k ∧ ∀ id, id ≠ top → σ.startIndex id = 0

/-- In an untriggered sequence inside the tree the length is that of the fresh store. -/
theorem lengthFrom_kept {as : List (Animation ι S)} (hσ : Kept top k σ) (hσ₀ : ∀ id, σ₀.startIndex id = 0)
    (havoids : ∀ a ∈ as, Avoids top a) (skip : ℕ) :
    lengthFrom σ as skip 0 = lengthFrom σ₀ as skip 0 :=
  lengthFrom_congr (fun a ha => getTotalLength_congr
    (fun id hid => by rw [hσ.2 id hid, hσ₀ id]) (havoids a ha)) skip 0

variable [DecidableEq ι]

/-- The animation takes every marker and can be rewound. -/
def Works (M : Prop) (top : ι) (k : ℕ) (a : Animation ι S) : Prop :=
  ∀ σ, Kept top k σ → (∀ m, Outcome M (Kept top k) (a.setMarker m σ)) ∧
    Outcome M (Kept top k) (a.rewind σ)

theorem Kept.reset_top (h : Kept top k σ) : Kept top 0 (σ.reset top) := by
  refine ⟨?_, fun id hid => ?_⟩
  · simp [Store.reset, Store.startAt, Store.setCurrentIndex]
  · simpa [Store.reset, Store.startAt, Store.setCurrentIndex, hid] using h.2 id hid

theorem Kept.reset {id : ι} (h : Kept top k σ) (hne : id ≠ top) : Kept top k (σ.reset id) := by
  refine ⟨?_, fun id' hid' => ?_⟩
  · simpa [Store.reset, Store.startAt, Store.setCurrentIndex, hne.symm] using h.1
  · by_cases hid : id' = id
    · subst hid
      simp [Store.reset, Store.startAt, Store.setCurrentIndex]
    · simpa [Store.reset, Store.startAt, Store.setCurrentIndex, hid] using h.2 id' hid'

theorem Kept.startAt (h : Kept top k σ) (startIndex : ℕ) (offset : ℚ) :
    Kept top startIndex (σ.startAt top startIndex offset) := by
  refine ⟨by simp [Store.startAt], fun id hid => ?_⟩
  simpa [Store.startAt, hid] using h.2 id hid

theorem works_leaf {l : Leaf ι S} (h : l.repeatTimes.isSome → l.lengthMs ≠ 0) :
    Works M top k (.leaf l) := by
  have hset : ∀ (σ : Store ι S) m, Kept top k σ → Outcome M (Kept top k) (l.setMarker m σ) := by
    intro σ m hσ
    unfold Leaf.setMarker
    cases hrepeat : l.repeatTimes with
    | none => exact hσ
    | some repeatTimes =>
      exact (corrected_outcome (h (by rw [hrepeat]; rfl)) repeatTimes m).bind fun _ _ => hσ
  refine fun σ hσ => ⟨fun m => ?_, ?_⟩
  · rw [Animation.setMarker]
    exact hset σ m hσ
  · rw [Animation.rewind, Leaf.rewind]
    exact (hset σ 0 hσ).bind fun σ hσ => hσ

section Sequence

variable {id : ι} {repeatTimes : ℚ} {bookmarks : List (String × ℤ)} {sequences as : List (Animation ι S)}

theorem rewindAll_outcome (h : ∀ a ∈ as, Works M top k a) (hσ : Kept top k σ) :
    Outcome M (Kept top k) (rewindAll as σ) := by
  induction as generalizing σ with
  | nil =>
    rw [rewindAll]
    exact hσ
  | cons a as ih =>
    rw [rewindAll]
    exact (h a (by simp) σ hσ).2.bind fun σ hσ => ih (fun b hb => h b (by simp [hb])) hσ

theorem updateValue_outcome (hsafe : ∀ a ∈ as, Safe M σ₀ a) (h : ∀ a ∈ as, Works M top k a)
    (skip i : ℕ) (p : ℚ) (hσ : Kept top k σ) :
    Outcome M (Kept top k) (updateValue id as skip i p σ) := by
  induction as generalizing skip i p with
  | nil =>
    rw [updateValue]
    exact hσ
  | cons a as ih =>
    have hrest := ih (fun b hb => hsafe b (by simp [hb])) fun b hb => h b (by simp [hb])
    have hworks := h a (by simp)
    cases skip with
    | succ skip =>
      rw [updateValue]
      exact hrest skip (i + 1) p
    | zero =>
      rw [updateValue]
      refine (getTotalLength_outcome (hsafe a (by simp))).bind fun total _ => ?_
      refine (getOffset_outcome (hsafe a (by simp))).bind fun offset _ => ?_
      have hset : ∀ σ, Kept top k σ → Outcome M (Kept top k) (a.setMarker p σ >>= fun σ =>
          .ok ((σ.setValue id (a.getValue σ)).setCurrentIndex id i)) := fun σ hσ =>
        ((hworks σ hσ).1 p).bind fun σ hσ => hσ
      show Outcome M (Kept top k) (if p < total + offset then _ else _)
      split_ifs
      · exact hset σ hσ
      · exact (hworks σ hσ).2.bind hset
      · exact hrest 0 (i + 1) (p - (total + offset))

/-- A sequence with a length from its start index on takes every marker. -/
theorem setMarker_outcome (hsafe : ∀ a ∈ sequences, Safe M σ₀ a)
    (h : ∀ a ∈ sequences, Works M top k a)
    (hlength : lengthFrom σ sequences (σ.startIndex id) 0 ≠ .ok 0) (m : ℚ) (hσ : Kept top k σ) :
    Outcome M (Kept top k) ((Animation.sequence id repeatTimes bookmarks sequences).setMarker m σ) := by
  have htotal : Outcome M (fun L => L ≠ 0) (lengthFrom σ sequences (σ.startIndex id) 0) := by
    have hL := lengthFrom_outcome (M := M) (σ := σ)
      (fun a ha => getTotalLength_outcome (hsafe a ha)) (σ.startIndex id) 0
    cases hx : lengthFrom σ sequences (σ.startIndex id) 0 with
    | ok L =>
      rw [hx] at hlength
      exact fun hzero => hlength (by rw [hzero])
    | error e =>
      rw [hx] at hL
      exact hL
  rw [Animation.setMarker]
  refine htotal.bind fun L hL => (corrected_outcome hL repeatTimes m).bind fun p _ => ?_
  exact updateValue_outcome hsafe h _ _ _ hσ

/-- `Rewind` is the rewinding of the sub-animations, `SetMarker(0)` and the reset. -/
theorem rewind_eq (σ : Store ι S) :
    (Animation.sequence id repeatTimes bookmarks sequences).rewind σ =
      rewindAll sequences σ >>= fun σ =>
        (Animation.sequence id repeatTimes bookmarks sequences).setMarker 0 σ >>= fun σ =>
          .ok (σ.reset id) := by
  simp only [rewind, Animation.setMarker, bind_assoc]

end Sequence

/-- A safe animation other than the triggered one works. -/
theorem works_of_safe (hσ₀ : ∀ id, σ₀.startIndex id = 0) (hsafe : Safe M σ₀ a)
    (havoids : Avoids top a) : Works M top k a := by
  induction a using Animation.induction with
  | missing =>
    cases hsafe with
    | missing h =>
      refine fun σ _ => ⟨fun m => ?_, ?_⟩
      · rw [Animation.setMarker]
        exact ⟨rfl, h⟩
      · rw [rewind]
        exact ⟨rfl, h⟩
  | leaf l =>
    cases hsafe with
    | leaf h => exact works_leaf h
  | sequence id repeatTimes bookmarks sequences ih =>
    cases hsafe with
    | sequence hsafe hlength =>
      cases havoids with
      | sequence hne hsub =>
        have hworks : ∀ a ∈ sequences, Works M top k a := fun a ha => ih a ha (hsafe a ha) (hsub a ha)
        have hset : ∀ σ m, Kept top k σ → Outcome M (Kept top k)
            ((Animation.sequence id repeatTimes bookmarks sequences).setMarker m σ) := by
          intro σ m hσ
          refine setMarker_outcome hsafe hworks ?_ m hσ
          rw [hσ.2 id hne, lengthFrom_kept hσ hσ₀ hsub]
          exact hlength
        refine fun σ hσ => ⟨fun m => hset σ m hσ, ?_⟩
        rw [rewind_eq]
        exact (rewindAll_outcome hworks hσ).bind fun σ hσ =>
          (hset σ 0 hσ).bind fun σ hσ => hσ.reset hne

/-! ### Unsafe animations fail -/

/-- The first of the sub-animations that is not safe stops `Rewind`. -/
theorem rewindAll_fails {as : List (Animation ι S)} (hσ₀ : ∀ id, σ₀.startIndex id = 0)
    (hpresent : ∀ a ∈ as, Present a) (havoids : ∀ a ∈ as, Avoids top a)
    (hfails : ∀ a ∈ as, ¬ Safe True σ₀ a → ∀ σ, Kept top k σ → a.rewind σ = .error .zeroLength)
    (hnotSafe : ¬ ∀ a ∈ as, Safe True σ₀ a) (hσ : Kept top k σ) :
    rewindAll as σ = .error .zeroLength := by
  induction as generalizing σ with
  | nil => exact absurd (by simp) hnotSafe
  | cons a as ih =>
    rw [rewindAll]
    by_cases ha : Safe True σ₀ a
    · have hworks : Works False top k a :=
        works_of_safe hσ₀ ((hpresent a (by simp)).safe ha) (havoids a (by simp))
      obtain ⟨σ₁, hσ₁, hkept⟩ := (hworks σ hσ).2.exists_ok
      rw [hσ₁]
      refine ih (fun b hb => hpresent b (by simp [hb])) (fun b hb => havoids b (by simp [hb]))
        (fun b hb => hfails b (by simp [hb])) (fun h => hnotSafe ?_) hkept
      rintro b (_ | ⟨_, hb⟩)
      · exact ha
      · exact h b hb
    · rw [hfails a (by simp) ha σ hσ]
      rfl

/-- A sequence without a length from its start index on divides by zero. -/
theorem setMarker_fails {id : ι} {repeatTimes : ℚ} (bookmarks : List (String × ℤ))
    {sequences : List (Animation ι S)}
    (hlength : lengthFrom σ sequences (σ.startIndex id) 0 = .ok 0) (m : ℚ) :
    (Animation.sequence id repeatTimes bookmarks sequences).setMarker m σ = .error .zeroLength := by
  rw [Animation.setMarker, hlength]
  rfl

theorem rewind_fails (hσ₀ : ∀ id, σ₀.startIndex id = 0) (hpresent : Present a)
    (havoids : Avoids top a) (hnotSafe : ¬ Safe True σ₀ a) (hσ : Kept top k σ) :
    a.rewind σ = .error .zeroLength := by
  induction a using Animation.induction generalizing σ with
  | missing => exact absurd (.missing trivial) hnotSafe
  | leaf l =>
    obtain ⟨hrepeat, hzero⟩ : l.repeatTimes.isSome ∧ l.lengthMs = 0 := by
      by_contra hnot
      exact hnotSafe (.leaf fun hrepeat hzero => hnot ⟨hrepeat, hzero⟩)
    obtain ⟨repeatTimes, hrepeat⟩ := Option.isSome_iff_exists.mp hrepeat
    have hcorrected : corrected l.lengthMs repeatTimes 0 = .error .zeroLength := if_pos hzero
    rw [rewind, Leaf.rewind, Leaf.setMarker]
    simp only [hrepeat, hcorrected]
    rfl
  | sequence id repeatTimes bookmarks sequences ih =>
    cases hpresent with
    | sequence hpresent =>
      cases havoids with
      | sequence hne hsub =>
        rw [rewind_eq]
        by_cases hsafe : ∀ a ∈ sequences, Safe True σ₀ a
        · have hzero : lengthFrom σ₀ sequences 0 0 = .ok 0 := by
            by_contra hlength
            exact hnotSafe (.sequence hsafe hlength)
          have hworks : ∀ a ∈ sequences, Works False top k a := fun a ha =>
            works_of_safe hσ₀ ((hpresent a ha).safe (hsafe a ha)) (hsub a ha)
          obtain ⟨σ₁, hσ₁, hkept⟩ := (rewindAll_outcome hworks hσ).exists_ok
          rw [hσ₁, ok_bind, setMarker_fails _ (by rw [hkept.2 id hne, lengthFrom_kept hkept hσ₀ hsub, hzero]),
            error_bind]
        · rw [rewindAll_fails hσ₀ hpresent hsub (fun a ha hnotSafe σ hσ =>
            ih a ha (hpresent a ha) (hsub a ha) hnotSafe hσ) hsafe hσ, error_bind]

/-! ### Calls -/

/-- A call of a `SequenceAnimation`. -/
inductive Call
  | trigger (bookmark : String)
  /-- `Trigger(int)`. -/
  | triggerIndex (index : ℤ)
  | triggerOnLevel (bookmark : String)
  | setMarker (marker : ℚ)
  | isPlaying | getLengthMs | rewind

namespace SequenceAnimation

variable (s : SequenceAnimation ι S)

/-- What a call leaves; what it returns is no matter here. -/
def perform (σ : Store ι S) : Call → Except Fault (Store ι S)
  | .trigger bookmark => s.trigger bookmark σ
  | .triggerIndex index => s.triggerIndex index σ
  | .triggerOnLevel bookmark => s.triggerOnLevel bookmark σ
  | .setMarker marker => s.setMarker marker σ
  | .isPlaying => s.isPlaying σ >>= fun _ => .ok σ
  | .getLengthMs => s.getLengthMs σ >>= fun _ => .ok σ
  | .rewind => s.rewind σ

def performAll (calls : List Call) (σ : Store ι S) : Except Fault (Store ι S) :=
  calls.foldlM s.perform σ

/-- The indices the sequence starts at: the first one, those of the bookmarks and those in `indices`. -/
inductive Starts (indices : Set ℤ) : ℕ → Prop
  | first : Starts indices 0
  | bookmark {bookmark : String} {index : ℤ} (h : s.find bookmark = some index) :
      Starts indices (toSize index)
  | index {index : ℤ} (h : index ∈ indices) : Starts indices (toSize index)

/-- **No length is zero**: that from any start on, and those of the repeated animations inside. -/
def HasLengths (indices : Set ℤ) (σ₀ : Store ι S) : Prop :=
  (∀ a ∈ s.sequences, Safe True σ₀ a) ∧
    ∀ k, s.Starts indices k → lengthFrom σ₀ s.sequences k 0 ≠ .ok 0

/-- No call sequence, with indices for `Trigger(int)` from the given ones, indexes the list out of range
or divides by a length of zero. -/
def Defined (indices : Set ℤ) (σ : Store ι S) : Prop :=
  ∀ calls, (∀ index, .triggerIndex index ∈ calls → index ∈ indices) →
    s.performAll calls σ ≠ .error .index ∧ s.performAll calls σ ≠ .error .zeroLength

end SequenceAnimation

section Calls

variable {s : SequenceAnimation ι S} {indices : Set ℤ}

theorem performAll_outcome {P : Store ι S → Prop} {calls : List Call}
    (h : ∀ call ∈ calls, ∀ σ, P σ → Outcome M P (s.perform σ call)) (hσ : P σ) :
    Outcome M P (s.performAll calls σ) := by
  induction calls generalizing σ with
  | nil => exact hσ
  | cons call calls ih =>
    exact (h call (by simp) σ hσ).bind fun σ hσ => ih (fun c hc => h c (by simp [hc])) hσ

omit [DecidableEq ι] in
/-- An index from which there is a length left is in the list. -/
theorem element_outcome (hsafe : ∀ a ∈ s.sequences, Safe True σ₀ a)
    (hlength : lengthFrom σ₀ s.sequences k 0 ≠ .ok 0) : Outcome M (Safe True σ₀) (s.element k) := by
  unfold SequenceAnimation.element
  cases hget : s.sequences[k]? with
  | none => exact absurd (lengthFrom_of_le (List.getElem?_eq_none_iff.mp hget) 0) hlength
  | some a => exact hsafe a (List.mem_of_getElem? hget)

/-- The sequence starts at one of its starts, and nothing inside was triggered. -/
def StartsWell (s : SequenceAnimation ι S) (indices : Set ℤ) (σ : Store ι S) : Prop :=
  ∃ k, s.Starts indices k ∧ Kept s.id k σ

/-- **With lengths every call goes right**, or stops at a pointer to no animation. -/
theorem perform_outcome (hσ₀ : ∀ id, σ₀.startIndex id = 0) (h : s.HasLengths indices σ₀)
    (havoids : ∀ a ∈ s.sequences, Avoids s.id a) {call : Call}
    (hindex : ∀ index, call = .triggerIndex index → index ∈ indices) (hσ : StartsWell s indices σ) :
    Outcome True (StartsWell s indices) (s.perform σ call) := by
  obtain ⟨hsafe, hlengths⟩ := h
  have hworks : ∀ k, ∀ a ∈ s.sequences, Works True s.id k a := fun k a ha =>
    works_of_safe hσ₀ (hsafe a ha) (havoids a ha)
  have hlength : ∀ k σ, s.Starts indices k → Kept s.id k σ →
      lengthFrom σ s.sequences (σ.startIndex s.id) 0 ≠ .ok 0 := by
    intro k σ hk hσ
    rw [hσ.1, lengthFrom_kept hσ hσ₀ havoids]
    exact hlengths k hk
  have hset : ∀ k σ m, s.Starts indices k → Kept s.id k σ →
      Outcome True (Kept s.id k) (s.setMarker m σ) := fun k σ m hk hσ =>
    setMarker_outcome hsafe (hworks k) (hlength k σ hk hσ) m hσ
  have hupdate : ∀ σ (index : ℤ) p, s.Starts indices (SequenceAnimation.toSize index) →
      StartsWell s indices σ → Outcome True (StartsWell s indices) (s.updateSequence index p σ) := by
    rintro σ index p hk ⟨k, -, hσ⟩
    exact (hset _ _ _ hk (hσ.startAt _ p)).mono fun σ hσ => ⟨_, hk, hσ⟩
  have hmissing : ∀ {α : Type} {x : Except Fault α} {f : α → Except Fault (Store ι S)},
      Outcome True (fun _ => True) x → (∀ a, Outcome True (StartsWell s indices) (f a)) →
      Outcome True (StartsWell s indices) (x >>= f) := fun hx hf => hx.bind fun a _ => hf a
  have htotal : ∀ σ : Store ι S, Outcome True (fun _ => True)
      (lengthFrom σ s.sequences (σ.startIndex s.id) 0) := fun σ =>
    lengthFrom_outcome (fun a ha => getTotalLength_outcome (hsafe a ha)) _ _
  cases call with
  | trigger bookmark =>
    show Outcome True _ (s.trigger bookmark σ)
    unfold SequenceAnimation.trigger
    cases hfind : s.find bookmark with
    | none => exact hσ
    | some index => exact hupdate σ index _ (.bookmark hfind) hσ
  | triggerIndex index => exact hupdate σ index _ (.index (hindex index rfl)) hσ
  | triggerOnLevel bookmark =>
    show Outcome True _ (s.triggerOnLevel bookmark σ)
    unfold SequenceAnimation.triggerOnLevel
    cases hfind : s.find bookmark with
    | none => exact hσ
    | some index =>
      refine (element_outcome hsafe (hlengths _ (.bookmark hfind))).bind fun a ha => ?_
      exact hmissing (getPositionFromValue_outcome ha _) fun position =>
        hupdate σ index _ (.bookmark hfind) hσ
  | setMarker marker =>
    obtain ⟨k, hk, hσ⟩ := hσ
    exact (hset k σ marker hk hσ).mono fun σ hσ => ⟨k, hk, hσ⟩
  | isPlaying =>
    obtain ⟨k, hk, hkept⟩ := hσ
    show Outcome True _ (s.isPlaying σ >>= fun _ => .ok σ)
    refine hmissing ?_ fun _ => ⟨k, hk, hkept⟩
    have helement : Outcome True (Safe True σ₀) (s.element (σ.startIndex s.id)) := by
      rw [hkept.1]
      exact element_outcome hsafe (hlengths k hk)
    exact helement.bind fun a ha => (getOffset_outcome ha).bind fun _ _ =>
      (htotal σ).bind fun _ _ => trivial
  | getLengthMs => exact hmissing (htotal σ) fun _ => hσ
  | rewind =>
    obtain ⟨k, hk, hkept⟩ := hσ
    show Outcome True _ (s.toAnimation.rewind σ)
    unfold SequenceAnimation.toAnimation
    rw [rewind_eq]
    refine (rewindAll_outcome (hworks k) hkept).bind fun σ hσ => ?_
    exact (hset k σ 0 hk hσ).bind fun σ hσ => ⟨0, .first, hσ.reset_top⟩

/-- A call sequence of one call. -/
theorem performAll_singleton (call : Call) (σ : Store ι S) :
    s.performAll [call] σ = s.perform σ call := by
  unfold SequenceAnimation.performAll
  rw [List.foldlM_cons]
  cases s.perform σ call with
  | ok σ' => rfl
  | error e => rfl

/-- Lengths are enough for every sequence, and are needed where every pointer is to an animation. -/
theorem defined_iff (hσ : ∀ id, σ.startIndex id = 0) (havoids : ∀ a ∈ s.sequences, Avoids s.id a) :
    (s.HasLengths indices σ → s.Defined indices σ) ∧
      ((∀ a ∈ s.sequences, Present a) → (s.Defined indices σ ↔ s.HasLengths indices σ)) := by
  have hkept : Kept s.id 0 σ := ⟨hσ s.id, fun id _ => hσ id⟩
  have hdefined : s.HasLengths indices σ → s.Defined indices σ := by
    intro h calls hcalls
    have houtcome : Outcome True (StartsWell s indices) (s.performAll calls σ) :=
      performAll_outcome (fun call hcall σ' hσ' => perform_outcome hσ h havoids
        (fun index heq => hcalls index (heq ▸ hcall)) hσ') ⟨0, .first, hkept⟩
    constructor <;> intro herror <;> rw [herror] at houtcome <;> cases houtcome.1
  refine ⟨hdefined, fun hpresent => ⟨fun h => ?_, hdefined⟩⟩
  have hone : ∀ call, (∀ index, call = .triggerIndex index → index ∈ indices) →
      s.perform σ call ≠ .error .zeroLength := by
    intro call hindex
    rw [← performAll_singleton]
    exact (h [call] fun index hmem => hindex index (List.mem_singleton.mp hmem).symm).2
  refine ⟨?_, fun k hk hlength => ?_⟩
  · -- `Rewind` comes to an animation without a length.
    by_contra hnotSafe
    refine hone .rewind (by simp) ?_
    show s.toAnimation.rewind σ = _
    unfold SequenceAnimation.toAnimation
    rw [rewind_eq, rewindAll_fails hσ hpresent havoids (fun a ha hnotSafe σ' hσ' =>
      rewind_fails hσ (hpresent a ha) (havoids a ha) hnotSafe hσ') hnotSafe hkept, error_bind]
  · -- The trigger of the start sets a marker.
    have hupdate : ∀ (index : ℤ) p, SequenceAnimation.toSize index = k →
        s.updateSequence index p σ = .error .zeroLength := by
      rintro index p rfl
      refine setMarker_fails s.bookmarks ?_ _
      rw [(hkept.startAt _ p).1, lengthFrom_kept (hkept.startAt _ p) hσ havoids]
      exact hlength
    cases hk with
    | first =>
      refine hone (.setMarker 0) (by simp) (setMarker_fails s.bookmarks ?_ 0)
      rw [hσ]
      exact hlength
    | @bookmark bookmark index hfind =>
      refine hone (.trigger bookmark) (by simp) ?_
      show s.trigger bookmark σ = _
      rw [SequenceAnimation.trigger, hfind]
      exact hupdate _ _ rfl
    | index hindex =>
      refine hone (.triggerIndex _) (fun _ heq => ?_) (hupdate _ _ rfl)
      cases heq
      exact hindex

end Calls

/-! ### From JSON -/

section Deserialize

variable (leafOf : ObjectClass → JSONNode → Leaf (List ℕ) S) (atof : String → ℚ)

/-- The nodes of the sub-animations. -/
def sequenceItems (n : JSONNode) : List JSONNode := ((n.find "Sequences").map JSONNode.asArray).getD []

theorem sizeOf_of_mem_sequenceItems {n c : JSONNode} (h : c ∈ sequenceItems n) :
    sizeOf c < sizeOf n := by
  unfold sequenceItems at h
  cases hfind : n.find "Sequences" with
  | none =>
    rw [hfind] at h
    cases h
  | some list =>
    rw [hfind] at h
    exact (sizeOf_of_mem_asArray h).trans (sizeOf_of_find hfind)

/-- The bookmarks of the node; a later one of the same name replaces the one before. -/
def readBookmarks (n : JSONNode) : List (String × ℤ) :=
  (((n.find "bookmarks").map JSONNode.children).getD []).foldl
    (fun bookmarks c => SequenceAnimation.setBookmark c.1 (c.2.asInt atof) bookmarks) []

/-- `Deserialize` into a fresh object, where the identity of an object is its place; `leafOf` is what the
other classes of animations read. -/
def deserialize (id : List ℕ) (n : JSONNode) : SequenceAnimation (List ℕ) S :=
  { id
    repeatTimes := deserializeValue atof n "RepeatTimes" INF
    bookmarks := readBookmarks atof n
    sequences := (sequenceItems n).attach.zipIdx.map fun c =>
      match ObjectBuilder.build c.1.1 with
      | some .sequenceAnimation => (deserialize (c.2 :: id) c.1.1).toAnimation
      | some cls =>
        if cls.isA .animation then .leaf { leafOf cls c.1.1 with id := c.2 :: id } else .missing
      | none => .missing }
termination_by sizeOf n
decreasing_by exact sizeOf_of_mem_sequenceItems c.1.2

/-- The sequences that are read have the place of the object at the end of theirs. -/
theorem avoids_deserialize {top id : List ℕ} (hlt : top.length < id.length) (n : JSONNode) :
    Avoids top (deserialize leafOf atof id n).toAnimation := by
  induction hsize : sizeOf n using Nat.strong_induction_on generalizing n id with
  | _ size ih =>
    subst hsize
    rw [deserialize]
    refine .sequence (fun h => ?_) fun a ha => ?_
    · subst h
      exact lt_irrefl _ hlt
    · obtain ⟨⟨⟨c, hc⟩, i⟩, -, rfl⟩ := List.mem_map.mp ha
      have hrec : Avoids top (deserialize leafOf atof (i :: id) c).toAnimation :=
        ih _ (sizeOf_of_mem_sequenceItems hc) (by simp; omega) c rfl
      dsimp only
      split
      · exact hrec
      · split_ifs
        · exact .leaf
        · exact .missing
      · exact .missing

/-- The store of fresh objects. -/
def fresh (fields : ι → S) (value : ι → ℚ) : Store ι S where
  marker _ := 0
  value
  fields
  startIndex _ := 0
  currentIndex _ := -1
  offset _ := 0

/-- **A sequence from JSON.** Lengths that are not zero are enough for every call to go right, and are
needed where every element of a list is an animation. -/
theorem deserialize_defined_iff (fields : List ℕ → S) (value : List ℕ → ℚ) (n : JSONNode)
    (indices : Set ℤ) :
    ((deserialize leafOf atof [] n).HasLengths indices (fresh fields value) →
      (deserialize leafOf atof [] n).Defined indices (fresh fields value)) ∧
    ((∀ a ∈ (deserialize leafOf atof [] n).sequences, Present a) →
      ((deserialize leafOf atof [] n).Defined indices (fresh fields value) ↔
        (deserialize leafOf atof [] n).HasLengths indices (fresh fields value))) := by
  have hid : (deserialize leafOf atof [] n).id = [] := by rw [deserialize]
  refine defined_iff (fun id => rfl) fun a ha => ?_
  rw [hid]
  rw [deserialize] at ha
  obtain ⟨⟨⟨c, hc⟩, i⟩, -, rfl⟩ := List.mem_map.mp ha
  dsimp only
  split
  · exact avoids_deserialize leafOf atof (by simp) c
  · split_ifs
    · exact .leaf
    · exact .missing
  · exact .missing

end Deserialize

/-- One constant animation and a bookmark outside the list. -/
def bookmarkOutside : JSONNode :=
  .node [("Sequences", .array [.node [("type", .string "huestream.ConstantAnimation")]]),
    ("bookmarks", .node [("end", .number 5 "5")])]

/-- The bookmark outside the list makes `TriggerOnLevel` index it out of range and `Trigger` divide by
zero; an empty list does the same for `IsPlaying` and `SetMarker`. -/
theorem exists_undefined_sequence :
    (∃ s : SequenceAnimation (List ℕ) Fields,
      s = deserialize (fun _ _ => Leaf.constant [] INF) (fun _ => 0) [] bookmarkOutside ∧
      s.performAll [.triggerOnLevel "end"] (fresh (fun _ => .constant) fun _ => 0) = .error .index ∧
      s.performAll [.trigger "end"] (fresh (fun _ => .constant) fun _ => 0) = .error .zeroLength) ∧
    ∃ s : SequenceAnimation (List ℕ) Fields,
      s = deserialize (fun _ _ => Leaf.constant [] INF) (fun _ => 0) [] (.node []) ∧
      s.performAll [.isPlaying] (fresh (fun _ => .constant) fun _ => 0) = .error .index ∧
      s.performAll [.setMarker 0] (fresh (fun _ => .constant) fun _ => 0) = .error .zeroLength := by
  refine ⟨⟨⟨[], INF, [("end", 5)], [.leaf (Leaf.constant [0] INF)]⟩, ?_, rfl, rfl⟩,
    ⟨[], INF, [], []⟩, ?_, rfl, rfl⟩
  · rw [deserialize]
    rfl
  · rw [deserialize]
    rfl

end HueStream.Animations
