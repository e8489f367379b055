import HueStream.Animations.Animation
import HueStream.Lib.Numbers

/-! # Regular animations

The value of a sequence is that of the sub-animation its marker falls into, at the position within it. This
needs nothing but the marker where the sub-animations are of positive finite length, are repeated whole
numbers of times and, if they are no sequences themselves, show a value that their marker determines.

* `plays_of_regular`: such an animation takes every marker and shows the value that belongs to it. -/

namespace HueStream.Animations

variable {ι S : Type}

/-! ### The value that belongs to a marker -/

/-- The rest of `m` modulo the length `L`. -/
def modLength (L m : ℚ) : ℚ := m - ⌊m / L⌋ * L

namespace Animation

mutual

/-- The total length of an animation that was not triggered. -/
def length : Animation ι S → ℚ
  | .missing => 0
  | .leaf l => l.getTotalLength
  | .sequence _ repeatTimes _ sequences => repeatedLength (lengths sequences) repeatTimes

/-- The total lengths added up. -/
def lengths : List (Animation ι S) → ℚ
  | [] => 0
  | a :: as => length a + lengths as

end

mutual

/-- The value that belongs to a marker, where `f` gives those of the leaves within one repetition. -/
def valueAt (f : Leaf ι S → ℚ → ℚ) : Animation ι S → ℚ → ℚ
  | .missing, _ => 0
  | .leaf l, m => f l (if l.repeatTimes.isSome then modLength l.lengthMs m else m)
  | .sequence _ _ _ sequences, m => valueIn f sequences (modLength (lengths sequences) m)

/-- The value of the sub-animation into which a position falls. -/
def valueIn (f : Leaf ι S → ℚ → ℚ) : List (Animation ι S) → ℚ → ℚ
  | [], _ => 0
  | a :: as, p => if p < length a then valueAt f a p else valueIn f as (p - length a)

end

/-- `Part b a`: the animation `b` is `a` or stands somewhere in it. -/
inductive Part : Animation ι S → Animation ι S → Prop
  | refl {a : Animation ι S} : Part a a
  | sub {a b : Animation ι S} {id : ι} {repeatTimes : ℚ} {bookmarks : List (String × ℤ)}
      {sequences : List (Animation ι S)} (ha : a ∈ sequences) (h : Part b a) :
      Part b (.sequence id repeatTimes bookmarks sequences)

/-- The identity of the object. -/
def ident : Animation ι S → Option ι
  | .missing => none
  | .leaf l => some l.id
  | .sequence id _ _ _ => some id

/-- An identity belongs to one object. -/
def Coherent (root : Animation ι S) : Prop :=
  ∀ a b id, Part a root → Part b root → a.ident = some id → b.ident = some id → a = b

end Animation

/-- A whole number of repetitions that can be counted in an `int64_t`. -/
def WholeCount (repeatTimes : ℚ) : Prop := ∃ n : ℕ, repeatTimes = n ∧ n < 2 ^ 63

/-- Every animation of the tree has a positive finite length and is repeated a whole number of times, and
every leaf is as `good` says. -/
inductive Regular (good : Leaf ι S → Prop) : Animation ι S → Prop
  | leaf {l : Leaf ι S} (hgood : good l) (hpos : 0 < l.getTotalLength) (hfinite : l.getTotalLength < INF)
      (hwhole : ∀ repeatTimes ∈ l.repeatTimes, WholeCount repeatTimes) : Regular good (.leaf l)
  | sequence {id : ι} {repeatTimes : ℚ} {bookmarks : List (String × ℤ)}
      {sequences : List (Animation ι S)} (hsub : ∀ a ∈ sequences, Regular good a)
      (hpos : 0 < repeatedLength (Animation.lengths sequences) repeatTimes)
      (hfinite : repeatedLength (Animation.lengths sequences) repeatTimes < INF)
      (hwhole : WholeCount repeatTimes) :
      Regular good (.sequence id repeatTimes bookmarks sequences)

/-- The values of a leaf within one repetition are those of `f`, whatever the markers before: `inv` holds
of the fields and the value, is kept, and makes the value that of `f`. -/
structure Leaf.Follows (l : Leaf ι S) (inv : S → ℚ → Prop) (f : ℚ → ℚ) : Prop where
  update : ∀ s v p, inv s v → inv (l.updateValue s v p).1 (l.updateValue s v p).2
  rewound : ∀ s v, inv s v → inv (l.rewound (l.updateValue s v 0).1) (l.updateValue s v 0).2
  value : ∀ s v p, inv s v → 0 ≤ p → p < l.lengthMs → (l.updateValue s v p).2 = f p

/-! ### Positions -/

section Positions

variable {L m : ℚ}

theorem modLength_nonneg (hL : 0 < L) : 0 ≤ modLength L m := by
  have hfloor : (⌊m / L⌋ : ℚ) ≤ m / L := Int.floor_le _
  rw [le_div_iff₀ hL] at hfloor
  unfold modLength
  linarith

theorem modLength_lt (hL : 0 < L) : modLength L m < L := by
  have hfloor : m / L < ⌊m / L⌋ + 1 := Int.lt_floor_add_one _
  rw [div_lt_iff₀ hL] at hfloor
  unfold modLength
  linarith

theorem toInt64_of_nonneg {x : ℚ} (hx : 0 ≤ x) (hlt : x < 2 ^ 63) : toInt64 x = ⌊x⌋ := by
  have hfloor : x.num.tdiv x.den = ⌊x⌋ := Lib.truncate_of_nonneg hx
  have hnonneg : (0 : ℤ) ≤ ⌊x⌋ := Int.floor_nonneg.mpr hx
  have hfloorlt : ⌊x⌋ < 2 ^ 63 := by
    rw [Int.floor_lt]
    exact_mod_cast hlt
  unfold toInt64
  simp only [hfloor]
  rw [if_pos ⟨by omega, hfloorlt⟩]

theorem corrected_eq_ok (hL : 0 < L) (repeatTimes m : ℚ) :
    ∃ p, corrected L repeatTimes m = .ok p := by
  unfold corrected
  rw [if_neg hL.ne']
  exact ⟨_, rfl⟩

/-- Below the end of the last repetition the marker is taken modulo the length. -/
theorem corrected_of_lt {n : ℕ} (hL : 0 < L) (hm : 0 ≤ m) (hlt : m < L * (n + 1))
    (h64 : m < L * 2 ^ 63) : corrected L n m = .ok (modLength L m) := by
  have hnonneg : 0 ≤ m / L := div_nonneg hm hL.le
  have hquotient : m / L < 2 ^ 63 := by
    rw [div_lt_iff₀ hL]
    linarith
  have htimes : ⌊m / L⌋ ≤ (n : ℤ) := by
    rw [← Int.lt_add_one_iff, Int.floor_lt, div_lt_iff₀ hL]
    push_cast
    linarith
  unfold corrected
  rw [if_neg hL.ne', toInt64_of_nonneg hnonneg hquotient]
  simp only [modLength]
  rw [if_pos (by exact_mod_cast htimes)]

theorem corrected_zero (hL : 0 < L) (n : ℕ) : corrected L n 0 = .ok 0 := by
  have hend : 0 < L * (n + 1) := by positivity
  rw [corrected_of_lt hL le_rfl hend (by positivity)]
  simp [modLength]

theorem two_pow_le_INF : (2 : ℚ) ^ 63 ≤ INF := by
  have hpow : (2 : ℚ) ^ 63 ≤ 2 ^ 971 := pow_le_pow_right₀ (by norm_num) (by norm_num)
  have hfactor : (1 : ℚ) ≤ 2 ^ 53 - 1 := by norm_num
  exact hpow.trans (le_mul_of_one_le_left (by positivity) hfactor)

theorem INF_pos : 0 < INF := by
  have hle := two_pow_le_INF
  have hpow : (0 : ℚ) < 2 ^ 63 := by positivity
  exact hpow.trans_le hle

/-- Below the total length every marker is in one of the repetitions. -/
theorem lt_repetitions {n : ℕ} (hL : 0 < L) (hlt : m < repeatedLength L n)
    (h64 : m < L * 2 ^ 63) : m < L * (n + 1) := by
  unfold repeatedLength at hlt
  split_ifs at hlt with hend
  · rcases hend with rfl | hn
    · have hone : INF * 1 ≤ INF * (n + 1) := by
        refine mul_le_mul_of_nonneg_left ?_ hL.le
        have : (0 : ℚ) ≤ n := Nat.cast_nonneg n
        linarith
      linarith
    · have hcount : (2 : ℚ) ^ 63 ≤ n + 1 := by
        have hINF := two_pow_le_INF
        rw [hn]
        linarith
      nlinarith
  · exact hlt

end Positions

/-! ### Regular animations -/

section Lengths

variable {good : Leaf ι S → Prop} {a : Animation ι S}

theorem Regular.length_pos (h : Regular good a) : 0 < a.length := by
  cases h with
  | leaf _ hpos => exact hpos
  | sequence _ hpos => exact hpos

theorem Regular.length_lt (h : Regular good a) : a.length < INF := by
  cases h with
  | leaf _ _ hfinite => exact hfinite
  | sequence _ _ hfinite => exact hfinite

theorem lengths_nonneg {as : List (Animation ι S)} (h : ∀ a ∈ as, Regular good a) :
    0 ≤ Animation.lengths as := by
  induction as with
  | nil => exact le_rfl
  | cons a as ih =>
    have hpos := (h a (by simp)).length_pos
    have hnonneg := ih fun b hb => h b (by simp [hb])
    rw [Animation.lengths]
    linarith

theorem lengths_pos {as : List (Animation ι S)} (h : ∀ a ∈ as, Regular good a) (hne : as ≠ []) :
    0 < Animation.lengths as := by
  cases as with
  | nil => exact absurd rfl hne
  | cons a as =>
    have hpos := (h a (by simp)).length_pos
    have hnonneg : 0 ≤ Animation.lengths as := lengths_nonneg fun b hb => h b (by simp [hb])
    rw [Animation.lengths]
    linarith

/-- A length that is repeated a whole number of times to a positive finite one. -/
theorem pos_of_repeatedLength {L : ℚ} {n : ℕ} (hpos : 0 < repeatedLength L n)
    (hfinite : repeatedLength L n < INF) : 0 < L ∧ repeatedLength L n = L * (n + 1) := by
  unfold repeatedLength at hpos hfinite ⊢
  split_ifs at hpos hfinite ⊢ with hend
  · exact absurd hfinite (lt_irrefl _)
  · refine ⟨?_, rfl⟩
    have hcount : (0 : ℚ) < n + 1 := by positivity
    exact (pos_iff_pos_of_mul_pos hpos).mpr hcount

end Lengths

/-! ### The store between the calls -/

variable {inv : Leaf ι S → S → ℚ → Prop} {f : Leaf ι S → ℚ → ℚ}
  {root a : Animation ι S} {σ : Store ι S} {id : ι} {l : Leaf ι S}

open Animation

/-- No sequence in the tree is triggered, and every leaf is as its invariant says. -/
structure Ready (inv : Leaf ι S → S → ℚ → Prop) (root : Animation ι S) (σ : Store ι S) : Prop where
  start : ∀ id repeatTimes bookmarks sequences,
    Part (.sequence id repeatTimes bookmarks sequences) root →
      σ.startIndex id = 0 ∧ σ.offset id = 0
  fields : ∀ l, Part (.leaf l) root → inv l (σ.fields l.id) (σ.value l.id)

theorem lengthFrom_eq {as : List (Animation ι S)} {length : ℚ}
    (h : ∀ a ∈ as, a.getTotalLength σ = .ok a.length ∧ a.length ≠ INF) :
    lengthFrom σ as 0 length = .ok (length + lengths as) := by
  induction as generalizing length with
  | nil => simp [lengthFrom, lengths]
  | cons a as ih =>
    obtain ⟨htotal, hfinite⟩ := h a (by simp)
    have hrest : lengthFrom σ as 0 (length + a.length) = .ok (length + a.length + lengths as) :=
      ih fun b hb => h b (by simp [hb])
    rw [lengthFrom, htotal]
    show (if a.length = INF then _ else _) = _
    rw [if_neg hfinite, hrest, lengths, add_assoc]

theorem Part.trans {b c : Animation ι S} (hab : Part a b) (hbc : Part b c) : Part a c := by
  induction hbc with
  | refl => exact hab
  | sub ha _ ih => exact .sub ha (ih hab)

theorem getTotalLength_eq {good : Leaf ι S → Prop} (hregular : Regular good a) (hpart : Part a root)
    (h : Ready inv root σ) : a.getTotalLength σ = .ok a.length := by
  induction a using Animation.induction with
  | missing => cases hregular
  | leaf l => rfl
  | sequence id repeatTimes bookmarks sequences ih =>
    cases hregular with
    | sequence hsub hpos hfinite hwhole =>
      have htotals : ∀ a ∈ sequences, a.getTotalLength σ = .ok a.length ∧ a.length ≠ INF :=
        fun a ha => ⟨ih a ha (hsub a ha) (Part.trans (.sub ha .refl) hpart), (hsub a ha).length_lt.ne⟩
      rw [getTotalLength, (h.start _ _ _ _ hpart).1, lengthFrom_eq htotals, zero_add, length]
      rfl

theorem getOffset_eq {good : Leaf ι S → Prop} (hregular : Regular good a) (hpart : Part a root)
    (h : Ready inv root σ) : a.getOffset σ = .ok 0 := by
  cases hregular with
  | leaf => rfl
  | sequence => rw [getOffset, (h.start _ _ _ _ hpart).2]

/-! ### What keeps the store ready -/

variable [DecidableEq ι]

theorem Ready.setMarker (h : Ready inv root σ) (marker : ℚ) :
    Ready inv root (σ.setMarker id marker) := ⟨h.start, h.fields⟩

theorem Ready.setCurrentIndex (h : Ready inv root σ) (index : ℤ) :
    Ready inv root (σ.setCurrentIndex id index) := ⟨h.start, h.fields⟩

theorem Ready.reset (h : Ready inv root σ) : Ready inv root (σ.reset id) := by
  refine ⟨fun id' repeatTimes bookmarks sequences hpart => ?_, h.fields⟩
  have hstart := h.start id' repeatTimes bookmarks sequences hpart
  by_cases hid : id' = id
  · subst hid
    simp [Store.reset, Store.startAt, Store.setCurrentIndex]
  · simpa [Store.reset, Store.startAt, Store.setCurrentIndex, hid] using hstart

/-- The value of a sequence is no leaf's. -/
theorem Ready.setValue (h : Ready inv root σ) (hcoherent : Coherent root) {repeatTimes : ℚ}
    {bookmarks : List (String × ℤ)} {sequences : List (Animation ι S)}
    (hpart : Part (.sequence id repeatTimes bookmarks sequences) root) (value : ℚ) :
    Ready inv root (σ.setValue id value) := by
  refine ⟨h.start, fun l hl => ?_⟩
  have hne : l.id ≠ id := by
    intro hid
    have heq := hcoherent _ _ id hl hpart (by rw [ident, hid]) rfl
    cases heq
  simpa [Store.setValue, hne] using h.fields l hl

/-- A leaf that is updated keeps its invariant, and the others are not touched. -/
theorem Ready.update (h : Ready inv root σ) (hcoherent : Coherent root) (hpart : Part (.leaf l) root)
    (hfollows : l.Follows (inv l) (f l)) (marker : ℚ) : Ready inv root (l.update marker σ) := by
  refine ⟨h.start, fun l' hl' => ?_⟩
  by_cases hid : l'.id = l.id
  · obtain rfl : l = l' := by
      have heq := hcoherent _ _ l.id hpart hl' rfl (by rw [ident, hid])
      injection heq
    simpa [Leaf.update, Store.setValue, Store.setFields, Store.setMarker] using
      hfollows.update _ _ marker (h.fields l hpart)
  · simpa [Leaf.update, Store.setValue, Store.setFields, Store.setMarker, hid] using h.fields l' hl'

theorem Ready.rewound (h : Ready inv root σ) (hcoherent : Coherent root) (hpart : Part (.leaf l) root)
    (hfollows : l.Follows (inv l) (f l)) :
    Ready inv root ((l.update 0 σ).setFields l.id (l.rewound ((l.update 0 σ).fields l.id))) := by
  refine ⟨h.start, fun l' hl' => ?_⟩
  by_cases hid : l'.id = l.id
  · obtain rfl : l = l' := by
      have heq := hcoherent _ _ l.id hpart hl' rfl (by rw [ident, hid])
      injection heq
    simpa [Leaf.update, Store.setValue, Store.setFields, Store.setMarker] using
      hfollows.rewound _ _ (h.fields l hpart)
  · simpa [Leaf.update, Store.setValue, Store.setFields, Store.setMarker, hid] using h.fields l' hl'

/-! ### Setting markers -/

/-- The animation takes every marker and can be rewound, and shows the value that belongs to its
marker. -/
structure Plays (inv : Leaf ι S → S → ℚ → Prop) (f : Leaf ι S → ℚ → ℚ) (root a : Animation ι S) :
    Prop where
  setMarker : ∀ σ m, Ready inv root σ → ∃ σ', a.setMarker m σ = .ok σ' ∧ Ready inv root σ' ∧
    (0 ≤ m → m < a.length → a.getValue σ' = valueAt f a m)
  rewind : ∀ σ, Ready inv root σ → ∃ σ', a.rewind σ = .ok σ' ∧ Ready inv root σ'

theorem Leaf.setMarker_eq (hlength : ∀ repeatTimes ∈ l.repeatTimes, 0 < l.lengthMs) (m : ℚ) :
    ∃ p, l.setMarker m σ = .ok (l.update p σ) ∧
      (l.repeatTimes = none → p = m) ∧
      ∀ repeatTimes ∈ l.repeatTimes, corrected l.lengthMs repeatTimes m = .ok p := by
  unfold Leaf.setMarker
  cases hrepeat : l.repeatTimes with
  | none => exact ⟨m, rfl, fun _ => rfl, by simp⟩
  | some repeatTimes =>
    obtain ⟨p, hp⟩ := corrected_eq_ok (hlength repeatTimes hrepeat) repeatTimes m
    refine ⟨p, by simp only [hp]; rfl, by simp, ?_⟩
    rintro _ ⟨rfl⟩
    exact hp

theorem Leaf.value_update (p : ℚ) :
    (l.update p σ).value l.id = (l.updateValue (σ.fields l.id) (σ.value l.id) p).2 := by
  simp [Leaf.update, Store.setValue]

/-- A regular leaf of the tree plays. -/
theorem plays_leaf (hcoherent : Coherent root) (hpart : Part (.leaf l) root)
    (hregular : Regular (fun l => l.Follows (inv l) (f l)) (.leaf l)) :
    Plays inv f root (.leaf l) := by
  cases hregular with
  | leaf hgood hpos hfinite hwhole =>
    have hlength : ∀ repeatTimes ∈ l.repeatTimes, 0 < l.lengthMs ∧
        l.getTotalLength = l.lengthMs * (repeatTimes + 1) := by
      intro repeatTimes hrepeat
      obtain ⟨n, rfl, -⟩ := hwhole repeatTimes hrepeat
      rw [Option.mem_def] at hrepeat
      simp only [Leaf.getTotalLength, hrepeat, Option.map_some, Option.getD_some] at hpos hfinite ⊢
      exact pos_of_repeatedLength hpos hfinite
    have hset : ∀ (σ : Store ι S) m, Ready inv root σ → ∃ p, l.setMarker m σ = .ok (l.update p σ) ∧
        Ready inv root (l.update p σ) ∧ (l.repeatTimes = none → p = m) ∧
        ∀ repeatTimes ∈ l.repeatTimes, corrected l.lengthMs repeatTimes m = .ok p := by
      intro σ m hσ
      obtain ⟨p, hp, hnone, hsome⟩ :=
        Leaf.setMarker_eq (σ := σ) (fun r hr => (hlength r hr).1) m
      exact ⟨p, hp, hσ.update hcoherent hpart hgood p, hnone, hsome⟩
    refine ⟨fun σ m hσ => ?_, fun σ hσ => ?_⟩
    · obtain ⟨p, hp, hready, hnone, hsome⟩ := hset σ m hσ
      refine ⟨_, hp, hready, fun hm hlt => ?_⟩
      rw [getValue, Leaf.value_update, valueAt]
      cases hrepeat : l.repeatTimes with
      | none =>
        rw [hnone hrepeat]
        have hlt : m < l.lengthMs := by
          simpa [length, Leaf.getTotalLength, hrepeat] using hlt
        exact hgood.value _ _ _ (hσ.fields l hpart) hm hlt
      | some repeatTimes =>
        obtain ⟨hL, htotal⟩ := hlength repeatTimes hrepeat
        obtain ⟨n, rfl, hn⟩ := hwhole repeatTimes hrepeat
        rw [length, htotal] at hlt
        have hn : (n : ℚ) + 1 ≤ 2 ^ 63 := by exact_mod_cast hn
        have h64 : m < l.lengthMs * 2 ^ 63 := by nlinarith
        have hmod := corrected_of_lt hL hm hlt h64
        rw [hsome n hrepeat] at hmod
        injection hmod with hmod
        subst hmod
        exact hgood.value _ _ _ (hσ.fields l hpart) (modLength_nonneg hL) (modLength_lt hL)
    · obtain ⟨p, hp, -, hnone, hsome⟩ := hset σ 0 hσ
      have hzero : p = 0 := by
        cases hrepeat : l.repeatTimes with
        | none => exact hnone hrepeat
        | some repeatTimes =>
          obtain ⟨hL, -⟩ := hlength repeatTimes hrepeat
          obtain ⟨n, rfl, -⟩ := hwhole repeatTimes hrepeat
          have hstart := corrected_zero hL n
          rw [hsome n hrepeat] at hstart
          injection hstart
      subst hzero
      refine ⟨_, ?_, hσ.rewound hcoherent hpart hgood⟩
      rw [rewind, Leaf.rewind, hp]
      rfl

section Sequence

variable {repeatTimes : ℚ} {bookmarks : List (String × ℤ)} {sequences as : List (Animation ι S)}
  {good : Leaf ι S → Prop}

theorem rewindAll_eq (h : ∀ a ∈ as, Plays inv f root a) (hσ : Ready inv root σ) :
    ∃ σ', rewindAll as σ = .ok σ' ∧ Ready inv root σ' := by
  induction as generalizing σ with
  | nil => exact ⟨σ, by rw [rewindAll], hσ⟩
  | cons a as ih =>
    obtain ⟨σ₁, hrewind, hσ₁⟩ := (h a (by simp)).rewind σ hσ
    obtain ⟨σ₂, hall, hσ₂⟩ := ih (fun b hb => h b (by simp [hb])) hσ₁
    refine ⟨σ₂, ?_, hσ₂⟩
    rw [rewindAll, hrewind]
    exact hall

/-- The loop of `UpdateValue` finds the sub-animation into which the position falls. -/
theorem updateValue_eq (hcoherent : Coherent root)
    (hpart : Part (.sequence id repeatTimes bookmarks sequences) root)
    (hsub : ∀ a ∈ as, Regular good a ∧ Part a root ∧ Plays inv f root a) (i : ℕ) (p : ℚ)
    (hσ : Ready inv root σ) :
    ∃ σ', updateValue id as 0 i p σ = .ok σ' ∧ Ready inv root σ' ∧
      (0 ≤ p → p < lengths as → σ'.value id = valueIn f as p) := by
  induction as generalizing i p with
  | nil =>
    refine ⟨σ, by rw [updateValue], hσ, fun hp hlt => ?_⟩
    rw [lengths] at hlt
    exact absurd hlt (not_lt.mpr hp)
  | cons a as ih =>
    obtain ⟨hregular, hparta, hplays⟩ := hsub a (by simp)
    have hlength : a.getTotalLength σ = .ok a.length := getTotalLength_eq hregular hparta hσ
    have hoffset : a.getOffset σ = .ok 0 := getOffset_eq hregular hparta hσ
    have hstep : updateValue id (a :: as) 0 i p σ =
        if p < a.length then
          (if i = σ.currentIndex id then .ok σ else rewind a σ) >>= fun σ =>
            a.setMarker p σ >>= fun σ =>
              .ok ((σ.setValue id (a.getValue σ)).setCurrentIndex id i)
        else updateValue id as 0 (i + 1) (p - a.length) σ := by
      rw [updateValue, hlength, hoffset]
      show (if p < a.length + 0 then _ else updateValue id as 0 (i + 1) (p - (a.length + 0)) σ) = _
      rw [add_zero]
    rw [hstep, valueIn]
    by_cases hp : p < a.length
    · rw [if_pos hp, if_pos hp]
      obtain ⟨σ₁, hσ₁, hready₁⟩ : ∃ σ₁, (if i = σ.currentIndex id then .ok σ else rewind a σ) =
          Except.ok σ₁ ∧ Ready inv root σ₁ := by
        by_cases hi : (i : ℤ) = σ.currentIndex id
        · exact ⟨σ, if_pos hi, hσ⟩
        · rw [if_neg hi]
          exact hplays.rewind σ hσ
      obtain ⟨σ₂, hσ₂, hready₂, hvalue⟩ := hplays.setMarker σ₁ p hready₁
      refine ⟨_, by rw [hσ₁]; show (a.setMarker p σ₁ >>= _) = _; rw [hσ₂]; rfl,
        (hready₂.setValue hcoherent hpart _).setCurrentIndex _, fun hnonneg _ => ?_⟩
      rw [← hvalue hnonneg hp]
      simp [Store.setValue, Store.setCurrentIndex]
    · rw [if_neg hp, if_neg hp]
      obtain ⟨σ', hσ', hready', hvalue⟩ := ih (fun b hb => hsub b (by simp [hb])) (i + 1) (p - a.length)
      refine ⟨σ', hσ', hready', fun hnonneg hlt => hvalue ?_ ?_⟩
      · linarith
      · rw [lengths] at hlt
        linarith

/-- What a sequence in the tree does with a marker and with `Rewind`. -/
theorem sequence_setMarker (hcoherent : Coherent root)
    (hpart : Part (.sequence id repeatTimes bookmarks sequences) root)
    (hsub : ∀ a ∈ sequences, Regular good a ∧ Part a root ∧ Plays inv f root a)
    (hL : 0 < lengths sequences) (m : ℚ) (hσ : Ready inv root σ) :
    ∃ σ' p, (Animation.sequence id repeatTimes bookmarks sequences).setMarker m σ = .ok σ' ∧
      Ready inv root σ' ∧ corrected (lengths sequences) repeatTimes m = .ok p ∧
      (0 ≤ p → p < lengths sequences → σ'.value id = valueIn f sequences p) := by
  have hlengths : lengthFrom σ sequences (σ.startIndex id) 0 = .ok (lengths sequences) := by
    rw [(hσ.start _ _ _ _ hpart).1, ← zero_add (lengths sequences)]
    exact lengthFrom_eq fun a ha =>
      ⟨getTotalLength_eq (hsub a ha).1 (hsub a ha).2.1 hσ, (hsub a ha).1.length_lt.ne⟩
  obtain ⟨p, hp⟩ := corrected_eq_ok hL repeatTimes m
  have hmarked : Ready inv root (σ.setMarker id p) := hσ.setMarker p
  obtain ⟨σ', hσ', hready', hvalue⟩ := updateValue_eq hcoherent hpart hsub 0 p hmarked
  refine ⟨σ', p, ?_, hready', hp, hvalue⟩
  rw [Animation.setMarker, hlengths]
  show (corrected (lengths sequences) repeatTimes m >>= _) = _
  rw [hp]
  show updateValue id sequences (σ.startIndex id) 0 (p - σ.offset id) _ = _
  rw [(hσ.start _ _ _ _ hpart).1, (hσ.start _ _ _ _ hpart).2, sub_zero]
  exact hσ'

/-- `Rewind` ends with the marker 0 and the reset. -/
theorem sequence_rewind (hcoherent : Coherent root)
    (hpart : Part (.sequence id repeatTimes bookmarks sequences) root)
    (hsub : ∀ a ∈ sequences, Regular good a ∧ Part a root ∧ Plays inv f root a)
    (hL : 0 < lengths sequences) (hσ : Ready inv root σ) :
    ∃ σ', (Animation.sequence id repeatTimes bookmarks sequences).rewind σ = .ok σ' ∧
      Ready inv root σ' := by
  obtain ⟨σ₁, hσ₁, hready₁⟩ := rewindAll_eq (fun a ha => (hsub a ha).2.2) hσ
  obtain ⟨σ₂, -, hσ₂, hready₂, -⟩ := sequence_setMarker hcoherent hpart hsub hL 0 hready₁
  refine ⟨σ₂.reset id, ?_, hready₂.reset⟩
  have hrewind : (Animation.sequence id repeatTimes bookmarks sequences).rewind σ =
      rewindAll sequences σ >>= fun σ =>
        (Animation.sequence id repeatTimes bookmarks sequences).setMarker 0 σ >>= fun σ =>
          .ok (σ.reset id) := by
    simp only [rewind, Animation.setMarker, bind_assoc]
  rw [hrewind, hσ₁]
  show ((Animation.sequence id repeatTimes bookmarks sequences).setMarker 0 σ₁ >>= _) = _
  rw [hσ₂]
  rfl

end Sequence

/-- Every regular animation of the tree plays. -/
theorem plays_of_regular (hcoherent : Coherent root) (hpart : Part a root)
    (hregular : Regular (fun l => l.Follows (inv l) (f l)) a) : Plays inv f root a := by
  induction a using Animation.induction with
  | missing => cases hregular
  | leaf l => exact plays_leaf hcoherent hpart hregular
  | sequence id repeatTimes bookmarks sequences ih =>
    cases hregular with
    | sequence hsub hpos hfinite hwhole =>
      obtain ⟨n, rfl, hn⟩ := hwhole
      obtain ⟨hL, hlength⟩ := pos_of_repeatedLength hpos hfinite
      have hsub' : ∀ a ∈ sequences, Regular (fun l => l.Follows (inv l) (f l)) a ∧ Part a root ∧
          Plays inv f root a := fun a ha =>
        have hparta := Part.trans (.sub ha .refl) hpart
        ⟨hsub a ha, hparta, ih a ha hparta (hsub a ha)⟩
      refine ⟨fun σ m hσ => ?_, fun σ hσ => sequence_rewind hcoherent hpart hsub' hL hσ⟩
      obtain ⟨σ', p, hσ', hready', hp, hvalue⟩ := sequence_setMarker hcoherent hpart hsub' hL m hσ
      refine ⟨σ', hσ', hready', fun hm hlt => ?_⟩
      rw [Animation.length, hlength] at hlt
      have hn : (n : ℚ) + 1 ≤ 2 ^ 63 := by exact_mod_cast hn
      have h64 : m < lengths sequences * 2 ^ 63 := by nlinarith
      have hmod := corrected_of_lt hL hm hlt h64
      rw [hp] at hmod
      injection hmod with hmod
      subst hmod
      rw [getValue, valueAt]
      exact hvalue (modLength_nonneg hL) (modLength_lt hL)

end HueStream.Animations
