import HueStream.Animations.Leaves

/-! # What a sequence shows

* `sequence_shows`: whatever markers were set before, a sequence of regular sub-animations shows the value
  that the sub-animation of the marker shows at its position in it. -/

namespace HueStream.Animations

open Animation

variable {ι S : Type}

/-! ### The sub-animation of a position -/

section Splits

variable {f : Leaf ι S → ℚ → ℚ} {good : Leaf ι S → Prop} {p : ℚ} {as : List (Animation ι S)}

/-- A position below the sum of the lengths falls into one of the sub-animations. -/
theorem exists_split (hp : 0 ≤ p) (hlt : p < lengths as) :
    ∃ before a after, as = before ++ a :: after ∧ lengths before ≤ p ∧
      p < lengths before + a.length := by
  induction as generalizing p with
  | nil =>
    rw [lengths] at hlt
    exact absurd hlt (not_lt.mpr hp)
  | cons b as ih =>
    by_cases hb : p < b.length
    · exact ⟨[], b, as, rfl, by rw [lengths]; exact hp, by rw [lengths, zero_add]; exact hb⟩
    · rw [lengths] at hlt
      obtain ⟨before, a, after, rfl, hle, hlt⟩ := ih (p := p - b.length) (by linarith) (by linarith)
      refine ⟨b :: before, a, after, rfl, ?_, ?_⟩ <;> rw [lengths] <;> linarith

theorem valueIn_split {before after : List (Animation ι S)} {a : Animation ι S}
    (hregular : ∀ b ∈ before, Regular good b) (hle : lengths before ≤ p)
    (hlt : p < lengths before + a.length) :
    valueIn f (before ++ a :: after) p = valueAt f a (p - lengths before) := by
  induction before generalizing p with
  | nil =>
    rw [lengths, zero_add] at hlt
    rw [List.nil_append, valueIn, if_pos hlt, lengths, sub_zero]
  | cons b before ih =>
    have hnonneg : 0 ≤ lengths before := lengths_nonneg fun c hc => hregular c (by simp [hc])
    rw [lengths] at hle hlt
    have hb : ¬ p < b.length := by linarith
    rw [List.cons_append, valueIn, if_neg hb, ih (fun c hc => hregular c (by simp [hc]))
      (by linarith) (by linarith), lengths, sub_sub]

end Splits

/-! ### Any order of markers -/

variable [DecidableEq ι] {inv : Leaf ι S → S → ℚ → Prop} {f : Leaf ι S → ℚ → ℚ}
  {s : SequenceAnimation ι S} {σ : Store ι S}

/-- `SetMarker` for one marker after another. -/
def SequenceAnimation.setMarkers (s : SequenceAnimation ι S) (ms : List ℚ) (σ : Store ι S) :
    Except Fault (Store ι S) :=
  ms.foldlM (fun σ m => s.setMarker m σ) σ

/-- **What a sequence shows.** The sub-animations are regular and the repeat count is a whole number, `INF`
included. After any calls of `SetMarker` with the last marker `m` inside the total length the value is the
one that belongs to the sub-animation `a` of the marker at its position in it; and this is the value that
`a` shows by itself at that position. -/
theorem sequence_shows (hcoherent : Coherent s.toAnimation)
    (hsub : ∀ a ∈ s.sequences, Regular (fun l => l.Follows (inv l) (f l)) a)
    (hne : s.sequences ≠ []) {n : ℕ} (hwhole : s.repeatTimes = n) (hσ : Ready inv s.toAnimation σ)
    (ms : List ℚ) {m : ℚ} (hm : 0 ≤ m)
    (hlt : m < repeatedLength (lengths s.sequences) s.repeatTimes)
    (h64 : m < lengths s.sequences * 2 ^ 63) :
    ∃ σ', s.setMarkers (ms ++ [m]) σ = .ok σ' ∧
      ∃ before a after, s.sequences = before ++ a :: after ∧
        lengths before ≤ modLength (lengths s.sequences) m ∧
        modLength (lengths s.sequences) m < lengths before + a.length ∧
        σ'.value s.id = valueAt f a (modLength (lengths s.sequences) m - lengths before) ∧
        ∀ σ q, Ready inv s.toAnimation σ → 0 ≤ q → q < a.length → a.getTotalLength σ = .ok a.length ∧
          ∃ σ', a.setMarker q σ = .ok σ' ∧ a.getValue σ' = valueAt f a q := by
  have hL : 0 < lengths s.sequences := lengths_pos hsub hne
  have hplays : ∀ a ∈ s.sequences, Regular (fun l => l.Follows (inv l) (f l)) a ∧
      Part a s.toAnimation ∧ Plays inv f s.toAnimation a := fun a ha =>
    have hpart : Part a s.toAnimation := .sub ha .refl
    ⟨hsub a ha, hpart, plays_of_regular hcoherent hpart (hsub a ha)⟩
  have hset : ∀ m σ, Ready inv s.toAnimation σ → ∃ σ' p, s.setMarker m σ = .ok σ' ∧
      Ready inv s.toAnimation σ' ∧ corrected (lengths s.sequences) s.repeatTimes m = .ok p ∧
      (0 ≤ p → p < lengths s.sequences → σ'.value s.id = valueIn f s.sequences p) := fun m σ hσ =>
    sequence_setMarker hcoherent .refl hplays hL m hσ
  -- The markers before leave the store ready.
  obtain ⟨σ₁, hσ₁, hready₁⟩ : ∃ σ₁, s.setMarkers ms σ = .ok σ₁ ∧ Ready inv s.toAnimation σ₁ := by
    induction ms generalizing σ with
    | nil => exact ⟨σ, rfl, hσ⟩
    | cons m' ms ih =>
      obtain ⟨σ₂, -, hσ₂, hready₂, -⟩ := hset m' σ hσ
      obtain ⟨σ₁, hσ₁, hready₁⟩ := ih hready₂
      refine ⟨σ₁, ?_, hready₁⟩
      rw [SequenceAnimation.setMarkers, List.foldlM_cons, hσ₂]
      exact hσ₁
  obtain ⟨σ', p, hσ', hready', hp, hvalue⟩ := hset m σ₁ hready₁
  rw [hwhole] at hlt hp
  have hmod := corrected_of_lt hL hm (lt_repetitions hL hlt h64) h64
  rw [hp] at hmod
  injection hmod with hmod
  subst hmod
  have hnonneg : 0 ≤ modLength (lengths s.sequences) m := modLength_nonneg hL
  have hbelow : modLength (lengths s.sequences) m < lengths s.sequences := modLength_lt hL
  refine ⟨σ', ?_, ?_⟩
  · rw [SequenceAnimation.setMarkers, List.foldlM_append]
    show (s.setMarkers ms σ >>= _) = _
    rw [hσ₁]
    show (s.setMarker m σ₁ >>= _) = _
    rw [hσ']
    rfl
  · obtain ⟨before, a, after, hsplit, hle, hfalls⟩ := exists_split hnonneg hbelow
    refine ⟨before, a, after, hsplit, hle, hfalls, ?_, fun σ q hσ hq hqlt => ?_⟩
    · have hbefore : ∀ b ∈ before, b ∈ s.sequences := fun b hb => by
        rw [hsplit]
        exact List.mem_append_left _ hb
      have hvalueIn : valueIn f (before ++ a :: after) _ = valueAt f a _ :=
        valueIn_split (fun b hb => hsub b (hbefore b hb)) hle hfalls
      rw [hvalue hnonneg hbelow, ← hvalueIn, ← hsplit]
    · have ha : a ∈ s.sequences := by rw [hsplit]; simp
      obtain ⟨hregular, hpart, hplays⟩ := hplays a ha
      obtain ⟨σ', hσ', -, hvalue⟩ := hplays.setMarker σ q hσ
      exact ⟨getTotalLength_eq hregular hpart hσ, σ', hσ', hvalue hq hqlt⟩

/-- The tweens of the examples: the one of the object `i` goes from `2 * i - 1` to `2 * i`. -/
def exampleTween (i : ℕ) : TweenAnimation := { begin := 2 * i - 1, «end» := 2 * i }

/-- As it is in the fourths of a turn. -/
def exampleCosPi (x : ℚ) : ℚ := 1 - 2 * x

def exampleLeaf (i : ℕ) : Leaf ℕ Fields := Leaf.tween exampleCosPi i 1000

def exampleValue (l : Leaf ℕ Fields) (p : ℚ) : ℚ :=
  HueMath.linearTween p (2 * l.id - 1) (2 * l.id) 1000

theorem example_follows (i : ℕ) : (exampleLeaf i).Follows
    ((exampleTween (exampleLeaf i).id).Begins (2 * (exampleLeaf i).id - 1))
    (exampleValue (exampleLeaf i)) :=
  tween_follows (by decide +kernel) (exampleTween i) (2 * i - 1) (by norm_num [exampleTween])

/-- Two tweens of a second each. -/
def exampleSequence (repeatTimes : ℚ) : SequenceAnimation ℕ Fields :=
  ⟨0, repeatTimes, [], [.leaf (exampleLeaf 1), .leaf (exampleLeaf 2)]⟩

def exampleStore : Store ℕ Fields :=
  ⟨fun _ => 0, fun _ => 0, fun i => .tween (exampleTween i), fun _ => 0, fun _ => -1, fun _ => 0⟩

/-- The two tweens are repeated twice. After a marker near the end the marker 1510 shows the second one at
510. -/
theorem sequence_shows_tweens : ∃ σ', (exampleSequence 2).setMarkers [5900, 1510] exampleStore = .ok σ' ∧
    ∃ (before : List (Animation ℕ Fields)) (a : Animation ℕ Fields) (after : List (Animation ℕ Fields)),
      (exampleSequence 2).sequences = before ++ a :: after ∧ lengths before ≤ 1510 ∧
      1510 < lengths before + a.length ∧
      σ'.value 0 = valueAt exampleValue a (1510 - lengths before) := by
  have hparts : ∀ a, Part a (exampleSequence 2).toAnimation → a = (exampleSequence 2).toAnimation ∨
      a = .leaf (exampleLeaf 1) ∨ a = .leaf (exampleLeaf 2) := by
    rintro a (_ | ⟨ha, hpart⟩)
    · exact .inl rfl
    · rcases List.mem_pair.mp ha with rfl | rfl <;> cases hpart
      · exact .inr (.inl rfl)
      · exact .inr (.inr rfl)
  have hlengths : lengths (exampleSequence 2).sequences = 2000 := by decide +kernel
  have hmod : modLength (lengths (exampleSequence 2).sequences) 1510 = 1510 := by
    rw [hlengths]
    decide +kernel
  have hready : Ready (fun l => (exampleTween l.id).Begins (2 * l.id - 1))
      (exampleSequence 2).toAnimation exampleStore := by
    refine ⟨fun id repeatTimes bookmarks sequences _ => ⟨rfl, rfl⟩, fun l hl => ?_⟩
    rcases hparts _ hl with h | h | h
    · cases h
    · cases h
      exact .inl ⟨true, rfl, by simp [exampleTween]⟩
    · cases h
      exact .inl ⟨true, rfl, by simp [exampleTween]⟩
  obtain ⟨σ', hσ', before, a, after, hsplit, hle, hlt, hvalue, -⟩ := sequence_shows
    (s := exampleSequence 2) (n := 2) (f := exampleValue)
    (by
      intro a b id ha hb hida hidb
      rcases hparts a ha with rfl | rfl | rfl <;> rcases hparts b hb with rfl | rfl | rfl <;>
        first
          | rfl
          | exact absurd (hida.trans hidb.symm) (by
              simp [ident, exampleLeaf, Leaf.tween, SequenceAnimation.toAnimation, exampleSequence]))
    (by
      intro a ha
      rcases List.mem_pair.mp ha with rfl | rfl <;>
        exact .leaf (example_follows _) (by decide +kernel) (by decide +kernel) (by rintro _ ⟨⟩))
    (by simp [exampleSequence]) (by norm_num [exampleSequence]) hready [5900] (m := 1510) (by norm_num) (by decide +kernel) (by decide +kernel)
  rw [hmod] at hle hlt hvalue
  exact ⟨σ', hσ', before, a, after, hsplit, hle, hlt, hvalue⟩

/-- The value after markers. -/
def SequenceAnimation.shown (s : SequenceAnimation ι S) (ms : List ℚ) (σ : Store ι S) : Option ℚ :=
  (s.setMarkers ms σ).toOption.map fun σ' => σ'.value s.id

/-- A random animation of 100 ms; its random numbers are all one half. -/
def exampleRandom : RandomAnimation :=
  { minInterval := 10, maxInterval := 10, length := 100, rands := fun _ => 1 / 2 }

/-- The value at a marker that depends on the markers before: of a sequence with a random animation; of
one with a tween of 1000 ms that is repeated half a time, at 1200; and of one whose repetitions are more
than an `int64_t` counts, at the marker of the repetition 2^63. -/
theorem exists_shown_by_history :
    (∃ (s : SequenceAnimation ℕ Fields) (σ : Store ℕ Fields),
      s.sequences = [.leaf (Leaf.random exampleCosPi 1 100)] ∧ s.repeatTimes = 0 ∧
      s.shown [5] σ = some (1 / 4) ∧ s.shown [50, 5] σ = some (-9 / 4)) ∧
    (∃ (s : SequenceAnimation ℕ Fields) (σ : Store ℕ Fields),
      s.sequences = [.leaf (exampleLeaf 1)] ∧ s.repeatTimes = 1 / 2 ∧
      1200 < repeatedLength (lengths s.sequences) s.repeatTimes ∧
      s.shown [1200] σ = some 0 ∧ s.shown [500, 1200] σ = some (3 / 2)) ∧
    ∃ (s : SequenceAnimation ℕ Fields) (σ : Store ℕ Fields),
      s.sequences = [.leaf (exampleLeaf 1)] ∧ s.repeatTimes = 2 ^ 64 ∧
      1000 * 2 ^ 63 < repeatedLength (lengths s.sequences) s.repeatTimes ∧
      s.shown [1000 * 2 ^ 63] σ = some 0 ∧ s.shown [500, 1000 * 2 ^ 63] σ = some (3 / 2) := by
  refine ⟨⟨⟨0, 0, [], [.leaf (Leaf.random exampleCosPi 1 100)]⟩, ⟨fun _ => 0, fun _ => 0,
      fun _ => .random exampleRandom, fun _ => 0, fun _ => -1, fun _ => 0⟩, rfl, rfl, ?_, ?_⟩,
    ⟨⟨0, 1 / 2, [], [.leaf (exampleLeaf 1)]⟩, exampleStore, rfl, rfl, ?_, ?_, ?_⟩,
    ⟨0, 2 ^ 64, [], [.leaf (exampleLeaf 1)]⟩, exampleStore, rfl, rfl, ?_, ?_, ?_⟩ <;> decide +kernel

end HueStream.Animations
