import HueStream.Animations.Regular
import HueStream.Lib.Tiling
import HueStream.Scripts.LightScript

/-! # Enabled actions

An action is enabled between its start position and the end that `GetCalculatedEndPosition` makes of its end position
and the length of its effect. Both bounds are left out, and an end position of 0 is not one for an endless effect.

* `within_iff`: an enabled action is within its positions except in the second case.
* `one_enabled_iff`: of actions that follow each other, one is enabled except at a start and in the second case. -/

namespace HueStream.Scripts

open HueStream.Lib HueStream.Animations

/-- What an action asks its effect for: the total lengths of its animations, and whether it is enabled. -/
class PlayedEffect (E : Type) where
  totalLengths : E → List ℚ
  isEnabled : E → Bool

/-- The variables of `AnimationEffect::GetLength`. -/
structure Longest where
  largestLength : ℚ := 0
  allAnimationsAreEndless : Bool := true

def Longest.add (s : Longest) (thisLength : ℚ) : Longest :=
  if thisLength ≠ INF ∧ s.largestLength < thisLength then ⟨thisLength, false⟩ else s

/-- `AnimationEffect::GetLength`. -/
def getLength (totalLengths : List ℚ) : ℚ :=
  let s := totalLengths.foldl Longest.add {}
  if s.allAnimationsAreEndless then INF else s.largestLength

variable {E : Type} [PlayedEffect E]

/-- The length of an effect. -/
def effectLength (effect : E) : ℚ := getLength (PlayedEffect.totalLengths effect)

namespace Action

variable (a : Action E)

def getCalculatedEndPosition : ℤ :=
  match a.effect with
  | none => 0
  | some effect =>
    if effectLength effect = INF then if 0 < a.endPosition then a.endPosition else 2 ^ 63 - 1
    else if a.endPosition < 0 ∨ effectLength effect < (a.endPosition - a.startPosition : ℤ) then
      a.startPosition + toInt64 (effectLength effect)
    else a.endPosition

def isBetweenStartAndEnd (position : ℤ) : Bool :=
  a.startPosition < position && position < a.getCalculatedEndPosition

/-- `IsEnabled`, with the time of the time provider if there is one. -/
def isEnabled (now : Option ℤ) : Bool :=
  match now, a.effect with
  | some now, some effect => PlayedEffect.isEnabled effect && a.isBetweenStartAndEnd now
  | _, _ => false

/-! ### Positions of an action -/

/-- The position is from the start position on, and before the end position, if it is set, and the end of the effect,
if it has one. -/
def Within (p : ℤ) : Prop :=
  a.startPosition ≤ p ∧ (0 ≤ a.endPosition → p < a.endPosition) ∧
    ∀ effect ∈ a.effect, effectLength effect ≠ INF → (p : ℚ) < a.startPosition + effectLength effect

/-- The end position 0 of an endless effect has passed. -/
def Overruns (p : ℤ) : Prop :=
  a.endPosition = 0 ∧ a.startPosition < p ∧ 0 ≤ p ∧ ∀ effect ∈ a.effect, effectLength effect = INF

/-- The end position, or the end of the effect where none is set. -/
def ends : ℤ :=
  if 0 ≤ a.endPosition then a.endPosition
  else a.startPosition + (a.effect.map fun effect => toInt64 (effectLength effect)).getD 0

/-- An action with an end of the type `int64_t` that is not before its start, and with an enabled effect that is at
least as long. -/
structure Fits : Prop where
  exists_effect : ∃ effect, a.effect = some effect ∧ PlayedEffect.isEnabled effect = true ∧
    ((a.ends - a.startPosition : ℤ) : ℚ) ≤ effectLength effect ∧ (effectLength effect = INF → 0 ≤ a.endPosition)
  start_le : a.startPosition ≤ a.ends
  ends_lt : a.ends < 2 ^ 63

end Action

/-! ### Lengths -/

theorem getLength_nonneg (totalLengths : List ℚ) : 0 ≤ getLength totalLengths := by
  have hlargest : ∀ (lengths : List ℚ) (s : Longest), 0 ≤ s.largestLength →
      0 ≤ (lengths.foldl Longest.add s).largestLength := by
    intro lengths
    induction lengths with
    | nil => exact fun s hs => hs
    | cons length lengths ih =>
      intro s hs
      refine ih (s.add length) ?_
      unfold Longest.add
      split_ifs with hlonger
      · exact hs.trans hlonger.2.le
      · exact hs
  unfold getLength
  dsimp only
  split_ifs
  · exact INF_pos.le
  · exact hlargest totalLengths {} le_rfl

theorem toInt64_le {x : ℚ} (hx : 0 ≤ x) : (toInt64 x : ℚ) ≤ x := by
  have hz : x.num.tdiv x.den = ⌊x⌋ := truncate_of_nonneg hx
  unfold toInt64
  simp only [hz]
  split_ifs
  · exact Int.floor_le x
  · push_cast
    linarith

/-! ### One action -/

section One

variable {a : Action E} {p : ℤ}

theorem Action.isEnabled_eq_true : a.isEnabled (some p) = true ↔ ∃ effect, a.effect = some effect ∧
    PlayedEffect.isEnabled effect = true ∧ a.startPosition < p ∧ p < a.getCalculatedEndPosition := by
  unfold Action.isEnabled Action.isBetweenStartAndEnd
  cases a.effect with
  | none => simp
  | some effect => simp

/-- An enabled action is within its positions, except where it overruns them. -/
theorem Action.within_iff (h : a.isEnabled (some p) = true) : a.Within p ↔ ¬ a.Overruns p := by
  obtain ⟨effect, heffect, -, hstart, hend⟩ := Action.isEnabled_eq_true.mp h
  constructor
  · rintro ⟨-, hbefore, -⟩ ⟨hzero, -, hp, -⟩
    have hlt := hbefore hzero.ge
    omega
  intro hnot
  rw [Action.getCalculatedEndPosition, heffect] at hend
  dsimp only at hend
  have hlength : 0 ≤ effectLength effect := getLength_nonneg _
  by_cases hendless : effectLength effect = INF
  · rw [if_pos hendless] at hend
    refine ⟨hstart.le, fun hset => ?_, fun e he hfinite => ?_⟩
    · split_ifs at hend with hpos
      · exact hend
      · by_contra hpast
        refine hnot ⟨by omega, hstart, by omega, fun e he => ?_⟩
        rw [heffect] at he
        exact Option.some.inj he ▸ hendless
    · rw [heffect] at he
      exact absurd (Option.some.inj he ▸ hendless) hfinite
  · rw [if_neg hendless] at hend
    have hle := toInt64_le hlength
    refine ⟨hstart.le, fun hset => ?_, fun e he _ => ?_⟩
    · split_ifs at hend with hshort
      · have hshorter : effectLength effect < (a.endPosition - a.startPosition : ℤ) := hshort.resolve_left (by omega)
        have hcast : (toInt64 (effectLength effect) : ℚ) < (a.endPosition - a.startPosition : ℤ) := by linarith
        have hlt : toInt64 (effectLength effect) < a.endPosition - a.startPosition := by exact_mod_cast hcast
        omega
      · exact hend
    · obtain rfl : effect = e := Option.some.inj (heffect.symm.trans he)
      split_ifs at hend with hshort
      · have hcast : (p : ℚ) < (a.startPosition + toInt64 (effectLength effect) : ℤ) := Int.cast_lt.mpr hend
        push_cast at hcast
        linarith
      · have hlong := not_lt.mp (not_or.mp hshort).2
        have hcast : (p : ℚ) < a.endPosition := Int.cast_lt.mpr hend
        push_cast at hlong
        linarith

/-- An action that fits is enabled strictly between its positions, or where it overruns them. -/
theorem Action.Fits.isEnabled_iff (h : a.Fits) (hp : p < 2 ^ 63 - 1) :
    a.isEnabled (some p) = true ↔ (a.startPosition < p ∧ p < a.ends) ∨ a.Overruns p := by
  obtain ⟨effect, heffect, henabled, hlong, hset⟩ := h.exists_effect
  have hcalculated : a.getCalculatedEndPosition =
      if effectLength effect = INF ∧ a.endPosition = 0 then 2 ^ 63 - 1 else a.ends := by
    unfold Action.getCalculatedEndPosition Action.ends at *
    rw [heffect] at *
    dsimp only [Option.map_some, Option.getD_some] at *
    by_cases hendless : effectLength effect = INF
    · have hnonneg := hset hendless
      simp only [hendless, if_true, true_and, hnonneg]
      split_ifs <;> omega
    · simp only [hendless, if_false, false_and]
      by_cases hend : 0 ≤ a.endPosition
      · rw [if_pos hend] at hlong ⊢
        exact if_neg (not_or.mpr ⟨by omega, not_lt.mpr hlong⟩)
      · rw [if_neg hend]
        exact if_pos (.inl (by omega))
  have hends : effectLength effect = INF → a.endPosition = 0 → a.ends = 0 := fun _ hzero => by
    rw [Action.ends, if_pos hzero.ge, hzero]
  rw [Action.isEnabled_eq_true, hcalculated]
  constructor
  · rintro ⟨-, -, -, hstart, hend⟩
    split_ifs at hend with hover
    · by_cases hbefore : p < a.ends
      · exact .inl ⟨hstart, hbefore⟩
      · refine .inr ⟨hover.2, hstart, (hends hover.1 hover.2) ▸ not_lt.mp hbefore, fun e he => ?_⟩
        rw [heffect] at he
        exact Option.some.inj he ▸ hover.1
    · exact .inl ⟨hstart, hend⟩
  · rintro (⟨hstart, hend⟩ | ⟨hzero, hstart, -, hendless⟩)
    · refine ⟨effect, heffect, henabled, hstart, ?_⟩
      split_ifs
      · exact hp
      · exact hend
    · refine ⟨effect, heffect, henabled, hstart, ?_⟩
      rw [if_pos ⟨hendless effect heffect, hzero⟩]
      exact hp

end One

/-! ### Actions that follow each other -/

section Chain

variable {actions : List (Action E)} {first last : Action E} {p : ℤ}

/-- The actions that are enabled at a position. -/
def enabledAt (actions : List (Action E)) (p : ℤ) : List (Action E) := actions.filter fun a => a.isEnabled (some p)

/-- Of actions that follow each other exactly one is enabled, and within its positions, where no action starts and no
action overruns its end position. -/
theorem one_enabled_iff (hfits : ∀ a ∈ actions, a.Fits)
    (hchain : actions.IsChain fun a b => a.ends = b.startPosition) (hfirst : actions.head? = some first)
    (hlast : actions.getLast? = some last) (hp : first.startPosition ≤ p) (hp' : p < last.ends) :
    ((enabledAt actions p).length = 1 ∧ ∀ a ∈ enabledAt actions p, a.Within p) ↔
      ∀ a ∈ actions, a.startPosition ≠ p ∧ ¬ a.Overruns p := by
  have htiles : Tiles Action.startPosition Action.ends actions := ⟨fun a ha => (hfits a ha).start_le, hchain⟩
  have hmax : p < 2 ^ 63 - 1 := by
    have hlt := (hfits last (List.mem_of_getLast? hlast)).ends_lt
    omega
  have henabled : ∀ a ∈ actions, a.isEnabled (some p) = true ↔
      (a.startPosition < p ∧ p < a.ends) ∨ a.Overruns p := fun a ha => (hfits a ha).isEnabled_iff hmax
  obtain ⟨before, a, after, rfl, hstart, hend, hbefore, hafter⟩ := htiles.exists_split hfirst hlast hp hp'
  constructor
  · rintro ⟨hone, hwithin⟩
    have hnot : ∀ b ∈ before ++ a :: after, ¬ b.Overruns p := by
      intro b hb hover
      have hon : b.isEnabled (some p) = true := (henabled b hb).mpr (.inr hover)
      exact (Action.within_iff hon).mp (hwithin b (List.mem_filter.mpr ⟨hb, hon⟩)) hover
    -- The enabled action is the one that contains the position.
    obtain ⟨c, hc⟩ : ∃ c, c ∈ enabledAt (before ++ a :: after) p := List.exists_mem_of_length_pos (by omega)
    obtain ⟨hmem, hon⟩ := List.mem_filter.mp hc
    obtain ⟨hstrict, hcend⟩ := ((henabled c hmem).mp hon).resolve_right (hnot c hmem)
    have hlt : a.startPosition < p := by
      rcases List.mem_append.mp hmem with hc | hc
      · have hle := hbefore c hc
        omega
      · rcases List.mem_cons.mp hc with rfl | hc
        · exact hstrict
        · have hle := hafter c hc
          omega
    refine fun b hb => ⟨fun heq => ?_, hnot b hb⟩
    have hle := (hfits b hb).start_le
    rcases List.mem_append.mp hb with hb' | hb'
    · have hbehind := hbefore b hb'
      omega
    · rcases List.mem_cons.mp hb' with rfl | hb'
      · exact absurd heq hlt.ne
      · have hbehind := hafter b hb'
        omega
  · intro h
    have hon : ∀ b ∈ before ++ a :: after, b.isEnabled (some p) = true ↔ b.startPosition < p ∧ p < b.ends :=
      fun b hb => (henabled b hb).trans (or_iff_left (h b hb).2)
    have hself : a.isEnabled (some p) = true :=
      (hon a (by simp)).mpr ⟨lt_of_le_of_ne hstart (h a (by simp)).1, hend⟩
    have hnone : ∀ bs : List (Action E), (∀ b ∈ bs, b ∈ before ++ a :: after ∧
        (b.ends ≤ a.startPosition ∨ a.ends ≤ b.startPosition)) → bs.filter (fun b => b.isEnabled (some p)) = [] := by
      intro bs hbs
      rw [List.filter_eq_nil_iff]
      intro b hb hb'
      obtain ⟨hmem, haside⟩ := hbs b hb
      have hin := (hon b hmem).mp hb'
      omega
    have hfilter : enabledAt (before ++ a :: after) p = [a] := by
      rw [enabledAt, List.filter_append, List.filter_cons, if_pos hself,
        hnone before fun b hb => ⟨by simp [hb], .inl (hbefore b hb)⟩,
        hnone after fun b hb => ⟨by simp [hb], .inr (hafter b hb)⟩]
      rfl
    rw [hfilter]
    refine ⟨rfl, fun b hb => ?_⟩
    obtain rfl := List.mem_singleton.mp hb
    exact (Action.within_iff hself).mpr (h b (by simp)).2

/-- **Enabled actions.** Of actions that follow each other, with effects that are at least as long, exactly one is
enabled, and within its positions, at the positions from the first start up to the last end at which no action starts
and no action overruns its end position; and at no others. Any action that is enabled is within its positions unless
it overruns its end position. -/
theorem enabled_actions_iff :
    (∀ (actions : List (Action E)) (first last : Action E) (p : ℤ), (∀ a ∈ actions, a.Fits) →
      actions.IsChain (fun a b => a.ends = b.startPosition) → actions.head? = some first →
      actions.getLast? = some last → first.startPosition ≤ p → p < last.ends →
      (((enabledAt actions p).length = 1 ∧ ∀ a ∈ enabledAt actions p, a.Within p) ↔
        ∀ a ∈ actions, a.startPosition ≠ p ∧ ¬ a.Overruns p)) ∧
    ∀ (a : Action E) (p : ℤ), a.isEnabled (some p) = true → (a.Within p ↔ ¬ a.Overruns p) :=
  ⟨fun _ _ _ _ hfits hchain hfirst hlast hp hp' => one_enabled_iff hfits hchain hfirst hlast hp hp',
    fun _ _ h => Action.within_iff h⟩

end Chain

/-! ### Two actions -/

/-- An enabled effect with animations of these total lengths. -/
structure Lengths where
  totalLengths : List ℚ

instance : PlayedEffect Lengths := ⟨Lengths.totalLengths, fun _ => true⟩

/-- Two actions of 10 ms each, one after the other, with an effect of 15 ms. -/
def twoActions : List (Action Lengths) :=
  [{ startPosition := 0, endPosition := 10, effect := some ⟨[15]⟩ },
    { startPosition := 10, endPosition := 20, effect := some ⟨[15]⟩ }]

theorem twoActions_fit : ∀ a ∈ twoActions, a.Fits := by
  intro a ha
  rcases List.mem_pair.mp ha with rfl | rfl <;>
    exact ⟨⟨⟨[15]⟩, rfl, rfl, by decide +kernel, fun _ => by decide⟩, by decide +kernel, by decide +kernel⟩

theorem enabled_actions_iff_example : (enabledAt twoActions 15).length = 1 ∧
    ∀ a ∈ enabledAt twoActions 15, a.Within 15 := by
  refine (enabled_actions_iff.1 twoActions _ _ 15 twoActions_fit (by decide +kernel) rfl rfl (by decide)
    (by decide +kernel)).mpr fun a ha => ?_
  rcases List.mem_pair.mp ha with rfl | rfl <;> exact ⟨by decide, fun hover => absurd hover.1 (by decide)⟩

/-- At the position 10 the first of the two actions is not enabled any more and the second one not yet. An endless
effect from -5 up to 0 is still enabled at 100. -/
theorem exists_none_enabled :
    (∃ (actions : List (Action Lengths)) (first last : Action Lengths), (∀ a ∈ actions, a.Fits) ∧
      actions.IsChain (fun a b => a.ends = b.startPosition) ∧ actions.head? = some first ∧
      actions.getLast? = some last ∧ first.startPosition ≤ 10 ∧ 10 < last.ends ∧ enabledAt actions 10 = []) ∧
    ∃ a : Action Lengths, a.Fits ∧ a.endPosition = 0 ∧ a.isEnabled (some 100) = true ∧ ¬ a.Within 100 := by
  refine ⟨⟨twoActions, _, _, twoActions_fit, by decide +kernel, rfl, rfl, by decide, by decide +kernel, ?_⟩,
    { startPosition := -5, endPosition := 0, effect := some ⟨[INF]⟩ }, ⟨⟨⟨[INF]⟩, rfl, rfl, ?_, fun _ => by decide⟩,
      by decide, by decide⟩, rfl, ?_, fun hwithin => ?_⟩
  · refine List.filter_eq_nil_iff.mpr fun a ha => ?_
    rcases List.mem_pair.mp ha with rfl | rfl <;> decide +kernel
  · decide +kernel
  · decide +kernel
  · exact absurd (hwithin.2.1 (by decide)) (by decide)

end HueStream.Scripts
