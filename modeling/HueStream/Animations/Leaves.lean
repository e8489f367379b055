import HueStream.Animations.Regular

/-! # Constant, tween and random animations

Three classes that are no sequences. Constants and tweens show a value that their marker determines, and
random animations one that depends on the markers before. The cosine is a parameter. -/

namespace HueStream.Animations

inductive TweenType
  | linear | easeInOutQuad | easeInOutSine

/-! ### Easing -/

namespace HueMath

def linearTween (t b e d : ℚ) : ℚ := if d < t then e else (e - b) * t / d + b

def easeInOutQuad (t b e d : ℚ) : ℚ :=
  let c := e - b
  if d < t then e
  else
    let t := t / (d / 2)
    if t < 1 then c / 2 * t * t + b
    else -c / 2 * ((t - 1) * (t - 1 - 2) - 1) + b

/-- `cosPi x` is the cosine of `x` times `pi()`. -/
def easeInOutSine (cosPi : ℚ → ℚ) (t b e d : ℚ) : ℚ :=
  if d < t then e else -(e - b) / 2 * (cosPi (t / d) - 1) + b

end HueMath

def TweenType.ease (cosPi : ℚ → ℚ) : TweenType → ℚ → ℚ → ℚ → ℚ → ℚ
  | linear => HueMath.linearTween
  | easeInOutQuad => HueMath.easeInOutQuad
  | easeInOutSine => HueMath.easeInOutSine cosPi

/-! ### Classes -/

/-- `TweenAnimation`, without its marker and value. -/
structure TweenAnimation where
  begin : ℚ := 0
  «end» : ℚ := 1
  time : ℚ := 1000
  beginValuePresent : Bool := true
  tweenType : TweenType := .linear
  atBeginning : Bool := true

namespace TweenAnimation

variable (cosPi : ℚ → ℚ) (t : TweenAnimation)

/-- The constructor without a begin value. -/
def ofEnd («end» time : ℚ) (tweenType : TweenType) : TweenAnimation :=
  { «end», time, beginValuePresent := false, tweenType }

def updateValue (value positionMs : ℚ) : TweenAnimation × ℚ :=
  let begin := if !t.beginValuePresent && t.atBeginning then value else t.begin
  ({ t with begin, atBeginning := false }, t.tweenType.ease cosPi positionMs begin t.end t.time)

/-- The cast to `int` of a value in thousandths. -/
def rounded (value : ℚ) : ℤ := (value * 1000).num.tdiv (value * 1000).den

/-- `GetPositionFromValue`: the first whole position with the value. -/
def getPositionFromValue (value : ℚ) : ℚ :=
  ((List.range (⌊t.time⌋.toNat + 1)).find? fun pos =>
    rounded (t.tweenType.ease cosPi pos t.begin t.end t.time) = rounded value).getD 0

end TweenAnimation

/-- `RandomAnimation`, without its marker and value; `rands` are the numbers that `Rand` will draw, from
`drawn` on. -/
structure RandomAnimation where
  minValue : ℚ := 0
  maxValue : ℚ := 1
  minInterval : ℚ := 500
  maxInterval : ℚ := 1000
  tweenType : TweenType := .linear
  length : ℚ := INF
  offset : ℚ := 0
  tweenAnimation : Option TweenAnimation := none
  rands : ℕ → ℚ
  drawn : ℕ := 0

namespace RandomAnimation

variable (cosPi : ℚ → ℚ) (r : RandomAnimation)

/-- `Rand(min, max)`. -/
def rand (i : ℕ) (min max : ℚ) : ℚ := r.rands (r.drawn + i) * (max - min) + min

def updateValue (value positionMs : ℚ) : RandomAnimation × ℚ :=
  let relativePos := positionMs - r.offset
  match r.tweenAnimation.filter fun tween => relativePos < tween.time with
  | some tween =>
    let (tween, value) := tween.updateValue cosPi value relativePos
    ({ r with tweenAnimation := some tween }, value)
  | none =>
    let timeLeft := r.length - positionMs
    let randVal := r.rand 0 r.minValue r.maxValue
    let randInterval := r.rand 1 r.minInterval r.maxInterval
    let randInterval := if timeLeft < randInterval then timeLeft else randInterval
    let (tween, value) := (TweenAnimation.ofEnd randVal randInterval r.tweenType).updateValue cosPi value 0
    ({ r with offset := positionMs, tweenAnimation := some tween, drawn := r.drawn + 2 }, value)

end RandomAnimation

/-- The fields of an animation of one of the three classes. -/
inductive Fields
  | constant
  | tween (t : TweenAnimation)
  | random (r : RandomAnimation)

namespace Leaf

variable {ι : Type} (cosPi : ℚ → ℚ) (id : ι)

/-- `ConstantAnimation`, whose value stays. -/
def constant (length : ℚ) : Leaf ι Fields where
  id
  repeatTimes := none
  lengthMs := length
  updateValue fields value _ := (fields, value)

/-- `TweenAnimation` with its time. -/
def tween (time : ℚ) : Leaf ι Fields where
  id
  repeatTimes := none
  lengthMs := time
  updateValue fields value positionMs := match fields with
    | .tween t => ((.tween (t.updateValue cosPi value positionMs).1),
        (t.updateValue cosPi value positionMs).2)
    | fields => (fields, value)
  rewound fields := match fields with
    | .tween t => .tween { t with atBeginning := true }
    | fields => fields
  getPositionFromValue fields value := match fields with
    | .tween t => t.getPositionFromValue cosPi value
    | _ => 0

/-- `RandomAnimation` with its length. -/
def random (length : ℚ) : Leaf ι Fields where
  id
  repeatTimes := none
  lengthMs := length
  updateValue fields value positionMs := match fields with
    | .random r => ((.random (r.updateValue cosPi value positionMs).1),
        (r.updateValue cosPi value positionMs).2)
    | fields => (fields, value)

end Leaf

/-! ### Constants and tweens follow their markers -/

variable {ι : Type} {cosPi : ℚ → ℚ} {id : ι}

theorem constant_follows (length c : ℚ) :
    (Leaf.constant id length).Follows (fun _ v => v = c) fun _ => c where
  update := fun _ _ _ hv => hv
  rewound := fun _ _ hv => hv
  value := fun _ _ _ hv _ _ => hv

theorem TweenType.ease_zero (hcos : cosPi 0 = 1) (tweenType : TweenType) (b e : ℚ) {d : ℚ}
    (hd : 0 ≤ d) : tweenType.ease cosPi 0 b e d = b := by
  have hlt : ¬ d < 0 := not_lt.mpr hd
  cases tweenType <;>
    simp [TweenType.ease, HueMath.linearTween, HueMath.easeInOutQuad, HueMath.easeInOutSine, hlt, hcos]

/-- The fields of a tween are those of `t`, which begins at `b`: its value is `b` if it is at the
beginning and has no begin value of its own. -/
def TweenAnimation.Begins (t : TweenAnimation) (b : ℚ) (fields : Fields) (v : ℚ) : Prop :=
  (∃ atBeginning, fields = .tween { t with begin := b, atBeginning } ∧
    (atBeginning = true → t.beginValuePresent = false → v = b)) ∨
  ∃ other, fields = .tween { t with begin := other, atBeginning := true } ∧
    t.beginValuePresent = false ∧ v = b

/-- **A tween** shows the value of its easing from the value it begins with. -/
theorem tween_follows (hcos : cosPi 0 = 1) (t : TweenAnimation) (b : ℚ) (htime : 0 ≤ t.time) :
    (Leaf.tween cosPi id t.time).Follows (t.Begins b)
      fun p => t.tweenType.ease cosPi p b t.end t.time := by
  have hupdate : ∀ fields v p, t.Begins b fields v →
      (Leaf.tween cosPi id t.time).updateValue fields v p =
        (.tween { t with begin := b, atBeginning := false },
          t.tweenType.ease cosPi p b t.end t.time) := by
    rintro fields v p (⟨atBeginning, rfl, hv⟩ | ⟨other, rfl, hpresent, rfl⟩)
    · cases hpresent : t.beginValuePresent <;> cases atBeginning <;>
        simp_all [Leaf.tween, TweenAnimation.updateValue]
    · simp [Leaf.tween, TweenAnimation.updateValue, hpresent]
  refine ⟨fun fields v p h => ?_, fun fields v h => ?_, fun fields v p h _ _ => ?_⟩
  · rw [hupdate fields v p h]
    exact .inl ⟨false, rfl, by simp⟩
  · rw [hupdate fields v 0 h]
    exact .inl ⟨true, rfl, fun _ _ => TweenType.ease_zero hcos _ _ _ htime⟩
  · rw [hupdate fields v p h]

end HueStream.Animations
