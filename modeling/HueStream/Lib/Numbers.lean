import Mathlib.Algebra.Order.Round
import Mathlib.Data.List.TakeWhile
import Mathlib.Data.Rat.Floor
import Mathlib.Tactic

/-! # Numbers of the C++ library

`roundf` and `llround` go to the nearest whole number, in halfway cases away from zero; a cast to an integer goes
towards zero.

The conversions that read a number at the head of a text: white space and a sign may stand before the digits,
anything may follow them. They throw, which is `none` here, when there is no digit and when the number does not fit
the type: 32 bits for `int`, 64 bits for `unsigned long`. -/

namespace HueStream.Lib

/-! ### Rounding -/

/-- The whole number next to `x` towards zero. -/
def truncate (x : ℚ) : ℤ := x.num.tdiv x.den

theorem truncate_of_nonneg {x : ℚ} (hx : 0 ≤ x) : truncate x = ⌊x⌋ := by
  rw [truncate, Rat.floor_def', Int.tdiv_eq_ediv_of_nonneg (Rat.num_nonneg.mpr hx)]

/-- The nearest whole number, halfway away from zero. -/
def roundAway (x : ℚ) : ℤ := if x < 0 then -⌊-x + 1 / 2⌋ else ⌊x + 1 / 2⌋

theorem roundAway_neg (x : ℚ) : roundAway (-x) = -roundAway x := by
  unfold roundAway
  rcases lt_trichotomy x 0 with hx | rfl | hx
  · rw [if_neg (by linarith), if_pos hx, neg_neg]
  · norm_num
  · rw [if_pos (by linarith), if_neg (by linarith), neg_neg]

theorem roundAway_of_nonneg {x : ℚ} (hx : 0 ≤ x) : roundAway x = ⌊x + 1 / 2⌋ := if_neg (not_lt.mpr hx)

theorem abs_roundAway_sub_le (x : ℚ) : |roundAway x - x| ≤ 1 / 2 := by
  have hround : ∀ y : ℚ, |(⌊y + 1 / 2⌋ : ℚ) - y| ≤ 1 / 2 := by
    intro y
    have hle : (⌊y + 1 / 2⌋ : ℚ) ≤ y + 1 / 2 := Int.floor_le _
    have hlt : y + 1 / 2 < ⌊y + 1 / 2⌋ + 1 := Int.lt_floor_add_one _
    rw [abs_le]
    constructor <;> linarith
  unfold roundAway
  split_ifs
  · have heq : ((-⌊-x + 1 / 2⌋ : ℤ) : ℚ) - x = -((⌊-x + 1 / 2⌋ : ℚ) - -x) := by
      push_cast
      ring
    rw [heq, abs_neg]
    exact hround (-x)
  · exact hround x

@[simp]
theorem roundAway_intCast (n : ℤ) : roundAway n = n := by
  have hfloor : ∀ m : ℤ, ⌊(m : ℚ) + 1 / 2⌋ = m := by
    intro m
    rw [Int.floor_intCast_add]
    norm_num
  unfold roundAway
  split_ifs
  · have h := hfloor (-n)
    rw [Int.cast_neg] at h
    rw [h, neg_neg]
  · exact hfloor n

/-! ### Reading decimal numbers -/

/-- `isspace`. -/
def isSpace (c : Char) : Bool := c = ' ' || ('\t'.toNat ≤ c.toNat && c.toNat ≤ '\r'.toNat)

/-- Whether a minus sign stands at the head of a text, and the digits behind the sign. -/
def signedDigits (s : List Char) : Bool × List Char :=
  match s.dropWhile isSpace with
  | '-' :: cs => (true, cs.takeWhile Char.isDigit)
  | '+' :: cs => (false, cs.takeWhile Char.isDigit)
  | cs => (false, cs.takeWhile Char.isDigit)

/-- `std::stoul`: a number behind a minus sign is negated in the unsigned type. -/
def stoul (s : List Char) : Option ℕ :=
  let (negative, digits) := signedDigits s
  let value := Nat.ofDigitChars 10 digits 0
  if digits = [] ∨ 2 ^ 64 ≤ value then none
  else some (if negative then (2 ^ 64 - value) % 2 ^ 64 else value)

/-- `std::stoi`. -/
def stoi (s : List Char) : Option ℤ :=
  let (negative, digits) := signedDigits s
  let value : ℤ := if negative then -Nat.ofDigitChars 10 digits 0 else Nat.ofDigitChars 10 digits 0
  if digits = [] ∨ value < -2 ^ 31 ∨ 2 ^ 31 ≤ value then none else some value

theorem isDigit_ne {c : Char} (h : c.isDigit = true) : isSpace c = false ∧ c ≠ '-' ∧ c ≠ '+' := by
  have h0 : '0'.toNat ≤ c.toNat := (Char.isDigit_iff_toNat.mp h).1
  refine ⟨?_, ?_, ?_⟩
  · rw [isSpace, Bool.or_eq_false_iff, Bool.and_eq_false_iff, decide_eq_false_iff_not,
      decide_eq_false_iff_not, decide_eq_false_iff_not]
    refine ⟨?_, .inr fun hr => ?_⟩
    · rintro rfl
      exact absurd h0 (by decide)
    · exact absurd (h0.trans hr) (by decide)
  · rintro rfl
    exact absurd h0 (by decide)
  · rintro rfl
    exact absurd h0 (by decide)

/-- Digits alone are read as they are. -/
theorem signedDigits_of_isDigit {ds : List Char} (h : ∀ c ∈ ds, c.isDigit = true) :
    signedDigits ds = (false, ds) := by
  have htake : ds.takeWhile Char.isDigit = ds := List.takeWhile_eq_self_iff.mpr h
  cases ds with
  | nil => rfl
  | cons c ds =>
    obtain ⟨hspace, hminus, hplus⟩ := isDigit_ne (h c (by simp))
    unfold signedDigits
    rw [List.dropWhile_cons_of_neg (by simp [hspace])]
    split
    · rename_i heq
      exact absurd (List.cons.inj heq).1 hminus
    · rename_i heq
      exact absurd (List.cons.inj heq).1 hplus
    · rw [htake]

/-- The decimal notation of a number is read as that number. -/
theorem stoul_toString {n : ℕ} (h : n < 2 ^ 64) : stoul (toString n).toList = some n := by
  have hdigits : ∀ c ∈ Nat.toDigits 10 n, c.isDigit = true := fun c hc =>
    Nat.isDigit_of_mem_toDigits (by decide) (by decide) hc
  have hlist : (toString n).toList = Nat.toDigits 10 n := Nat.toList_repr
  rw [hlist, stoul, signedDigits_of_isDigit hdigits]
  simp only [Nat.ofDigitChars_ten_toDigits, Bool.false_eq_true, if_false]
  rw [if_neg]
  rintro (hnil | hlarge)
  · exact Nat.toDigits_ne_nil hnil
  · omega

/-- Digits alone are read when the number they denote fits. -/
theorem stoi_of_isDigit {ds : List Char} (hne : ds ≠ []) (h : ∀ c ∈ ds, c.isDigit = true) :
    stoi ds = if Nat.ofDigitChars 10 ds 0 < 2 ^ 31 then some (Nat.ofDigitChars 10 ds 0 : ℤ) else none := by
  rw [stoi, signedDigits_of_isDigit h]
  simp only [Bool.false_eq_true, if_false, hne, false_or]
  by_cases hfits : Nat.ofDigitChars 10 ds 0 < 2 ^ 31
  · rw [if_pos hfits, if_neg (by omega)]
  · rw [if_neg hfits, if_pos (by omega)]

end HueStream.Lib
