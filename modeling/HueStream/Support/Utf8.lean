import HueStream.Lib.SelfSync
import HueStream.Support.StringUtil

/-! # Complete characters

`filter_utf8` goes on behind a complete character, and by one byte where there is none. As no byte behind the first
one of a character begins a character, it finds those that begin anywhere.

* `filterUtf8_eq`: the loop keeps the complete characters, wherever they begin.
* `filterUtf8_truncateUtf8`: what is filtered and what is cut off. -/

namespace HueStream.Support

open HueStream.Lib

/-- The number of bytes behind a first byte. -/
def extraBytes (b : UInt8) : Option ℕ :=
  if b ≤ 0x7F then some 0
  else if 0xC0 ≤ b ∧ b ≤ 0xDF then some 1
  else if 0xE0 ≤ b ∧ b ≤ 0xEF then some 2
  else if 0xF0 ≤ b ∧ b ≤ 0xF7 then some 3
  else none

/-- `10xxxxxx`. -/
def isExtraByte (b : UInt8) : Bool := 0x80 ≤ b && b ≤ 0xBF

def utf8 : Code UInt8 where
  extra := extraBytes
  isTail := isExtraByte
  separate b h := by
    simp only [isExtraByte, Bool.and_eq_true, decide_eq_true_eq, UInt8.le_iff_toNat_le] at h
    obtain ⟨hlow, hhigh⟩ := h
    have h80 : (0x80 : UInt8).toNat = 128 := rfl
    have hBF : (0xBF : UInt8).toNat = 191 := rfl
    unfold extraBytes
    simp only [UInt8.le_iff_toNat_le]
    have h7F : (0x7F : UInt8).toNat = 127 := rfl
    have hC0 : (0xC0 : UInt8).toNat = 192 := rfl
    have hE0 : (0xE0 : UInt8).toNat = 224 := rfl
    have hF0 : (0xF0 : UInt8).toNat = 240 := rfl
    rw [if_neg (by omega), if_neg (by omega), if_neg (by omega), if_neg (by omega)]

variable {str : List UInt8} {i : ℕ}

theorem inBounds_of_drop {b : UInt8} {rest : List UInt8} (h : str.drop i = b :: rest) (j : ℕ) (lower upper : UInt8) :
    inBounds str (i + j) lower upper = ((b :: rest)[j]?).any fun c => lower ≤ c && c ≤ upper := by
  rw [inBounds, ← h, List.getElem?_drop]

theorem numExtraBytes_eq {b : UInt8} {rest : List UInt8} (h : str.drop i = b :: rest) :
    numExtraBytes str i = extraBytes b := by
  have hbounds : ∀ lower upper, inBounds str i lower upper = (lower ≤ b && b ≤ upper) := by
    intro lower upper
    have hat := inBounds_of_drop h 0 lower upper
    rwa [Nat.add_zero] at hat
  have hzero : (0x00 : UInt8) ≤ b := by simp [UInt8.le_iff_toNat_le]
  unfold numExtraBytes extraBytes
  simp only [hbounds, hzero, decide_true, Bool.true_and, Bool.and_eq_true, decide_eq_true_eq]

theorem validExtraBytes_iff {b : UInt8} {rest : List UInt8} (h : str.drop i = b :: rest) (extra : ℕ) :
    validExtraBytes str i extra = true ↔ extra ≤ rest.length ∧ ∀ x ∈ rest.take extra, isExtraByte x = true := by
  have hbounds : ∀ j, inBounds str (i + 1 + j) 0x80 0xBF = (rest[j]?).any isExtraByte := by
    intro j
    have hat := inBounds_of_drop h (j + 1) 0x80 0xBF
    rw [List.getElem?_cons_succ] at hat
    rw [Nat.add_assoc, Nat.add_comm 1 j, hat]
    rfl
  unfold validExtraBytes
  simp only [hbounds, List.all_eq_true, List.mem_range, Option.any_eq_true]
  constructor
  · intro hall
    have hle : extra ≤ rest.length := by
      by_contra hlt
      obtain ⟨x, hx, -⟩ := hall rest.length (by omega)
      simp at hx
    refine ⟨hle, fun x hx => ?_⟩
    obtain ⟨j, hj, rfl⟩ := List.getElem_of_mem hx
    rw [List.length_take] at hj
    obtain ⟨y, hy, hextra⟩ := hall j (by omega)
    rw [List.getElem_take]
    rw [List.getElem?_eq_getElem (by omega), Option.some.injEq] at hy
    rwa [hy]
  · rintro ⟨hle, hall⟩ j hj
    refine ⟨rest[j], List.getElem?_eq_getElem (by omega), hall _ ?_⟩
    exact List.mem_take_iff_getElem.mpr ⟨j, by omega, rfl⟩

/-- The loop keeps the complete characters that begin at its position or behind it. -/
theorem filterFrom_eq (str : List UInt8) (i : ℕ) : filterFrom str i = utf8.clean (str.drop i) := by
  induction i using filterFrom.induct str with
  | case1 i hlt hnone ih =>
    have hdrop : str.drop i = str[i] :: str.drop (i + 1) := List.drop_eq_getElem_cons hlt
    have hchar : utf8.charAt (str[i] :: str.drop (i + 1)) = none := by
      have hextra : utf8.extra str[i] = none := by
        rw [← hnone, numExtraBytes_eq hdrop]
        rfl
      rw [Code.charAt, hextra]
      rfl
    rw [filterFrom, if_pos hlt, hnone, hdrop, Code.clean_cons_of_none hchar]
    exact ih
  | case2 i hlt extra hextra hvalid ih =>
    have hdrop : str.drop i = str[i] :: str.drop (i + 1) := List.drop_eq_getElem_cons hlt
    have hcomplete := (validExtraBytes_iff hdrop extra).mp hvalid
    have hchar : utf8.charAt (str.drop i) = some (str[i] :: (str.drop (i + 1)).take extra) := by
      have hextra' : utf8.extra str[i] = some extra := by
        rw [← hextra, numExtraBytes_eq hdrop]
        rfl
      rw [hdrop, Code.charAt, hextra']
      exact if_pos hcomplete
    have hlength : (str[i] :: (str.drop (i + 1)).take extra).length = extra + 1 := by
      rw [List.length_cons, List.length_take, min_eq_left hcomplete.1]
    have htake : (str.drop i).take (1 + extra) = str[i] :: (str.drop (i + 1)).take extra := by
      rw [hdrop, Nat.add_comm, List.take_succ_cons]
    rw [Code.clean_of_charAt hchar, hlength, List.drop_drop, filterFrom, if_pos hlt, hextra]
    dsimp only
    rw [if_pos hvalid, htake, ih, Nat.add_assoc]
  | case3 i hlt extra hextra hvalid ih =>
    have hdrop : str.drop i = str[i] :: str.drop (i + 1) := List.drop_eq_getElem_cons hlt
    have hchar : utf8.charAt (str[i] :: str.drop (i + 1)) = none := by
      have hextra' : utf8.extra str[i] = some extra := by
        rw [← hextra, numExtraBytes_eq hdrop]
        rfl
      rw [Code.charAt, hextra']
      exact if_neg fun hcomplete => hvalid ((validExtraBytes_iff hdrop extra).mpr hcomplete)
    rw [filterFrom, if_pos hlt, hextra]
    dsimp only
    rw [if_neg hvalid, hdrop, Code.clean_cons_of_none hchar]
    exact ih
  | case4 i hge =>
    rw [filterFrom, if_neg hge, List.drop_eq_nil_of_le (not_lt.mp hge)]
    rfl

theorem filterUtf8_eq (str : List UInt8) : filterUtf8 str = utf8.clean str := filterFrom_eq str 0

/-- Cutting off a string that is short enough does nothing. -/
theorem truncateUtf8_eq (str : List UInt8) (len : ℕ) :
    truncateUtf8 str len = utf8.clean ((filterUtf8 str).take len) := by
  have hcut : (if len < (filterUtf8 str).length then (filterUtf8 str).take len else filterUtf8 str) =
      (filterUtf8 str).take len := by
    split_ifs with hlt
    · rfl
    · rw [List.take_of_length_le (by omega)]
  rw [truncateUtf8, hcut, filterUtf8_eq ((filterUtf8 str).take len)]

/-- **Complete characters.** What is filtered consists of complete characters, in the order they have in the string,
and has each complete character of the string between those before it and those behind it; a string of complete
characters stays as it is. What is cut off is the longest beginning of it that consists of complete characters and
fits. -/
theorem filterUtf8_truncateUtf8 (str : List UInt8) :
    utf8.IsText (filterUtf8 str) ∧ (filterUtf8 str).Sublist str ∧ (utf8.IsText str → filterUtf8 str = str) ∧
      (∀ before char after, utf8.IsChar char → str = before ++ char ++ after →
        filterUtf8 str = filterUtf8 before ++ char ++ filterUtf8 after) ∧
      ∀ len, utf8.IsLongest (filterUtf8 str) len (truncateUtf8 str len) := by
  have htext : utf8.IsText (filterUtf8 str) := filterUtf8_eq str ▸ Code.isText_clean str
  refine ⟨htext, ?_, fun hs => ?_, fun before char after hchar hs => ?_, fun len => ?_⟩
  · rw [filterUtf8_eq]
    exact Code.clean_sublist str
  · rw [filterUtf8_eq, Code.clean_text hs]
  · rw [filterUtf8_eq, filterUtf8_eq, filterUtf8_eq, hs, Code.clean_append_char hchar]
  · rw [truncateUtf8_eq]
    exact Code.clean_take htext len

/-- A letter between two first bytes that have nothing behind them, and a string that stays. -/
theorem filterUtf8_truncateUtf8_example :
    filterUtf8 [0xC3, 0x41, 0xE2] = filterUtf8 [0xC3] ++ [0x41] ++ filterUtf8 [0xE2] ∧
      filterUtf8 [0xC3, 0xA9] = [0xC3, 0xA9] := by
  have hletter : utf8.IsChar [0x41] := ⟨0x41, [], rfl, by decide, by simp⟩
  have hchar : utf8.IsChar [0xC3, 0xA9] := ⟨0xC3, [0xA9], rfl, by decide, by decide +kernel⟩
  obtain ⟨-, -, -, hkeeps, -⟩ := filterUtf8_truncateUtf8 [0xC3, 0x41, 0xE2]
  obtain ⟨-, -, hstays, -, -⟩ := filterUtf8_truncateUtf8 [0xC3, 0xA9]
  exact ⟨hkeeps [0xC3] [0x41] [0xE2] hletter rfl, hstays (.append (s := []) hchar .nil)⟩

end HueStream.Support
