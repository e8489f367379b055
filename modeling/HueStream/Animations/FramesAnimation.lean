import HueStream.Lib.Numbers

/-! # Frames as text

A `FramesAnimation` keeps its frames as 16-bit numbers and writes each one as two digits of six bits. Writing
scales by 4095 / 65535 and rounds, reading scales back and cuts off.

* `exists_serialize`: what was written is read as frames that differ by at most 9.
* `exists_read`: frames that were read from digits are written as these digits. -/

namespace HueStream.Animations

open HueStream.Lib

namespace FramesAnimation

/-! ### Writing -/

def numerals : List Char := "ABCDEFGHIJKLMNOPQRSTUVWXYZabcdefghijklmnopqrstuvwxyz0123456789+/".toList

/-- `numerals.at(index)`, which throws outside the text. -/
def numeral (index : ℤ) : Option Char := if index < 0 then none else numerals[index.toNat]?

def pack12bitBase64 (number : ℚ) : Option (List Char) := do
  let rounded := roundAway (number * 4095)
  let first ← numeral (rounded / 2 ^ 6)
  let second ← numeral (rounded % 2 ^ 6)
  some [first, second]

/-- The text of `SerializeFramesCompressed`. -/
def serializeFramesCompressed (frames : List UInt16) : Option (List Char) :=
  (frames.mapM fun f => pack12bitBase64 (f.toNat / 65535)).map List.flatten

/-! ### Reading -/

/-- `Append`. -/
def append (frames : List UInt16) (frame : ℚ) : List UInt16 :=
  frames ++ [UInt16.ofInt (truncate (frame * 65535))]

/-- The number of a digit; other characters count as 0. -/
def digit (c : Char) : ℕ :=
  if 'A' ≤ c ∧ c ≤ 'Z' then c.toNat - 'A'.toNat
  else if 'a' ≤ c ∧ c ≤ 'z' then c.toNat - 'a'.toNat + 26
  else if '0' ≤ c ∧ c ≤ '9' then c.toNat - '0'.toNat + 52
  else if c = '+' then 62
  else if c = '/' then 63
  else 0

/-- The variables of the loop of `AddFramesFrom12BitBase64String`. -/
structure Reading where
  frames : List UInt16
  value : ℕ := 0
  haveMSB : Bool := false

def Reading.next (r : Reading) (c : Char) : Reading :=
  if r.haveMSB then { frames := append r.frames ((r.value ||| digit c : ℕ) / 4095) }
  else { r with value := digit c <<< 6, haveMSB := true }

def addFramesFrom12BitBase64String (frames : List UInt16) (frameString : List Char) : List UInt16 :=
  (frameString.foldl Reading.next { frames }).frames

/-! ### One frame -/

/-- The 12 bits that are written for a frame. -/
def code (f : UInt16) : ℕ := (546 * f.toNat + 4369) / 8738

/-- The frame that is read from 12 bits. -/
def frameOf (v : ℕ) : ℕ := v * 4369 / 273

theorem code_le (f : UInt16) : code f ≤ 4095 := by
  have hf : f.toNat < 65536 := f.toNat_lt
  unfold code
  omega

theorem frameOf_lt {v : ℕ} (hv : v ≤ 4095) : frameOf v < 65536 := by
  unfold frameOf
  omega

theorem frameOf_code (f : UInt16) : frameOf (code f) ≤ f.toNat + 8 ∧ f.toNat ≤ frameOf (code f) + 9 := by
  have hf : f.toNat < 65536 := f.toNat_lt
  unfold frameOf code
  omega

theorem code_frameOf {v : ℕ} {f : UInt16} (hf : f.toNat = frameOf v) : code f = v := by
  unfold frameOf at hf
  unfold code
  omega

/-! ### Digits -/

theorem digit_numeral {v : ℕ} (hv : v < 64) : ∃ c, numeral v = some c ∧ digit c = v := by
  have hall : ∀ v < 64, (numeral (v : ℕ)).map digit = some v := by decide +kernel
  exact Option.map_eq_some_iff.mp (hall v hv)

theorem numeral_natCast (v : ℕ) : numeral v = numerals[v]? := by simp [numeral]

theorem numeral_digit {c : Char} (hc : c ∈ numerals) : digit c < 64 ∧ numeral (digit c) = some c := by
  obtain ⟨v, hv⟩ := List.mem_iff_getElem?.mp hc
  have hlength : numerals.length = 64 := by decide
  have hlt : v < 64 := hlength ▸ (List.getElem?_eq_some_iff.mp hv).1
  obtain ⟨c', hc', rfl⟩ := digit_numeral hlt
  rw [numeral_natCast] at hc' ⊢
  obtain rfl : c = c' := Option.some.inj (hv.symm.trans hc')
  exact ⟨hlt, hv⟩

theorem numeral_mem {v : ℕ} {c : Char} (h : numeral v = some c) : c ∈ numerals := by
  rw [numeral_natCast] at h
  exact List.mem_of_getElem? h

theorem pack_frame (f : UInt16) : ∃ c c', numeral (code f / 64 : ℕ) = some c ∧ numeral (code f % 64 : ℕ) = some c' ∧
    pack12bitBase64 (f.toNat / 65535) = some [c, c'] := by
  have hcode := code_le f
  obtain ⟨c, hc, -⟩ := digit_numeral (v := code f / 64) (by omega)
  obtain ⟨c', hc', -⟩ := digit_numeral (v := code f % 64) (by omega)
  have hround : roundAway ((f.toNat : ℚ) / 65535 * 4095) = code f := by
    have heq : (f.toNat : ℚ) / 65535 * 4095 + 1 / 2 = ((546 * f.toNat + 4369 : ℕ) : ℚ) / (8738 : ℕ) := by
      push_cast
      ring
    rw [roundAway_of_nonneg (by positivity), heq, Rat.floor_natCast_div_natCast, code, Int.natCast_ediv]
  refine ⟨c, c', hc, hc', ?_⟩
  have hfirst : (code f : ℤ) / 2 ^ 6 = (code f / 64 : ℕ) := by norm_num
  have hsecond : (code f : ℤ) % 2 ^ 6 = (code f % 64 : ℕ) := by norm_num
  simp only [pack12bitBase64, hround, hfirst, hsecond, hc, hc', Option.bind_eq_bind, Option.bind_some]

/-- Two digits are read as one frame. -/
theorem read_pair (frames : List UInt16) {c c' : Char} (hc : digit c < 64) (hc' : digit c' < 64) :
    ∃ f : UInt16, f.toNat = frameOf (digit c * 64 + digit c') ∧
      [c, c'].foldl Reading.next { frames } = { frames := frames ++ [f] } := by
  have hor : digit c <<< 6 ||| digit c' = digit c * 64 + digit c' := by
    rw [← Nat.shiftLeft_add_eq_or_of_lt hc', Nat.shiftLeft_eq]
  have hlt : frameOf (digit c * 64 + digit c') < 65536 := frameOf_lt (by omega)
  have hscale : truncate (((digit c * 64 + digit c' : ℕ) : ℚ) / 4095 * 65535) =
      (frameOf (digit c * 64 + digit c') : ℕ) := by
    have heq : ((digit c * 64 + digit c' : ℕ) : ℚ) / 4095 * 65535 =
        ((digit c * 64 + digit c') * 4369 : ℕ) / (273 : ℕ) := by
      push_cast
      ring
    rw [truncate_of_nonneg (by positivity), heq, Rat.floor_natCast_div_natCast, frameOf, Int.natCast_ediv]
  refine ⟨UInt16.ofInt (frameOf (digit c * 64 + digit c')), ?_, ?_⟩
  · rw [UInt16.ofInt, UInt16.toNat_ofNat']
    omega
  · simp only [List.foldl_cons, List.foldl_nil, Reading.next, Bool.false_eq_true, if_false, if_true, hor]
    rw [append, hscale]

/-! ### All frames -/

theorem serialize_cons (f : UInt16) (frames : List UInt16) {c c' : Char} {s : List Char}
    (hf : pack12bitBase64 (f.toNat / 65535) = some [c, c']) (hs : serializeFramesCompressed frames = some s) :
    serializeFramesCompressed (f :: frames) = some (c :: c' :: s) := by
  obtain ⟨texts, htexts, rfl⟩ := Option.map_eq_some_iff.mp hs
  rw [serializeFramesCompressed, List.mapM_cons, hf]
  simp [htexts]

theorem read_nil (frames : List UInt16) : addFramesFrom12BitBase64String frames [] = frames := rfl

theorem read_cons {frames : List UInt16} {f : UInt16} {c c' : Char} (s : List Char)
    (h : [c, c'].foldl Reading.next { frames } = { frames := frames ++ [f] }) :
    addFramesFrom12BitBase64String frames (c :: c' :: s) = addFramesFrom12BitBase64String (frames ++ [f]) s := by
  have hsplit : c :: c' :: s = [c, c'] ++ s := rfl
  rw [addFramesFrom12BitBase64String, hsplit, List.foldl_append, h, addFramesFrom12BitBase64String]

/-- Digits are read behind the frames that are there, and what is read is written as these digits. -/
theorem exists_read (frames : List UInt16) {s : List Char} (heven : Even s.length) (hs : ∀ c ∈ s, c ∈ numerals) :
    ∃ read, addFramesFrom12BitBase64String frames s = frames ++ read ∧ serializeFramesCompressed read = some s := by
  obtain ⟨n, hn⟩ := heven
  induction n generalizing frames s with
  | zero =>
    obtain rfl : s = [] := List.length_eq_zero_iff.mp hn
    exact ⟨[], by rw [read_nil, List.append_nil], rfl⟩
  | succ n ih =>
    obtain ⟨c, c', s, rfl⟩ : ∃ c c' s', s = c :: c' :: s' := by
      rcases s with _ | ⟨c, _ | ⟨c', s⟩⟩
      · simp at hn
      · simp at hn
        omega
      · exact ⟨c, c', s, rfl⟩
    obtain ⟨hlt, hc⟩ := numeral_digit (hs c (by simp))
    obtain ⟨hlt', hc'⟩ := numeral_digit (hs c' (by simp))
    obtain ⟨f, hf, hpair⟩ := read_pair frames hlt hlt'
    obtain ⟨read, hread, hwritten⟩ := ih (frames ++ [f]) (fun d (hd : d ∈ s) => hs d (by simp [hd]))
      (by rw [List.length_cons, List.length_cons] at hn; omega)
    refine ⟨f :: read, ?_, serialize_cons f read ?_ hwritten⟩
    · rw [read_cons s hpair, hread, List.append_assoc, List.singleton_append]
    · have hcode : code f = digit c * 64 + digit c' := code_frameOf hf
      obtain ⟨d, d', hd, hd', hpack⟩ := pack_frame f
      have hfirst : code f / 64 = digit c := by omega
      have hsecond : code f % 64 = digit c' := by omega
      rw [hfirst, hc] at hd
      rw [hsecond, hc'] at hd'
      rw [hpack, ← Option.some.inj hd, ← Option.some.inj hd']

/-- Frames are written as digits, two for each, and what is read of them differs by at most 9. -/
theorem exists_serialize (before frames : List UInt16) : ∃ s, serializeFramesCompressed frames = some s ∧
    Even s.length ∧ (∀ c ∈ s, c ∈ numerals) ∧ ∃ read, addFramesFrom12BitBase64String before s = before ++ read ∧
      List.Forall₂ (fun f r : UInt16 => |(f.toNat : ℤ) - r.toNat| ≤ 9) frames read := by
  induction frames generalizing before with
  | nil => exact ⟨[], rfl, by simp, by simp, [], by rw [read_nil, List.append_nil], .nil⟩
  | cons f frames ih =>
    have hcode := code_le f
    obtain ⟨c, c', hc, hc', hpack⟩ := pack_frame f
    have hdigit : digit c = code f / 64 := by
      obtain ⟨d, hd, hdigit⟩ := digit_numeral (v := code f / 64) (by omega)
      rw [← hdigit, Option.some.inj (hc.symm.trans hd)]
    have hdigit' : digit c' = code f % 64 := by
      obtain ⟨d, hd, hdigit⟩ := digit_numeral (v := code f % 64) (by omega)
      rw [← hdigit, Option.some.inj (hc'.symm.trans hd)]
    have hsix : digit c < 64 := by omega
    have hsix' : digit c' < 64 := by omega
    obtain ⟨r, hr, hpair⟩ := read_pair before hsix hsix'
    obtain ⟨s, hs, heven, hnumerals, read, hread, hclose⟩ := ih (before ++ [r])
    refine ⟨c :: c' :: s, serialize_cons f frames hpack hs, ?_, ?_, r :: read, ?_, .cons ?_ hclose⟩
    · rw [List.length_cons, List.length_cons, Nat.add_assoc]
      exact heven.add (by decide)
    · intro d hd
      rcases List.mem_cons.mp hd with rfl | hd
      · exact numeral_mem hc
      · rcases List.mem_cons.mp hd with rfl | hd
        · exact numeral_mem hc'
        · exact hnumerals d hd
    · rw [read_cons s hpair, hread, List.append_assoc, List.singleton_append]
    · have hsum : digit c * 64 + digit c' = code f := by omega
      have hwithin := frameOf_code f
      rw [hr, hsum, abs_le]
      omega

/-- **Frames as text.** All frames can be written, and what is read of the text, behind any frames that are there,
are as many frames, which differ by at most 9 and are written as the same text. Conversely, what is read of an even
number of digits is written as these digits. -/
theorem frames_roundTrip :
    (∀ before frames : List UInt16, ∃ s read, serializeFramesCompressed frames = some s ∧
      addFramesFrom12BitBase64String before s = before ++ read ∧ read.length = frames.length ∧
      List.Forall₂ (fun f r : UInt16 => |(f.toNat : ℤ) - r.toNat| ≤ 9) frames read ∧
      serializeFramesCompressed read = some s) ∧
    ∀ (before : List UInt16) (s : List Char), Even s.length → (∀ c ∈ s, c ∈ numerals) →
      ∃ read, addFramesFrom12BitBase64String before s = before ++ read ∧ serializeFramesCompressed read = some s := by
  refine ⟨fun before frames => ?_, fun before s heven hs => exists_read before heven hs⟩
  obtain ⟨s, hs, heven, hnumerals, read, hread, hclose⟩ := exists_serialize before frames
  obtain ⟨read', hread', hwritten⟩ := exists_read before heven hnumerals
  obtain rfl : read = read' := List.append_cancel_left (hread.symm.trans hread')
  exact ⟨s, read, hs, hread, hclose.length_eq.symm, hclose, hwritten⟩

/-- Two frames, and the four digits that are written for them. -/
theorem frames_roundTrip_example : serializeFramesCompressed [0, 40000] = some "AAnD".toList ∧
    ∃ read, addFramesFrom12BitBase64String [7] "AAnD".toList = [7] ++ read ∧
      serializeFramesCompressed read = some "AAnD".toList := by
  have heven : Even "AAnD".toList.length := ⟨2, by simp⟩
  have hall : "AAnD".toList.all (fun c => numerals.any fun d => c == d) = true := by decide +kernel
  have hnumerals : ∀ c ∈ "AAnD".toList, c ∈ numerals := by simpa using hall
  exact ⟨by decide +kernel, frames_roundTrip.2 [7] "AAnD".toList heven hnumerals⟩

end FramesAnimation

end HueStream.Animations
