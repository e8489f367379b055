import Mathlib.Data.List.Basic
import Mathlib.Data.List.Infix

/-! # Functions on strings

The functions of `StringUtil` that filter and split strings. A string is the list of its characters; a position in
it is a number, and `none` is `npos`. The strings that are filtered are lists of bytes. -/

namespace HueStream.Support

/-! ### UTF-8 -/

/-- `in_bounds`. -/
def inBounds (str : List UInt8) (pos : ℕ) (lower upper : UInt8) : Bool :=
  (str[pos]?).any fun c => lower ≤ c && c ≤ upper

/-- `valid_extra_bytes`. -/
def validExtraBytes (str : List UInt8) (pos extra : ℕ) : Bool :=
  (List.range extra).all fun i => inBounds str (pos + 1 + i) 0x80 0xBF

/-- `num_extra_bytes` for the first byte at a position; `none` is an invalid one. -/
def numExtraBytes (str : List UInt8) (i : ℕ) : Option ℕ :=
  if inBounds str i 0x00 0x7F then some 0
  else if inBounds str i 0xC0 0xDF then some 1
  else if inBounds str i 0xE0 0xEF then some 2
  else if inBounds str i 0xF0 0xF7 then some 3
  else none

/-- The loop of `filter_utf8` from a position on. -/
def filterFrom (str : List UInt8) (i : ℕ) : List UInt8 :=
  if i < str.length then
    match numExtraBytes str i with
    | none => filterFrom str (i + 1)
    | some extra =>
      if validExtraBytes str i extra then
        (str.drop i).take (1 + extra) ++ filterFrom str (i + extra + 1)
      else filterFrom str (i + 1)
  else []
termination_by str.length - i

def filterUtf8 (str : List UInt8) : List UInt8 := filterFrom str 0

def truncateUtf8 (str : List UInt8) (len : ℕ) : List UInt8 :=
  let str := filterUtf8 str
  filterUtf8 (if len < str.length then str.take len else str)

/-! ### Splitting and joining -/

section Strings

variable {α : Type*} [DecidableEq α]

/-- `s.find(pattern, position)`. -/
def find (s pattern : List α) (position : ℕ) : Option ℕ :=
  (List.range (s.length + 1)).find? fun p => position ≤ p && pattern.isPrefixOf (s.drop p)

/-- `s.find(c, position)`. -/
def findChar (s : List α) (c : α) (position : ℕ) : Option ℕ :=
  (List.range s.length).find? fun p => position ≤ p && s[p]? = some c

/-- `s.substr(i, n)`. -/
def substr (s : List α) (i n : ℕ) : List α := (s.drop i).take n

/-- What the loop of `find_separator` does with a separator; the state is the position that was found, and the
length of the separator there. -/
def findSeparatorStep (s : List α) (startPosition : ℕ) (state : Option ℕ × ℕ) (separator : List α) : Option ℕ × ℕ :=
  let (result, separatorLength) := state
  let length := separator.length
  if length = 0 then state
  else match find s separator startPosition with
    | none => state
    | some position =>
      if result.all fun r => position ≤ r then
        if result = some position ∧ length < separatorLength then state else (some position, length)
      else state

def findSeparator (s : List α) (startPosition : ℕ) (separators : List (List α)) : Option ℕ × ℕ :=
  separators.foldl (findSeparatorStep s startPosition) (none, 0)

theorem findChar_bounds {s : List α} {c : α} {i j : ℕ} (h : findChar s c i = some j) :
    i ≤ j ∧ j < s.length ∧ s[j]? = some c := by
  have hmem := List.mem_of_find?_eq_some h
  have hfound := List.find?_some h
  rw [Bool.and_eq_true, decide_eq_true_eq, decide_eq_true_eq] at hfound
  exact ⟨hfound.1, List.mem_range.mp hmem, hfound.2⟩

/-- The loop of `split` for a character, from the position `i` on. -/
def splitCharFrom (s : List α) (c : α) (i : ℕ) : List (List α) :=
  match _h : findChar s c i with
  | some j => substr s i (j - i) :: splitCharFrom s c (j + 1)
  | none => [substr s i s.length]
termination_by s.length - i
decreasing_by
  have hbounds := findChar_bounds _h
  omega

/-- `split(s, c)`. -/
def splitChar (s : List α) (c : α) : List (List α) :=
  match findChar s c 0 with
  | none => [s]
  | some _ => splitCharFrom s c 0

def join (elements : List (List α)) (delimiter : List α) : List α :=
  elements.zipIdx.foldl (fun result element =>
    (if 0 < element.2 then result ++ delimiter else result) ++ element.1) []

end Strings

end HueStream.Support
