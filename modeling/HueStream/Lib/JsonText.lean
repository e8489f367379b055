import Mathlib.Data.List.Infix

/-! # JSON texts

The grammar of JSON on lists of characters, without the values. Brackets and strings nest in every part of a
text (`Derives.nested`): a scanner that counts the open brackets outside of strings comes back to where it
was, and never below. So no array is the beginning of another one (`IsArray.eq_of_start`), and of all
beginnings of a text that starts with an array just those are texts that add white space to it
(`isText_iff_of_start`). -/

namespace HueStream.Lib.JsonText

def quote : Char := '\x22'

def backslash : Char := '\x5c'

def opening : List Char := ['[', '\x7b']

def closing : List Char := [']', '\x7d']

def literals : List (List Char) := [['n', 'u', 'l', 'l'], ['t', 'r', 'u', 'e'], ['f', 'a', 'l', 's', 'e']]

/-- White space. -/
def IsBlank (t : List Char) : Prop := ∀ c ∈ t, c ∈ [' ', '\t', '\n', '\r']

def IsDigits (t : List Char) : Prop := t ≠ [] ∧ ∀ c ∈ t, c.isDigit = true

def IsNumber (t : List Char) : Prop :=
  ∃ sign integer fraction exponent, t = sign ++ integer ++ fraction ++ exponent ∧
    (sign = [] ∨ sign = ['-']) ∧
    IsDigits integer ∧ (integer.head? = some '0' → integer = ['0']) ∧
    (fraction = [] ∨ ∃ digits, IsDigits digits ∧ fraction = '.' :: digits) ∧
    (exponent = [] ∨ ∃ e plus digits, e ∈ ['e', 'E'] ∧ (plus = [] ∨ plus = ['+'] ∨ plus = ['-']) ∧
      IsDigits digits ∧ exponent = e :: plus ++ digits)

def IsHexDigit (c : Char) : Prop := c.isDigit = true ∨ 'a' ≤ c ∧ c ≤ 'f' ∨ 'A' ≤ c ∧ c ≤ 'F'

/-- A character of a string: itself, escaped, or by its code. -/
def IsStringChar (t : List Char) : Prop :=
  (∃ c, 32 ≤ c.toNat ∧ c ≠ quote ∧ c ≠ backslash ∧ t = [c]) ∨
  (∃ c ∈ [quote, backslash, '/', 'b', 'f', 'n', 'r', 't'], t = [backslash, c]) ∨
  ∃ digits, digits.length = 4 ∧ (∀ c ∈ digits, IsHexDigit c) ∧ t = backslash :: 'u' :: digits

def IsString (t : List Char) : Prop :=
  ∃ cs : List (List Char), (∀ c ∈ cs, IsStringChar c) ∧ t = quote :: (cs.flatten ++ [quote])

/-- The symbols of the grammar; elements and members are not empty. -/
inductive Symbol
  | value
  | elements
  | members

/-- The texts of the grammar. -/
inductive Derives : Symbol → List Char → Prop
  | literal {t} (h : t ∈ literals) : Derives .value t
  | number {t} (h : IsNumber t) : Derives .value t
  | string {t} (h : IsString t) : Derives .value t
  | emptyArray {t} (h : IsBlank t) : Derives .value ('[' :: (t ++ [']']))
  | array {t} (h : Derives .elements t) : Derives .value ('[' :: (t ++ [']']))
  | emptyObject {t} (h : IsBlank t) : Derives .value ('\x7b' :: (t ++ ['\x7d']))
  | object {t} (h : Derives .members t) : Derives .value ('\x7b' :: (t ++ ['\x7d']))
  | element {a v b} (ha : IsBlank a) (hv : Derives .value v) (hb : IsBlank b) :
    Derives .elements (a ++ v ++ b)
  | elements {a v b t} (ha : IsBlank a) (hv : Derives .value v) (hb : IsBlank b)
    (ht : Derives .elements t) : Derives .elements (a ++ v ++ b ++ ',' :: t)
  | member {a k b c v d} (ha : IsBlank a) (hk : IsString k) (hb : IsBlank b) (hc : IsBlank c)
    (hv : Derives .value v) (hd : IsBlank d) : Derives .members (a ++ k ++ b ++ ':' :: (c ++ v ++ d))
  | members {a k b c v d t} (ha : IsBlank a) (hk : IsString k) (hb : IsBlank b) (hc : IsBlank c)
    (hv : Derives .value v) (hd : IsBlank d) (ht : Derives .members t) :
    Derives .members (a ++ k ++ b ++ ':' :: (c ++ v ++ d ++ ',' :: t))

/-- A value with white space around it. -/
def IsText (t : List Char) : Prop :=
  ∃ a v b, IsBlank a ∧ Derives .value v ∧ IsBlank b ∧ t = a ++ v ++ b

/-- A value that is an array. -/
def IsArray (t : List Char) : Prop := Derives .value t ∧ t.head? = some '['

/-! ### The scanner -/

/-- Where the scanner is: outside of strings, in one, or behind a backslash. -/
inductive Mode
  | plain
  | inString
  | escaped

/-- The number of open brackets and the mode after a character. -/
def scanChar : ℕ × Mode → Char → ℕ × Mode
  | (d, .plain), c =>
    if c = quote then (d, .inString)
    else if c ∈ opening then (d + 1, .plain)
    else if c ∈ closing then (d - 1, .plain)
    else (d, .plain)
  | (d, .inString), c =>
    if c = quote then (d, .plain) else if c = backslash then (d, .escaped) else (d, .inString)
  | (d, .escaped), _ => (d, .inString)

def scan (s : ℕ × Mode) (t : List Char) : ℕ × Mode := t.foldl scanChar s

/-- The scanner comes back to where it was, and is never below. -/
structure Nested (t : List Char) : Prop where
  back : ∀ d, scan (d, .plain) t = (d, .plain)
  above : ∀ d s, s <+: t → d ≤ (scan (d, .plain) s).1

variable {s t p q x : List Char} {c : Char} {d : ℕ}

theorem scan_append (m : ℕ × Mode) (s t : List Char) : scan m (s ++ t) = scan (scan m s) t :=
  List.foldl_append

theorem nested_nil : Nested [] where
  back _ := rfl
  above d s h := by
    obtain rfl := List.prefix_nil.mp h
    exact le_rfl

theorem Nested.append (hs : Nested s) (ht : Nested t) : Nested (s ++ t) where
  back d := by rw [scan_append, hs.back, ht.back]
  above d r h := by
    rcases List.prefix_or_prefix_of_prefix h (List.prefix_append s t) with hr | ⟨u, rfl⟩
    · exact hs.above d r hr
    · rw [scan_append, hs.back]
      exact ht.above d u ((List.prefix_append_right_inj s).mp h)

/-- A character that means nothing to the scanner. -/
theorem nested_singleton (hquote : c ≠ quote) (hopening : c ∉ opening) (hclosing : c ∉ closing) :
    Nested [c] where
  back d := by simp [scan, scanChar, hquote, hopening, hclosing]
  above d s h := by
    rcases List.prefix_cons_iff.mp h with rfl | ⟨u, rfl, hu⟩
    · exact le_rfl
    · obtain rfl := List.prefix_nil.mp hu
      simp [scan, scanChar, hquote, hopening, hclosing]

theorem nested_of_forall (h : ∀ c ∈ t, c ≠ quote ∧ c ∉ opening ∧ c ∉ closing) : Nested t := by
  induction t with
  | nil => exact nested_nil
  | cons c t ih =>
    obtain ⟨hquote, hopening, hclosing⟩ := h c (by simp)
    exact (nested_singleton hquote hopening hclosing).append (ih fun c hc => h c (by simp [hc]))

theorem scanChar_opening (h : c ∈ opening) : scanChar (d, .plain) c = (d + 1, .plain) := by
  have hquote : c ≠ quote := by
    rintro rfl
    simp [opening, quote] at h
  simp [scanChar, hquote, h]

theorem scanChar_closing (h : c ∈ closing) : scanChar (d + 1, .plain) c = (d, .plain) := by
  have hquote : c ≠ quote := by
    rintro rfl
    simp [closing, quote] at h
  have hopening : c ∉ opening := by
    intro hmem
    simp only [opening, closing, List.mem_cons, List.not_mem_nil, or_false] at hmem h
    rcases h with rfl | rfl <;> simp at hmem
  simp [scanChar, hquote, hopening, h]

/-- Between brackets the scanner is above. -/
theorem lt_scan_bracket (hc : c ∈ opening) (ht : Nested t) (h : s <+: t) :
    d < (scan (d, .plain) (c :: s)).1 := by
  have habove := ht.above (d + 1) s h
  rw [scan, List.foldl_cons, scanChar_opening hc]
  exact habove

theorem Nested.bracket {o : Char} (ho : o ∈ opening) (hc : c ∈ closing) (ht : Nested t) :
    Nested (o :: (t ++ [c])) := by
  have hback : ∀ d, scan (d, .plain) (o :: (t ++ [c])) = (d, .plain) := by
    intro d
    have hback := ht.back (d + 1)
    rw [scan, List.foldl_cons, scanChar_opening ho, List.foldl_append]
    rw [scan] at hback
    rw [hback]
    exact scanChar_closing hc
  refine ⟨hback, fun d s h => ?_⟩
  rcases List.prefix_cons_iff.mp h with rfl | ⟨u, rfl, hu⟩
  · exact le_rfl
  · rcases List.prefix_concat_iff.mp hu with rfl | hu
    · rw [hback]
    · exact (lt_scan_bracket ho ht hu).le

/-- Within a string the number of open brackets stays. -/
structure Inside (t : List Char) : Prop where
  back : ∀ d, scan (d, .inString) t = (d, .inString)
  same : ∀ d s, s <+: t → (scan (d, .inString) s).1 = d

theorem inside_nil : Inside [] where
  back _ := rfl
  same d s h := by
    obtain rfl := List.prefix_nil.mp h
    rfl

theorem Inside.cons (hquote : c ≠ quote) (hbackslash : c ≠ backslash) (ht : Inside t) :
    Inside (c :: t) where
  back d := by
    have hback := ht.back d
    rw [scan] at hback ⊢
    simpa [scanChar, hquote, hbackslash] using hback
  same d s h := by
    rcases List.prefix_cons_iff.mp h with rfl | ⟨u, rfl, hu⟩
    · rfl
    · have hsame := ht.same d u hu
      rw [scan] at hsame ⊢
      simpa [scanChar, hquote, hbackslash] using hsame

/-- The character behind a backslash does not count. -/
theorem Inside.escape (ht : Inside t) (c : Char) : Inside (backslash :: c :: t) where
  back d := ht.back d
  same d s h := by
    rcases List.prefix_cons_iff.mp h with rfl | ⟨u, rfl, hu⟩
    · rfl
    · rcases List.prefix_cons_iff.mp hu with rfl | ⟨v, rfl, hv⟩
      · rfl
      · exact ht.same d v hv

theorem Inside.append (hs : Inside s) (ht : Inside t) : Inside (s ++ t) where
  back d := by rw [scan_append, hs.back, ht.back]
  same d r h := by
    rcases List.prefix_or_prefix_of_prefix h (List.prefix_append s t) with hr | ⟨u, rfl⟩
    · exact hs.same d r hr
    · rw [scan_append, hs.back]
      exact ht.same d u ((List.prefix_append_right_inj s).mp h)

theorem inside_hexDigits (h : ∀ c ∈ t, IsHexDigit c) : Inside t := by
  induction t with
  | nil => exact inside_nil
  | cons c t ih =>
    have hc := h c (by simp)
    refine (ih fun c hc => h c (by simp [hc])).cons ?_ ?_
    · rintro rfl
      revert hc
      unfold IsHexDigit
      decide
    · rintro rfl
      revert hc
      unfold IsHexDigit
      decide

theorem inside_stringChar (h : IsStringChar t) : Inside t := by
  rcases h with ⟨c, -, hquote, hbackslash, rfl⟩ | ⟨c, -, rfl⟩ | ⟨digits, -, hdigits, rfl⟩
  · exact inside_nil.cons hquote hbackslash
  · exact inside_nil.escape c
  · exact (inside_hexDigits hdigits).escape 'u'

theorem inside_flatten {cs : List (List Char)} (h : ∀ c ∈ cs, IsStringChar c) : Inside cs.flatten := by
  induction cs with
  | nil => exact inside_nil
  | cons c cs ih =>
    rw [List.flatten_cons]
    exact (inside_stringChar (h c (by simp))).append (ih fun c hc => h c (by simp [hc]))

theorem nested_string (h : IsString t) : Nested t := by
  obtain ⟨cs, hcs, rfl⟩ := h
  have hinside := inside_flatten hcs
  have hback : ∀ d, scan (d, .plain) (quote :: (cs.flatten ++ [quote])) = (d, .plain) := by
    intro d
    have hback := hinside.back d
    rw [scan] at hback
    rw [scan, List.foldl_cons, List.foldl_append]
    simp only [scanChar, if_true]
    rw [hback]
    rfl
  refine ⟨hback, fun d s hs => ?_⟩
  rcases List.prefix_cons_iff.mp hs with rfl | ⟨u, rfl, hu⟩
  · exact le_rfl
  · rcases List.prefix_concat_iff.mp hu with rfl | hu
    · rw [hback]
    · exact (hinside.same d u hu).ge

/-! ### The grammar -/

theorem nested_blank (h : IsBlank t) : Nested t := by
  refine nested_of_forall fun c hc => ?_
  have hmem := h c hc
  simp only [List.mem_cons, List.not_mem_nil, or_false] at hmem
  rcases hmem with rfl | rfl | rfl | rfl <;> decide

theorem nested_digits (h : ∀ c ∈ t, c.isDigit = true) : Nested t := by
  refine nested_of_forall fun c hc => ?_
  have hdigit := h c hc
  refine ⟨?_, fun hmem => ?_, fun hmem => ?_⟩
  · rintro rfl
    revert hdigit
    decide
  · simp only [opening, List.mem_cons, List.not_mem_nil, or_false] at hmem
    rcases hmem with rfl | rfl <;> revert hdigit <;> decide
  · simp only [closing, List.mem_cons, List.not_mem_nil, or_false] at hmem
    rcases hmem with rfl | rfl <;> revert hdigit <;> decide

theorem nested_number (h : IsNumber t) : Nested t := by
  obtain ⟨sign, integer, fraction, exponent, rfl, hsign, hinteger, -, hfraction, hexponent⟩ := h
  have hdot : Nested ['.'] := nested_singleton (by decide) (by decide) (by decide)
  have hminus : Nested ['-'] := nested_singleton (by decide) (by decide) (by decide)
  have hplus : Nested ['+'] := nested_singleton (by decide) (by decide) (by decide)
  have hs : Nested sign := by
    rcases hsign with rfl | rfl
    · exact nested_nil
    · exact hminus
  have hf : Nested fraction := by
    rcases hfraction with rfl | ⟨digits, hdigits, rfl⟩
    · exact nested_nil
    · exact hdot.append (nested_digits hdigits.2)
  have he : Nested exponent := by
    rcases hexponent with rfl | ⟨e, plus, digits, hmem, hsigned, hdigits, rfl⟩
    · exact nested_nil
    · have hletter : Nested [e] := by
        simp only [List.mem_cons, List.not_mem_nil, or_false] at hmem
        rcases hmem with rfl | rfl <;> exact nested_singleton (by decide) (by decide) (by decide)
      have hp : Nested plus := by
        rcases hsigned with rfl | rfl | rfl
        · exact nested_nil
        · exact hplus
        · exact hminus
      exact (hletter.append hp).append (nested_digits hdigits.2)
  exact ((hs.append (nested_digits hinteger.2)).append hf).append he

theorem nested_literal (h : t ∈ literals) : Nested t := by
  simp only [literals, List.mem_cons, List.not_mem_nil, or_false] at h
  rcases h with rfl | rfl | rfl <;> exact nested_of_forall (by simp [quote, opening, closing])

/-- In every text of the grammar brackets and strings nest. -/
theorem Derives.nested {symbol : Symbol} (h : Derives symbol t) : Nested t := by
  have hcomma : Nested [','] := nested_singleton (by decide) (by decide) (by decide)
  have hcolon : Nested [':'] := nested_singleton (by decide) (by decide) (by decide)
  induction h with
  | literal h => exact nested_literal h
  | number h => exact nested_number h
  | string h => exact nested_string h
  | emptyArray h => exact (nested_blank h).bracket (by decide) (by decide)
  | array _ ih => exact ih.bracket (by decide) (by decide)
  | emptyObject h => exact (nested_blank h).bracket (by decide) (by decide)
  | object _ ih => exact ih.bracket (by decide) (by decide)
  | element ha _ hb ih => exact ((nested_blank ha).append ih).append (nested_blank hb)
  | elements ha _ hb _ ihv iht =>
    have hv := ((nested_blank ha).append ihv).append (nested_blank hb)
    exact hv.append (hcomma.append iht)
  | member ha hk hb hc _ hd ihv =>
    have hname := ((nested_blank ha).append (nested_string hk)).append (nested_blank hb)
    have hvalue := ((nested_blank hc).append ihv).append (nested_blank hd)
    exact hname.append (hcolon.append hvalue)
  | members ha hk hb hc _ hd _ ihv iht =>
    have hname := ((nested_blank ha).append (nested_string hk)).append (nested_blank hb)
    have hvalue := ((nested_blank hc).append ihv).append (nested_blank hd)
    exact hname.append (hcolon.append (hvalue.append (hcomma.append iht)))

/-! ### Arrays -/

theorem IsNumber.ne_nil (h : IsNumber t) : t ≠ [] := by
  obtain ⟨sign, integer, fraction, exponent, rfl, -, ⟨hne, -⟩, -⟩ := h
  simp [hne]

theorem head?_number (h : IsNumber t) : t.head? ≠ some '[' := by
  obtain ⟨sign, integer, fraction, exponent, rfl, hsign, ⟨hne, hdigits⟩, -⟩ := h
  obtain ⟨c, integer, rfl⟩ := List.exists_cons_of_ne_nil hne
  have hdigit := hdigits c (by simp)
  rcases hsign with rfl | rfl
  · intro hhead
    obtain rfl : c = '[' := by simpa using hhead
    revert hdigit
    decide
  · simp

theorem Derives.ne_nil (h : Derives .value t) : t ≠ [] := by
  cases h with
  | literal h =>
    rintro rfl
    simp [literals] at h
  | number h => exact h.ne_nil
  | string h =>
    obtain ⟨cs, -, rfl⟩ := h
    simp
  | _ => simp

theorem exists_of_isArray (h : IsArray p) : ∃ t, p = '[' :: (t ++ [']']) ∧ Nested t := by
  obtain ⟨hderives, hhead⟩ := h
  cases hderives with
  | literal h =>
    simp only [literals, List.mem_cons, List.not_mem_nil, or_false] at h
    rcases h with rfl | rfl | rfl <;> simp at hhead
  | number h => exact absurd hhead (head?_number h)
  | string h =>
    obtain ⟨cs, -, rfl⟩ := h
    simp [quote] at hhead
  | emptyArray h => exact ⟨_, rfl, nested_blank h⟩
  | array h => exact ⟨_, rfl, h.nested⟩
  | emptyObject h => simp at hhead
  | object h => simp at hhead

/-- No array is the beginning of another one. -/
theorem IsArray.eq_of_start (hp : IsArray p) (hq : IsArray q) (h : p <+: q) : p = q := by
  have hback := hp.1.nested.back 0
  obtain ⟨t, rfl, -⟩ := exists_of_isArray hp
  obtain ⟨u, rfl, hu⟩ := exists_of_isArray hq
  rw [List.cons_prefix_cons] at h
  rcases List.prefix_concat_iff.mp h.2 with heq | hpre
  · rw [heq]
  · have hlt : 0 < (scan (0, .plain) ('[' :: (t ++ [']']))).1 := lt_scan_bracket (by decide) hu hpre
    rw [hback] at hlt
    exact absurd hlt (lt_irrefl 0)

/-- The beginnings of a text that starts with an array: those are texts that have the array and white
space. -/
theorem isText_iff_of_start (hp : IsArray p) (ht : t <+: p ++ x) :
    IsText t ↔ ∃ b, IsBlank b ∧ t = p ++ b := by
  constructor
  · rintro ⟨a, v, b, ha, hv, hb, rfl⟩
    obtain ⟨c, v, rfl⟩ := List.exists_cons_of_ne_nil hv.ne_nil
    obtain ⟨u, rfl, -⟩ := exists_of_isArray hp
    -- White space in front would be the bracket of the array.
    obtain rfl : a = [] := by
      rcases a with _ | ⟨d, a⟩
      · rfl
      · have hpre : d :: (a ++ c :: v ++ b) <+: '[' :: (u ++ [']'] ++ x) := by simpa using ht
        obtain rfl := (List.cons_prefix_cons.mp hpre).1
        have hmem := ha '[' (by simp)
        simp at hmem
    have hv' : IsArray (c :: v) := by
      refine ⟨hv, ?_⟩
      have hpre : c :: (v ++ b) <+: '[' :: (u ++ [']'] ++ x) := by simpa using ht
      rw [(List.cons_prefix_cons.mp hpre).1]
      rfl
    have hvp : c :: v <+: '[' :: (u ++ [']']) ++ x := (List.prefix_append _ b).trans (by simpa using ht)
    have heq : c :: v = '[' :: (u ++ [']']) := by
      rcases List.prefix_or_prefix_of_prefix hvp (List.prefix_append _ x) with hpre | hpre
      · exact hv'.eq_of_start hp hpre
      · exact (hp.eq_of_start hv' hpre).symm
    exact ⟨b, hb, by rw [heq, List.nil_append]⟩
  · rintro ⟨b, hb, rfl⟩
    exact ⟨[], p, b, by simp [IsBlank], hp.1, hb, by simp⟩

/-- The bracket at the end of an array is its last character. -/
theorem IsArray.getLast (hp : IsArray p) : ∃ t, p = t ++ [']'] := by
  obtain ⟨t, rfl, -⟩ := exists_of_isArray hp
  exact ⟨'[' :: t, rfl⟩

end HueStream.Lib.JsonText
