import HueStream.Lib.Text

/-! # Reading events off the stream

The buffer holds what was received and not read. An event is looked for by its two marks: the payload
is what stands between the first `data: ` and the `id: ` after it, or the end of the buffer, and it
is complete when it is valid JSON. What `libjson::is_valid` accepts is a parameter. -/

namespace HueStream.Session

open HueStream.Lib

variable (isValid : List Char → Bool)

def dataMark : List Char := ['d', 'a', 't', 'a', ':', ' ']

def idMark : List Char := ['i', 'd', ':', ' ']

/-- One round of the loop of `ParseEventResponseAndExecuteCallback`: the payload that is complete and
the rest of the buffer. The source looks for the second mark from the first one on, inside which it
cannot begin. -/
def readEvent (buffer : List Char) : Option (List Char × List Char) := do
  let (_, text) ← cut dataMark buffer
  let (payload, rest) := match cut idMark text with
    | none => (text, [])
    | some (payload, after) => (payload, idMark ++ after)
  if isValid payload then some (payload, rest) else none

/-- The loop, for at most `n` rounds: the payloads and the buffer that is left. -/
def readEventsIn : ℕ → List Char → List (List Char) × List Char
  | 0, buffer => ([], buffer)
  | n + 1, buffer =>
    match readEvent isValid buffer with
    | none => ([], buffer)
    | some (payload, rest) =>
      let (payloads, buffer) := readEventsIn n rest
      (payload :: payloads, buffer)

/-- The loop of `ParseEventResponseAndExecuteCallback`. Each round shortens the buffer, so it ends
within as many rounds as the buffer is long. -/
def readEvents (buffer : List Char) : List (List Char) × List Char :=
  readEventsIn isValid buffer.length buffer

variable {isValid} {buffer payload rest : List Char}

theorem length_of_readEvent (h : readEvent isValid buffer = some (payload, rest)) :
    rest.length < buffer.length := by
  simp only [readEvent, Option.bind_eq_bind, Option.bind_eq_some_iff, Prod.exists] at h
  obtain ⟨before, text, hcut, h⟩ := h
  have hbuffer := congrArg List.length (cut_eq_append hcut)
  simp only [List.length_append, dataMark, List.length_cons, List.length_nil] at hbuffer
  cases hid : cut idMark text with
  | none =>
    simp only [hid] at h
    split_ifs at h
    obtain ⟨rfl, rfl⟩ := by simpa using h
    simp only [List.length_nil]
    omega
  | some parts =>
    obtain ⟨p, after⟩ := parts
    have htext := congrArg List.length (cut_eq_append hid)
    simp only [hid] at h
    split_ifs at h
    obtain ⟨rfl, rfl⟩ := by simpa using h
    simp only [List.length_append] at htext ⊢
    omega

theorem readEventsIn_eq {n : ℕ} (hn : buffer.length ≤ n) :
    readEventsIn isValid n buffer = readEvents isValid buffer := by
  have hmore : ∀ n m (buffer : List Char), buffer.length ≤ n → n ≤ m →
      readEventsIn isValid m buffer = readEventsIn isValid n buffer := by
    intro n
    induction n with
    | zero =>
      intro m buffer hlength _
      obtain rfl := List.length_eq_zero_iff.mp (Nat.le_zero.mp hlength)
      cases m <;> rfl
    | succ n ih =>
      intro m buffer hlength hm
      obtain ⟨m, rfl⟩ : ∃ k, m = k + 1 := ⟨m - 1, by omega⟩
      simp only [readEventsIn]
      cases hread : readEvent isValid buffer with
      | none => rfl
      | some event =>
        have hless : event.2.length < buffer.length := length_of_readEvent hread
        simp only [ih m event.2 (by omega) (by omega)]
  exact hmore _ _ _ le_rfl hn

/-- The loop, round by round. -/
theorem readEvents_eq (buffer : List Char) : readEvents isValid buffer =
    match readEvent isValid buffer with
    | none => ([], buffer)
    | some (payload, rest) =>
      (payload :: (readEvents isValid rest).1, (readEvents isValid rest).2) := by
  cases hread : readEvent isValid buffer with
  | none =>
    unfold readEvents
    cases buffer.length with
    | zero => rfl
    | succ n => simp only [readEventsIn, hread]
  | some event =>
    obtain ⟨payload, rest⟩ := event
    have hless := length_of_readEvent hread
    obtain ⟨n, hn⟩ : ∃ n, buffer.length = n + 1 := ⟨buffer.length - 1, by omega⟩
    unfold readEvents
    rw [hn, readEventsIn]
    simp only [hread]
    rw [readEventsIn_eq (by omega)]
    rfl

/-! ### One piece after another -/

variable (isValid) in
/-- The pieces of a stream, each appended to the buffer and read: the payloads and the buffer that is
left. -/
def feed : List Char → List (List Char) → List (List Char) × List Char
  | buffer, [] => ([], buffer)
  | buffer, bytes :: pieces =>
    let (payloads, buffer) := readEvents isValid (buffer ++ bytes)
    let (more, buffer) := feed buffer pieces
    (payloads ++ more, buffer)

theorem feed_append (pieces more : List (List Char)) :
    feed isValid buffer (pieces ++ more) =
      ((feed isValid buffer pieces).1 ++ (feed isValid (feed isValid buffer pieces).2 more).1,
        (feed isValid (feed isValid buffer pieces).2 more).2) := by
  induction pieces generalizing buffer with
  | nil => simp [feed]
  | cons bytes pieces ih => simp [feed, ih]

theorem feed_concat (pieces : List (List Char)) (bytes : List Char) :
    (feed isValid buffer (pieces ++ [bytes])).2 =
      (readEvents isValid ((feed isValid buffer pieces).2 ++ bytes)).2 := by
  rw [feed_append]
  rfl

/-! ### A harmless beginning -/

/-- A text in front in which no event can begin. -/
theorem readEvent_append {r : List Char} (h : overlaps dataMark r = false) (buffer : List Char) :
    readEvent isValid (r ++ buffer) = readEvent isValid buffer := by
  unfold readEvent
  rw [cut_append_of_not_overlaps h]
  cases cut dataMark buffer <;> rfl

/-- It does not change what is read; it stays in front until the first event is. -/
theorem readEvents_append {r : List Char} (h : overlaps dataMark r = false) (buffer : List Char) :
    (readEvents isValid (r ++ buffer)).1 = (readEvents isValid buffer).1 ∧
      ((readEvents isValid (r ++ buffer)).2 = (readEvents isValid buffer).2 ∨
        (readEvents isValid (r ++ buffer)).2 = r ++ (readEvents isValid buffer).2) := by
  rw [readEvents_eq, readEvents_eq buffer, readEvent_append h]
  cases readEvent isValid buffer with
  | none => exact ⟨rfl, .inr rfl⟩
  | some event => exact ⟨rfl, .inl rfl⟩

end HueStream.Session
