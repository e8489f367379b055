import HueStream.Lib.JsonText
import HueStream.Lib.Run
import HueStream.Session.Reader

/-! # Where the stream is cut

A stream of server-sent events arrives in pieces that end anywhere. A reader that finds the events however
they are cut parses, after every piece, the payloads that are there so far (`ReadsExactly`). The reader of the
source looks for its marks also inside the payloads, and takes for the payload all that has arrived up to the
next `id: `; so it does that just as long as every payload has no `id: ` in it and arrives together with
nothing behind it but white space, or white space and the whole of the next `id: ` (`Clean`). -/

namespace HueStream.Session

open HueStream.Lib HueStream.Lib.JsonText

/-- A server-sent event: its payload, and what stands between it and the next `data: `: the rest of the
event and the fields of the next one before its data. -/
structure ServerEvent where
  payload : List Char
  after : List Char

/-- The text of events after `start`. -/
def stream (start : List Char) (events : List ServerEvent) : List Char :=
  start ++ events.flatMap fun e => dataMark ++ (e.payload ++ e.after)

/-- What has been received, what is in the buffer, and the texts `ParseJsonEvent` has been called with. -/
structure Listener where
  received : List Char := []
  responseEvent : List Char := []
  parsed : List (List Char) := []

/-- Response bodies that bring the stream, one after another. -/
def listening (isValid : List Char → Bool) (start : List Char) (events : List ServerEvent) :
    Machine Listener (List Char) where
  Init s := s = {}
  step s bytes :=
    if s.received ++ bytes <+: stream start events then
      let (payloads, responseEvent) := readEvents isValid (s.responseEvent ++ bytes)
      some { received := s.received ++ bytes, responseEvent, parsed := s.parsed ++ payloads }
    else none

/-- The payloads that have arrived. -/
def complete : List Char → List ServerEvent → List Char → List (List Char)
  | _, [], _ => []
  | start, e :: es, received =>
    if start ++ (dataMark ++ e.payload) <+: received then
      e.payload :: complete e.after es (received.drop (start ++ (dataMark ++ e.payload)).length)
    else []

/-- A text is the payload with white space behind it: the same JSON. -/
def SamePayload (text payload : List Char) : Prop := ∃ b, IsBlank b ∧ text = payload ++ b

/-- The payloads that have arrived have been parsed, each once and in order, and nothing else. -/
def ReadsExactly (start : List Char) (events : List ServerEvent) (s : Listener) : Prop :=
  List.Forall₂ SamePayload s.parsed (complete start events s.received)

/-- What the reader takes for the payload ends behind the payload. -/
def ReadsAt (payload rest : List Char) : Prop :=
  ¬ idMark <:+: payload ∧
    ∃ b, IsBlank b ∧ (rest = b ∨ ∃ more, rest = b ++ idMark ++ more)

/-- The payloads that arrive, from the event `seen` on, can be read when they arrive. -/
def Clean : ℕ → List Char → List ServerEvent → List Char → Prop
  | _, _, [], _ => True
  | seen, start, e :: es, received =>
    ∀ rest, received = start ++ (dataMark ++ (e.payload ++ rest)) →
      (seen = 0 → ReadsAt e.payload rest) ∧ Clean (seen - 1) e.after es rest

/-- With a piece no payload arrives that cannot be read at once. -/
def ArrivesClean (start : List Char) (events : List ServerEvent) (s : Listener) (bytes : List Char) : Prop :=
  Clean (complete start events s.received).length start events (s.received ++ bytes)

/-! ### One event -/

variable {isValid : List Char → Bool} {p g x rest b : List Char} {e : ServerEvent} {es : List ServerEvent}

/-- The text the reader takes for the payload, and what it leaves in the buffer. -/
def takePayload (text : List Char) : List Char × List Char :=
  match cut idMark text with
  | none => (text, [])
  | some (payload, after) => (payload, idMark ++ after)

theorem takePayload_append (text : List Char) : (takePayload text).1 ++ (takePayload text).2 = text := by
  unfold takePayload
  cases h : cut idMark text with
  | none => simp
  | some parts =>
    rw [cut_eq_append h]
    simp

theorem readEvent_of_mark (hg : overlaps dataMark g = false) (text : List Char) :
    readEvent isValid (g ++ (dataMark ++ text)) =
      if isValid (takePayload text).1 = true then some (takePayload text) else none := by
  rw [readEvent_append hg, readEvent, cut_pat_append (by simp [dataMark])]
  rfl

theorem readEvent_eq_none (hg : overlaps dataMark g = false) (hb : b <+: g) :
    readEvent isValid b = none := by
  rw [readEvent, cut_eq_none_of_start hg (by simp [dataMark]) hb]
  rfl

theorem overlaps_blank (hb : IsBlank b) : overlaps idMark b = false := by
  rw [overlaps_eq_false_iff]
  intro u hu hne
  obtain ⟨c, v, rfl⟩ := List.exists_cons_of_ne_nil hne
  have hblank := hb c (hu.subset (by simp))
  have hc : c ≠ 'i' := by
    rintro rfl
    simp at hblank
  constructor
  · intro hpre
    exact hc (List.cons_prefix_cons.mp hpre).1
  · intro hpre
    exact hc (List.cons_prefix_cons.mp hpre).1.symm

/-- An array ends with its bracket, with which no mark begins. -/
theorem overlaps_payload (hp : IsArray p) (h : ¬ idMark <:+: p) : overlaps idMark p = false := by
  rw [overlaps_eq_false_iff]
  intro u hu hne
  constructor
  · intro hpre
    obtain ⟨t, rfl⟩ := hp.getLast
    rcases List.suffix_concat_iff.mp hu with rfl | ⟨v, rfl, -⟩
    · exact hne rfl
    · have hmem : ']' ∈ idMark := hpre.subset (by simp)
      simp [idMark] at hmem
  · intro hpre
    exact h (hpre.isInfix.trans hu.isInfix)

theorem takePayload_of_readsAt (hp : IsArray p) (h : ReadsAt p rest) :
    ∃ b r, IsBlank b ∧ rest = b ++ r ∧ takePayload (p ++ rest) = (p ++ b, r) := by
  obtain ⟨hpart, b, hb, rfl | ⟨more, rfl⟩⟩ := h
  · have hno := overlaps_append (overlaps_payload hp hpart) (overlaps_blank hb)
    refine ⟨rest, [], hb, by simp, ?_⟩
    rw [takePayload, cut_eq_none_of_start hno (by simp [idMark]) List.prefix_rfl]
  · have hno := overlaps_append (overlaps_payload hp hpart) (overlaps_blank hb)
    refine ⟨b, idMark ++ more, hb, by simp, ?_⟩
    rw [takePayload, ← List.append_assoc, ← List.append_assoc, cut_append_pat hno (by simp [idMark])]

theorem readsAt_of_takePayload (hb : IsBlank b) (h : (takePayload (p ++ rest)).1 = p ++ b) :
    ReadsAt p rest := by
  refine ⟨?_, b, hb, ?_⟩
  · rintro ⟨a, c, rfl⟩
    obtain ⟨r, t, hcut, hlength⟩ : ∃ r t, cut idMark (a ++ idMark ++ (c ++ rest)) = some (r, t) ∧
        r.length ≤ a.length := exists_cut_of_append a (c ++ rest)
    have htake : (takePayload (a ++ idMark ++ c ++ rest)).1 = r := by
      rw [takePayload, List.append_assoc _ c, hcut]
    rw [htake] at h
    have hlen := congrArg List.length h
    simp only [List.length_append, idMark, List.length_cons] at hlen
    omega
  · have hall := takePayload_append (p ++ rest)
    rw [h, List.append_assoc] at hall
    have hrest := List.append_cancel_left hall
    unfold takePayload at hrest
    cases hcut : cut idMark (p ++ rest) with
    | none =>
      rw [hcut, List.append_nil] at hrest
      exact .inl hrest.symm
    | some parts =>
      rw [hcut] at hrest
      exact .inr ⟨parts.2, by rw [← hrest, List.append_assoc]⟩

/-! ### What the loop makes of a buffer -/

/-- A payload that has arrived and can be read is read. -/
theorem readEvent_of_readsAt (hvalid : ∀ t, isValid t = true ↔ IsText t) (hg : overlaps dataMark g = false)
    (hp : IsArray p) (h : ReadsAt p rest) :
    ∃ b r, IsBlank b ∧ rest = b ++ r ∧
      readEvent isValid (g ++ (dataMark ++ (p ++ rest))) = some (p ++ b, r) := by
  obtain ⟨b, r, hb, hrest, htake⟩ := takePayload_of_readsAt hp h
  refine ⟨b, r, hb, hrest, ?_⟩
  have htext : isValid (p ++ b) = true :=
    (hvalid _).mpr ((isText_iff_of_start hp List.prefix_rfl).mpr ⟨b, hb, rfl⟩)
  rw [readEvent_of_mark hg, htake, if_pos htext]

/-- One that cannot be read blocks the buffer. -/
theorem readEvent_of_not_readsAt (hvalid : ∀ t, isValid t = true ↔ IsText t)
    (hg : overlaps dataMark g = false) (hp : IsArray p) (h : ¬ ReadsAt p rest) :
    readEvent isValid (g ++ (dataMark ++ (p ++ rest))) = none := by
  rw [readEvent_of_mark hg, if_neg]
  intro htext
  have hpre : (takePayload (p ++ rest)).1 <+: p ++ rest := ⟨_, takePayload_append _⟩
  obtain ⟨b, hb, heq⟩ := (isText_iff_of_start hp hpre).mp ((hvalid _).mp htext)
  exact h (readsAt_of_takePayload hb heq)

/-- Nothing is read before the payload is there. -/
theorem readEvent_of_incomplete (hvalid : ∀ t, isValid t = true ↔ IsText t)
    (hg : overlaps dataMark g = false) (hp : IsArray p) (hb : b <+: g ++ (dataMark ++ (p ++ x)))
    (h : ¬ g ++ (dataMark ++ p) <+: b) : readEvent isValid b = none := by
  have hlt : b <+: g ++ (dataMark ++ p) := by
    have hwhole : g ++ (dataMark ++ p) <+: g ++ (dataMark ++ (p ++ x)) := ⟨x, by simp⟩
    rcases List.prefix_or_prefix_of_prefix hb hwhole with hpre | hpre
    · exact hpre
    · exact absurd hpre h
  rcases List.prefix_or_prefix_of_prefix hlt (List.prefix_append g (dataMark ++ p)) with hpre | ⟨u, rfl⟩
  · exact readEvent_eq_none hg hpre
  · have hu : u <+: dataMark ++ p := (List.prefix_append_right_inj g).mp hlt
    by_cases hmark : dataMark <+: u
    · obtain ⟨t, rfl⟩ := hmark
      rw [readEvent_of_mark hg, if_neg]
      intro htext
      have ht : t <+: p := (List.prefix_append_right_inj dataMark).mp hu
      have htake : (takePayload t).1 <+: t := ⟨_, takePayload_append t⟩
      obtain ⟨w, -, heq⟩ :=
        (isText_iff_of_start (x := []) hp (by simpa using htake.trans ht)).mp ((hvalid _).mp htext)
      have hpt : p <+: t := ⟨w ++ (takePayload t).2, by rw [← List.append_assoc, ← heq, takePayload_append]⟩
      obtain rfl := ht.eq_of_length (le_antisymm ht.length_le hpt.length_le)
      exact h List.prefix_rfl
    · have hpre : u <+: dataMark := by
        rcases List.prefix_or_prefix_of_prefix hu (List.prefix_append dataMark p) with hpre | hpre
        · exact hpre
        · exact absurd hpre hmark
      have hcut : cut dataMark u = none := by
        rw [Option.eq_none_iff_forall_not_mem]
        rintro ⟨a, c⟩ hcut
        have hu := cut_eq_append hcut
        have hlength := hpre.length_le
        rw [hu] at hlength
        simp only [List.length_append] at hlength
        obtain rfl : a = [] := List.length_eq_zero_iff.mp (by omega)
        exact hmark ⟨c, by simpa using hu.symm⟩
      rw [readEvent_append hg, readEvent, hcut]
      rfl

/-! ### The events ahead -/

variable {start g' b' w r more : List Char} {events es' : List ServerEvent} {n : ℕ}

theorem stream_cons (g : List Char) (e : ServerEvent) (es : List ServerEvent) :
    stream g (e :: es) = g ++ (dataMark ++ (e.payload ++ stream e.after es)) := by
  simp [stream]

theorem stream_append (w g : List Char) (es : List ServerEvent) : stream (w ++ g) es = w ++ stream g es := by
  simp [stream]

theorem complete_cons (g : List Char) (e : ServerEvent) (es : List ServerEvent) (rest : List Char) :
    complete g (e :: es) (g ++ (dataMark ++ (e.payload ++ rest))) = e.payload :: complete e.after es rest := by
  have heq : g ++ (dataMark ++ (e.payload ++ rest)) = g ++ (dataMark ++ e.payload) ++ rest := by simp
  rw [complete, heq, if_pos (List.prefix_append _ _), List.drop_left]

theorem complete_of_incomplete (h : ¬ g ++ (dataMark ++ e.payload) <+: b) : complete g (e :: es) b = [] := by
  rw [complete, if_neg h]

theorem complete_append (w g : List Char) (es : List ServerEvent) (r : List Char) :
    complete (w ++ g) es (w ++ r) = complete g es r := by
  cases es with
  | nil => rfl
  | cons e es =>
    by_cases h : g ++ (dataMark ++ e.payload) <+: r
    · obtain ⟨rest, rfl⟩ := h
      have hwhole := complete_cons (w ++ g) e es rest
      have hpart := complete_cons g e es rest
      simp only [List.append_assoc] at hwhole hpart ⊢
      rw [hwhole, hpart]
    · have hw : ¬ (w ++ g) ++ (dataMark ++ e.payload) <+: w ++ r := by
        rw [List.append_assoc, List.prefix_append_right_inj]
        exact h
      rw [complete_of_incomplete h, complete_of_incomplete hw]

theorem clean_cons : Clean n g (e :: es) (g ++ (dataMark ++ (e.payload ++ rest))) ↔
    (n = 0 → ReadsAt e.payload rest) ∧ Clean (n - 1) e.after es rest := by
  constructor
  · intro h
    exact h rest rfl
  · rintro h rest' heq
    simp only [List.append_cancel_left_eq] at heq
    rwa [← heq]

theorem clean_append : Clean n (w ++ g) es (w ++ r) ↔ Clean n g es r := by
  cases es with
  | nil => exact Iff.rfl
  | cons e es =>
    simp only [Clean, List.append_assoc, List.append_cancel_left_eq]

/-- What the loop leaves: the events ahead as they look from the buffer. -/
structure Left (start : List Char) (events : List ServerEvent) (received g : List Char)
    (es : List ServerEvent) (b : List Char) : Prop where
  unmarked : overlaps dataMark g = false
  subset : es ⊆ events
  arrives : ∀ more, received ++ more <+: stream start events → b ++ more <+: stream g es
  parses : ∀ more, complete start events (received ++ more) =
    complete start events received ++ complete g es (b ++ more)
  cleans : ∀ n more, Clean ((complete start events received).length + n) start events
    (received ++ more) ↔ Clean n g es (b ++ more)
  quiet : complete g es b = []

theorem Left.refl (hg : overlaps dataMark g = false) (h : complete g es b = []) : Left g es b g es b where
  unmarked := hg
  subset := fun _ he => he
  arrives _ hmore := hmore
  parses more := by rw [h, List.nil_append]
  cleans n more := by rw [h, List.length_nil, Nat.zero_add]
  quiet := h

/-- More has arrived. -/
theorem Left.trans {received bytes : List Char} (h : Left start events received g es b)
    (h' : Left g es (b ++ bytes) g' es' b') : Left start events (received ++ bytes) g' es' b' where
  unmarked := h'.unmarked
  subset := fun _ he => h.subset (h'.subset he)
  arrives more hmore := by
    refine h'.arrives more ?_
    rw [List.append_assoc] at hmore ⊢
    exact h.arrives _ hmore
  parses more := by
    have hparses := h'.parses more
    rw [List.append_assoc] at hparses ⊢
    rw [h.parses, hparses, h.parses, List.append_assoc]
  cleans n more := by
    have hcleans := h'.cleans n more
    rw [List.append_assoc] at hcleans ⊢
    rw [h.parses, List.length_append, Nat.add_assoc, h.cleans]
    exact hcleans
  quiet := h'.quiet

/-- One payload has been read, with the white space behind it. -/
theorem Left.cons (hafter : e.after = w ++ g) (h : Left g es r g' es' b') (before : List Char) :
    Left before (e :: es) (before ++ (dataMark ++ (e.payload ++ (w ++ r)))) g' es' b' := by
  have hcomplete : ∀ more, complete before (e :: es)
      (before ++ (dataMark ++ (e.payload ++ (w ++ r))) ++ more) = e.payload :: complete g es (r ++ more) := by
    intro more
    have hcons := complete_cons before e es (w ++ (r ++ more))
    rw [hafter, complete_append] at hcons
    rw [← hcons]
    simp
  have hnow := hcomplete []
  rw [List.append_nil, List.append_nil] at hnow
  refine ⟨h.unmarked, fun _ he => List.mem_cons_of_mem e (h.subset he), fun more hmore => ?_,
    fun more => ?_, fun n more => ?_, h.quiet⟩
  · refine h.arrives more ?_
    simp only [stream_cons, hafter, stream_append, List.append_assoc, List.prefix_append_right_inj] at hmore
    exact hmore
  · rw [hcomplete, hnow, h.parses]
    rfl
  · have heq : before ++ (dataMark ++ (e.payload ++ (w ++ r))) ++ more =
        before ++ (dataMark ++ (e.payload ++ (w ++ (r ++ more)))) := by simp
    rw [hnow, heq, clean_cons, hafter, clean_append, List.length_cons, ← h.cleans n more]
    have hpos : ∀ k, k + 1 + n ≠ 0 := fun k => by omega
    have hpred : ∀ k, k + 1 + n - 1 = k + n := fun k => by omega
    simp only [hpos, hpred, false_implies, true_and]

/-- White space that arrives belongs to what stands between the payloads. -/
theorem exists_after (hw : IsBlank w) (h : w ++ r <+: stream g es) : ∃ g', g = w ++ g' := by
  have hpre : w <+: g ++ es.flatMap fun e => dataMark ++ (e.payload ++ e.after) :=
    (List.prefix_append w r).trans h
  rcases List.prefix_or_prefix_of_prefix hpre (List.prefix_append g _) with hg | ⟨v, rfl⟩
  · obtain ⟨g', rfl⟩ := hg
    exact ⟨g', rfl⟩
  · have hv := (List.prefix_append_right_inj g).mp hpre
    obtain rfl : v = [] := by
      rcases v with _ | ⟨c, v⟩
      · rfl
      · rcases es with _ | ⟨e, es⟩
        · simp at hv
        · have hc : c = 'd' := by
            rw [List.flatMap_cons] at hv
            exact (List.cons_prefix_cons.mp hv).1
          have hblank := hw c (by simp)
          rw [hc] at hblank
          simp at hblank
    exact ⟨[], by simp⟩

theorem readEvents_of_none (h : readEvent isValid b = none) : readEvents isValid b = ([], b) := by
  rw [readEvents_eq, h]

theorem readEvents_of_some {t : List Char} (h : readEvent isValid b = some (t, r)) :
    readEvents isValid b = (t :: (readEvents isValid r).1, (readEvents isValid r).2) := by
  rw [readEvents_eq, h]

/-- The payloads of a stream are arrays, and nothing else in it has the mark of the data. -/
structure WellFormed (start : List Char) (events : List ServerEvent) : Prop where
  start : overlaps dataMark start = false
  arrays : ∀ e ∈ events, IsArray e.payload
  unmarked : ∀ e ∈ events, overlaps dataMark e.after = false

theorem WellFormed.tail (h : WellFormed g (e :: es)) (hafter : e.after = w ++ g') : WellFormed g' es where
  start := by
    have hunmarked := h.unmarked e (by simp)
    rw [hafter] at hunmarked
    exact overlaps_of_append hunmarked
  arrays e' he' := h.arrays e' (by simp [he'])
  unmarked e' he' := h.unmarked e' (by simp [he'])

/-- One round of the loop on a payload that has arrived and can be read. -/
theorem exists_round (hvalid : ∀ t, isValid t = true ↔ IsText t) (hwf : WellFormed g (e :: es))
    (hb : g ++ (dataMark ++ (e.payload ++ rest)) <+: stream g (e :: es)) (h : ReadsAt e.payload rest) :
    ∃ w r g', rest = w ++ r ∧ e.after = w ++ g' ∧ r <+: stream g' es ∧ SamePayload (e.payload ++ w) e.payload ∧
      readEvents isValid (g ++ (dataMark ++ (e.payload ++ rest))) =
        ((e.payload ++ w) :: (readEvents isValid r).1, (readEvents isValid r).2) := by
  obtain ⟨w, r, hw, rfl, hread⟩ := readEvent_of_readsAt hvalid hwf.start (hwf.arrays e (by simp)) h
  simp only [stream_cons, List.prefix_append_right_inj] at hb
  obtain ⟨g', hafter⟩ := exists_after hw hb
  rw [hafter, stream_append, List.prefix_append_right_inj] at hb
  exact ⟨w, r, g', rfl, hafter, hb, ⟨w, hw, rfl⟩, readEvents_of_some hread⟩

/-- **The loop on a buffer whose payloads can be read**: it reads them all. -/
theorem exists_left (hvalid : ∀ t, isValid t = true ↔ IsText t) (hwf : WellFormed g es)
    (hb : b <+: stream g es) (hclean : Clean 0 g es b) :
    ∃ g' es', List.Forall₂ SamePayload (readEvents isValid b).1 (complete g es b) ∧
      Left g es b g' es' (readEvents isValid b).2 := by
  induction es generalizing g b with
  | nil =>
    have hnone : readEvent isValid b = none := readEvent_eq_none hwf.start (by simpa [stream] using hb)
    rw [readEvents_of_none hnone]
    exact ⟨g, [], .nil, .refl hwf.start rfl⟩
  | cons e es ih =>
    by_cases harrived : g ++ (dataMark ++ e.payload) <+: b
    · obtain ⟨rest, hrest⟩ := harrived
      obtain rfl : b = g ++ (dataMark ++ (e.payload ++ rest)) := by simp [← hrest]
      obtain ⟨hreads, htail⟩ := clean_cons.mp hclean
      obtain ⟨w, r, g', rfl, hafter, hr, hsame, heq⟩ := exists_round hvalid hwf hb (hreads rfl)
      rw [hafter, clean_append] at htail
      obtain ⟨g₁, es₁, hread, hleft⟩ := ih (hwf.tail hafter) hr htail
      rw [heq, complete_cons, hafter, complete_append]
      exact ⟨g₁, es₁, .cons hsame hread, hleft.cons hafter g⟩
    · have hnone : readEvent isValid b = none := by
        rw [stream_cons] at hb
        exact readEvent_of_incomplete hvalid hwf.start (hwf.arrays e (by simp)) hb harrived
      rw [readEvents_of_none hnone, complete_of_incomplete harrived]
      exact ⟨g, e :: es, .nil, .refl hwf.start (complete_of_incomplete harrived)⟩

/-- On another buffer it reads too few. -/
theorem length_lt_of_not_clean (hvalid : ∀ t, isValid t = true ↔ IsText t) (hwf : WellFormed g es)
    (hb : b <+: stream g es) (hclean : ¬ Clean 0 g es b) :
    (readEvents isValid b).1.length < (complete g es b).length := by
  induction es generalizing g b with
  | nil => exact absurd trivial hclean
  | cons e es ih =>
    obtain ⟨rest, rfl⟩ : ∃ rest, b = g ++ (dataMark ++ (e.payload ++ rest)) := by
      by_contra hnot
      exact hclean fun rest heq => absurd ⟨rest, heq⟩ hnot
    rw [clean_cons] at hclean
    rw [complete_cons]
    by_cases hreads : ReadsAt e.payload rest
    · obtain ⟨w, r, g', rfl, hafter, hr, -, heq⟩ := exists_round hvalid hwf hb hreads
      have htail : ¬ Clean 0 g' es r := by
        rw [hafter, clean_append] at hclean
        exact fun htail => hclean ⟨fun _ => hreads, htail⟩
      have hlt := ih (hwf.tail hafter) hr htail
      rw [heq, hafter, complete_append, List.length_cons, List.length_cons]
      omega
    · have hnone := readEvent_of_not_readsAt hvalid hwf.start (hwf.arrays e (by simp)) hreads
      rw [readEvents_of_none hnone]
      simp

/-! ### Runs -/

variable {ts : List (Transition Listener (List Char))} {s s' : Listener} {bytes : List Char}

/-- What has been parsed is what has arrived, and the buffer shows the events ahead. -/
structure Caught (start : List Char) (events : List ServerEvent) (s : Listener) : Prop where
  received : s.received <+: stream start events
  parsed : ReadsExactly start events s
  left : ∃ g es, Left start events s.received g es s.responseEvent

theorem listening_step (h : (listening isValid start events).step s bytes = some s') :
    s.received ++ bytes <+: stream start events ∧
      s' = { received := s.received ++ bytes
             responseEvent := (readEvents isValid (s.responseEvent ++ bytes)).2
             parsed := s.parsed ++ (readEvents isValid (s.responseEvent ++ bytes)).1 } := by
  obtain ⟨hpre, h⟩ := Option.ite_none_right_eq_some.mp h
  exact ⟨hpre, (Option.some.inj h).symm⟩

theorem Left.wellFormed {received : List Char} (h : Left start events received g es b)
    (hwf : WellFormed start events) : WellFormed g es where
  start := h.unmarked
  arrays e he := hwf.arrays e (h.subset he)
  unmarked e he := hwf.unmarked e (h.subset he)

theorem Caught.step (hvalid : ∀ t, isValid t = true ↔ IsText t) (hwf : WellFormed start events)
    (h : (listening isValid start events).step s bytes = some s')
    (hclean : ArrivesClean start events s bytes) (hs : Caught start events s) : Caught start events s' := by
  obtain ⟨hpre, rfl⟩ := listening_step h
  obtain ⟨g, es, hleft⟩ := hs.left
  have hahead : Clean 0 g es (s.responseEvent ++ bytes) := (hleft.cleans 0 bytes).mp hclean
  obtain ⟨g', es', hread, hleft'⟩ := exists_left hvalid (hleft.wellFormed hwf) (hleft.arrives bytes hpre) hahead
  refine ⟨hpre, ?_, g', es', hleft.trans hleft'⟩
  unfold ReadsExactly
  rw [hleft.parses]
  exact List.rel_append hs.parsed hread

theorem ArrivesClean.of_readsExactly (hvalid : ∀ t, isValid t = true ↔ IsText t)
    (hwf : WellFormed start events) (h : (listening isValid start events).step s bytes = some s')
    (hs : Caught start events s) (hreads : ReadsExactly start events s') :
    ArrivesClean start events s bytes := by
  obtain ⟨hpre, rfl⟩ := listening_step h
  obtain ⟨g, es, hleft⟩ := hs.left
  by_contra hnot
  have hahead : ¬ Clean 0 g es (s.responseEvent ++ bytes) := fun hclean =>
    hnot ((hleft.cleans 0 bytes).mpr hclean)
  have hlt := length_lt_of_not_clean hvalid (hleft.wellFormed hwf) (hleft.arrives bytes hpre) hahead
  have hlength := hreads.length_eq
  have hbefore := hs.parsed.length_eq
  rw [hleft.parses, List.length_append, List.length_append] at hlength
  omega

theorem complete_nil (start : List Char) (events : List ServerEvent) : complete start events [] = [] := by
  cases events with
  | nil => rfl
  | cons e es => exact complete_of_incomplete (by simp [dataMark])

theorem caught_init (hwf : WellFormed start events) : Caught start events {} := by
  refine ⟨List.nil_prefix, ?_, start, events, .refl hwf.start (complete_nil start events)⟩
  unfold ReadsExactly
  rw [complete_nil]
  exact .nil

/-- **When the reader does not depend on the cuts.** For every stream of events with arrays as payloads and
every run of response bodies that bring it: after each body what has arrived has been parsed, exactly and in
order, if and only if no body brings the end of a payload that has an `id: ` in it, or one with something behind
it other than white space or white space and the next `id: `. -/
theorem readsExactly_iff (hvalid : ∀ t, isValid t = true ↔ IsText t) (hwf : WellFormed start events)
    (hrun : (listening isValid start events).Run ts s) :
    (∀ t ∈ ts, ReadsExactly start events t.after) ↔
      ∀ t ∈ ts, ArrivesClean start events t.before t.label := by
  refine hrun.forall_iff (G := fun t => ReadsExactly start events t.after) (I := Caught start events)
    (C := ArrivesClean start events) ?_ ?_ ?_
  · rintro s rfl
    exact caught_init hwf
  · intro s bytes s' h hclean hs
    exact hs.step hvalid hwf h hclean
  · intro s bytes s' h hs
    exact ⟨fun hreads => .of_readsExactly hvalid hwf h hs hreads,
      fun hclean => (hs.step hvalid hwf h hclean).parsed⟩

theorem exists_listen (hrun : (listening isValid start events).Run ts s) (bytes : List Char)
    (h : s.received ++ bytes <+: stream start events) :
    ∃ s', (listening isValid start events).Run (ts ++ [⟨s, bytes, s'⟩]) s' ∧
      s'.received = s.received ++ bytes :=
  ⟨_, hrun.step (if_pos h), rfl⟩

/-- An event that arrives in two bodies. -/
theorem readsExactly_iff_example : ∃ isValid : List Char → Bool, (∀ t, isValid t = true ↔ IsText t) ∧
    ∃ ts s, (listening isValid ['i', 'd', ':', ' ', '\n'] [⟨['[', ']'], ['\n', '\n']⟩]).Run ts s ∧
      ts.map Transition.label = [['i', 'd', ':', ' ', '\n', 'd', 'a', 't', 'a', ':', ' ', '['], [']', '\n']] ∧
      ∀ t ∈ ts, ReadsExactly ['i', 'd', ':', ' ', '\n'] [⟨['[', ']'], ['\n', '\n']⟩] t.after := by
  classical
  have hvalid : ∀ t, decide (IsText t) = true ↔ IsText t := fun t => decide_eq_true_iff
  have hwf : WellFormed ['i', 'd', ':', ' ', '\n'] [⟨['[', ']'], ['\n', '\n']⟩] := by
    refine ⟨by decide, fun e he => ?_, fun e he => ?_⟩
    · obtain rfl := List.mem_singleton.mp he
      exact ⟨.emptyArray (t := []) (by simp [IsBlank]), rfl⟩
    · obtain rfl := List.mem_singleton.mp he
      decide
  have hrun := Machine.Run.init (M := listening (fun t => decide (IsText t)) ['i', 'd', ':', ' ', '\n']
    [⟨['[', ']'], ['\n', '\n']⟩]) rfl
  obtain ⟨s₁, hfirst, hs₁⟩ := exists_listen hrun ['i', 'd', ':', ' ', '\n', 'd', 'a', 't', 'a', ':', ' ', '[']
    (by decide)
  obtain ⟨s₂, hsecond, -⟩ := exists_listen hfirst [']', '\n'] (by rw [hs₁]; decide)
  refine ⟨_, hvalid, _, _, hsecond, rfl, (readsExactly_iff hvalid hwf hsecond).mpr fun t ht => ?_⟩
  simp only [List.nil_append, List.cons_append, List.mem_cons, List.not_mem_nil, or_false] at ht
  rcases ht with rfl | rfl
  · intro rest hrest
    simp [dataMark] at hrest
  · unfold ArrivesClean
    rw [hs₁]
    intro rest hrest
    obtain rfl : rest = ['\n'] := by simpa [dataMark] using hrest.symm
    exact ⟨fun _ => ⟨by decide, ['\n'], by simp [IsBlank], .inl rfl⟩, trivial⟩

/-- A first body that brings a payload which cannot be read. -/
theorem exists_not_readsExactly_of_first (hvalid : ∀ t, isValid t = true ↔ IsText t)
    (hwf : WellFormed start events) (h : bytes <+: stream start events) (hclean : ¬ Clean 0 start events bytes) :
    ∃ ts s, (listening isValid start events).Run ts s ∧ ts.map Transition.label = [bytes] ∧
      ¬ ReadsExactly start events s := by
  have hstep : (listening isValid start events).step {} bytes = some _ := if_pos h
  refine ⟨_, _, (Machine.Run.init rfl).step hstep, rfl, fun hreads => hclean ?_⟩
  have hall := ArrivesClean.of_readsExactly hvalid hwf hstep (caught_init hwf) hreads
  unfold ArrivesClean at hall
  rwa [complete_nil] at hall

/-- A payload with an `id: ` in it is not read, nor is one of which the body ends within the `id: ` behind
it. -/
theorem exists_not_readsExactly : ∃ isValid : List Char → Bool, (∀ t, isValid t = true ↔ IsText t) ∧
    (∃ ts s, (listening isValid [] [⟨['[', quote, 'i', 'd', ':', ' ', quote, ']'], ['\n', '\n']⟩]).Run ts s ∧
      ts.map Transition.label =
        [['d', 'a', 't', 'a', ':', ' ', '[', quote, 'i', 'd', ':', ' ', quote, ']', '\n', '\n']] ∧
      ¬ ReadsExactly [] [⟨['[', quote, 'i', 'd', ':', ' ', quote, ']'], ['\n', '\n']⟩] s) ∧
    ∃ ts s, (listening isValid [] [⟨['[', ']'], ['\n', '\n', 'i', 'd', ':', ' ', '2', '\n']⟩]).Run ts s ∧
      ts.map Transition.label = [['d', 'a', 't', 'a', ':', ' ', '[', ']', '\n', '\n', 'i']] ∧
      ¬ ReadsExactly [] [⟨['[', ']'], ['\n', '\n', 'i', 'd', ':', ' ', '2', '\n']⟩] s := by
  classical
  have hvalid : ∀ t, decide (IsText t) = true ↔ IsText t := fun t => decide_eq_true_iff
  refine ⟨_, hvalid, ?_, ?_⟩
  · refine exists_not_readsExactly_of_first hvalid ⟨by decide, fun e he => ?_, fun e he => ?_⟩ (by decide) ?_
    · obtain rfl := List.mem_singleton.mp he
      have hstring : IsString [quote, 'i', 'd', ':', ' ', quote] := by
        refine ⟨[['i'], ['d'], [':'], [' ']], fun c hc => .inl ?_, rfl⟩
        simp only [List.mem_cons, List.not_mem_nil, or_false] at hc
        rcases hc with rfl | rfl | rfl | rfl <;> exact ⟨_, by decide, by decide, by decide, rfl⟩
      have hblank : IsBlank [] := by simp [IsBlank]
      exact ⟨.array (.element hblank (.string hstring) hblank), rfl⟩
    · obtain rfl := List.mem_singleton.mp he
      decide
    · intro hclean
      exact ((clean_cons.mp hclean).1 rfl).1 (by decide)
  · refine exists_not_readsExactly_of_first hvalid ⟨by decide, fun e he => ?_, fun e he => ?_⟩ (by decide) ?_
    · obtain rfl := List.mem_singleton.mp he
      exact ⟨.emptyArray (t := []) (by simp [IsBlank]), rfl⟩
    · obtain rfl := List.mem_singleton.mp he
      decide
    · intro hclean
      have hreads : ReadsAt ['[', ']'] ['\n', '\n', 'i'] := (clean_cons.mp hclean).1 rfl
      obtain ⟨-, b, hb, hrest | ⟨more, hrest⟩⟩ := hreads
      · have hblank := hb 'i' (by rw [← hrest]; simp)
        simp at hblank
      · have hlength := congrArg List.length hrest
        simp [idMark] at hlength
        omega

end HueStream.Session
