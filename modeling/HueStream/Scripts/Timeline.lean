import HueStream.Lib.Run
import Mathlib.Algebra.Group.Int.Defs
import Mathlib.Order.Lattice

/-! # The timeline

`Timeline` counts the time of a script from the real time and from a position that `Now` and
`SetPosition` store. A run of it has, beside the calls, the passing of real time, and keeps what the
listener expects: the position reached without the compensation (`played`) at some moment (`since`), and
the last position that `Now` has given (`last`).

* `now_faithful_iff`: `Now` gives what is expected after every call of a run exactly when `Resume` is
  called only where the stored position can stand for the one reached. -/

namespace HueStream.Scripts

open HueStream.Lib

inductive TimelineState
  | started | paused | resumed | stopped | ended
deriving DecidableEq

/-- `Timeline`; times and positions are of type `int64_t`. -/
structure Timeline where
  startTime : ℤ := 0
  position : ℤ := 0
  running : Bool := false
  latencyCompensation : ℤ
  length : ℤ := 2 ^ 63 - 1
  /-- What the handler and the callback have been told. -/
  states : List TimelineState := []

namespace Timeline

variable (t : Timeline) (realNow : ℤ)

def onTimelineStateChanged (s : TimelineState) : Timeline := { t with states := t.states ++ [s] }

def setLength (length : ℤ) : Timeline := { t with length }

def setPosition (position : ℤ) : Timeline :=
  { t with startTime := realNow - position - t.latencyCompensation, position }

def start : Timeline :=
  { t.setPosition realNow 0 with running := true }.onTimelineStateChanged .started

def pause : Timeline := { t with running := false }.onTimelineStateChanged .paused

def resume : Timeline :=
  { t.setPosition realNow t.position with running := true }.onTimelineStateChanged .resumed

def stop : Timeline :=
  ({ t with running := false }.setPosition realNow 0).onTimelineStateChanged .stopped

/-- `End`. -/
def endRun : Timeline := { t with running := false }.onTimelineStateChanged .ended

def updatePosition : Timeline :=
  let position := realNow - t.startTime
  if t.length < position then { t.endRun with position := t.length } else { t with position }

/-- `Now`; it returns the position of the timeline it leaves. -/
def now : Timeline := if t.running then t.updatePosition realNow else t

end Timeline

/-! ### Runs -/

/-- A timeline, the real time, and what the listener expects. -/
structure Playback where
  clock : ℤ
  timeline : Timeline
  /-- The position reached, without the compensation, at `since`. -/
  played : ℤ := 0
  since : ℤ
  /-- What `Now` has given last since the last `Start`, `Stop` or `SetPosition`. -/
  last : Option ℤ := none

/-- The real time goes on, or a call. -/
inductive PlaybackLabel
  | tick (milliseconds : ℕ)
  | start | pause | resume | stop
  | setPosition (position : ℤ)
  | now

namespace Playback

variable (s : Playback)

/-- The position reached, without the compensation. -/
def reached : ℤ := if s.timeline.running then s.played + (s.clock - s.since) else s.played

/-- What `Now` gives. -/
def reading : ℤ := (s.timeline.now s.clock).position

/-- The expectation begins anew at a position. -/
def beginAt (position : ℤ) (timeline : Timeline) : Playback :=
  { s with timeline, played := position, since := s.clock, last := none }

/-- The expectation goes on from the position reached. -/
def goOn (timeline : Timeline) : Playback :=
  { s with timeline, played := s.reached, since := s.clock }

def step : PlaybackLabel → Playback
  | .tick milliseconds => { s with clock := s.clock + milliseconds }
  | .start => s.beginAt 0 (s.timeline.start s.clock)
  | .pause => s.goOn s.timeline.pause
  | .resume => s.goOn (s.timeline.resume s.clock)
  | .stop => s.beginAt 0 (s.timeline.stop s.clock)
  | .setPosition position => s.beginAt position (s.timeline.setPosition s.clock position)
  | .now =>
    let timeline := s.timeline.now s.clock
    -- A run that `Now` ends has reached the end of the timeline.
    if s.timeline.running && !timeline.running then
      { s with timeline, played := timeline.position, since := s.clock, last := some timeline.position }
    else { s with timeline, last := some timeline.position }

/-- **What is expected of `Now`**: while the timeline runs it gives the position reached, with the
compensation counted once, up to the length; and never less than it has given before. -/
def Faithful : Prop :=
  (s.timeline.running = true →
    s.reading = min s.timeline.length (s.reached + s.timeline.latencyCompensation)) ∧
  ∀ v ∈ s.last, v ≤ s.reading

/-- The stored position can stand for the one reached: both with the compensation are the same up to the
length, and `Now`, if it has been called, falls back behind the stored one neither by the compensation nor
at the length. -/
def ResumesWell : Prop :=
  min s.timeline.length (s.timeline.position + s.timeline.latencyCompensation) =
    min s.timeline.length (s.reached + s.timeline.latencyCompensation) ∧
  (s.last = none ∨
    s.timeline.position ≤ s.timeline.length ∧ 0 ≤ s.timeline.latencyCompensation)

instance : Decidable s.Faithful := by unfold Faithful; infer_instance

instance : Decidable s.ResumesWell := by unfold ResumesWell; infer_instance

/-- `Resume` is called only where the stored position can stand for the one reached. -/
def keepsTime : PlaybackLabel → Prop
  | .resume => s.ResumesWell
  | _ => True

instance (l : PlaybackLabel) : Decidable (s.keepsTime l) :=
  match l with
  | .resume => inferInstanceAs (Decidable s.ResumesWell)
  | .tick _ | .start | .pause | .stop | .setPosition _ | .now => inferInstanceAs (Decidable True)

end Playback

/-- A timeline of any length and compensation and the calls it gets. -/
def playback : Machine Playback PlaybackLabel where
  Init s := ∃ clock latencyCompensation length,
    s = { clock, timeline := Timeline.setLength { latencyCompensation } length, since := clock }
  step s l := some (s.step l)

/-! ### The invariant -/

variable {s s' : Playback} {l : PlaybackLabel} {ts : List (Transition Playback PlaybackLabel)}

theorem Timeline.now_position_of_running {t : Timeline} {realNow : ℤ} (h : t.running = true) :
    (t.now realNow).position = min t.length (realNow - t.startTime) := by
  rw [Timeline.now, if_pos h, Timeline.updatePosition]
  split_ifs with hlt
  · exact (min_eq_left hlt.le).symm
  · exact (min_eq_right (not_lt.mp hlt)).symm

theorem Timeline.now_of_not_running {t : Timeline} {realNow : ℤ} (h : t.running = false) :
    t.now realNow = t := by
  rw [Timeline.now, if_neg (by simp [h])]

/-- What a call of `Now` leaves of a running timeline. -/
theorem Timeline.now_cases {t : Timeline} (realNow : ℤ) (h : t.running = true) :
    (t.length < realNow - t.startTime ∧ t.now realNow = { t.endRun with position := t.length }) ∨
    (realNow - t.startTime ≤ t.length ∧
      t.now realNow = { t with position := realNow - t.startTime }) := by
  rw [Timeline.now, if_pos h, Timeline.updatePosition]
  split_ifs with hlt
  · exact .inl ⟨hlt, rfl⟩
  · exact .inr ⟨not_lt.mp hlt, rfl⟩

/-- The running timeline counts from the position reached, or both are past the end; and what `Now` has
given last is stored. -/
structure Playback.Invariant (s : Playback) : Prop where
  counts : s.timeline.running = true →
    s.clock - s.timeline.startTime = s.reached + s.timeline.latencyCompensation ∨
    s.timeline.length ≤ s.clock - s.timeline.startTime ∧
      s.timeline.length ≤ s.reached + s.timeline.latencyCompensation
  stored : ∀ v ∈ s.last, v = s.timeline.position
  ahead : s.timeline.running = true → ∀ v ∈ s.last,
    v ≤ min s.timeline.length (s.clock - s.timeline.startTime)

theorem Playback.Invariant.faithful (h : s.Invariant) : s.Faithful := by
  unfold Playback.Faithful Playback.reading
  refine ⟨fun hrun => ?_, fun v hv => ?_⟩
  · rw [Timeline.now_position_of_running hrun]
    rcases h.counts hrun with hcounts | ⟨hclock, hreached⟩
    · rw [hcounts]
    · rw [min_eq_left hclock, min_eq_left hreached]
  · cases hrun : s.timeline.running with
    | false =>
      rw [Timeline.now_of_not_running hrun]
      exact (h.stored v hv).le
    | true =>
      rw [Timeline.now_position_of_running hrun]
      exact h.ahead hrun v hv

theorem Playback.reached_of_running (h : s.timeline.running = true) :
    s.reached = s.played + (s.clock - s.since) := if_pos h

theorem Playback.reached_of_not_running (h : s.timeline.running = false) : s.reached = s.played :=
  if_neg (by simp [h])

/-- A timeline that is set to a position, and the expectation with it. -/
theorem Playback.Invariant.beginAt {position : ℤ} {timeline : Timeline}
    (hstart : timeline.startTime = s.clock - position - timeline.latencyCompensation) :
    (s.beginAt position timeline).Invariant := by
  refine ⟨fun hrun => .inl ?_, ?_, ?_⟩
  · rw [reached_of_running hrun]
    simp only [Playback.beginAt]
    omega
  · intro v hv
    cases hv
  · intro _ v hv
    cases hv

theorem Playback.Invariant.tick (h : s.Invariant) (milliseconds : ℕ) :
    (s.step (.tick milliseconds)).Invariant := by
  refine ⟨fun (hrun : s.timeline.running = true) => ?_, h.stored,
    fun (hrun : s.timeline.running = true) v hv => ?_⟩
  · have hcounts := h.counts hrun
    rw [reached_of_running hrun] at hcounts
    rw [reached_of_running (s := s.step (.tick milliseconds)) hrun]
    simp only [Playback.step]
    omega
  · have hv := h.ahead hrun v hv
    simp only [Playback.step]
    omega

theorem Playback.Invariant.pause (h : s.Invariant) : (s.step .pause).Invariant :=
  ⟨fun hrun => (by cases hrun), h.stored, fun hrun => (by cases hrun)⟩

theorem Playback.Invariant.resume (h : s.Invariant) (hwell : s.ResumesWell) :
    (s.step .resume).Invariant := by
  obtain ⟨hsame, hlast⟩ := hwell
  refine ⟨fun hrun => ?_, h.stored, fun hrun v hv => ?_⟩
  · rw [reached_of_running hrun]
    simp only [Playback.step, goOn, Timeline.resume, Timeline.setPosition, Timeline.onTimelineStateChanged]
    omega
  · obtain rfl := h.stored v hv
    obtain ⟨hposition, hlatency⟩ : s.timeline.position ≤ s.timeline.length ∧
        0 ≤ s.timeline.latencyCompensation := by
      rcases hlast with hlast | hlast
      · rw [show s.last = some s.timeline.position from hv] at hlast
        cases hlast
      · exact hlast
    simp only [Playback.step, goOn, Timeline.resume, Timeline.setPosition, Timeline.onTimelineStateChanged]
    omega

theorem Playback.Invariant.now (h : s.Invariant) : (s.step .now).Invariant := by
  cases hrun : s.timeline.running with
  | false =>
    have hstep : s.step .now = { s with last := some s.timeline.position } := by
      simp [Playback.step, Timeline.now_of_not_running hrun, hrun]
    rw [hstep]
    refine ⟨fun hrun' => ?_, ?_, fun hrun' => ?_⟩
    · rw [hrun] at hrun'
      cases hrun'
    · simp
    · rw [hrun] at hrun'
      cases hrun'
  | true =>
    rcases Timeline.now_cases s.clock hrun with ⟨-, hnow⟩ | ⟨hle, hnow⟩
    · -- The end is reached: the timeline rests there.
      have hstep : s.step .now = { s with
          timeline := { s.timeline.endRun with position := s.timeline.length }
          played := s.timeline.length, since := s.clock, last := some s.timeline.length } := by
        simp [Playback.step, hnow, hrun, Timeline.endRun, Timeline.onTimelineStateChanged]
      rw [hstep]
      refine ⟨fun hrun' => (by cases hrun'), ?_, fun hrun' => (by cases hrun')⟩
      simp
    · have hstep : s.step .now = { s with
          timeline := { s.timeline with position := s.clock - s.timeline.startTime }
          last := some (s.clock - s.timeline.startTime) } := by
        simp [Playback.step, hnow, hrun]
      rw [hstep]
      refine ⟨h.counts, ?_, fun _ v hv => ?_⟩
      · simp
      · obtain rfl : s.clock - s.timeline.startTime = v := by simpa using hv
        exact le_min hle le_rfl

/-- A step that keeps the time keeps the invariant. -/
theorem Playback.Invariant.step (h : s.Invariant) (hkeeps : s.keepsTime l) :
    (s.step l).Invariant := by
  cases l with
  | tick milliseconds => exact h.tick milliseconds
  | start => exact .beginAt rfl
  | pause => exact h.pause
  | resume => exact h.resume hkeeps
  | stop => exact .beginAt rfl
  | setPosition position => exact .beginAt rfl
  | now => exact h.now

/-- After a `Resume` that is as expected the stored position could stand for the one reached. -/
theorem Playback.resumesWell_of_faithful (h : s.Invariant) (hfaithful : (s.step .resume).Faithful) :
    s.ResumesWell := by
  obtain ⟨hreading, hlast⟩ := hfaithful
  have hposition : (s.step .resume).reading =
      min s.timeline.length (s.timeline.position + s.timeline.latencyCompensation) := by
    rw [reading, Timeline.now_position_of_running rfl]
    simp only [Playback.step, goOn, Timeline.resume, Timeline.setPosition,
      Timeline.onTimelineStateChanged]
    congr 1
    omega
  have hreached : (s.step .resume).reached = s.reached := by
    rw [reached_of_running rfl]
    simp [Playback.step, goOn]
  refine ⟨?_, ?_⟩
  · rw [← hposition, hreading rfl, hreached]
    rfl
  · cases hv : s.last with
    | none => exact .inl rfl
    | some v =>
      have hstored := h.stored v hv
      have hle := hlast v hv
      rw [hposition] at hle
      right
      omega

/-- **`Now` gives what is expected** after every call exactly when `Resume` is called only where the
stored position can stand for the one reached. -/
theorem now_faithful_iff (h : playback.Run ts s) :
    (∀ t ∈ ts, t.after.Faithful) ↔ ∀ t ∈ ts, t.before.keepsTime t.label := by
  refine h.forall_after_iff (I := Playback.Invariant) (G := Playback.Faithful)
    (C := Playback.keepsTime) ?_ (fun s hs => hs.faithful) ?_ ?_
  · rintro s ⟨clock, latencyCompensation, length, rfl⟩
    exact ⟨fun hrun => (by cases hrun), fun v hv => (by cases hv), fun hrun => (by cases hrun)⟩
  · intro s l s' hstep hkeeps hs
    obtain rfl := Option.some.inj hstep
    exact hs.step hkeeps
  · intro s l s' hstep hkeeps hs hfaithful
    obtain rfl := Option.some.inj hstep
    cases l with
    | resume => exact hkeeps (Playback.resumesWell_of_faithful hs hfaithful)
    | _ => exact hkeeps trivial

/-- Without compensation and with `Now` called right before each pause, 100 ms after the resumption of a
run of 200 ms `Now` gives 300. -/
theorem now_faithful_iff_resumed : ∃ ts s, playback.Run ts s ∧ s.timeline.running = true ∧
    s.reading = 300 ∧ ∀ t ∈ ts, t.after.Faithful := by
  obtain ⟨ts, s, hrun, h⟩ := Machine.exists_run (M := playback)
    (s := { clock := 5000, timeline := Timeline.setLength ⟨0, 0, false, 0, 0, []⟩ 1000, since := 5000 })
    [.start, .tick 200, .now, .pause, .tick 150, .resume, .tick 100]
    (fun ts s => decide (s.timeline.running = true ∧ s.reading = 300) &&
      ts.all fun t => decide (t.before.keepsTime t.label)) ⟨5000, 0, 1000, rfl⟩ (by decide +kernel)
  simp only [Bool.and_eq_true, decide_eq_true_eq, List.all_eq_true] at h
  exact ⟨ts, s, hrun, h.1.1, h.1.2, (now_faithful_iff hrun).mpr h.2⟩

/-- A run of 100 ms is paused without a call of `Now` and resumed: `Now` gives 0. With a compensation of
50 ms and a call of `Now` right before each of two pauses, it gives 250 after 100 ms. -/
theorem exists_time_lost :
    (∃ ts s, playback.Run ts s ∧ s.timeline.latencyCompensation = 0 ∧ s.timeline.length = 1000 ∧
      s.timeline.running = true ∧ s.reached = 100 ∧ s.reading = 0 ∧ ¬ s.Faithful) ∧
    ∃ ts s, playback.Run ts s ∧ s.timeline.latencyCompensation = 50 ∧ s.timeline.length = 1000 ∧
      s.timeline.running = true ∧ s.reached = 100 ∧ s.reading = 250 ∧ ¬ s.Faithful := by
  constructor
  · obtain ⟨ts, s, hrun, h⟩ := Machine.exists_run (M := playback)
      (s := { clock := 0, timeline := Timeline.setLength ⟨0, 0, false, 0, 0, []⟩ 1000, since := 0 })
      [.start, .tick 100, .pause, .resume]
      (fun _ s => decide (s.timeline.latencyCompensation = 0 ∧ s.timeline.length = 1000 ∧
        s.timeline.running = true ∧ s.reached = 100 ∧ s.reading = 0 ∧ ¬ s.Faithful))
      ⟨0, 0, 1000, rfl⟩ (by decide +kernel)
    exact ⟨ts, s, hrun, of_decide_eq_true h⟩
  · obtain ⟨ts, s, hrun, h⟩ := Machine.exists_run (M := playback)
      (s := { clock := 0, timeline := Timeline.setLength ⟨0, 0, false, 50, 0, []⟩ 1000, since := 0 })
      [.start, .tick 50, .now, .pause, .resume, .tick 50, .now, .pause, .resume]
      (fun _ s => decide (s.timeline.latencyCompensation = 50 ∧ s.timeline.length = 1000 ∧
        s.timeline.running = true ∧ s.reached = 100 ∧ s.reading = 250 ∧ ¬ s.Faithful))
      ⟨0, 50, 1000, rfl⟩ (by decide +kernel)
    exact ⟨ts, s, hrun, of_decide_eq_true h⟩

end HueStream.Scripts
