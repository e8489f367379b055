import HueStream.Render.Thread

/-! # Stopping the stream

`Stop(bridge)` joins the render thread while it holds the lock. The thread comes to its end if it is at
its loop condition by then, and waits for ever if it has passed it and is about to take the lock for
another frame. -/

namespace HueStream.Render

open HueStream.Data HueStream.Lib

variable {s s' : Stream} {l : Label} {after : After} {ts : List (Transition Stream Label)}

/-- The render thread can run to its end and the caller can leave `Stop`. -/
inductive Returns : Stream → Prop
  | done {s : Stream} (hout : s.caller.inStop = false) (hthread : s.renderThread = none) : Returns s
  | thread {s s' : Stream} (h : s.step .thread = some s') (hs : Returns s') : Returns s
  | caller {s s' : Stream} (answer : Bool) (h : s.step (.caller answer) = some s')
      (hs : Returns s') : Returns s

/-- The steps that do not cross: `Stop` takes the lock while the render thread is not about to, and
while it holds the lock of a running stream the thread does not go on to another frame. -/
def keepsClear (s : Stream) : Label → Bool
  | .caller _ => match s.caller with
    | .stopLock _ => !s.running || s.renderThread ≠ some .lock
    | _ => true
  | .thread => match s.caller with
    | .stopTest _ | .stopClear _ => !s.running || s.renderThread ≠ some .test
    | _ => true
  | .call _ => true

/-! ### The invariant -/

/-- The caller holds the lock from its taking on. -/
def CallerPoint.holdsLock : CallerPoint → Bool
  | .stopTest _ | .stopClear _ | .stopJoin _ | .stopRelease _ => true
  | _ => false

/-- The render thread holds the lock for a frame. -/
def ThreadPoint.holdsLock : ThreadPoint → Bool
  | .testLocked | .send | .release => true
  | _ => false

/-- A render thread that is there serves a running stream. -/
def Serves (s : Stream) : Prop :=
  ∀ p, s.renderThread = some p → s.running = true ∧ p ≠ .ended

/-- There is no render thread, or it is at the loop condition of a running stream. -/
def Waits (s : Stream) : Prop :=
  s.renderThread = none ∨ s.renderThread = some .test ∧ s.running = true

/-- What holds at each place of the caller. -/
def AtPoint (s : Stream) : Prop :=
  match s.caller with
  | .ask threaded bridge =>
    Serves s ∧ (threaded = true → s.isStreamingToBridgeAndGroup bridge = false)
  | .ready _ _ | .activate _ _ | .setRunning _ _ _ => s.renderThread = none
  | .connect _ _ _ | .makeThread => s.renderThread = none ∧ s.running = true
  | .stopTest _ => Waits s
  | .stopClear _ => Waits s ∧ s.running = true
  | .stopJoin _ => s.running = false ∧ (s.renderThread = none ∨ s.renderThread = some .test ∨
      s.renderThread = some .ended)
  | .stopRelease _ => s.renderThread = none
  | _ => Serves s

/-- The lock is held by the party that is inside, and the caller's place fits the thread's. -/
structure Invariant (s : Stream) : Prop where
  caller : s.lock = some .caller ↔ s.caller.holdsLock = true
  thread : s.lock = some .thread ↔ s.renderThread.any ThreadPoint.holdsLock = true
  point : AtPoint s

theorem Invariant.lock_eq_none (h : Invariant s) (hcaller : s.caller.holdsLock = false)
    (hthread : s.renderThread.any ThreadPoint.holdsLock = false) : s.lock = none := by
  cases hlock : s.lock with
  | none => rfl
  | some party =>
    cases party with
    | caller =>
      rw [h.caller.mp hlock] at hcaller
      contradiction
    | thread =>
      rw [h.thread.mp hlock] at hthread
      contradiction

/-! ### Leaving -/

theorem returns_release (hcaller : s.caller = .stopRelease after) (hthread : s.renderThread = none) :
    Returns s := by
  have hstep : s.step (.caller false) = some ({ s with lock := none }.returned after) := by
    rw [Stream.step, Stream.callerStep, hcaller]
  refine .caller false hstep (.done ?_ hthread)
  unfold Stream.returned
  cases after <;> rfl

theorem returns_join (hcaller : s.caller = .stopJoin after)
    (hthread : s.renderThread = none ∨ s.renderThread = some .ended) : Returns s := by
  rcases hthread with hthread | hthread
  · have hstep : s.step (.caller false) = some { s with caller := .stopRelease after } := by
      rw [Stream.step, Stream.callerStep, hcaller]
      simp only [hthread]
    exact .caller false hstep (returns_release rfl hthread)
  · have hstep : s.step (.caller false) =
        some { s with renderThread := none, caller := .stopRelease after } := by
      rw [Stream.step, Stream.callerStep, hcaller]
      simp only [hthread]
    exact .caller false hstep (returns_release rfl rfl)

theorem returns_join_test (hcaller : s.caller = .stopJoin after) (hrunning : s.running = false)
    (hthread : s.renderThread = some .test) : Returns s := by
  have hstep : s.step .thread = some { s with renderThread := some .ended } := by
    rw [Stream.step, Stream.threadStep, hthread]
    simp only [hrunning, Bool.false_eq_true, if_false]
  exact .thread hstep (returns_join hcaller (.inr rfl))

theorem returns_clear (hcaller : s.caller = .stopClear after) (hwaits : Waits s) : Returns s := by
  have hstep : s.step (.caller false) = some { s with running := false, caller := .stopJoin after } := by
    rw [Stream.step, Stream.callerStep, hcaller]
  refine .caller false hstep ?_
  rcases hwaits with hnone | ⟨htest, -⟩
  · exact returns_join rfl (.inl hnone)
  · exact returns_join_test rfl rfl htest

theorem returns_test (hcaller : s.caller = .stopTest after) (hwaits : Waits s) : Returns s := by
  have hstep : s.step (.caller false) = some { s with
      caller := if s.running then .stopClear after else .stopRelease after } := by
    rw [Stream.step, Stream.callerStep, hcaller]
  refine .caller false hstep ?_
  by_cases hrunning : s.running = true
  · have hclear : (if s.running then CallerPoint.stopClear after else .stopRelease after) =
        .stopClear after := if_pos hrunning
    exact returns_clear hclear hwaits
  · have hrelease : (if s.running then CallerPoint.stopClear after else .stopRelease after) =
        .stopRelease after := if_neg hrunning
    have hthread : s.renderThread = none := hwaits.resolve_right fun htest => hrunning htest.2
    exact returns_release hrelease hthread

theorem returns_lock (hcaller : s.caller = .stopLock after) (hlock : s.lock = none)
    (hwaits : Waits s) : Returns s := by
  have hstep : s.step (.caller false) =
      some { s with lock := some .caller, caller := .stopTest after } := by
    rw [Stream.step, Stream.callerStep, hcaller]
    simp only [hlock, if_true]
  exact .caller false hstep (returns_test rfl hwaits)

/-- While the caller waits for the lock, the thread finishes its frame and comes to its loop
condition. -/
theorem returns_frame (hcaller : s.caller = .stopLock after) (hrunning : s.running = true) :
    (s.renderThread = some .release → Returns s) ∧ (s.renderThread = some .send → Returns s) ∧
      (s.renderThread = some .testLocked → Returns s) ∧
      (s.renderThread = some .lock → s.lock = none → Returns s) := by
  have hrelease : ∀ {s : Stream}, s.caller = .stopLock after → s.running = true →
      s.renderThread = some .release → Returns s := fun {s} hcaller hrunning hthread => by
    have hstep : s.step .thread = some { s with lock := none, renderThread := some .test } := by
      rw [Stream.step, Stream.threadStep, hthread]
    exact .thread hstep (returns_lock hcaller rfl (.inr ⟨rfl, hrunning⟩))
  have hsend : ∀ {s : Stream}, s.caller = .stopLock after → s.running = true →
      s.renderThread = some .send → Returns s := fun {s} hcaller hrunning hthread => by
    have hstep : s.step .thread = some { s with
        streamCounter := s.streamCounter + 1, renderThread := some .release } := by
      rw [Stream.step, Stream.threadStep, hthread]
    exact .thread hstep (hrelease hcaller hrunning rfl)
  have htest : ∀ {s : Stream}, s.caller = .stopLock after → s.running = true →
      s.renderThread = some .testLocked → Returns s := fun {s} hcaller hrunning hthread => by
    have hstep : s.step .thread = some { s with renderThread := some .send } := by
      rw [Stream.step, Stream.threadStep, hthread]
      simp only [hrunning, if_true]
    exact .thread hstep (hsend hcaller hrunning rfl)
  refine ⟨hrelease hcaller hrunning, hsend hcaller hrunning, htest hcaller hrunning,
    fun hthread hlock => ?_⟩
  have hstep : s.step .thread =
      some { s with lock := some .thread, renderThread := some .testLocked } := by
    rw [Stream.step, Stream.threadStep, hthread]
    simp only [hlock, if_true]
  exact .thread hstep (htest hcaller hrunning rfl)

/-- **From every state in order the caller can leave `Stop`.** -/
theorem Invariant.returns (h : Invariant s) (hstop : s.caller.inStop = true) : Returns s := by
  have hpoint := h.point
  unfold AtPoint at hpoint
  cases hcaller : s.caller with
  | stopLock after =>
    simp only [hcaller] at hpoint
    have hcallerOut : s.caller.holdsLock = false := by
      rw [hcaller]
      rfl
    cases hthread : s.renderThread with
    | none =>
      refine returns_lock hcaller (h.lock_eq_none hcallerOut ?_) (.inl hthread)
      rw [hthread]
      rfl
    | some p =>
      obtain ⟨hrunning, hnotEnded⟩ := hpoint p hthread
      obtain ⟨hrelease, hsend, htestLocked, hlock⟩ := returns_frame hcaller hrunning
      cases p with
      | test =>
        refine returns_lock hcaller (h.lock_eq_none hcallerOut ?_) (.inr ⟨hthread, hrunning⟩)
        rw [hthread]
        rfl
      | lock =>
        refine hlock hthread (h.lock_eq_none hcallerOut ?_)
        rw [hthread]
        rfl
      | testLocked => exact htestLocked hthread
      | send => exact hsend hthread
      | release => exact hrelease hthread
      | ended => contradiction
  | stopTest after =>
    simp only [hcaller] at hpoint
    exact returns_test hcaller hpoint
  | stopClear after =>
    simp only [hcaller] at hpoint
    exact returns_clear hcaller hpoint.1
  | stopJoin after =>
    simp only [hcaller] at hpoint
    rcases hpoint with ⟨hrunning, hnone | htest | hended⟩
    · exact returns_join hcaller (.inl hnone)
    · exact returns_join_test hcaller hrunning htest
    · exact returns_join hcaller (.inr hended)
  | stopRelease after =>
    simp only [hcaller] at hpoint
    exact returns_release hcaller hpoint
  | _ => simp [hcaller, CallerPoint.inStop] at hstop

/-! ### Steps -/

theorem serves_of_none (h : s.renderThread = none) : Serves s := by
  intro p hp
  rw [h] at hp
  contradiction

theorem Serves.renderThread_eq_none (h : Serves s) (hrunning : s.running = false) :
    s.renderThread = none := by
  cases hthread : s.renderThread with
  | none => rfl
  | some p =>
    rw [(h p hthread).1] at hrunning
    contradiction

/-- Where the caller can be while there is a render thread: at a place where the thread serves the
stream, in `Stop` with the lock and the thread at its loop condition, or at the join. -/
theorem AtPoint.of_thread {p : ThreadPoint} (h : AtPoint s) (hthread : s.renderThread = some p) :
    (s.running = true ∧ p ≠ .ended ∧ ∀ q lock streamCounter, q ≠ .ended →
      AtPoint { s with renderThread := some q, lock, streamCounter }) ∨
    p = .test ∧ keepsClear s .thread = false ∨
    ∃ after, s.caller = .stopJoin after ∧ s.running = false ∧ (p = .test ∨ p = .ended) := by
  unfold AtPoint at h
  cases hcaller : s.caller with
  | ready | activate | setRunning | stopRelease =>
    simp only [hcaller, hthread] at h
    contradiction
  | connect | makeThread =>
    simp only [hcaller, hthread] at h
    exact absurd h.1 (by simp)
  | stopTest after =>
    simp only [hcaller] at h
    rcases h with hnone | ⟨htest, hrunning⟩
    · rw [hthread] at hnone
      contradiction
    · obtain rfl : p = .test := Option.some.inj (hthread.symm.trans htest)
      exact .inr (.inl ⟨rfl, by simp [keepsClear, hcaller, hrunning, hthread]⟩)
  | stopClear after =>
    simp only [hcaller] at h
    rcases h with ⟨hnone | ⟨htest, -⟩, hrunning⟩
    · rw [hthread] at hnone
      contradiction
    · obtain rfl : p = .test := Option.some.inj (hthread.symm.trans htest)
      exact .inr (.inl ⟨rfl, by simp [keepsClear, hcaller, hrunning, hthread]⟩)
  | stopJoin after =>
    simp only [hcaller, hthread] at h
    refine .inr (.inr ⟨after, rfl, h.1, ?_⟩)
    simpa using h.2
  | ask threaded bridge =>
    simp only [hcaller] at h
    obtain ⟨hrunning, hnotEnded⟩ := h.1 p hthread
    refine .inl ⟨hrunning, hnotEnded, fun q lock streamCounter hq => ?_⟩
    refine ⟨fun q' hq' => ?_, h.2⟩
    obtain rfl : q = q' := Option.some.inj hq'
    exact ⟨hrunning, hq⟩
  | _ =>
    simp only [hcaller] at h
    obtain ⟨hrunning, hnotEnded⟩ := h p hthread
    refine .inl ⟨hrunning, hnotEnded, fun q lock streamCounter hq => ?_⟩
    intro q' hq'
    obtain rfl : q = q' := Option.some.inj hq'
    exact ⟨hrunning, hq⟩

/-- A step of the render thread. -/
theorem Invariant.threadStep (h : Invariant s) (hkeeps : keepsClear s .thread = true)
    (hstep : s.threadStep = some s') : Invariant s' := by
  have hcallerLock := h.caller
  have hthreadLock := h.thread
  unfold Stream.threadStep at hstep
  cases hthread : s.renderThread with
  | none =>
    simp only [hthread] at hstep
    contradiction
  | some p =>
    simp only [hthread, Option.any_some] at hstep hthreadLock
    rcases h.point.of_thread hthread with
      ⟨hrunning, hnotEnded, hpoint⟩ | ⟨-, hcrosses⟩ | ⟨after, hcaller, hrunning, rfl | rfl⟩
    · cases p with
      | test =>
        simp only [if_pos hrunning] at hstep
        obtain rfl := Option.some.inj hstep
        exact ⟨hcallerLock, hthreadLock, hpoint .lock _ _ (by decide)⟩
      | lock =>
        split_ifs at hstep with hlock
        obtain rfl := Option.some.inj hstep
        refine ⟨?_, ?_, hpoint .testLocked _ _ (by decide)⟩
        · rw [hlock] at hcallerLock
          simpa using hcallerLock
        · simp [ThreadPoint.holdsLock]
      | testLocked =>
        simp only [if_pos hrunning] at hstep
        obtain rfl := Option.some.inj hstep
        exact ⟨hcallerLock, hthreadLock, hpoint .send _ _ (by decide)⟩
      | send =>
        obtain rfl := Option.some.inj hstep
        exact ⟨hcallerLock, hthreadLock, hpoint .release _ _ (by decide)⟩
      | release =>
        obtain rfl := Option.some.inj hstep
        refine ⟨?_, ?_, hpoint .test _ _ (by decide)⟩
        · rw [hthreadLock.mpr rfl] at hcallerLock
          simpa using hcallerLock
        · simp [ThreadPoint.holdsLock]
      | ended => contradiction
    · rw [hkeeps] at hcrosses
      contradiction
    · rw [if_neg (by simp [hrunning])] at hstep
      obtain rfl := Option.some.inj hstep
      refine ⟨hcallerLock, hthreadLock, ?_⟩
      simp only [AtPoint, hcaller]
      exact ⟨hrunning, by simp⟩
    · contradiction

/-- The end of `Stop`. -/
theorem atPoint_returned (h : s.renderThread = none) (after : After) : AtPoint (s.returned after) := by
  unfold Stream.returned AtPoint
  cases after with
  | start threaded bridge => exact h
  | _ => exact serves_of_none h

/-- A step of the caller. -/
theorem Invariant.callerStep {answer : Bool} (h : Invariant s)
    (hkeeps : keepsClear s (.caller answer) = true) (hstep : s.callerStep answer = some s') :
    Invariant s' := by
  have hpoint := h.point
  have hcallerLock := h.caller
  have hthreadLock := h.thread
  unfold AtPoint at hpoint
  unfold Stream.callerStep at hstep
  cases hcaller : s.caller with
  | idle =>
    simp only [hcaller] at hstep
    contradiction
  | askThreaded bridge =>
    simp only [hcaller] at hstep hpoint hcallerLock
    split_ifs at hstep with hstreaming
    · obtain rfl := Option.some.inj hstep
      exact ⟨hcallerLock, hthreadLock, hpoint⟩
    · obtain rfl := Option.some.inj hstep
      exact ⟨hcallerLock, hthreadLock, hpoint, fun _ => eq_false_of_ne_true hstreaming⟩
  | ask threaded bridge =>
    simp only [hcaller] at hstep hpoint hcallerLock
    split_ifs at hstep with hstreaming
    · obtain rfl := Option.some.inj hstep
      have hthreaded : threaded = false := by
        by_contra hthreaded
        have hnot := hpoint.2 (by simpa using hthreaded)
        rw [hstreaming] at hnot
        contradiction
      subst hthreaded
      exact ⟨hcallerLock, hthreadLock, hpoint.1⟩
    · obtain rfl := Option.some.inj hstep
      exact ⟨hcallerLock, hthreadLock, hpoint.1⟩
  | testRunning threaded bridge =>
    simp only [hcaller] at hstep hpoint hcallerLock
    split_ifs at hstep with hrunning
    · obtain rfl := Option.some.inj hstep
      exact ⟨hcallerLock, hthreadLock, hpoint⟩
    · obtain rfl := Option.some.inj hstep
      have hnone : s.renderThread = none := Serves.renderThread_eq_none hpoint (by simpa using hrunning)
      exact ⟨hcallerLock, hthreadLock, hnone⟩
  | ready threaded bridge =>
    simp only [hcaller] at hstep hpoint hcallerLock
    split_ifs at hstep
    · obtain rfl := Option.some.inj hstep
      exact ⟨hcallerLock, hthreadLock, hpoint⟩
    · obtain rfl := Option.some.inj hstep
      exact ⟨hcallerLock, hthreadLock, serves_of_none hpoint⟩
  | activate threaded bridge =>
    simp only [hcaller] at hstep hpoint hcallerLock
    split_ifs at hstep
    · obtain rfl := Option.some.inj hstep
      exact ⟨hcallerLock, hthreadLock, hpoint⟩
    · obtain rfl := Option.some.inj hstep
      exact ⟨hcallerLock, hthreadLock, serves_of_none hpoint⟩
  | setRunning threaded bridge connectAttempts =>
    simp only [hcaller] at hstep hpoint hcallerLock
    obtain rfl := Option.some.inj hstep
    exact ⟨hcallerLock, hthreadLock, hpoint, rfl⟩
  | connect threaded bridge connectAttempts =>
    simp only [hcaller] at hstep hpoint hcallerLock
    split_ifs at hstep
    · obtain rfl := Option.some.inj hstep
      cases threaded with
      | false => exact ⟨hcallerLock, hthreadLock, serves_of_none hpoint.1⟩
      | true => exact ⟨hcallerLock, hthreadLock, hpoint⟩
    · obtain rfl := Option.some.inj hstep
      exact ⟨hcallerLock, hthreadLock, hpoint.1⟩
    · obtain rfl := Option.some.inj hstep
      exact ⟨hcallerLock, hthreadLock, serves_of_none hpoint.1⟩
  | makeThread =>
    simp only [hcaller] at hstep hpoint hcallerLock
    obtain rfl := Option.some.inj hstep
    refine ⟨hcallerLock, ?_, fun p hp => ?_⟩
    · rw [hpoint.1] at hthreadLock
      exact hthreadLock
    · obtain rfl : .test = p := Option.some.inj hp
      exact ⟨hpoint.2, by decide⟩
  | stop after =>
    simp only [hcaller] at hstep hpoint hcallerLock
    split_ifs at hstep with hrunning
    · obtain rfl := Option.some.inj hstep
      exact ⟨hcallerLock, hthreadLock, hpoint⟩
    · obtain rfl := Option.some.inj hstep
      have hnone : s.renderThread = none := Serves.renderThread_eq_none hpoint (by simpa using hrunning)
      refine ⟨?_, hthreadLock, atPoint_returned hnone after⟩
      cases after <;> exact hcallerLock
  | stopLock after =>
    simp only [hcaller] at hstep hpoint hcallerLock
    split_ifs at hstep with hlock
    obtain rfl := Option.some.inj hstep
    have hout : s.renderThread.any ThreadPoint.holdsLock = false := by
      by_contra hholds
      rw [hthreadLock.mpr (by simpa using hholds)] at hlock
      contradiction
    refine ⟨by simp [CallerPoint.holdsLock], ?_, ?_⟩
    · show some Party.caller = some Party.thread ↔ s.renderThread.any ThreadPoint.holdsLock = true
      rw [hout]
      simp
    · -- the thread is not at its frame, and not about to take the lock
      cases hthread : s.renderThread with
      | none => exact .inl rfl
      | some p =>
        obtain ⟨hrunning, hnotEnded⟩ := hpoint p hthread
        cases p with
        | test => exact .inr ⟨rfl, hrunning⟩
        | lock => simp [keepsClear, hcaller, hrunning, hthread] at hkeeps
        | ended => contradiction
        | _ =>
          rw [hthread] at hout
          contradiction
  | stopTest after =>
    simp only [hcaller] at hstep hpoint hcallerLock
    obtain rfl := Option.some.inj hstep
    by_cases hrunning : s.running = true
    · rw [if_pos hrunning]
      exact ⟨hcallerLock, hthreadLock, hpoint, hrunning⟩
    · rw [if_neg hrunning]
      exact ⟨hcallerLock, hthreadLock, hpoint.resolve_right fun htest => hrunning htest.2⟩
  | stopClear after =>
    simp only [hcaller] at hstep hpoint hcallerLock
    obtain rfl := Option.some.inj hstep
    refine ⟨hcallerLock, hthreadLock, rfl, ?_⟩
    rcases hpoint.1 with hnone | ⟨htest, -⟩
    · exact .inl hnone
    · exact .inr (.inl htest)
  | stopJoin after =>
    simp only [hcaller] at hstep hpoint hcallerLock
    rcases hpoint.2 with hnone | htest | hended
    · simp only [hnone] at hstep
      obtain rfl := Option.some.inj hstep
      rw [hnone] at hthreadLock
      exact ⟨hcallerLock, hthreadLock, rfl⟩
    · simp only [htest] at hstep
      contradiction
    · simp only [hended] at hstep
      obtain rfl := Option.some.inj hstep
      rw [hended] at hthreadLock
      exact ⟨hcallerLock, hthreadLock, rfl⟩
  | stopRelease after =>
    simp only [hcaller] at hstep hpoint hcallerLock
    obtain rfl := Option.some.inj hstep
    refine ⟨?_, ?_, atPoint_returned hpoint after⟩
    · cases after <;> simp [Stream.returned, CallerPoint.holdsLock]
    · rw [hpoint] at hthreadLock
      simp [Stream.returned, hpoint]

/-- A call. -/
theorem Invariant.call {call : Call} (h : Invariant s) (hstep : s.call call = some s') :
    Invariant s' := by
  have hpoint := h.point
  have hcallerLock := h.caller
  unfold AtPoint at hpoint
  unfold Stream.call at hstep
  cases hcaller : s.caller with
  | idle =>
    simp only [hcaller] at hstep hpoint hcallerLock
    obtain rfl := Option.some.inj hstep
    cases call with
    | start bridge =>
      exact ⟨hcallerLock, h.thread, hpoint, fun hthreaded => by contradiction⟩
    | _ => exact ⟨hcallerLock, h.thread, hpoint⟩
  | _ =>
    simp only [hcaller] at hstep
    contradiction

theorem Invariant.step (h : Invariant s) (hkeeps : keepsClear s l = true)
    (hstep : s.step l = some s') : Invariant s' := by
  cases l with
  | call call => exact h.call hstep
  | caller answer => exact h.callerStep hkeeps hstep
  | thread => exact h.threadStep hkeeps hstep

/-- Outside `Stop` the caller waits for nobody. -/
theorem exists_step_of_not_inStop (h : s.caller.inStop = false) : ∃ l s', s.step l = some s' := by
  cases hcaller : s.caller with
  | idle => exact ⟨.call .stop, { s with caller := .stop .caller }, by
      rw [Stream.step, Stream.call, hcaller]⟩
  | stopLock | stopTest | stopClear | stopJoin | stopRelease =>
    rw [hcaller] at h
    contradiction
  | setRunning | makeThread =>
    refine ⟨.caller false, Option.isSome_iff_exists.mp ?_⟩
    rw [Stream.step, Stream.callerStep, hcaller]
    rfl
  | _ =>
    refine ⟨.caller false, Option.isSome_iff_exists.mp ?_⟩
    rw [Stream.step, Stream.callerStep, hcaller]
    dsimp only
    split_ifs <;> rfl

/-- **Whenever the caller is inside `Stop`, the render thread can run to its end and the join returns**,
and no state is stuck, in every run whose steps keep clear of each other. -/
theorem stop_returns (hrun : stream.Run ts s)
    (hkeeps : ∀ t ∈ ts, keepsClear t.before t.label = true) :
    (s.caller.inStop = true → Returns s) ∧ ∃ l s', s.step l = some s' := by
  have h : Invariant s := by
    refine hrun.invariant_of (C := fun s l => keepsClear s l = true) ?_ ?_ hkeeps
    · rintro s rfl
      exact ⟨by simp [CallerPoint.holdsLock], by simp, serves_of_none rfl⟩
    · exact fun s l s' hstep hkeep h => h.step hkeep hstep
  refine ⟨h.returns, ?_⟩
  cases hstop : s.caller.inStop with
  | false => exact exists_step_of_not_inStop hstop
  | true =>
    cases h.returns hstop with
    | done hout _ =>
      rw [hstop] at hout
      contradiction
    | thread hstep _ => exact ⟨_, _, hstep⟩
    | caller answer hstep _ => exact ⟨_, _, hstep⟩

/-- A stream that is stopped while its thread is at the loop condition. -/
theorem stop_returns_waiting : ∃ ts s, stream.Run ts s ∧ s.caller.inStop = true ∧
    s.renderThread = some .test ∧ (s.caller.inStop = true → Returns s) ∧
      ∃ l s', s.step l = some s' := by
  obtain ⟨ts, s, hrun, h⟩ := Machine.exists_run (M := stream) (s := {})
    (.call (.startWithRenderThread {}) :: List.replicate 8 (.caller true) ++
      [.thread, .thread, .thread, .thread, .thread, .call .stopBridge, .caller true, .caller true])
    (fun ts s => decide (s.caller.inStop = true ∧ s.renderThread = some .test) &&
      ts.all fun t => keepsClear t.before t.label) rfl (by decide)
  rw [Bool.and_eq_true, decide_eq_true_eq, List.all_eq_true] at h
  exact ⟨ts, s, hrun, h.1.1, h.1.2, stop_returns hrun h.2⟩

/-- The thread has tested `_running` and is about to take the lock when `Stop` takes it: nobody can
take another step. -/
theorem exists_deadlock : ∃ ts s, stream.Run ts s ∧ s.caller.inStop = true ∧ ∀ l, s.step l = none := by
  obtain ⟨ts, s, hrun, h⟩ := Machine.exists_run (M := stream) (s := {})
    (.call (.startWithRenderThread {}) :: List.replicate 8 (.caller true) ++
      [.thread, .call .stopBridge, .caller true, .caller true, .caller true])
    (fun _ s => s.caller.inStop && (s.threadStep).isNone && (s.callerStep true).isNone &&
      (s.callerStep false).isNone) rfl (by decide)
  simp only [Bool.and_eq_true, Option.isNone_iff_eq_none] at h
  obtain ⟨⟨⟨hstop, hthread⟩, htrue⟩, hfalse⟩ := h
  refine ⟨ts, s, hrun, hstop, fun l => ?_⟩
  cases l with
  | call call =>
    show s.call call = none
    unfold Stream.call
    cases hcaller : s.caller with
    | idle =>
      rw [hcaller] at hstop
      contradiction
    | _ => rfl
  | caller answer => cases answer with
    | false => exact hfalse
    | true => exact htrue
  | thread => exact hthread

end HueStream.Render
