import HueStream.Data.Bridge
import HueStream.Lib.Run

/-! # A stream and its render thread

Two parties share `_running`, `_lock` and the thread object: the caller, who runs one function of
`Stream` after another, and the render thread. A step is one test or write of `_running`, one taking or
release of the lock, one frame, the join, or one answer of the bridge. The sessions on the bridge and
the clock are left out: no one waits for them. -/

namespace HueStream.Render

open HueStream.Data HueStream.Lib

/-- Where `Stop` returns to. -/
inductive After
  | caller
  /-- The first call in `Start`, of `StartWithRenderThread` or not. -/
  | start (threaded : Bool) (bridge : Bridge)
  /-- The end of `StartStreamingSession` that has not connected. -/
  | failed

/-- Where the caller is. -/
inductive CallerPoint
  | idle
  /-- `IsStreamingToBridgeAndGroup` in `StartWithRenderThread`. -/
  | askThreaded (bridge : Bridge)
  /-- `IsStreamingToBridgeAndGroup` in `Start`. -/
  | ask (threaded : Bool) (bridge : Bridge)
  /-- `if (_running)` in `Start`. -/
  | testRunning (threaded : Bool) (bridge : Bridge)
  /-- `IsReadyToStream`. -/
  | ready (threaded : Bool) (bridge : Bridge)
  /-- `StartStream` of the stream starter. -/
  | activate (threaded : Bool) (bridge : Bridge)
  /-- `_running = true`. -/
  | setRunning (threaded : Bool) (bridge : Bridge) (connectAttempts : ℕ)
  /-- `Connect`. -/
  | connect (threaded : Bool) (bridge : Bridge) (connectAttempts : ℕ)
  /-- The thread is made. -/
  | makeThread
  /-- `Stop()`. -/
  | stop (after : After)
  /-- `Stop(bridge)`: the lock is taken. -/
  | stopLock (after : After)
  /-- `if (!_running)`. -/
  | stopTest (after : After)
  /-- `_running = false`. -/
  | stopClear (after : After)
  /-- The join. -/
  | stopJoin (after : After)
  /-- The end, where the lock is released. -/
  | stopRelease (after : After)

/-- The caller is inside `Stop(bridge)`. -/
def CallerPoint.inStop : CallerPoint → Bool
  | .stopLock _ | .stopTest _ | .stopClear _ | .stopJoin _ | .stopRelease _ => true
  | _ => false

/-- Where the render thread is. -/
inductive ThreadPoint
  /-- `while (_running)`. -/
  | test
  /-- `RenderSingleFrame`: the lock is taken. -/
  | lock
  /-- `if (!_running)`. -/
  | testLocked
  | send
  | release
  | ended
deriving DecidableEq

inductive Party
  | caller | thread
deriving DecidableEq

/-- `Stream`; a thread object that is there has a place in the code. -/
structure Stream where
  running : Bool := false
  /-- Who holds `_lock`. -/
  lock : Option Party := none
  activeBridgeCopy : Option Bridge := none
  renderThread : Option ThreadPoint := none
  streamCounter : ℕ := 0
  caller : CallerPoint := .idle

/-- What the caller can call. -/
inductive Call
  | start (bridge : Bridge)
  | startWithRenderThread (bridge : Bridge)
  | stop
  | stopBridge

/-- A call, or a step of one of the parties; `answer` is what the bridge answers if it is asked. -/
inductive Label
  | call (call : Call)
  | caller (answer : Bool)
  | thread

namespace Stream

variable (s : Stream)

/-- `IsStreamingToBridgeAndGroup`. -/
def isStreamingToBridgeAndGroup (bridge : Bridge) : Bool :=
  match s.activeBridgeCopy with
  | none => false
  | some active => s.running && bridge.id = active.id && bridge.ipAddress = active.ipAddress &&
      bridge.selectedGroup = active.selectedGroup

/-- `Start` returns `true`. -/
def started (threaded : Bool) : Stream :=
  { s with caller := if threaded then .makeThread else .idle }

/-- `Stop` returns. -/
def returned (after : After) : Stream :=
  { s with caller := match after with
    | .start threaded bridge => .ready threaded bridge
    | _ => .idle }

/-- The next step of the caller; `none` when it waits. -/
def callerStep (answer : Bool) : Option Stream :=
  match s.caller with
  | .idle => none
  | .askThreaded bridge =>
    if s.isStreamingToBridgeAndGroup bridge then some { s with caller := .idle }
    else some { s with caller := .ask true bridge }
  | .ask threaded bridge =>
    if s.isStreamingToBridgeAndGroup bridge then some (s.started threaded)
    else some { s with caller := .testRunning threaded bridge }
  | .testRunning threaded bridge =>
    if s.running then some { s with caller := .stop (.start threaded bridge) }
    else some { s with caller := .ready threaded bridge }
  | .ready threaded bridge =>
    if answer then some { s with caller := .activate threaded bridge }
    else some { s with activeBridgeCopy := none, caller := .idle }
  | .activate threaded bridge =>
    if answer then
      some { s with activeBridgeCopy := some bridge, caller := .setRunning threaded bridge 0 }
    else some { s with caller := .idle }
  | .setRunning threaded bridge connectAttempts =>
    some { s with running := true, caller := .connect threaded bridge connectAttempts }
  | .connect threaded bridge connectAttempts =>
    if answer then some (s.started threaded)
    else if connectAttempts + 1 < 5 then
      some { s with caller := .setRunning threaded bridge (connectAttempts + 1) }
    else some { s with caller := .stop .failed }
  | .makeThread => some { s with renderThread := some .test, caller := .idle }
  | .stop after =>
    if s.running then some { s with caller := .stopLock after } else some (s.returned after)
  | .stopLock after =>
    if s.lock = none then some { s with lock := some .caller, caller := .stopTest after } else none
  | .stopTest after =>
    some { s with caller := if s.running then .stopClear after else .stopRelease after }
  | .stopClear after => some { s with running := false, caller := .stopJoin after }
  | .stopJoin after =>
    match s.renderThread with
    | none => some { s with caller := .stopRelease after }
    | some .ended => some { s with renderThread := none, caller := .stopRelease after }
    | some _ => none
  | .stopRelease after => some ({ s with lock := none }.returned after)

/-- The next step of the render thread; `none` when it waits, or there is none. -/
def threadStep : Option Stream :=
  match s.renderThread with
  | none => none
  | some .test => some { s with renderThread := some (if s.running then .lock else .ended) }
  | some .lock =>
    if s.lock = none then some { s with lock := some .thread, renderThread := some .testLocked }
    else none
  | some .testLocked => some { s with renderThread := some (if s.running then .send else .release) }
  | some .send =>
    some { s with streamCounter := s.streamCounter + 1, renderThread := some .release }
  | some .release => some { s with lock := none, renderThread := some .test }
  | some .ended => none

/-- A call of an idle caller. -/
def call (call : Call) : Option Stream :=
  match s.caller with
  | .idle => some { s with caller := match call with
      | .start bridge => .ask false bridge
      | .startWithRenderThread bridge => .askThreaded bridge
      | .stop => .stop .caller
      | .stopBridge => .stopLock .caller }
  | _ => none

def step : Label → Option Stream
  | .call call => s.call call
  | .caller answer => s.callerStep answer
  | .thread => s.threadStep

end Stream

/-- The stream and its two parties. -/
def stream : Machine Stream Label where
  Init s := s = {}
  step := Stream.step

end HueStream.Render
