import HueStream.Lib.Run
import HueStream.Streaming.Starter

/-! # Streams

`Stream` keeps a copy of the bridge it streams to. The copy has its own flags but shares the list of
groups with the bridge it was made from, and so with everybody who holds that bridge. Beside the fields
of the source the state has what its calls have done: the sessions that were activated and not sent a
stop, the render threads that were made and not joined, and what the last call has returned. -/

namespace HueStream.Streaming

open HueStream.Data HueStream.Lib

/-- A session: the address of a bridge and the id of a group. -/
structure Session where
  ipAddress : String
  group : String
deriving DecidableEq

structure Stream where
  activeBridgeCopy : Option Bridge := none
  running : Bool := false
  renderThread : Bool := false
  threads : ℕ := 0
  sessions : List Session := []
  result : Option Bool := none

/-- A call of `Start` or `StartWithRenderThread`, with the answers it gets. -/
structure Call where
  bridge : Bridge
  /-- The bridge has the list of groups of the copy. -/
  shared : Bool := false
  overrideLevel : ActivationOverrideLevel := .sameGroup
  /-- The answer to the stop of the stream that is running. -/
  stop : HttpAnswer := ⟨true, .node []⟩
  /-- The answer to the stop of a session of a stream before. -/
  old : HttpAnswer := ⟨true, .node []⟩
  activation : List HttpAnswer := []
  /-- Whether the attempts to connect succeed; those beyond the list do not. -/
  connects : List Bool := []
  /-- The answer to the stop after all attempts. -/
  failed : HttpAnswer := ⟨true, .node []⟩

inductive Label
  | start (c : Call)
  | startWithRenderThread (c : Call)
  | stop (answer : HttpAnswer)
  | stopBridge (bridge : Bridge) (shared : Bool) (answer answer' : HttpAnswer)
  /-- Somebody else changes the groups of the copy. -/
  | groups (groups : List Group)

/-- A request changes the sessions: a successful activation adds one, a deactivation stops one. -/
def Request.note (ipAddress : String) (sessions : List Session) (r : Request) : List Session :=
  if r.activate then
    if r.verdict = .ok then sessions ++ [⟨ipAddress, r.groupId⟩] else sessions
  else sessions.filter (· ≠ ⟨ipAddress, r.groupId⟩)

/-- `IsSameBridgeAndGroup`. -/
def isSameBridgeAndGroup (activeBridgeCopy bridge : Bridge) : Bool :=
  bridge.id = activeBridgeCopy.id && bridge.ipAddress = activeBridgeCopy.ipAddress &&
    bridge.selectedGroup = activeBridgeCopy.selectedGroup

namespace Stream

variable (ε : Context) (s : Stream)

/-- `IsStreamingToBridgeAndGroup`. -/
def isStreamingToBridgeAndGroup (bridge : Bridge) : Bool :=
  match s.activeBridgeCopy with
  | none => false
  | some copy => s.running && isSameBridgeAndGroup copy bridge

/-- A bridge that shares its groups with the copy has those of the copy. -/
def toBridge (shared : Bool) (bridge : Bridge) : Bridge :=
  match s.activeBridgeCopy with
  | none => bridge
  | some copy => if shared then { bridge with groups := copy.groups } else bridge

/-- What is written to the groups of such a bridge is written to those of the copy. -/
def toCopy (shared : Bool) (bridge : Bridge) : Stream :=
  if shared then
    { s with activeBridgeCopy := s.activeBridgeCopy.map ({ · with groups := bridge.groups }) }
  else s

/-- `StreamStarter(bridge).Stop()`. -/
def starterStop (bridge : Bridge) (answer : HttpAnswer) : Option (Stream × Bridge) :=
  match (Exchange.mk bridge [answer] []).stop ε with
  | .error _ => none
  | .ok e => some
    ({ s with sessions := e.requests.foldl (Request.note bridge.ipAddress) s.sessions }, e.bridge)

/-- The part of `Stop(bridge)` that joins the thread of a stream that is running. -/
def halt : Stream :=
  { s with running := false, renderThread := false, threads := s.threads - s.renderThread.toNat }

/-- `Stop(bridge)`. -/
def stopBridge (bridge : Bridge) (shared : Bool) (answer answer' : HttpAnswer) : Option Stream :=
  if !s.running then some s
  else match s.activeBridgeCopy with
  | none => none
  | some copy => do
    let s := s.halt
    let s ← if isSameBridgeAndGroup copy bridge then some s
      else (s.starterStop ε copy answer).map fun p => { p.1 with activeBridgeCopy := some p.2 }
    let bridge := s.toBridge shared bridge
    if bridge.isStreaming ε.settings then
      let (s, bridge) ← s.starterStop ε bridge answer'
      return s.toCopy shared bridge
    else return s

/-- `Stop()`: the bridge is the copy itself. -/
def stop (answer : HttpAnswer) : Option Stream :=
  if !s.running then some s
  else match s.activeBridgeCopy with
  | none => none
  | some copy =>
    let s := s.halt
    if copy.isStreaming ε.settings then
      (s.starterStop ε copy answer).map fun p => { p.1 with activeBridgeCopy := some p.2 }
    else some s

/-- `StartStreamingSession`. -/
def startStreamingSession (c : Call) (bridge : Bridge) : Option Stream :=
  match (Exchange.mk bridge c.activation []).startStream ε c.overrideLevel with
  | .error _ => none
  | .ok (startSuccessful, e) =>
    if !e.answers.isEmpty then none
    else
      let s := { s with sessions := e.requests.foldl (Request.note bridge.ipAddress) s.sessions }
      if !startSuccessful then some { s.toCopy c.shared e.bridge with result := some false }
      else
        let s := { s with activeBridgeCopy := some e.bridge, running := true }
        if (c.connects.take 5).any id then some { s with result := some true }
        else (s.stop ε c.failed).map ({ · with result := some false })

/-- The part of `Start` that stops the session of a stream before. -/
def stopOld (c : Call) (bridge : Bridge) : Option (Stream × Bridge) :=
  if bridge.isStreaming ε.settings then
    (s.starterStop ε bridge c.old).map fun p => (p.1.toCopy c.shared p.2, p.2)
  else some (s, bridge)

/-- The part of `Start` after all stops. A call that makes no attempt to activate gets no answers to it. -/
def startReady (c : Call) (bridge : Bridge) : Option Stream :=
  if bridge.isReadyToStream ε.settings then s.startStreamingSession ε c bridge
  else if c.activation.isEmpty then some { s with activeBridgeCopy := none, result := some false }
  else none

/-- `Start`. -/
def start (c : Call) : Option Stream :=
  if s.isStreamingToBridgeAndGroup c.bridge then
    if c.activation.isEmpty then some { s with result := some true } else none
  else do
    let s ← s.stop ε c.stop
    let (s, bridge) ← s.stopOld ε c { s.toBridge c.shared c.bridge with isBusy := false }
    s.startReady ε c bridge

/-- `StartWithRenderThread`. -/
def startWithRenderThread (c : Call) : Option Stream :=
  if s.isStreamingToBridgeAndGroup c.bridge then
    if c.activation.isEmpty then some { s with result := some true } else none
  else do
    let s ← s.start ε c
    if s.result = some true then return { s with renderThread := true, threads := s.threads + 1 }
    else return s

def step : Label → Option Stream
  | .start c => s.start ε c
  | .startWithRenderThread c => s.startWithRenderThread ε c
  | .stop answer => (s.stop ε answer).map ({ · with result := none })
  | .stopBridge bridge shared answer answer' =>
    (s.stopBridge ε bridge shared answer answer').map ({ · with result := none })
  | .groups groups => some { s with
    activeBridgeCopy := s.activeBridgeCopy.map ({ · with groups }), result := none }

end Stream

/-- A stream from its construction on. -/
def machine (ε : Context) : Machine Stream Label where
  Init s := s = {}
  step := Stream.step ε

end HueStream.Streaming
