import HueStream.Flow.Message
import HueStream.Lib.FirstMatch
import HueStream.Lib.Run

/-! # Checking bridges

`BridgeStreamingChecker::Check` asks a bridge of the second version for its app id and learns from the
answer whether the bridge is connected. The local port of the last answer and the bridge that gave it are
kept in statics, for all bridges and all checkers. The requests end in any order. -/

namespace HueStream.Monitor

open HueStream.Data HueStream.Flow HueStream.Lib

/-- `HttpRequestError::ErrorCode`. -/
inductive ErrorCode
  | success | undefined | canceled | cannotResolveHost | cannotConnect | timeout | serverReset
  | invalidCertificate | gatewayTimeout | invalidEventingConnection
deriving DecidableEq

/-- How a request ends: the code of its error, and the status code and the local port of its response. -/
structure Completion where
  error : ErrorCode
  statusCode : ℤ
  localPort : ℤ
deriving DecidableEq

/-- The statics of the callback. -/
structure Statics where
  lastLocalPort : ℤ := 0
  lastBridgeId : String
deriving DecidableEq

/-- What the callback does: the bridge and the statics after it, and the messages it sends. -/
structure Reply where
  bridge : Bridge
  statics : Statics
  messages : List MessageId := []

variable (σ : BridgeSettings)

/-- Another port than the last one, under the name of the same bridge. -/
def Statics.portChanged (v : Statics) (bridge : Bridge) (localPort : ℤ) : Bool :=
  v.lastBridgeId = bridge.id && v.lastLocalPort ≠ 0 && v.lastLocalPort ≠ localPort

/-- `bridge->GetGroup()->SetActive(false)` and `SetOwner("")`. -/
def deactivateGroup (bridge : Bridge) : Bridge :=
  { bridge with
    groups := modifyFirst (fun g => g.id = bridge.selectedGroup)
      (fun g => { g with active := false, owner := "" }) bridge.groups }

/-- The answer was a success: a port that is not valid is not kept. -/
def replyConnected (v : Statics) (bridge : Bridge) (localPort : ℤ) : Reply :=
  let statics :=
    if 0 < localPort then { lastLocalPort := localPort, lastBridgeId := bridge.id } else v
  if bridge.isConnected σ then { bridge, statics }
  else { bridge := { bridge with isValidIp := true }, statics, messages := [.bridgeConnected] }

/-- The answer came over another port. -/
def replyInvalidEventing (v : Statics) (bridge : Bridge) (localPort : ℤ) : Reply :=
  if bridge.isConnected σ then
    { bridge
      statics := if 0 < localPort then { v with lastLocalPort := localPort } else v
      messages := [.invalidEventingConnection] }
  else { bridge, statics := { v with lastLocalPort := 0 } }

/-- There was no answer, or one with another status. -/
def replyDisconnected (v : Statics) (bridge : Bridge) : Reply :=
  let statics := { v with lastLocalPort := 0 }
  if bridge.isConnected σ then
    if bridge.isStreaming σ then
      { bridge := { deactivateGroup bridge with isValidIp := false }
        statics
        messages := [.streamingDisconnected, .bridgeDisconnected] }
    else
      { bridge := { bridge with isValidIp := false }, statics, messages := [.bridgeDisconnected] }
  else { bridge, statics }

/-- The callback of the request. -/
def reply (v : Statics) (bridge : Bridge) (c : Completion) : Reply :=
  let errorCode :=
    if c.error = .success ∧ v.portChanged bridge c.localPort = true then .invalidEventingConnection
    else c.error
  if errorCode = .success ∧ c.statusCode = 200 then replyConnected σ v bridge c.localPort
  else if errorCode = .invalidEventingConnection then replyInvalidEventing σ v bridge c.localPort
  else replyDisconnected σ v bridge

/-- The bridges, the statics (the name is set by the first callback) and the requests under way. -/
structure BridgeStreamingChecker where
  heap : Heap
  lastLocalPort : ℤ := 0
  lastBridgeId : Option String := none
  pending : List BridgePtr := []
  /-- The valid port of the last successful check of each bridge that had one. -/
  ports : String → Option ℤ := fun _ => none
  /-- The last of the two messages sent for each bridge since its flag was changed elsewhere. -/
  lastSent : BridgePtr → Option MessageId := fun _ => none

inductive CheckLabel
  /-- `Check` of a bridge of the second version. -/
  | check (bridge : BridgePtr)
  | completes (bridge : BridgePtr) (completion : Completion)
  /-- A request ends when its checker is gone. -/
  | expires (bridge : BridgePtr)
  /-- Something else changes the bridge. -/
  | changes (bridge : BridgePtr) (newBridge : Bridge)

namespace BridgeStreamingChecker

variable (s : BridgeStreamingChecker)

def statics (bridge : BridgePtr) : Statics :=
  { lastLocalPort := s.lastLocalPort, lastBridgeId := s.lastBridgeId.getD (s.heap bridge).id }

/-- The callback for the bridge. -/
def answer (bridge : BridgePtr) (c : Completion) : Reply :=
  reply σ (s.statics bridge) (s.heap bridge) c

/-- The check was successful, over a valid port. -/
def portsAfter (bridge : BridgePtr) (c : Completion) : String → Option ℤ :=
  if c.error = .success ∧ c.statusCode = 200 ∧ 0 < c.localPort then
    Function.update s.ports (s.heap bridge).id (some c.localPort)
  else s.ports

/-- The messages that say whether the bridge is connected. -/
def lastSentAfter (bridge : BridgePtr) (messages : List MessageId) : BridgePtr → Option MessageId :=
  if .bridgeConnected ∈ messages then Function.update s.lastSent bridge (some .bridgeConnected)
  else if .bridgeDisconnected ∈ messages then
    Function.update s.lastSent bridge (some .bridgeDisconnected)
  else s.lastSent

def completes (bridge : BridgePtr) (c : Completion) : BridgeStreamingChecker :=
  { heap := Function.update s.heap bridge (s.answer σ bridge c).bridge
    lastLocalPort := (s.answer σ bridge c).statics.lastLocalPort
    lastBridgeId := some (s.answer σ bridge c).statics.lastBridgeId
    pending := s.pending.erase bridge
    ports := s.portsAfter bridge c
    lastSent := s.lastSentAfter bridge (s.answer σ bridge c).messages }

def changes (bridge : BridgePtr) (newBridge : Bridge) : BridgeStreamingChecker :=
  { s with
    heap := Function.update s.heap bridge newBridge
    lastSent :=
      if newBridge.isValidIp = (s.heap bridge).isValidIp then s.lastSent
      else Function.update s.lastSent bridge none }

/-- No request ends with the code that the callback makes up. -/
def step (s : BridgeStreamingChecker) : CheckLabel → Option BridgeStreamingChecker
  | .check bridge =>
    if (s.heap bridge).isSupportingClipV2 σ then
      if (s.heap bridge).isConnectable σ then some { s with pending := s.pending ++ [bridge] }
      else some s
    else none
  | .completes bridge c =>
    if bridge ∈ s.pending ∧ c.error ≠ .invalidEventingConnection then some (s.completes σ bridge c)
    else none
  | .expires bridge =>
    if bridge ∈ s.pending then some { s with pending := s.pending.erase bridge } else none
  | .changes bridge newBridge => some (s.changes bridge newBridge)

end BridgeStreamingChecker

/-- Checks of any bridges, from their beginning. -/
def checker : Machine BridgeStreamingChecker CheckLabel where
  Init s := ∃ heap, s = { heap }
  step := BridgeStreamingChecker.step σ

end HueStream.Monitor
