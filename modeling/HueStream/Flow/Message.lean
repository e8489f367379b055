import HueStream.Data.HueStreamData

/-! # Feedback messages and the states of the connection flow -/

namespace HueStream.Flow

open HueStream.Data

/-- `FeedbackMessage::Id`. -/
inductive MessageId
  | userProcedureStarted | startLoading | finishLoadingNoBridgeConfigured
  | finishLoadingBridgeConfigured | startSearching | finishSearchingNoBridgesFound
  | finishSearchingInvalidBridgesFound | finishSearchBridgesFound | startAuthorizing
  | pressPushLink | finishAuthorizingAuthorized | finishAuthorizingFailed | startRetrievingSmall
  | finishRetrievingSmall | startRetrieving | finishRetrievingFailed
  | finishRetrievingReadyToStart | finishRetrievingActionRequired | startSaving
  | finishSavingSaved | finishSavingFailed | startActivating | finishActivatingActive
  | finishActivatingFailed | noBridgeFound | bridgeNotFound | invalidModel | invalidVersion
  | noGroupAvailable | busyStreaming | selectGroup | doneNoBridgeFound | doneBridgeFound
  | doneActionRequired | doneCompleted | doneAborted | doneReset | userProcedureFinished
  | bridgeConnected | bridgeDisconnected | streamingConnected | streamingDisconnected
  | bridgeChanged | lightsUpdated | grouplistUpdated | groupLightstateUpdated | zonelistUpdated
  | zoneScenelistUpdated | invalidEventingConnection | bridgeRefreshed | internalError
deriving DecidableEq

/-- `FeedbackMessage::RequestType`. -/
inductive RequestType
  | internal | loadBridge | connect | connectBackground | connectIp | setManualBridge | connectNew
  | connectIdKey | resetBridge | resetAll | select | activate | deactivate
deriving DecidableEq

/-- `OperationResult`. -/
inductive OperationResult
  | success | failed
deriving DecidableEq

/-- `ConnectionFlowState`. -/
inductive FlowState
  | idle | loading | searchingFirst | searchingRetry | authenticating | retrieving | saving
  | activating | deactivating
deriving DecidableEq

/-- `FeedbackMessage`. -/
structure FeedbackMessage where
  requestType : RequestType
  id : MessageId
  bridge : BridgePtr
  bridgeList : List BridgePtr := []
deriving DecidableEq

/-- `ID_DONE_*`: how a procedure has ended. -/
def MessageId.isDone : MessageId → Bool
  | .doneNoBridgeFound | .doneBridgeFound | .doneActionRequired | .doneCompleted | .doneAborted
  | .doneReset => true
  | _ => false

/-- The five `ID_DONE_*` messages that conclude a connection procedure. -/
def MessageId.isTerminal : MessageId → Bool
  | .doneNoBridgeFound | .doneBridgeFound | .doneActionRequired | .doneCompleted
  | .doneAborted => true
  | _ => false

/-- `ID_FINISH_*`: a stage of a procedure has ended. -/
def MessageId.isFinish : MessageId → Bool
  | .finishLoadingNoBridgeConfigured | .finishLoadingBridgeConfigured
  | .finishSearchingNoBridgesFound | .finishSearchingInvalidBridgesFound
  | .finishSearchBridgesFound | .finishAuthorizingAuthorized | .finishAuthorizingFailed
  | .finishRetrievingSmall | .finishRetrievingFailed | .finishRetrievingReadyToStart
  | .finishRetrievingActionRequired | .finishSavingSaved | .finishSavingFailed
  | .finishActivatingActive | .finishActivatingFailed => true
  | _ => false

/-- The requests that connect to a bridge or start streaming to it. -/
def RequestType.isConnecting : RequestType → Bool
  | .connect | .connectBackground | .connectNew | .connectIp | .setManualBridge | .connectIdKey
  | .activate => true
  | _ => false

/-! ### Comparing two bridges -/

section Compare

variable (σ : BridgeSettings)

def isBridgeChanged (oldBridge newBridge : Bridge) : Bool :=
  oldBridge.id ≠ newBridge.id || oldBridge.name ≠ newBridge.name ||
    oldBridge.ipAddress ≠ newBridge.ipAddress || oldBridge.modelId ≠ newBridge.modelId ||
    oldBridge.apiversion ≠ newBridge.apiversion || oldBridge.user ≠ newBridge.user ||
    oldBridge.clientKey ≠ newBridge.clientKey

/-- Two lists differ: in their lengths, or at some position by `differ`. -/
def listsDiffer {α : Type} (differ : α → α → Bool) (expected actual : List α) : Bool :=
  actual.length ≠ expected.length || (expected.zip actual).any fun p => differ p.1 p.2

def areGroupsUpdated (expectedGroups actualGroups : List Group) : Bool :=
  listsDiffer (fun e a => e.id ≠ a.id || e.name ≠ a.name || e.active ≠ a.active ||
    e.owner ≠ a.owner) expectedGroups actualGroups

def isPositionLightUpdated (expected actual : Location) : Bool :=
  expected.x ≠ actual.x || expected.y ≠ actual.y

def isLightColorUpdated (expected actual : Color) : Bool :=
  274 / 10000 < |expected.red - actual.red| || 274 / 10000 < |expected.green - actual.green| ||
    274 / 10000 < |expected.blue - actual.blue|

def isLightUpdated (expected actual : Light) : Bool :=
  expected.id ≠ actual.id || isPositionLightUpdated expected.position actual.position ||
    isLightColorUpdated expected.color actual.color || expected.reachable ≠ actual.reachable

def areLightsUpdated (expectedLights actualLights : List Light) : Bool :=
  listsDiffer isLightUpdated expectedLights actualLights

def isHomeAutomationStateUpdated : Option Group → Option Group → Bool
  | _, none => false
  | none, some _ => true
  | some expected, some actual =>
    expected.onState ≠ actual.onState || expected.brightnessState ≠ actual.brightnessState

/-- `CompareBridges`. -/
def compareBridges (oldBridge newBridge : Bridge) : List MessageId :=
  (if !oldBridge.isConnected σ && newBridge.isConnected σ then [MessageId.bridgeConnected] else []) ++
  (if oldBridge.isConnected σ && !newBridge.isConnected σ then
    [MessageId.bridgeDisconnected] else []) ++
  (if !oldBridge.isStreaming σ && newBridge.isStreaming σ then
    [MessageId.streamingConnected] else []) ++
  (if oldBridge.isStreaming σ && !newBridge.isStreaming σ then
    [MessageId.streamingDisconnected] else []) ++
  (if isBridgeChanged oldBridge newBridge then [MessageId.bridgeChanged] else []) ++
  (if areGroupsUpdated oldBridge.groups newBridge.groups then [MessageId.grouplistUpdated] else []) ++
  (if areLightsUpdated oldBridge.getGroupLights newBridge.getGroupLights then
    [MessageId.lightsUpdated] else []) ++
  (if !newBridge.isStreaming σ && isHomeAutomationStateUpdated oldBridge.getGroup newBridge.getGroup
    then [MessageId.groupLightstateUpdated] else [])

/-- A message that `compareBridges` may list. -/
def MessageId.isDifference : MessageId → Bool
  | .bridgeConnected | .bridgeDisconnected | .streamingConnected | .streamingDisconnected
  | .bridgeChanged | .grouplistUpdated | .lightsUpdated | .groupLightstateUpdated => true
  | _ => false

theorem isDifference_of_mem_compareBridges {oldBridge newBridge : Bridge} {id : MessageId}
    (h : id ∈ compareBridges σ oldBridge newBridge) : id.isDifference = true := by
  simp only [compareBridges, List.mem_append, List.mem_ite_nil_right, List.mem_singleton] at h
  rcases h with ((((((⟨-, rfl⟩ | ⟨-, rfl⟩) | ⟨-, rfl⟩) | ⟨-, rfl⟩) | ⟨-, rfl⟩) | ⟨-, rfl⟩) |
    ⟨-, rfl⟩) | ⟨-, rfl⟩ <;> rfl

end Compare

end HueStream.Flow
