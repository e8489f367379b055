import HueStream.Flow.State

/-! # The handlers of the connection flow

The member functions of `ConnectionFlow` that the message dispatcher runs, and the ones they call.
What the rest of the program answers synchronously within one dispatched step is an argument
(`Answers`): what the stream object returns and does to the bridge it is given, and how the full
configuration retriever takes an `Execute`. The argument `procedure` of the pushlink functions is
the procedure on whose behalf they run. -/

namespace HueStream.Flow

open HueStream.Data

/-- How `Execute` of the full configuration retriever ends: it took the request and calls back
later, it called back already and returned `false`, or it only returned `false`. -/
inductive ExecuteAnswer
  | accepted | answered | refused
deriving DecidableEq

/-- What the rest of the program answers within one step. -/
structure Answers where
  execute : ExecuteAnswer := .accepted
  stopStream : Bridge → Bridge := id
  startStream : Bridge → Bool × Bridge := fun b => (true, b)

/-- `PUSHLINK_INVALID_IP_MAX_RETRIES`. -/
def pushlinkInvalidIpMaxRetries : ℕ := 3

/-- `--` on a `size_t`. -/
def sizeDecrement (n : ℕ) : ℕ := if n = 0 then 2 ^ 64 - 1 else n - 1

namespace ConnectionFlow

variable (σ : Settings) (ω : Answers)

/-! ### Starting and finishing a procedure -/

/-- `Start`: `none` when it returns `false`. -/
def start (s : ConnectionFlow) (request : RequestType) : Option ConnectionFlow :=
  if s.state ≠ .idle then none
  else
    let s := { s with
      request, procedures := s.procedures + 1, current := some s.procedures, reported := false }
    if request ≠ .internal then
      let s := s.feedback .userProcedureStarted
      some { s.alloc s.activeBridge with bridgeStartState := s.next }
    else some s

/-- The loop of `Finish`: what changed about the active bridge since the procedure started. -/
def sendDifferences (s : ConnectionFlow) : ConnectionFlow :=
  (compareBridges σ.bridge (s.heap s.bridgeStartState) s.activeBridge).foldl
    (fun s id => s.feedback id) s

/-- `Finish`. -/
def finish (s : ConnectionFlow) : ConnectionFlow :=
  let s := s.setState .idle
  let s :=
    if s.request ≠ .internal then (s.sendDifferences σ).feedback .userProcedureFinished else s
  { s with request := .internal, current := none }

/-- The message `ReportActionRequired` adds for a bridge of the given status. -/
def actionMessage : BridgeStatus → MessageId
  | .empty | .notFound => .noBridgeFound
  | .invalidModel => .invalidModel
  | .notConnectable | .notConnected => .bridgeNotFound
  | .invalidVersion => .invalidVersion
  | .noGroupAvailable => .noGroupAvailable
  | .invalidGroupSelected => .selectGroup
  | .busy => .busyStreaming
  | .invalidClientkey | .ready | .streaming => .internalError

/-- `ReportActionRequired`. -/
def reportActionRequired (s : ConnectionFlow) : ConnectionFlow :=
  let s := s.feedback .doneActionRequired
  let s := s.feedback (actionMessage (s.activeBridge.getStatus σ.bridge))
  { s with reported := true }

/-! ### Stages of a procedure -/

/-- `_stream->Stop(_persistentData->GetActiveBridge())`. -/
def stopStream (s : ConnectionFlow) : ConnectionFlow :=
  (s.record (.stopStream s.activePtr)).write s.activePtr (ω.stopStream s.activeBridge)

/-- Several requests first stop the stream to an active bridge that is streaming. -/
def stopIfStreaming (s : ConnectionFlow) : ConnectionFlow :=
  if s.activeBridge.isStreaming σ.bridge then s.stopStream ω else s

/-- `StartLoading`. -/
def beginLoading (s : ConnectionFlow) (callback : LoadCallback) : ConnectionFlow :=
  (((s.feedback .startLoading).setState .loading).record .load).issue (.load callback)

/-- `StartSaving`. -/
def beginSaving (s : ConnectionFlow) : ConnectionFlow :=
  let s := s.feedback .startSaving (s.persistentData.getAllKnownBridges σ.bridge s.heap)
  ((s.setState .saving).record (.save (s.persistentData.bridges.map s.heap))).issue .save

/-- `StartBridgeSearch`: brute force when a first search has just failed. -/
def startBridgeSearch (s : ConnectionFlow) : ConnectionFlow :=
  let s := s.feedback .startSearching
  let bruteForce : Bool := s.state = .searchingFirst
  let s := s.setState (if bruteForce then .searchingRetry else .searchingFirst)
  (s.record (.searchNew bruteForce)).issue .search

/-- `PushLinkBridge`. -/
def pushLinkBridge (s : ConnectionFlow) (procedure : Option ℕ) (bridge : BridgePtr) :
    ConnectionFlow :=
  (s.record (.authenticate bridge)).issueFor procedure (.authenticate bridge)

/-- One turn of the loop of `StartAuthentication`. -/
def authenticateOne (s : ConnectionFlow) (i : ℤ) (bridge : BridgePtr) : ConnectionFlow :=
  let info := s.authenticationProcessesInfo
  pushLinkBridge { s with
    authenticationProcessesInfo :=
      if bridge ∈ info then info else info.insert bridge { bridgeNumber := i } } s.current bridge

/-- `StartAuthentication(bridges)`. -/
def startAuthentication (s : ConnectionFlow) (bridges : List BridgePtr) : ConnectionFlow :=
  let s := (s.feedback .startAuthorizing bridges).feedback .pressPushLink bridges
  let s := { s.setState .authenticating with
    ongoingAuthenticationCount := bridges.length, authenticationProcessesInfo := ∅,
    schedulerRunning := true }
  bridges.zipIdx.foldl (fun s p => s.authenticateOne p.2 p.1) s

/-- `StartRetrieveSmallConfig`. The retriever is created here and answers with the very object it
was given, so its callback copies the bridge onto itself. -/
def startRetrieveSmallConfig (s : ConnectionFlow) (bridge : BridgePtr) : ConnectionFlow :=
  (((s.setState .retrieving).feedback .startRetrievingSmall).record (.executeSmall bridge)).issue
    (.retrieveSmallConfig bridge)

/-- `StartRetrieveFullConfig`. -/
def startRetrieveFullConfig (s : ConnectionFlow) : ConnectionFlow :=
  let s := s.setState .retrieving
  let bridge := s.activePtr
  -- a retriever for the other version of the interface is replaced, another one is kept
  let s := { s with fullConfigRetriever := some (s.activeBridge.isSupportingClipV2 σ.bridge) }
  let s := s.record (.executeFull bridge)
  match ω.execute with
  | .accepted => (s.issue .retrieveFullConfig).feedbackOn .startRetrieving bridge []
  | .answered => s.issue .retrieveFullConfig
  | .refused => s

/-- `ActivateStreaming`. -/
def activateStreaming (s : ConnectionFlow) : ConnectionFlow :=
  let s := (s.feedback .startActivating).setState .activating
  let (result, bridge) := ω.startStream s.activeBridge
  let s := (s.record (.startStream σ.useRenderThread s.activePtr)).write s.activePtr bridge
  let s :=
    if result then (s.feedback .finishActivatingActive).feedback .doneCompleted
    else (s.feedback .finishActivatingFailed).reportActionRequired σ
  s.finish σ

/-- `DeactivateStreaming`. -/
def deactivateStreaming (s : ConnectionFlow) : ConnectionFlow :=
  ((s.setState .deactivating).stopStream ω).finish σ

/-- `ClearBridge`. -/
def clearBridge (s : ConnectionFlow) : ConnectionFlow :=
  let fresh := s.next
  let s :=
    if s.request = .resetBridge then
      (s.alloc {}).setPersistentData (s.persistentData.clearActiveBridge fresh)
    else if s.request = .resetAll then (s.alloc {}).setPersistentData (.clear fresh)
    else s
  (s.feedback .doneReset).beginSaving σ

/-! ### User requests -/

/-- `DoLoad`. -/
def doLoad (s : ConnectionFlow) : ConnectionFlow :=
  match s.start .loadBridge with
  | none => s
  | some s => s.beginLoading .finish

/-- `DoConnectToBridge`. -/
def doConnectToBridge (s : ConnectionFlow) : ConnectionFlow :=
  match s.start .connect with
  | none => s
  | some s =>
    if s.backgroundDiscoveredBridges ≠ [] then
      { s with backgroundDiscoveredBridges := [] }.startAuthentication s.backgroundDiscoveredBridges
    else s.beginLoading .searchOrRetrieve

/-- `DoConnectToBridgeBackground`. -/
def doConnectToBridgeBackground (s : ConnectionFlow) : ConnectionFlow :=
  match s.start .connectBackground with
  | none => s
  | some s => s.beginLoading .searchOrRetrieve

/-- `DoConnectToBridgeWithIp`. -/
def doConnectToBridgeWithIp (s : ConnectionFlow) (ipAddress : String) : ConnectionFlow :=
  match s.start .connectIp with
  | none => s
  | some s => (s.alloc { ipAddress, isValidIp := true }).beginLoading (.retrieve s.next)

/-- `DoConnectToNewBridge`. -/
def doConnectToNewBridge (s : ConnectionFlow) : ConnectionFlow :=
  match s.start .connectNew with
  | none => s
  | some s =>
    let s := s.stopIfStreaming σ ω
    ((s.alloc {}).setActiveBridge σ s.next).beginLoading .search

/-- `DoSetManual`. -/
def doSetManual (s : ConnectionFlow) (bridge : BridgePtr) : ConnectionFlow :=
  match s.start .setManualBridge with
  | none => s
  | some s =>
    let s := s.stopIfStreaming σ ω
    (s.write bridge { s.heap bridge with isValidIp := true, isAuthorized := true }).beginLoading
      (.retrieve bridge)

/-- `DoConnectoToBridgeWithIdKey`. -/
def doConnectoToBridgeWithIdKey (s : ConnectionFlow) (id user clientKey : String) :
    ConnectionFlow :=
  match s.start .connectIdKey with
  | none => s
  | some s =>
    let s := s.stopIfStreaming σ ω
    let bridge : Bridge :=
      { ({ id } : Bridge).setUser σ.bridge user with
        clientKey, ipAddress := "127.0.0.1", modelId := "BSB002", isValidIp := true,
        isAuthorized := true }
    (s.alloc bridge).beginLoading (.setActiveAndRetrieve s.next)

/-- `DoReset`. -/
def doReset (s : ConnectionFlow) (onlyActiveBridge : Bool) : ConnectionFlow :=
  match s.start (if onlyActiveBridge then .resetBridge else .resetAll) with
  | none => s
  | some s => (s.stopIfStreaming σ ω).clearBridge σ

/-- `DoSelectGroup`. -/
def doSelectGroup (s : ConnectionFlow) (id : String) : ConnectionFlow :=
  match s.start .select with
  | none => s
  | some s =>
    let (selected, bridge) := s.activeBridge.selectGroup id
    let s := s.write s.activePtr bridge
    let s := if s.activeBridge.isValidGroupSelected then s else s.reportActionRequired σ
    if selected then s.beginSaving σ else s.finish σ

/-- `DoStartStream`. -/
def doStartStream (s : ConnectionFlow) : ConnectionFlow :=
  match s.start .activate with
  | none => s
  | some s => s.startRetrieveFullConfig σ ω

/-- `DoStopStream`. -/
def doStopStream (s : ConnectionFlow) : ConnectionFlow :=
  match s.start .deactivate with
  | none => s
  | some s => s.deactivateStreaming σ ω

/-- `DoAbort`. -/
def doAbort (s : ConnectionFlow) : ConnectionFlow :=
  if s.state = .idle then s
  else
    let s :=
      if s.state = .searchingFirst ∨ s.state = .searchingRetry then s.record .abortSearch else s
    let s := if s.state = .authenticating then { s with ongoingAuthenticationCount := 0 } else s
    ((s.setActiveBridge σ s.bridgeStartState).feedback .doneAborted).finish σ

/-- `DoOnBridgeMonitorEvent`. -/
def doOnBridgeMonitorEvent (s : ConnectionFlow) (message : FeedbackMessage) : ConnectionFlow :=
  let reconnected : Bool := message.id = .bridgeConnected &&
    (s.heap message.bridge).isSupportingClipV2 σ.bridge
  match s.start .internal with
  | none => if reconnected then s.newMessage message false else s
  | some s =>
    let s := s.setActiveBridge σ message.bridge
    let s := if message.id = .streamingDisconnected then s.stopStream ω else s
    let reconnected : Bool := message.id = .bridgeConnected &&
      (s.heap message.bridge).isSupportingClipV2 σ.bridge
    if reconnected then s.startRetrieveFullConfig σ ω
    else
      let s :=
        if message.id = .invalidEventingConnection ∧ s.fullConfigRetriever.isSome then
          s.record .refreshBridgeConnection
        else s
      let s := if message.id = .bridgeRefreshed then s.beginSaving σ else s.newMessage message false
      s.finish σ

/-! ### Completions -/

/-- The continuation of a load. -/
def runLoadCallback (s : ConnectionFlow) : LoadCallback → ConnectionFlow
  | .finish => s.finish σ
  | .searchOrRetrieve =>
    if s.activeBridge.isEmpty then s.startBridgeSearch else s.startRetrieveSmallConfig s.activePtr
  | .retrieve bridge => s.startRetrieveSmallConfig bridge
  | .search => s.startBridgeSearch
  | .setActiveAndRetrieve bridge => (s.setActiveBridge σ bridge).startRetrieveSmallConfig bridge

/-- The objects of a list of bridges that somebody else built, and their pointers. -/
def allocAll (s : ConnectionFlow) (bridges : List Bridge) : ConnectionFlow × List BridgePtr :=
  (bridges.foldl alloc s, List.range' s.next bridges.length)

/-- The stored bridges a list of pointers stands for; `GetActiveBridge` completes an empty one. -/
def adoptData (s : ConnectionFlow) (ptrs : List BridgePtr) : ConnectionFlow :=
  match ptrs.getLast? with
  | some active => s.setPersistentData ⟨ptrs.dropLast, active⟩
  | none => (s.alloc {}).setPersistentData (.clear s.next)

/-- `LoadingCompleted`, with the bridges the storage has read. -/
def loadingCompleted (s : ConnectionFlow) (callback : LoadCallback) (result : OperationResult)
    (stored : List Bridge) : ConnectionFlow :=
  if s.state ≠ .loading then s
  else
    let (s, ptrs) := s.allocAll stored
    let s := s.adoptData ptrs
    let s :=
      if result = .success then
        s.feedback .finishLoadingBridgeConfigured
          (s.persistentData.getAllKnownBridges σ.bridge s.heap)
      else
        let s := s.feedback .finishLoadingNoBridgeConfigured
        s.write s.activePtr s.activeBridge.clear
    s.runLoadCallback σ callback

/-- `FilterInvalidAndDuplicateIpAddresses`. -/
def filterInvalidAndDuplicateIpAddresses (heap : Heap) (bridges : List BridgePtr) :
    List BridgePtr :=
  bridges.foldl (fun unique x =>
    if (heap x).isValidIp && !unique.any (fun arg => (heap arg).ipAddress = (heap x).ipAddress) then
      unique ++ [x]
    else unique) []

/-- The branch of `BridgeSearchCompleted` for a list with a valid bridge: unless the request is for a
new bridge, a known one is connected again. -/
def validBridgesFound (s : ConnectionFlow) (bridges : List BridgePtr) : ConnectionFlow :=
  let (rediscovered, heap, data) :=
    if s.request ≠ .connectNew then
      s.persistentData.rediscoverKnownBridge σ.bridge s.heap bridges
    else (false, s.heap, s.persistentData)
  let s := { s with heap, persistentData := data }
  if rediscovered then s.startRetrieveSmallConfig s.activePtr
  else if s.request = .connectBackground then
    { s.feedback .doneBridgeFound bridges with backgroundDiscoveredBridges := bridges }.finish σ
  else s.startAuthentication bridges

/-- `BridgeSearchCompleted`, with the bridges the search has found. -/
def bridgeSearchCompleted (s : ConnectionFlow) (found : List Bridge) : ConnectionFlow :=
  if s.state ≠ .searchingFirst ∧ s.state ≠ .searchingRetry then s
  else
    let (s, ptrs) := s.allocAll found
    let bridges := filterInvalidAndDuplicateIpAddresses s.heap ptrs
    if bridges = [] then
      let s := s.feedback .finishSearchingNoBridgesFound
      if s.request = .connectBackground then (s.feedback .doneNoBridgeFound).finish σ
      else if s.state = .searchingFirst then s.startBridgeSearch
      else (s.reportActionRequired σ).beginSaving σ
    else if bridges.any fun b => (s.heap b).isValidModelId σ.bridge then
      (s.feedback .finishSearchBridgesFound bridges).validBridgesFound σ bridges
    else
      let s := s.feedback .finishSearchingInvalidBridgesFound
      if s.request = .connectBackground then
        if s.activeBridge.isEmpty then (s.feedback .doneNoBridgeFound).finish σ
        else (s.reportActionRequired σ).beginSaving σ
      else s.startAuthentication bridges

/-- `_scheduler->remove_all_tasks(); _scheduler->stop();`. -/
def stopScheduler (s : ConnectionFlow) : ConnectionFlow :=
  { s with tasks := [], schedulerRunning := false }

/-- The second half of `AuthenticationCompleted`: the bridge is authorized, or is asked again. -/
def authorizedOrRetry (s : ConnectionFlow) (procedure : Option ℕ) (bridge : BridgePtr) :
    ConnectionFlow :=
  if (s.heap bridge).isAuthorized then
    let s := { s with ongoingAuthenticationCount := sizeDecrement s.ongoingAuthenticationCount }
    let s := s.setActiveBridge σ bridge
    let s := s.feedback .finishAuthorizingAuthorized
      (s.persistentData.getAllKnownBridges σ.bridge s.heap)
    s.stopScheduler.startRetrieveFullConfig σ ω
  else
    let info := ((s.authenticationProcessesInfo.lookup bridge).getD {})
    -- `add_task` replaces a task of the same id
    { s with tasks := s.tasks.filter (·.id ≠ info.bridgeNumber) ++
        [⟨info.bridgeNumber, bridge, procedure⟩] }

/-- Writes an entry of `_authenticationProcessesInfo`. -/
def setProcessInfo (s : ConnectionFlow) (bridge : BridgePtr) (info : AuthenticationProcessInfo) :
    ConnectionFlow :=
  { s with authenticationProcessesInfo := s.authenticationProcessesInfo.insert bridge info }

/-- `AuthenticationCompleted`. -/
def authenticationCompleted (s : ConnectionFlow) (procedure : Option ℕ) (bridge : BridgePtr) :
    ConnectionFlow :=
  if s.state ≠ .authenticating then s
  else
    -- `operator[]` puts a default entry there for a bridge without one
    let info := (s.authenticationProcessesInfo.lookup bridge).getD {}
    if (s.heap bridge).isValidIp then
      (s.setProcessInfo bridge info).authorizedOrRetry σ ω procedure bridge
    else
      let info := { info with failedTries := info.failedTries + 1 }
      let s := s.setProcessInfo bridge info
      if pushlinkInvalidIpMaxRetries < info.failedTries then
        let s := { s with ongoingAuthenticationCount := sizeDecrement s.ongoingAuthenticationCount }
        if s.ongoingAuthenticationCount = 0 then
          ((s.feedback .finishAuthorizingFailed).startBridgeSearch).stopScheduler
        else s
      else
        (s.write bridge { s.heap bridge with isValidIp := true }).authorizedOrRetry σ ω procedure
          bridge

/-- `RetrieveFailed`. -/
def retrieveFailed (s : ConnectionFlow) (bridge : BridgePtr) : ConnectionFlow :=
  let s := s.feedbackOn .finishRetrievingFailed bridge []
  let b := s.heap bridge
  if !b.isValidIp && b.isAuthorized then s.startBridgeSearch
  else if b.isValidIp && !b.isAuthorized then
    if s.request = .connectBackground then (s.feedback .doneBridgeFound).finish σ
    else s.startAuthentication [bridge]
  else
    let s := s.write bridge { b with isValidIp := false, isAuthorized := false }
    (s.reportActionRequired σ).beginSaving σ

/-- `RetrieveSmallConfigCompleted`. -/
def retrieveSmallConfigCompleted (s : ConnectionFlow) (result : OperationResult)
    (bridge : BridgePtr) : ConnectionFlow :=
  if s.state ≠ .retrieving then s
  else if result = .failed then s.retrieveFailed σ bridge
  else
    let s := (s.feedbackOn .finishRetrievingSmall bridge []).setActiveBridge σ bridge
    let b := s.heap bridge
    if !b.isValidModelId σ.bridge then s.startBridgeSearch
    else if b.isAuthorized || b.hasEverBeenAuthorizedForStreaming σ.bridge then
      s.startRetrieveFullConfig σ ω
    else s.startAuthentication [bridge]

/-- `RetrieveFullConfigCompleted`. -/
def retrieveFullConfigCompleted (s : ConnectionFlow) (result : OperationResult)
    (bridge : BridgePtr) : ConnectionFlow :=
  if s.state ≠ .retrieving then s
  else
    let s := s.setActiveBridge σ bridge
    if result = .failed then s.retrieveFailed σ bridge
    else
      let status := s.activeBridge.getStatus σ.bridge
      let s :=
        if status ∈ [.invalidModel, .invalidVersion, .invalidClientkey, .noGroupAvailable] then
          (s.feedback .finishRetrievingActionRequired).reportActionRequired σ
        else if s.activeBridge.isValidGroupSelected then s.feedback .finishRetrievingReadyToStart
        else
          let (selected, bridge) := s.activeBridge.selectGroupIfOnlyOneOption
          let s := s.write s.activePtr bridge
          if selected then s.feedback .finishRetrievingReadyToStart
          else (s.feedback .finishRetrievingActionRequired).reportActionRequired σ
      s.beginSaving σ

/-- `activationRequired` in `SavingCompleted`. -/
def activationRequired (s : ConnectionFlow) : Bool :=
  s.request = .activate || σ.autoStartAtConnection ||
    ((s.heap s.bridgeStartState).isStreaming σ.bridge && s.request = .select)

/-- `canActivateStreaming` in `SavingCompleted`. -/
def canActivateStreaming (s : ConnectionFlow) : Bool :=
  s.activeBridge.isReadyToStream σ.bridge || s.activeBridge.isStreaming σ.bridge

/-- `_persistentData->GetActiveBridge()->SetIsBusy(false)`. -/
def unbusy (s : ConnectionFlow) : ConnectionFlow :=
  s.write s.activePtr { s.activeBridge with isBusy := false }

/-- `SavingCompleted`. Alone among the completions it does not look at the state. -/
def savingCompleted (s : ConnectionFlow) (r : OperationResult) : ConnectionFlow :=
  let s :=
    if r = .success then
      s.feedback .finishSavingSaved (s.persistentData.getAllKnownBridges σ.bridge s.heap)
    else s.feedback .finishSavingFailed
  let s := s.unbusy
  if s.activationRequired σ && s.canActivateStreaming σ then s.activateStreaming σ ω
  else if !s.activationRequired σ && s.activeBridge.isReadyToStream σ.bridge then
    (s.feedback .doneCompleted).finish σ
  else s.finish σ

end ConnectionFlow

end HueStream.Flow
