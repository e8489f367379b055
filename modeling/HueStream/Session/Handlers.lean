import HueStream.Retriever.Cache
import HueStream.Session.Reader

/-! # Fetches, refreshes and events

The functions of `BridgeConfigRetriever` that start, continue and end fetches. A result of `none` is
a null pointer, or an iterator past the end, that is dereferenced. -/

/-! ### The state of a session with a bridge

What `BridgeConfigRetriever` keeps about its fetches, its event stream and its callers, together with
the requests that are under way. What the fetched resources and the events say is the matter of the
cache, and so is what it tells the feedback handler about them; here a page or an event is what the
control flow makes of it.

Four fields are not in the source and nothing in it reads them: a fetch request carries the call it
is for (`none` for a refresh), `calls` numbers the calls of `Execute`, `answered` lists the callbacks
that were invoked, and `lastFetch` says what became of the last fetch. -/

namespace HueStream.Session

open HueStream.Data HueStream.Flow HueStream.Retriever

/-- A stage of a fetch. -/
inductive Stage
  | whitelist | applicationId | resource
deriving DecidableEq

/-- A request to the bridge. -/
inductive Request
  | fetch (stage : Stage) (call : Option ℕ)
  | ownerName
  | eventStream
deriving DecidableEq

/-- The request is part of a fetch. -/
def Request.isFetch : Request → Bool
  | .fetch _ _ => true
  | _ => false

/-- What became of the last fetch. -/
inductive FetchStatus
  | none | running | finished | failed
deriving DecidableEq

/-- `BridgeConfigRetriever`. -/
structure BridgeConfigRetriever where
  busy : Bool := false
  connected : Bool := false
  refreshing : Bool := false
  sendFeedback : Bool := false
  sendConnectFeedback : Bool := false
  bridge : Option Bridge := none
  /-- `_cb`, by the number of the call it belongs to. -/
  cb : Option ℕ := none
  eventRequestId : Option ℕ := none
  responseEvent : List Char := []
  /-- `_resourceToGet`; `none` is the end of the list. -/
  resourceToGet : Option Resource := none
  updatingWhiteList : Bool := false
  /-- What went to the feedback handler. -/
  sent : List MessageId := []
  destroyed : Bool := false
  /-- The requests under way, with their ids. -/
  requests : List (ℕ × Request) := []
  /-- The next free request id. -/
  nextRequest : ℕ := 0
  calls : ℕ := 0
  answered : List (ℕ × OperationResult) := []
  lastFetch : FetchStatus := .none

namespace BridgeConfigRetriever

variable (s : BridgeConfigRetriever)

/-- `ExecuteHttpRequest`. -/
def request (r : Request) : BridgeConfigRetriever :=
  { s with requests := s.requests ++ [(s.nextRequest, r)], nextRequest := s.nextRequest + 1 }

/-- `CancelHttpRequest`: the request is over, and its callback does nothing. -/
def cancel (id : ℕ) : BridgeConfigRetriever :=
  { s with requests := s.requests.filter fun r => r.1 ≠ id }

/-- A request is answered for the last time. -/
def close (r : ℕ × Request) : BridgeConfigRetriever :=
  { s with requests := s.requests.erase r }

/-- A callback is invoked, unless there is none. -/
def invoke (call : Option ℕ) (result : OperationResult) : BridgeConfigRetriever :=
  { s with answered := s.answered ++ call.toList.map fun call => (call, result) }

/-- `_bridge` is written. -/
def modifyBridge (f : Bridge → Bridge) : BridgeConfigRetriever :=
  { s with bridge := s.bridge.map f }

/-- The fetches under way. -/
def fetches : List (ℕ × Request) := s.requests.filter fun r => r.2.isFetch

/-- The event streams that are open. -/
def streams : List (ℕ × Request) := s.requests.filter fun r => r.2 = .eventStream

end BridgeConfigRetriever

end HueStream.Session

namespace HueStream.Session

open HueStream.Data HueStream.Flow HueStream.Retriever

/-- What a page of resources means for the fetch: whether it has data, whether there is another page
of the resource, whether its items ask for the name of an unknown owner. -/
structure Page where
  hasData : Bool := true
  cursor : Bool := false
  asksOwner : Bool := false

/-- How a request is answered. For the white list, `unauthorized` is an error of that type or a
configuration without a white list; elsewhere it is status 401 or 403. -/
inductive Answer
  | error (canceled : Bool)
  | unauthorized
  | otherError
  | ok (page : Page)

/-- What an event means for the control flow: whether it is an array, which `ParseJsonEvent` wants,
and whether it asks for the name of an unknown owner. -/
structure EventOutcome where
  isArray : Bool := true
  asksOwner : Bool := false

namespace BridgeConfigRetriever

variable (s : BridgeConfigRetriever)

/-! ### Starting -/

/-- `Abort`. -/
def abort : BridgeConfigRetriever :=
  match s.eventRequestId with
  | none => s
  | some id => { s.cancel id with eventRequestId := none }

/-- `OnBridgeDisconnect`. -/
def onBridgeDisconnect : BridgeConfigRetriever :=
  if s.connected then
    { ({ s with connected := false }).abort with sendFeedback := false, sendConnectFeedback := true }
  else s

/-- The first part of `DoExecute`: another bridge is a disconnect of the one before. -/
def changeBridge (bridge : Bridge) : BridgeConfigRetriever :=
  if s.bridge.any fun current => current.id ≠ bridge.id then s.onBridgeDisconnect else s

/-- `DoExecute`: whether a fetch was started. A bridge that is connected is answered from the
cache. -/
def doExecute (bridge : Bridge) (call : Option ℕ) : Option (Bool × BridgeConfigRetriever) :=
  let s := s.changeBridge bridge
  if s.connected then do
    let current ← s.bridge
    let result := if !current.isAuthorized || !current.isValidIp then .failed else .success
    some (false, { s.invoke call result with busy := false })
  else
    some (true, ({ s with
      connected := true, bridge := some bridge, cb := call, lastFetch := .running }).request
        (.fetch .whitelist call))

/-- `Execute`. A caller who finds the retriever busy waits; one who has waited ten seconds is told
that it failed. -/
def execute (bridge : Bridge) : Option BridgeConfigRetriever :=
  let call := some s.calls
  let s := { s with calls := s.calls + 1 }
  if s.busy then some (s.invoke call .failed)
  else (({ s with busy := true }).doExecute bridge call).map Prod.snd

/-- `RefreshBridgeConnection`. -/
def refreshBridgeConnection : Option BridgeConfigRetriever :=
  if s.busy then some s
  else
    let s := { s with busy := true }
    if s.refreshing || !s.connected then some s
    else do
      let s := { ({ s with connected := false }).abort with
        sendFeedback := false, sendConnectFeedback := false, refreshing := true }
      let (started, s) ← s.doExecute (← s.bridge) none
      some (if started then s else { s with refreshing := false })

/-! ### Ending -/

/-- `Finish`, up to the flags it releases. -/
def report (result : OperationResult) : BridgeConfigRetriever :=
  let connected := if result = .failed && s.cb.isSome then false else s.connected
  let tells := s.sendConnectFeedback && connected
  { s.invoke s.cb result with
    connected
    sendConnectFeedback := s.sendConnectFeedback && !tells
    sent := if tells then s.sent ++ [.bridgeConnected] else s.sent }

/-- `Finish`. -/
def finish (result : OperationResult) (unBusy : Bool := true) : BridgeConfigRetriever :=
  if unBusy then { s.report result with busy := false, refreshing := false } else s.report result

/-- `Finish(OPERATION_FAILED)` of a fetch. -/
def fail : BridgeConfigRetriever := { s.finish .failed with lastFetch := .failed }

/-- `ListenToEvents`. -/
def listenToEvents : BridgeConfigRetriever :=
  { s.request .eventStream with eventRequestId := some s.nextRequest }

/-- The end of `OnGetResource`, after the last page of the last resource. -/
def complete : BridgeConfigRetriever :=
  let s := { s.finish .success false with cb := none, sendFeedback := true, lastFetch := .finished }
  let s := if s.refreshing then
      { s with
        refreshing := false
        sent := s.sent ++
          [.bridgeRefreshed, .zonelistUpdated, .grouplistUpdated, .zoneScenelistUpdated] }
    else s
  { s.listenToEvents with busy := false }

/-! ### The stages of a fetch -/

/-- `GetOwnerName` for an owner the white list does not have: one refresh of the white list at a
time. -/
def askOwnerName : BridgeConfigRetriever :=
  if s.updatingWhiteList then s else { s with updatingWhiteList := true }.request .ownerName

/-- `UpdateWhitelist`, when it has failed: what it makes of the bridge. -/
def rejectWhitelist (answer : Answer) : BridgeConfigRetriever :=
  s.modifyBridge fun b => match answer with
    | .unauthorized => { b with isAuthorized := false, isValidIp := true }
    | _ => { b with isValidIp := false }

/-- `UpdateWhitelist`, when it has succeeded. -/
def acceptWhitelist : BridgeConfigRetriever :=
  s.modifyBridge fun b => { b with isAuthorized := true, isValidIp := true }

/-- `ValidateHttpRequestStatus`, when it is `false`: what it makes of the bridge. -/
def rejectStatus (answer : Answer) : BridgeConfigRetriever :=
  s.modifyBridge fun b => match answer with
    | .unauthorized => { b with isAuthorized := false }
    | .otherError => { b with isValidIp := false }
    | _ => b

/-- The white list of a fetch is answered. -/
def onWhitelist (call : Option ℕ) (answer : Answer) : BridgeConfigRetriever :=
  match answer with
  | .ok _ => s.acceptWhitelist.request (.fetch .applicationId call)
  | _ => (s.rejectWhitelist answer).fail

/-- `GetFullConfig`. -/
def getFullConfig (call : Option ℕ) : BridgeConfigRetriever :=
  { s.modifyBridge fun b => { b with groups := [], zones := [] } with
    resourceToGet := some .device }.request (.fetch .resource call)

/-- The application id of a fetch is answered. -/
def onApplicationId (call : Option ℕ) (answer : Answer) : BridgeConfigRetriever :=
  match answer with
  | .ok _ => s.getFullConfig call
  | _ => (s.rejectStatus answer).fail

/-- `OnGetResource`. -/
def onGetResource (call : Option ℕ) (page : Page) : Option BridgeConfigRetriever :=
  if !page.hasData then
    some (s.modifyBridge fun b => { b with isValidIp := false }).fail
  else do
    let resource ← s.resourceToGet
    let s := if page.asksOwner then s.askOwnerName else s
    match if page.cursor then some resource else resource.next with
    | some next => some ({ s with resourceToGet := some next }.request (.fetch .resource call))
    | none => some { s with resourceToGet := none }.complete

/-- A page of a fetch is answered. -/
def onResource (call : Option ℕ) (answer : Answer) : Option BridgeConfigRetriever :=
  match answer with
  | .ok page => s.onGetResource call page
  | _ => some (s.rejectStatus answer).fail

/-! ### Outside a fetch -/

/-- The white list that `GetOwnerName` has asked for is answered. -/
def onOwnerName (answer : Answer) : BridgeConfigRetriever :=
  match answer with
  | .ok _ => { s.acceptWhitelist with updatingWhiteList := false }
  | _ => (s.rejectWhitelist answer).finish .failed

/-- The event stream has ended; a cancelled one makes no difference. -/
def onStreamEnd (answer : Answer) : BridgeConfigRetriever :=
  match answer with
  | .error true => s
  | _ => s.finish .failed

/-- One event. -/
def onEvent (outcome : EventOutcome) : BridgeConfigRetriever :=
  (if outcome.asksOwner then s.askOwnerName else s).finish
    (if outcome.isArray then .success else .failed)

/-- A piece of the event stream: `ParseEventResponseAndExecuteCallback`. -/
def onChunk (isValid : List Char → Bool) (bytes : List Char)
    (outcome : List Char → EventOutcome) : BridgeConfigRetriever :=
  let (payloads, responseEvent) := readEvents isValid (s.responseEvent ++ bytes)
  payloads.foldl (fun s payload => s.onEvent (outcome payload)) { s with responseEvent }

end BridgeConfigRetriever

end HueStream.Session
