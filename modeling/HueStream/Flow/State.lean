import HueStream.Flow.Message

/-! # The state of the connection flow

`ConnectionFlow` holds the fields of the class, the bridge objects, the asynchronous operations that
have not answered yet (`outstanding`), the pushlink tasks of the scheduler, and everything the flow
did so far (`log`, the oldest first).

Three fields are not in the source. They record the past of a run and nothing reads them:

* `procedures` counts the procedures that were started;
* `current` is the number of the procedure that is under way;
* `reported` says whether `reportActionRequired` ran in it.

Every outstanding operation carries the number of the procedure that issued it. -/

namespace HueStream.Flow

open HueStream.Data

/-- What the flow reads of `AppSettings` and `BridgeSettings`. -/
structure Settings where
  bridge : BridgeSettings := {}
  autoStartAtConnection : Bool := true
  useRenderThread : Bool := true

/-- The continuation `StartLoading` is given. -/
inductive LoadCallback
  | finish
  | searchOrRetrieve
  | retrieve (bridge : BridgePtr)
  | search
  | setActiveAndRetrieve (bridge : BridgePtr)
deriving DecidableEq

/-- An asynchronous operation. -/
inductive Operation
  | load (callback : LoadCallback)
  | search
  | authenticate (bridge : BridgePtr)
  | pushLink (bridge : BridgePtr)
  | retrieveSmallConfig (bridge : BridgePtr)
  | retrieveFullConfig
  | save
deriving DecidableEq

/-- An operation and the procedure that issued it. -/
structure Completion where
  operation : Operation
  procedure : Option ℕ
deriving DecidableEq

/-- A pushlink retry in the scheduler. -/
structure SchedulerTask where
  id : ℤ
  bridge : BridgePtr
  procedure : Option ℕ
deriving DecidableEq

/-- What the flow does to the rest of the program. -/
inductive Act
  /-- A message to the feedback callback; `own` tells the flow's messages from forwarded ones. -/
  | message (m : FeedbackMessage) (own : Bool)
  /-- The same message to the full configuration retriever. -/
  | retrieverEvent (m : FeedbackMessage)
  | load
  | searchNew (bruteForce : Bool)
  | abortSearch
  | authenticate (bridge : BridgePtr)
  | executeSmall (bridge : BridgePtr)
  | executeFull (bridge : BridgePtr)
  | refreshBridgeConnection
  | save (bridges : List Bridge)
  | startStream (withRenderThread : Bool) (bridge : BridgePtr)
  | stopStream (bridge : BridgePtr)

/-- `AuthenticationProcessInfo`. -/
structure AuthenticationProcessInfo where
  failedTries : ℕ := 0
  bridgeNumber : ℤ := -1
deriving DecidableEq

/-- `ConnectionFlow`. -/
structure ConnectionFlow where
  state : FlowState
  request : RequestType
  ongoingAuthenticationCount : ℕ
  backgroundDiscoveredBridges : List BridgePtr
  persistentData : HueStreamData
  bridgeStartState : BridgePtr
  authenticationProcessesInfo : AList fun _ : BridgePtr => AuthenticationProcessInfo
  /-- Whether the full configuration retriever held is one for ClipV2. -/
  fullConfigRetriever : Option Bool
  schedulerRunning : Bool
  tasks : List SchedulerTask
  heap : Heap
  /-- The next free pointer. -/
  next : BridgePtr
  outstanding : List Completion
  log : List Act
  procedures : ℕ
  current : Option ℕ
  reported : Bool

namespace ConnectionFlow

/-- The flow as its constructor leaves it: one empty stored bridge and one for the start state. -/
def init : ConnectionFlow where
  state := .idle
  request := .internal
  ongoingAuthenticationCount := 0
  backgroundDiscoveredBridges := []
  persistentData := .clear 0
  bridgeStartState := 1
  authenticationProcessesInfo := ∅
  fullConfigRetriever := none
  schedulerRunning := false
  tasks := []
  heap := fun _ => {}
  next := 2
  outstanding := []
  log := []
  procedures := 0
  current := none
  reported := false

/-- `_persistentData->GetActiveBridge()`. -/
def activePtr (s : ConnectionFlow) : BridgePtr := s.persistentData.active

/-- The object `_persistentData->GetActiveBridge()` points to. -/
def activeBridge (s : ConnectionFlow) : Bridge := s.heap s.activePtr

/-! ### Elementary changes -/

def setState (s : ConnectionFlow) (x : FlowState) : ConnectionFlow := { s with state := x }

def record (s : ConnectionFlow) (a : Act) : ConnectionFlow := { s with log := s.log ++ [a] }

/-- Writes the object a pointer points to. -/
def write (s : ConnectionFlow) (p : BridgePtr) (b : Bridge) : ConnectionFlow :=
  { s with heap := Function.update s.heap p b }

/-- `std::make_shared<Bridge>`: the flow with a new object at `s.next`. -/
def alloc (s : ConnectionFlow) (b : Bridge) : ConnectionFlow :=
  { s with heap := Function.update s.heap s.next b, next := s.next + 1 }

def setPersistentData (s : ConnectionFlow) (d : HueStreamData) : ConnectionFlow :=
  { s with persistentData := d }

/-- `_persistentData->SetActiveBridge(bridge)`. -/
def setActiveBridge (s : ConnectionFlow) (σ : Settings) (bridge : BridgePtr) : ConnectionFlow :=
  s.setPersistentData (s.persistentData.setActiveBridge σ.bridge s.heap bridge)

/-- An operation is under way, for the given procedure. -/
def issueFor (s : ConnectionFlow) (procedure : Option ℕ) (op : Operation) : ConnectionFlow :=
  { s with outstanding := s.outstanding ++ [⟨op, procedure⟩] }

/-- An operation is under way, for the current procedure. -/
def issue (s : ConnectionFlow) (op : Operation) : ConnectionFlow := s.issueFor s.current op

/-- `NewMessage`. -/
def newMessage (s : ConnectionFlow) (m : FeedbackMessage) (own : Bool) : ConnectionFlow :=
  let s := s.record (.message m own)
  if s.fullConfigRetriever.isSome then s.record (.retrieverEvent m) else s

/-- `NewMessage(FeedbackMessage(_request, id, bridge, bridges))`. -/
def feedbackOn (s : ConnectionFlow) (id : MessageId) (bridge : BridgePtr)
    (bridges : List BridgePtr) : ConnectionFlow :=
  s.newMessage ⟨s.request, id, bridge, bridges⟩ true

/-- `NewMessage(FeedbackMessage(_request, id, _persistentData->GetActiveBridge(), bridges))`. -/
def feedback (s : ConnectionFlow) (id : MessageId) (bridges : List BridgePtr := []) :
    ConnectionFlow :=
  s.feedbackOn id s.activePtr bridges

/-! ### What a message changes -/

variable {s : ConnectionFlow}

/-- The acts that sending a message is. -/
def sending (s : ConnectionFlow) (m : FeedbackMessage) (own : Bool) : List Act :=
  .message m own :: if s.fullConfigRetriever.isSome then [.retrieverEvent m] else []

theorem newMessage_eq (m : FeedbackMessage) (own : Bool) :
    s.newMessage m own = { s with log := s.log ++ s.sending m own } := by
  unfold newMessage record sending
  dsimp only
  split_ifs <;> simp

theorem feedbackOn_eq (id : MessageId) (bridge : BridgePtr) (bridges : List BridgePtr) :
    s.feedbackOn id bridge bridges =
      { s with log := s.log ++ s.sending ⟨s.request, id, bridge, bridges⟩ true } :=
  newMessage_eq _ _

theorem feedback_eq (id : MessageId) (bridges : List BridgePtr) :
    s.feedback id bridges =
      { s with log := s.log ++ s.sending ⟨s.request, id, s.activePtr, bridges⟩ true } :=
  newMessage_eq _ _

@[simp] theorem feedback_state (id : MessageId) (bridges : List BridgePtr) :
    (s.feedback id bridges).state = s.state := by
  rw [feedback_eq]

end ConnectionFlow

end HueStream.Flow
