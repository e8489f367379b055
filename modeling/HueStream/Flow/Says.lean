import HueStream.Flow.Handlers
import HueStream.Lib.Lists
import HueStream.Lib.Run

/-! # What the handlers say and where they leave the flow

`Says ids s s'` describes the way from `s` to `s'` by the messages sent on it: they have the ids
`ids`, in this order, and the flow's own ones carry the request of `s`, which stays. It composes
(`Says.trans`), so that what a handler says is read off its stages. How a handler ends is its
`Outcome`: the flow goes on with another stage, starts to save, or finishes the procedure. -/

/-! ### The connection flow as a machine

One step is one function the message dispatcher runs, or something the rest of the program does
meanwhile: the scheduler fires a pushlink task, somebody creates a bridge object or writes one. A
completion may be delivered as long as it is outstanding; when `keep` is set it stays outstanding, so
that runs with duplicate completions are runs too. -/

namespace HueStream.Flow

open HueStream.Data HueStream.Lib

/-- A message the bridge monitor or the configuration retriever sends on its own. -/
def MessageId.isMonitorEvent : MessageId → Bool
  | .bridgeConnected | .bridgeDisconnected | .streamingConnected | .streamingDisconnected
  | .bridgeChanged | .lightsUpdated | .grouplistUpdated | .groupLightstateUpdated
  | .zonelistUpdated | .zoneScenelistUpdated | .invalidEventingConnection | .bridgeRefreshed
  | .selectGroup => true
  | _ => false

/-- What an asynchronous operation hands to its completion: a result, the bridges that were read or
found, or the bridge that was configured. -/
structure Reply where
  result : OperationResult := .success
  bridges : List Bridge := []
  bridge : BridgePtr := 0

/-- What can happen next. -/
inductive Input
  | load
  | connectToBridge
  | connectToBridgeBackground
  | connectToBridgeWithIp (ipAddress : String)
  | connectToNewBridge
  | setManual (bridge : BridgePtr)
  | connectoToBridgeWithIdKey (id user clientKey : String)
  | reset (onlyActiveBridge : Bool)
  | selectGroup (id : String)
  | startStream
  | stopStream
  | abort
  | monitorEvent (message : FeedbackMessage)
  /-- An operation answers. -/
  | deliver (c : Completion) (reply : Reply) (keep : Bool)
  /-- The scheduler runs a pushlink task. -/
  | timer (task : SchedulerTask)
  /-- Somebody else creates a bridge object. -/
  | newBridge (bridge : Bridge)
  /-- Somebody else writes a bridge object. -/
  | mutate (p : BridgePtr) (bridge : Bridge)

namespace ConnectionFlow

variable (σ : Settings) (ω : Answers)

/-- What may happen: pointers point to objects, completions are outstanding, tasks scheduled. -/
def enabled (s : ConnectionFlow) : Input → Bool
  | .setManual bridge => bridge < s.next
  | .monitorEvent message => message.bridge < s.next && message.id.isMonitorEvent
  | .deliver c reply _ => c ∈ s.outstanding && reply.bridge < s.next
  | .timer task => s.schedulerRunning && task ∈ s.tasks
  | .mutate p _ => p < s.next
  | _ => true

/-- The completion handler of an operation. -/
def complete (s : ConnectionFlow) (c : Completion) (reply : Reply) : ConnectionFlow :=
  match c.operation with
  | .load callback => s.loadingCompleted σ callback reply.result reply.bridges
  | .search => s.bridgeSearchCompleted σ reply.bridges
  | .authenticate bridge => s.authenticationCompleted σ ω c.procedure bridge
  | .pushLink bridge => s.pushLinkBridge c.procedure bridge
  | .retrieveSmallConfig bridge => s.retrieveSmallConfigCompleted σ ω reply.result bridge
  | .retrieveFullConfig => s.retrieveFullConfigCompleted σ reply.result reply.bridge
  | .save => s.savingCompleted σ ω reply.result

/-- The completion leaves the outstanding ones, unless it will come again. -/
def take (s : ConnectionFlow) (c : Completion) (keep : Bool) : ConnectionFlow :=
  { s with outstanding := if keep then s.outstanding else s.outstanding.erase c }

/-- `SchedulerPushlinkTimedOut`: the task is over and its call of `PushLinkBridge` is dispatched. -/
def schedulerPushlinkTimedOut (s : ConnectionFlow) (task : SchedulerTask) : ConnectionFlow :=
  { s with tasks := s.tasks.erase task }.issueFor task.procedure (.pushLink task.bridge)

/-- One input. -/
def handle (s : ConnectionFlow) : Input → ConnectionFlow
  | .load => s.doLoad
  | .connectToBridge => s.doConnectToBridge
  | .connectToBridgeBackground => s.doConnectToBridgeBackground
  | .connectToBridgeWithIp ipAddress => s.doConnectToBridgeWithIp ipAddress
  | .connectToNewBridge => s.doConnectToNewBridge σ ω
  | .setManual bridge => s.doSetManual σ ω bridge
  | .connectoToBridgeWithIdKey id user clientKey =>
    s.doConnectoToBridgeWithIdKey σ ω id user clientKey
  | .reset onlyActiveBridge => s.doReset σ ω onlyActiveBridge
  | .selectGroup id => s.doSelectGroup σ id
  | .startStream => s.doStartStream σ ω
  | .stopStream => s.doStopStream σ ω
  | .abort => s.doAbort σ
  | .monitorEvent message => s.doOnBridgeMonitorEvent σ ω message
  | .deliver c reply keep => (s.take c keep).complete σ ω c reply
  | .timer task => s.schedulerPushlinkTimedOut task
  | .newBridge bridge => s.alloc bridge
  | .mutate p bridge => s.write p bridge

/-- One step, with what the rest of the program answers in it. -/
def step (s : ConnectionFlow) (l : Input × Answers) : Option ConnectionFlow :=
  if s.enabled l.1 then some (s.handle σ l.2 l.1) else none

end ConnectionFlow

/-- The connection flow under given settings. -/
def machine (σ : Settings) : Machine ConnectionFlow (Input × Answers) where
  Init s := s = .init
  step s l := s.step σ l

end HueStream.Flow

namespace HueStream.Flow

open HueStream.Data HueStream.Lib

/-- A message that was sent, and whether it is one of the flow's own. -/
structure Sent where
  message : FeedbackMessage
  own : Bool
deriving DecidableEq

/-- The messages among the acts of a log. -/
def sent (log : List Act) : List Sent :=
  log.filterMap fun
    | .message m own => some ⟨m, own⟩
    | _ => none

@[simp] theorem sent_nil : sent [] = [] := rfl

@[simp] theorem sent_append (l l' : List Act) : sent (l ++ l') = sent l ++ sent l' :=
  List.filterMap_append

@[simp] theorem sent_sending (s : ConnectionFlow) (m : FeedbackMessage) (own : Bool) :
    sent (s.sending m own) = [⟨m, own⟩] := by
  unfold ConnectionFlow.sending
  split_ifs <;> rfl

/-- `ID_USERPROCEDURE_STARTED` and `ID_USERPROCEDURE_FINISHED`. -/
def MessageId.isBracket : MessageId → Bool
  | .userProcedureStarted | .userProcedureFinished => true
  | _ => false

/-- A message within a procedure that is no verdict about it. -/
def MessageId.isPlain (id : MessageId) : Bool := !id.isBracket && !id.isTerminal

theorem MessageId.isPlain_of_isFinish {id : MessageId} (h : id.isFinish = true) :
    id.isPlain = true := by
  cases id <;> first | rfl | cases h

theorem MessageId.isPlain_of_isDifference {id : MessageId} (h : id.isDifference = true) :
    id.isPlain = true := by
  cases id <;> first | rfl | cases h

theorem MessageId.isPlain_of_isMonitorEvent {id : MessageId} (h : id.isMonitorEvent = true) :
    id.isPlain = true := by
  cases id <;> first | rfl | cases h

theorem MessageId.isBracket_of_isTerminal {id : MessageId} (h : id.isTerminal = true) :
    id.isBracket = false := by
  cases id <;> first | rfl | cases h

theorem MessageId.isTerminal_of_isPlain {id : MessageId} (h : id.isPlain = true) :
    id.isTerminal = false := by
  cases id <;> first | rfl | cases h

theorem MessageId.isBracket_of_isPlain {id : MessageId} (h : id.isPlain = true) :
    id.isBracket = false := by
  cases id <;> first | rfl | cases h

/-- The way from `s` to `s'` by the messages sent on it. -/
structure Says (ids : List MessageId) (s s' : ConnectionFlow) : Prop where
  request : s'.request = s.request
  current : s'.current = s.current
  reported : s'.reported = (s.reported || decide (MessageId.doneActionRequired ∈ ids))
  log : s.log <+: s'.log
  sent : ∃ ms : List Sent, sent s'.log = sent s.log ++ ms ∧ ms.map (·.message.id) = ids ∧
    ∀ x ∈ ms, x.own = true → x.message.requestType = s.request

namespace Says

variable {ids ids' : List MessageId} {s s' s'' : ConnectionFlow}

theorem refl : Says [] s s :=
  ⟨rfl, rfl, by simp, List.prefix_rfl, [], by simp⟩

theorem trans (h : Says ids s s') (h' : Says ids' s' s'') : Says (ids ++ ids') s s'' := by
  obtain ⟨ms, hms, rfl, hreq⟩ := h.sent
  obtain ⟨ms', hms', rfl, hreq'⟩ := h'.sent
  refine ⟨h'.request.trans h.request, h'.current.trans h.current, ?_, h.log.trans h'.log,
    ms ++ ms', ?_, ?_, ?_⟩
  · rw [h'.reported, h.reported]
    simp [Bool.or_assoc]
  · rw [hms', hms, List.append_assoc]
  · rw [List.map_append]
  · intro x hx hown
    rcases List.mem_append.mp hx with hx | hx
    · exact hreq x hx hown
    · exact (hreq' x hx hown).trans h.request

/-- A way on which nothing is said. -/
theorem congr (h : Says ids s s') (hreq : s''.request = s'.request)
    (hcur : s''.current = s'.current) (hrep : s''.reported = s'.reported)
    (hlog : s''.log = s'.log) : Says ids s s'' := by
  refine ⟨hreq.trans h.request, hcur.trans h.current, hrep.trans h.reported, hlog ▸ h.log, ?_⟩
  rw [hlog]
  exact h.sent

/-- An act that is no message. -/
theorem act (h : Says ids s s') (a : Act) (ha : Flow.sent [a] = []) :
    Says ids s (s'.record a) := by
  refine ⟨h.request, h.current, h.reported, h.log.trans (List.prefix_append _ _), ?_⟩
  have hsent : Flow.sent (s'.record a).log = Flow.sent s'.log := by
    simp [ConnectionFlow.record, ha]
  rw [hsent]
  exact h.sent

/-- A message; the own ones carry the request. -/
theorem newMessage (h : Says ids s s') (m : FeedbackMessage) (own : Bool)
    (hown : own = true → m.requestType = s.request)
    (hm : m.id ≠ .doneActionRequired ∨ s'.reported = true) :
    Says (ids ++ [m.id]) s (s'.newMessage m own) := by
  rw [ConnectionFlow.newMessage_eq]
  refine h.trans ⟨rfl, rfl, ?_, List.prefix_append _ _, [⟨m, own⟩], by simp, rfl, ?_⟩
  · rcases hm with hm | hm
    · simp [hm.symm]
    · simp [hm]
  · intro x hx hxown
    obtain rfl := List.mem_singleton.mp hx
    exact (hown hxown).trans h.request.symm

theorem feedbackOn (h : Says ids s s') (id : MessageId) (bridge : BridgePtr)
    (bridges : List BridgePtr)
    (hid : id ≠ .doneActionRequired ∨ s'.reported = true) :
    Says (ids ++ [id]) s (s'.feedbackOn id bridge bridges) :=
  h.newMessage ⟨s'.request, id, bridge, bridges⟩ true (fun _ => h.request) hid

theorem feedback (h : Says ids s s') (id : MessageId) (bridges : List BridgePtr)
    (hid : id ≠ .doneActionRequired ∨ s'.reported = true) :
    Says (ids ++ [id]) s (s'.feedback id bridges) :=
  h.feedbackOn id _ _ hid

end Says

/-! ### Speaking within a procedure -/

/-- On the way from `s` to `s'` no procedure starts or finishes, and `n` messages are terminal. -/
def Speaks (n : ℕ) (s s' : ConnectionFlow) : Prop :=
  ∃ ids, Says ids s s' ∧ (∀ id ∈ ids, id.isBracket = false) ∧
    ids.countP MessageId.isTerminal = n

namespace Speaks

variable {n k : ℕ} {s s' s'' : ConnectionFlow}

theorem refl : Speaks 0 s s := ⟨[], .refl, by simp, rfl⟩

theorem trans (h : Speaks n s s') (h' : Speaks k s' s'') : Speaks (n + k) s s'' := by
  obtain ⟨ids, hspeak, hbr, rfl⟩ := h
  obtain ⟨ids', hspeak', hbr', rfl⟩ := h'
  refine ⟨ids ++ ids', hspeak.trans hspeak', fun id hid => ?_, List.countP_append⟩
  exact (List.mem_append.mp hid).elim (hbr id) (hbr' id)

theorem request (h : Speaks n s s') : s'.request = s.request := by
  obtain ⟨ids, hspeak, -⟩ := h
  exact hspeak.request

theorem current (h : Speaks n s s') : s'.current = s.current := by
  obtain ⟨ids, hspeak, -⟩ := h
  exact hspeak.current

theorem log (h : Speaks n s s') : s.log <+: s'.log := by
  obtain ⟨ids, hspeak, -⟩ := h
  exact hspeak.log

/-- Without a terminal message nothing is reported. -/
theorem reported (h : Speaks 0 s s') : s'.reported = s.reported := by
  obtain ⟨ids, hspeak, -, hcount⟩ := h
  rw [hspeak.reported, decide_eq_false (fun hmem => ?_), Bool.or_false]
  exact List.countP_eq_zero.mp hcount _ hmem rfl

theorem congr (h : Speaks n s s') (hreq : s''.request = s'.request)
    (hcur : s''.current = s'.current) (hrep : s''.reported = s'.reported)
    (hlog : s''.log = s'.log) : Speaks n s s'' := by
  obtain ⟨ids, hspeak, h⟩ := h
  exact ⟨ids, hspeak.congr hreq hcur hrep hlog, h⟩

/-- A change of other fields. -/
theorem silent (h : Speaks n s s') {state ongoingAuthenticationCount backgroundDiscoveredBridges
    persistentData bridgeStartState authenticationProcessesInfo fullConfigRetriever schedulerRunning
    tasks heap next outstanding procedures} :
    Speaks n s { s' with
      state, ongoingAuthenticationCount, backgroundDiscoveredBridges, persistentData,
      bridgeStartState, authenticationProcessesInfo, fullConfigRetriever, schedulerRunning, tasks,
      heap, next, outstanding, procedures } :=
  h.congr rfl rfl rfl rfl

theorem setState (h : Speaks n s s') (x : FlowState) : Speaks n s (s'.setState x) := h.silent

theorem act (h : Speaks n s s') (a : Act) (ha : Flow.sent [a] = []) :
    Speaks n s (s'.record a) := by
  obtain ⟨ids, hspeak, h⟩ := h
  exact ⟨ids, hspeak.act a ha, h⟩

theorem of_says {id : MessageId} (h : Speaks n s s') (hspeak : Says [id] s' s'')
    (hid : id.isPlain = true) : Speaks n s s'' := by
  have hone : Speaks 0 s' s'' := by
    refine ⟨[id], hspeak, ?_, by simp [MessageId.isTerminal_of_isPlain hid]⟩
    simpa using MessageId.isBracket_of_isPlain hid
  exact h.trans hone

theorem feedbackOn (h : Speaks n s s') (id : MessageId) (hid : id.isPlain = true)
    (bridge : BridgePtr) (bridges : List BridgePtr) :
    Speaks n s (s'.feedbackOn id bridge bridges) :=
  h.of_says (Says.refl.feedbackOn id bridge bridges (.inl fun h => by simp [h] at hid; cases hid))
    hid

theorem feedback (h : Speaks n s s') (id : MessageId) (hid : id.isPlain = true)
    (bridges : List BridgePtr := []) : Speaks n s (s'.feedback id bridges) :=
  h.feedbackOn id hid _ bridges

/-- A message that somebody else's event is forwarded by. -/
theorem forward (h : Speaks n s s') (m : FeedbackMessage) (hm : m.id.isPlain = true) :
    Speaks n s (s'.newMessage m false) :=
  h.of_says (Says.refl.newMessage m false nofun (.inl fun h => by rw [h] at hm; cases hm)) hm

/-- A terminal message other than the one `reportActionRequired` sends. -/
theorem terminal (h : Speaks n s s') (id : MessageId) (hid : id.isTerminal = true)
    (hne : id ≠ .doneActionRequired) (bridges : List BridgePtr := []) :
    Speaks (n + 1) s (s'.feedback id bridges) := by
  refine h.trans ⟨[id], Says.refl.feedback id bridges (.inl hne), ?_, by simp [hid]⟩
  simpa using MessageId.isBracket_of_isTerminal hid

/-- `compareBridges` names the messages that `finish` sends one by one. -/
theorem feedbacks (h : Speaks n s s') (l : List MessageId) (hl : ∀ id ∈ l, id.isPlain = true) :
    Speaks n s (l.foldl (fun s id => s.feedback id) s') := by
  induction l generalizing s' with
  | nil => exact h
  | cons id l ih =>
    exact ih (h.feedback id (hl id (by simp))) fun id' hid' => hl id' (by simp [hid'])

variable (σ : Settings)

theorem reportActionRequired_eq : s.reportActionRequired σ =
    ({ s with reported := true }.feedback .doneActionRequired).feedback
      (ConnectionFlow.actionMessage (s.activeBridge.getStatus σ.bridge)) := by
  simp only [ConnectionFlow.reportActionRequired, ConnectionFlow.feedback_eq,
    ConnectionFlow.activeBridge, ConnectionFlow.activePtr, ConnectionFlow.sending]

theorem isPlain_actionMessage (status : BridgeStatus) :
    (ConnectionFlow.actionMessage status).isPlain = true := by
  cases status <;> rfl

/-- `ReportActionRequired` sends one terminal message and one that says which action. -/
theorem reportActionRequired (h : Speaks n s s') : Speaks (n + 1) s (s'.reportActionRequired σ) ∧
    (s'.reportActionRequired σ).reported = true := by
  set t : ConnectionFlow := { s' with reported := true }
  set id := ConnectionFlow.actionMessage (s'.activeBridge.getStatus σ.bridge)
  have hplain : id.isPlain = true := isPlain_actionMessage _
  have hdone : Says [.doneActionRequired] t (t.feedback .doneActionRequired) :=
    Says.refl.feedback _ [] (.inr rfl)
  have hboth : Says [.doneActionRequired, id] t (s'.reportActionRequired σ) := by
    rw [reportActionRequired_eq]
    exact hdone.feedback id [] (.inr (by rw [hdone.reported]; rfl))
  have hrep : (s'.reportActionRequired σ).reported = true := by
    rw [hboth.reported]
    rfl
  refine ⟨h.trans ⟨[.doneActionRequired, id], ⟨hboth.request, hboth.current, ?_, hboth.log, hboth.sent⟩, ?_, ?_⟩,
    hrep⟩
  · rw [hrep, decide_eq_true (by simp), Bool.or_true]
  · have := MessageId.isBracket_of_isPlain hplain
    simp only [List.mem_cons, List.not_mem_nil, or_false]
    rintro x (rfl | rfl)
    · rfl
    · exact this
  · rw [List.countP_cons, List.countP_singleton, MessageId.isTerminal_of_isPlain hplain]
    rfl

end Speaks

end HueStream.Flow
