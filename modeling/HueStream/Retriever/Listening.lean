import HueStream.Retriever.Streaming

/-! # The end of the stream over a run

A retriever listens to the event messages of its bridge and hears of the procedures of the connection
flow, which opens one at a time. It is created within a procedure where that needs a full config, so
an open one need not have been announced to it. -/

namespace HueStream.Retriever

open HueStream.Data HueStream.Flow HueStream.Json HueStream.Lib

/-- The requests that start or stop a stream. -/
def isStreamRequest : RequestType → Bool
  | .activate | .deactivate => true
  | _ => false

/-- `OnBridgeMonitorEvent`, for the messages about procedures. -/
def onBridgeMonitorEvent (c : Cache) (request : RequestType) (id : MessageId) : Cache :=
  if id = .userProcedureStarted && isStreamRequest request then
    { c with canSendStreamingDisconnectedEvent := false }
  else if id = .userProcedureFinished && isStreamRequest request then
    { c with canSendStreamingDisconnectedEvent := true }
  else c

/-- A retriever, and the procedure that is open. -/
structure Listener where
  cache : Cache := {}
  procedure : Option RequestType := none

/-- What a retriever is told: an event message, a procedure that starts or finishes. `elsewhere` is
everything between that touches the bridge or the cache; the permission is written by
`OnBridgeMonitorEvent` alone. -/
inductive News
  | event (root : JSONNode)
  | started (request : RequestType)
  | finished
  | elsewhere (cache : Cache)

variable (ε : Context)

namespace Listener

/-- The permission is given at first, whatever procedure the retriever has been created in. -/
def Init (s : Listener) : Prop := s.cache.canSendStreamingDisconnectedEvent = true

def step (s : Listener) : News → Option Listener
  | .event root => (parseJsonEvent ε s.cache root).map fun cache => { s with cache }
  | .started request =>
    if s.procedure = none && request ≠ .internal then
      some { cache := onBridgeMonitorEvent s.cache request .userProcedureStarted
             procedure := some request }
    else none
  | .finished => s.procedure.map fun request =>
    { cache := onBridgeMonitorEvent s.cache request .userProcedureFinished, procedure := none }
  | .elsewhere cache => some { s with cache := { cache with
      canSendStreamingDisconnectedEvent := s.cache.canSendStreamingDisconnectedEvent } }

/-- Whether an activate or a deactivate procedure is open. -/
def isSwitching (s : Listener) : Bool := s.procedure.any isStreamRequest

/-- Whether the bridge is streaming. -/
def isStreaming (s : Listener) : Bool := s.cache.bridge.isStreaming ε.settings

/-- The message is handled with the right idea of the stream: an open procedure has been announced to the
retriever, and, if the retriever may report, the changes of the bridge itself that the message holds leave
it streaming or not, as it was. -/
def SeesStream (s : Listener) : News → Prop
  | .event root =>
    (s.isSwitching = true → s.cache.canSendStreamingDisconnectedEvent = false) ∧
    (s.cache.canSendStreamingDisconnectedEvent = true → ∀ c ∈ bridgeHandled ε s.cache root,
      c.bridge.isStreaming ε.settings = s.isStreaming ε)
  | _ => True

instance (s : Listener) : DecidablePred (s.SeesStream ε)
  | .event root => inferInstanceAs (Decidable (
    (s.isSwitching = true → s.cache.canSendStreamingDisconnectedEvent = false) ∧
    (s.cache.canSendStreamingDisconnectedEvent = true → ∀ c ∈ bridgeHandled ε s.cache root,
      c.bridge.isStreaming ε.settings = s.isStreaming ε)))
  | .started _ | .finished | .elsewhere _ => inferInstanceAs (Decidable True)

end Listener

/-- The listener as a machine. -/
def listener : Machine Listener News where
  Init := Listener.Init
  step := Listener.step ε

/-- The end of the stream is reported once by the message that ends it while neither an activate nor a
deactivate procedure is open, and by no other message. -/
def ReportsEnd (t : Transition Listener News) : Prop :=
  ∀ root, t.label = .event root → t.after.cache.disconnects = t.before.cache.disconnects +
    if t.before.isStreaming ε && !t.after.isStreaming ε && !t.before.isSwitching then 1 else 0

variable {ε} {s s' : Listener}

/-! ### Runs -/

theorem canSend_onBridgeMonitorEvent_started (c : Cache) (request : RequestType) :
    (onBridgeMonitorEvent c request .userProcedureStarted).canSendStreamingDisconnectedEvent =
      (c.canSendStreamingDisconnectedEvent && !isStreamRequest request) := by
  cases hrequest : isStreamRequest request <;> simp [onBridgeMonitorEvent, hrequest]

theorem canSend_onBridgeMonitorEvent_finished (c : Cache) (request : RequestType) :
    (onBridgeMonitorEvent c request .userProcedureFinished).canSendStreamingDisconnectedEvent =
      (c.canSendStreamingDisconnectedEvent || isStreamRequest request) := by
  cases hrequest : isStreamRequest request <;> simp [onBridgeMonitorEvent, hrequest]

/-- The permission is missing only while one of the two procedures is open. -/
def Listener.Permitted (s : Listener) : Prop :=
  (s.cache.canSendStreamingDisconnectedEvent || s.isSwitching) = true

theorem permitted_of_init (h : s.Init) : s.Permitted := by
  have hcan : s.cache.canSendStreamingDisconnectedEvent = true := h
  rw [Listener.Permitted, hcan, Bool.true_or]

/-- An event leaves the permission and the procedure as they were. -/
theorem step_event {root : JSONNode} (h : s.step ε (.event root) = some s') :
    s'.procedure = s.procedure ∧
      s'.cache.canSendStreamingDisconnectedEvent = s.cache.canSendStreamingDisconnectedEvent ∧
      (root.isArray = false → s' = s) ∧
      (root.isArray = true → ∃ c ∈ bridgeHandled ε s.cache root,
        s'.cache.disconnects = s.cache.disconnects +
          if s.cache.canSendStreamingDisconnectedEvent && c.bridge.isStreaming ε.settings &&
            !s'.isStreaming ε then 1 else 0) := by
  simp only [Listener.step, Option.map_eq_some_iff] at h
  obtain ⟨c', hc', rfl⟩ := h
  cases harray : root.isArray with
  | true =>
    obtain ⟨c, hc, hcan, hcount⟩ := parseJsonEvent_reports harray hc'
    exact ⟨rfl, hcan, fun h => absurd h (by decide), fun _ => ⟨c, hc, hcount⟩⟩
  | false =>
    obtain rfl : s.cache = c' := by simpa [parseJsonEvent, harray] using hc'
    exact ⟨rfl, rfl, fun _ => rfl, fun h => absurd h (by decide)⟩

theorem permitted_of_step {news : News} (h : s.step ε news = some s') (hs : s.Permitted) :
    s'.Permitted := by
  unfold Listener.Permitted at hs ⊢
  cases news with
  | event root =>
    obtain ⟨hprocedure, hcan, -⟩ := step_event h
    rw [hcan, Listener.isSwitching, hprocedure]
    exact hs
  | started request =>
    simp only [Listener.step] at h
    split_ifs at h with hidle
    obtain rfl := Option.some.inj h
    rw [Bool.and_eq_true, decide_eq_true_eq] at hidle
    rw [Listener.isSwitching, hidle.1, Option.any_none, Bool.or_false] at hs
    rw [canSend_onBridgeMonitorEvent_started, hs, Bool.true_and]
    exact Bool.not_or_self _
  | finished =>
    simp only [Listener.step, Option.map_eq_some_iff] at h
    obtain ⟨request, hrequest, rfl⟩ := h
    rw [canSend_onBridgeMonitorEvent_finished]
    rw [Listener.isSwitching, hrequest] at hs
    simpa [Listener.isSwitching] using hs
  | elsewhere cache =>
    obtain rfl := Option.some.inj h
    exact hs

/-- **One message** that is handled with the right idea of the stream reports as it should. -/
theorem reportsEnd_of_step {news : News} (h : s.step ε news = some s') (hs : s.Permitted)
    (hsees : s.SeesStream ε news) : ReportsEnd ε ⟨s, news, s'⟩ := by
  rintro root rfl
  obtain ⟨-, -, hother, harray⟩ := step_event h
  obtain ⟨hannounced, hstream⟩ := hsees
  cases hroot : root.isArray with
  | false =>
    obtain rfl := hother hroot
    simp
  | true =>
    obtain ⟨c, hc, hcount⟩ := harray hroot
    rw [hcount]
    cases hcan : s.cache.canSendStreamingDisconnectedEvent with
    | true =>
      have hidle : s.isSwitching = false := by
        by_contra hopen
        have := hannounced (by simpa using hopen)
        rw [hcan] at this
        cases this
      rw [hstream hcan c hc, hidle, Bool.true_and, Bool.not_false, Bool.and_true]
    | false =>
      have hopen : s.isSwitching = true := by
        rw [Listener.Permitted, hcan, Bool.false_or] at hs
        exact hs
      rw [hopen, Bool.false_and, Bool.false_and, Bool.not_true, Bool.and_false]

/-- **The end of the stream is reported as it should be** by every message of a run whose messages are all
handled with the right idea of the stream. -/
theorem reportsEnd_of_seesStream {ts : List (Transition Listener News)}
    (hrun : (listener ε).Run ts s) (hsees : ∀ t ∈ ts, t.before.SeesStream ε t.label) :
    ∀ t ∈ ts, ReportsEnd ε t := by
  intro t ht
  obtain ⟨hstep, us, -, hbefore⟩ := hrun.reaches_before ht
  have hpermitted : t.before.Permitted :=
    hbefore.invariant (fun s hs => permitted_of_init hs) fun s l s' h hs => permitted_of_step h hs
  exact reportsEnd_of_step hstep hpermitted (hsees t ht)

/-! ### A bridge that is streaming -/

/-- The selected group of the bridge, which streams for this application. -/
def streamingGroup : Group := { id := "group", active := true, owner := "app" }

/-- A bridge that is streaming. -/
def streamingBridge : Bridge :=
  { id := "1", modelId := "BSB002", ipAddress := "10.0.0.1", apiversion := "1.24.0", user := "user"
    clientKey := "0123456789ABCDEF0123456789ABCDEF", isValidIp := true, isAuthorized := true
    appId := "app", groups := [streamingGroup], selectedGroup := "group", maxNoStreamingSessions := 1 }

/-- The device of the bridge, with this service. -/
def bridgeWithModel : JSONNode := .node [("id", .string "device"),
  ("product_data", .node [("model_id", .string "BSB002")]),
  ("services", .array [.node [("rid", .string "bridge"), ("rtype", .string "bridge")]])]

/-- A listener on a bridge that is streaming. -/
def streamingListener (procedure : Option RequestType) : Listener :=
  { cache := { bridge := streamingBridge, allDeviceMap := JSONNodeMap.put ∅ "device" bridgeWithModel
               resourceToGet := none, sendFeedback := true }
    procedure }

/-- An event message with one change. -/
def messageWith (type : String) (data : List (String × JSONNode)) : JSONNode :=
  .array [.node [("type", .string type), ("data", .array [.node data])]]

/-- Somebody else has stopped the stream of the group. -/
def groupStopped : JSONNode := messageWith "update"
  [("id", .string "group"), ("type", .string "entertainment_configuration"),
    ("status", .string "inactive")]

/-- The bridge is added again, without its own id. -/
def bridgeAddedAgain : JSONNode := messageWith "add"
  [("id", .string "bridge"), ("type", .string "bridge")]

/-- After a procedure has come and gone, the message that ends the stream reports it, and the next one
does not. -/
theorem reportsEnd_of_seesStream_example : ∃ ts s, (listener {}).Run ts s ∧
    (∀ t ∈ ts, ReportsEnd {} t) ∧ s.cache.disconnects = 1 := by
  obtain ⟨ts, s, hrun, h⟩ := Machine.exists_run (M := listener {}) (s := streamingListener none)
    [.started .activate, .finished, .event groupStopped, .event groupStopped]
    (fun ts s => (ts.all fun t => decide (t.before.SeesStream {} t.label)) &&
      decide (s.cache.disconnects = 1)) rfl (by decide +kernel)
  rw [Bool.and_eq_true, List.all_eq_true, decide_eq_true_eq] at h
  obtain ⟨hsees, hcount⟩ := h
  exact ⟨ts, s, hrun, reportsEnd_of_seesStream hrun fun t ht => of_decide_eq_true (hsees t ht), hcount⟩

/-- The one message of a run misreports the end of the stream: so the counts say. -/
theorem not_reportsEnd_of_any {s : Listener} {root : JSONNode}
    (hcan : s.cache.canSendStreamingDisconnectedEvent = true)
    (h : (s.step {} (.event root)).any (fun s' => decide (s'.cache.disconnects ≠
      s.cache.disconnects + if s.isStreaming {} && !s'.isStreaming {} && !s.isSwitching
        then 1 else 0)) = true) :
    ∃ t s', (listener {}).Run [t] s' ∧ t.before = s ∧ t.label = .event root ∧ ¬ ReportsEnd {} t := by
  obtain ⟨s', hstep, hne⟩ := (Option.any_eq_true _ _).mp h
  have hrun : (listener {}).Run [⟨s, .event root, s'⟩] s' := (Machine.Run.init hcan).step hstep
  exact ⟨_, s', hrun, rfl, rfl, fun hreports => of_decide_eq_true hne (hreports root rfl)⟩

/-- A bridge that is added again without its id ends the stream, which is not reported; and a stream that
ends within an activate procedure is reported, if the retriever was created in that procedure. -/
theorem exists_not_reportsEnd :
    (∃ t s, (listener {}).Run [t] s ∧ t.before = streamingListener none ∧
      t.label = .event bridgeAddedAgain ∧ ¬ ReportsEnd {} t) ∧
    ∃ t s, (listener {}).Run [t] s ∧ t.before = streamingListener (some .activate) ∧
      t.label = .event groupStopped ∧ ¬ ReportsEnd {} t :=
  ⟨not_reportsEnd_of_any rfl (by decide +kernel), not_reportsEnd_of_any rfl (by decide +kernel)⟩

end HueStream.Retriever
