import HueStream.Flow.Alternation

/-! # The bridge of the last message

Who listens to the flow knows it by its messages only. `Shown s` says that the last message sent is about
the active bridge of the flow, and either carries its request or has closed the last procedure. Every stage of
a procedure that changes the active bridge sends such a message after the change (`shown_run`). Two
messages of other threads make the exceptions: one that is only passed on, and a reconnection the configuration
retriever does not take. -/

namespace HueStream.Flow

open HueStream.Data HueStream.Lib

namespace ConnectionFlow

/-- The last message is about the active bridge. -/
def Shown (s : ConnectionFlow) : Prop :=
  ∃ x, (sent s.log).getLast? = some x ∧ x.message.bridge = s.activePtr ∧
    (x.message.requestType = s.request ∨ x.message.id = .userProcedureFinished ∧ s.request = .internal)

variable {s s' : ConnectionFlow} (σ : Settings) (ω : Answers)

theorem Shown.congr (h : Shown s) (hlog : sent s'.log = sent s.log) (hactive : s'.activePtr = s.activePtr)
    (hrequest : s'.request = s.request) : Shown s' := by
  obtain ⟨x, hlast, hbridge, hx⟩ := h
  exact ⟨x, by rw [hlog, hlast], hbridge.trans hactive.symm, by rwa [hrequest]⟩

theorem shown_newMessage (m : FeedbackMessage) (own : Bool) (hbridge : m.bridge = s.activePtr)
    (hrequest : m.requestType = s.request) : Shown (s.newMessage m own) := by
  rw [newMessage_eq]
  exact ⟨⟨m, own⟩, by simp, hbridge, .inl hrequest⟩

theorem shown_feedback (id : MessageId) (bridges : List BridgePtr := []) : Shown (s.feedback id bridges) :=
  shown_newMessage _ _ rfl rfl

theorem Shown.record (h : Shown s) (a : Act) (ha : sent [a] = []) : Shown (s.record a) :=
  h.congr (by simp [ConnectionFlow.record, ha]) rfl rfl

theorem Shown.setState (h : Shown s) (x : FlowState) : Shown (s.setState x) := h.congr rfl rfl rfl

theorem Shown.write (h : Shown s) (p : BridgePtr) (b : Bridge) : Shown (s.write p b) := h.congr rfl rfl rfl

theorem Shown.issueFor (h : Shown s) (procedure : Option ℕ) (op : Operation) :
    Shown (s.issueFor procedure op) := h.congr rfl rfl rfl

/-! ### Stages -/

theorem shown_start {request : RequestType} (h : s.start request = some s')
    (hrequest : request ≠ .internal) : Shown s' := by
  unfold start at h
  split_ifs at h
  obtain rfl := Option.some.inj h
  exact (shown_feedback _).congr rfl rfl rfl

theorem Shown.finish (h : Shown s) : Shown (s.finish σ) := by
  unfold ConnectionFlow.finish
  dsimp only
  split_ifs with hrequest
  · rw [feedback_eq]
    set t := (s.setState .idle).sendDifferences σ
    exact ⟨⟨⟨t.request, .userProcedureFinished, t.activePtr, []⟩, true⟩, by simp, rfl, .inr ⟨rfl, rfl⟩⟩
  · have hint : s.request = .internal := not_not.mp hrequest
    exact h.congr rfl rfl hint.symm

theorem shown_reportActionRequired : Shown (s.reportActionRequired σ) :=
  (shown_feedback _).congr rfl rfl rfl

theorem Shown.stopStream (h : Shown s) : Shown (s.stopStream ω) := (h.record _ rfl).write _ _

theorem Shown.stopIfStreaming (h : Shown s) : Shown (s.stopIfStreaming σ ω) := by
  unfold ConnectionFlow.stopIfStreaming
  split_ifs
  · exact h.stopStream ω
  · exact h

theorem shown_beginLoading (callback : LoadCallback) : Shown (s.beginLoading callback) :=
  (((shown_feedback _).setState _).record _ rfl).issueFor _ _

theorem shown_beginSaving : Shown (s.beginSaving σ) :=
  (((shown_feedback _ _).setState _).record _ rfl).issueFor _ _

theorem shown_startBridgeSearch : Shown s.startBridgeSearch :=
  (((shown_feedback _).setState _).record _ rfl).issueFor _ _

theorem Shown.pushLinkBridge (h : Shown s) (procedure : Option ℕ) (bridge : BridgePtr) :
    Shown (s.pushLinkBridge procedure bridge) := (h.record _ rfl).issueFor _ _

theorem shown_startAuthentication (bridges : List BridgePtr) : Shown (s.startAuthentication bridges) := by
  have hloop : ∀ (l : List (BridgePtr × ℕ)) (t : ConnectionFlow), Shown t →
      Shown (l.foldl (fun s p => s.authenticateOne p.2 p.1) t) := by
    intro l
    induction l with
    | nil => exact fun t ht => ht
    | cons p l ih =>
      intro t ht
      refine ih _ (Shown.pushLinkBridge ?_ t.current _)
      exact ht.congr rfl rfl rfl
  exact hloop _ _ (((shown_feedback _ bridges).setState .authenticating).congr rfl rfl rfl)

theorem shown_startRetrieveSmallConfig (bridge : BridgePtr) : Shown (s.startRetrieveSmallConfig bridge) :=
  ((shown_feedback _).record _ rfl).issueFor _ _

/-- The retriever is asked; a message is sent when it takes the request. -/
theorem shown_startRetrieveFullConfig (h : Shown s ∨ ω.execute = .accepted) :
    Shown (s.startRetrieveFullConfig σ ω) := by
  set t : ConnectionFlow := ({ s.setState .retrieving with
    fullConfigRetriever := some (s.activeBridge.isSupportingClipV2 σ.bridge) }).record
      (.executeFull s.activePtr)
  have ht (h : Shown s) : Shown t := Shown.record (h.congr rfl rfl rfl) _ rfl
  unfold startRetrieveFullConfig
  cases hexecute : ω.execute with
  | accepted => exact shown_newMessage _ _ rfl rfl
  | answered => exact (ht (h.resolve_right (by simp [hexecute]))).issueFor _ _
  | refused => exact ht (h.resolve_right (by simp [hexecute]))

theorem shown_activateStreaming : Shown (s.activateStreaming σ ω) := by
  unfold activateStreaming
  dsimp only
  refine Shown.finish σ ?_
  split_ifs
  · exact shown_feedback _
  · exact shown_reportActionRequired σ

theorem shown_clearBridge : Shown (s.clearBridge σ) := shown_beginSaving σ

/-! ### Requests and events -/

/-- What a listener learns from a function that was queued: the last message is about the active bridge, or
nothing was said and nothing of it changed, or another thread's message was only passed on, or a reconnection
waits for a retriever that did not take it. -/
inductive Tells (s s' : ConnectionFlow) : Prop
  | shown (h : Shown s')
  | same (hlog : sent s'.log = sent s.log) (hactive : s'.activePtr = s.activePtr)
      (hrequest : s'.request = s.request) (hstate : s'.state = s.state)
  | passedOn (hstate : s.state ≠ .idle) (hsame : s'.state = s.state) (hrequest : s'.request = s.request)
      {x : Sent} (hlast : sent s'.log = sent s.log ++ [x]) (hx : x.own = false)
  | untold (hstate : s'.state = .retrieving) (hrequest : s'.request = .internal)
      (hlog : sent s'.log = sent s.log)

theorem Tells.refl : Tells s s := .same rfl rfl rfl rfl

theorem tells_request (i : Input) (hevent : ∀ message, i ≠ .monitorEvent message)
    (hdeliver : ∀ c reply keep, i ≠ .deliver c reply keep) : Tells s (s.handle σ ω i) := by
  cases i with
  | load =>
    simp only [handle, doLoad]
    split
    · exact .refl
    · exact .shown (shown_beginLoading _)
  | connectToBridge =>
    simp only [handle, doConnectToBridge]
    split
    · exact .refl
    · split_ifs
      · exact .shown (shown_startAuthentication _)
      · exact .shown (shown_beginLoading _)
  | connectToBridgeBackground =>
    simp only [handle, doConnectToBridgeBackground]
    split
    · exact .refl
    · exact .shown (shown_beginLoading _)
  | connectToBridgeWithIp ipAddress =>
    simp only [handle, doConnectToBridgeWithIp]
    split
    · exact .refl
    · exact .shown (shown_beginLoading _)
  | connectToNewBridge =>
    simp only [handle, doConnectToNewBridge]
    split
    · exact .refl
    · exact .shown (shown_beginLoading _)
  | setManual bridge =>
    simp only [handle, doSetManual]
    split
    · exact .refl
    · exact .shown (shown_beginLoading _)
  | connectoToBridgeWithIdKey id user clientKey =>
    simp only [handle, doConnectoToBridgeWithIdKey]
    split
    · exact .refl
    · exact .shown (shown_beginLoading _)
  | reset onlyActiveBridge =>
    simp only [handle, doReset]
    split
    · exact .refl
    · exact .shown (shown_clearBridge σ)
  | selectGroup id =>
    simp only [handle, doSelectGroup]
    split
    · exact .refl
    · next s₁ hstart =>
      have hselect := (shown_start hstart (by decide)).write s₁.activePtr (s₁.activeBridge.selectGroup id).2
      split_ifs
      · exact .shown (shown_beginSaving σ)
      · exact .shown (shown_beginSaving σ)
      · exact .shown (hselect.finish σ)
      · exact .shown ((shown_reportActionRequired σ).finish σ)
  | startStream =>
    simp only [handle, doStartStream]
    split
    · exact .refl
    · next hstart => exact .shown (shown_startRetrieveFullConfig σ ω (.inl (shown_start hstart (by decide))))
  | stopStream =>
    simp only [handle, doStopStream]
    split
    · exact .refl
    · next hstart =>
      exact .shown ((((shown_start hstart (by decide)).setState .deactivating).stopStream ω).finish σ)
  | abort =>
    simp only [handle, doAbort]
    split_ifs
    · exact .refl
    all_goals exact .shown ((shown_feedback _).finish σ)
  | timer task => exact .same rfl rfl rfl rfl
  | newBridge bridge => exact .same rfl rfl rfl rfl
  | mutate p bridge => exact .same rfl rfl rfl rfl
  | monitorEvent message => exact absurd rfl (hevent message)
  | deliver c reply keep => exact absurd rfl (hdeliver c reply keep)

/-- A request that the retriever does not take is not announced. -/
theorem untold_startRetrieveFullConfig (h : ω.execute ≠ .accepted) :
    (s.startRetrieveFullConfig σ ω).state = .retrieving ∧
      (s.startRetrieveFullConfig σ ω).request = s.request ∧
        sent (s.startRetrieveFullConfig σ ω).log = sent s.log := by
  unfold startRetrieveFullConfig
  dsimp only
  split
  · next hexecute => exact absurd hexecute h
  · exact ⟨rfl, rfl, by simp [issue, issueFor, ConnectionFlow.record, ConnectionFlow.setState, sent]⟩
  · exact ⟨rfl, rfl, by simp [ConnectionFlow.record, ConnectionFlow.setState, sent]⟩

/-- An event of another thread; all of them are internal. -/
theorem tells_monitorEvent (message : FeedbackMessage) (hm : message.requestType = .internal) :
    Tells s (s.doOnBridgeMonitorEvent σ ω message) := by
  unfold doOnBridgeMonitorEvent
  split
  · next hstart =>
    dsimp only
    split_ifs
    · refine .passedOn (start_eq_none hstart) ?_ ?_ (x := ⟨message, false⟩) ?_ rfl
      · rw [newMessage_eq]
      · rw [newMessage_eq]
      · rw [newMessage_eq]
        simp
    · exact .refl
  · next s₁ hstart =>
    obtain ⟨-, -, hrequest, -, -, hsent⟩ := start_eq_some hstart
    rw [if_pos rfl, List.append_nil] at hsent
    dsimp only
    generalize ht : (if message.id = .streamingDisconnected then
      (s₁.setActiveBridge σ message.bridge).stopStream ω else s₁.setActiveBridge σ message.bridge) = t
    have hactive : t.activePtr = message.bridge := by
      rw [← ht]
      split_ifs <;> rfl
    have hrequest : t.request = .internal := by
      rw [← ht]
      split_ifs <;> exact hrequest
    have hlog : sent t.log = sent s.log := by
      rw [← ht]
      split_ifs
      · have hstop : sent ((s₁.setActiveBridge σ message.bridge).stopStream ω).log = sent s₁.log := by
          simp [ConnectionFlow.stopStream, ConnectionFlow.write, ConnectionFlow.record, setActiveBridge,
            setPersistentData, sent]
        exact hstop.trans hsent
      · exact hsent
    split
    · by_cases hexecute : ω.execute = .accepted
      · exact .shown (shown_startRetrieveFullConfig σ ω (.inr hexecute))
      · obtain ⟨hstate, hsame, hsame'⟩ := untold_startRetrieveFullConfig (s := t) σ ω hexecute
        exact .untold hstate (hsame.trans hrequest) (hsame'.trans hlog)
    generalize hu : (if message.id = .invalidEventingConnection ∧ t.fullConfigRetriever.isSome then
      t.record .refreshBridgeConnection else t) = u
    have hactive' : u.activePtr = message.bridge := by
      rw [← hu]
      split_ifs <;> exact hactive
    have hrequest' : u.request = .internal := by
      rw [← hu]
      split_ifs <;> exact hrequest
    refine .shown (Shown.finish σ ?_)
    split
    · exact shown_beginSaving σ
    · exact shown_newMessage message false hactive'.symm (hm.trans hrequest'.symm)

/-! ### Completions -/

theorem shown_runLoadCallback (h : Shown s) (callback : LoadCallback) :
    Shown (s.runLoadCallback σ callback) := by
  cases callback with
  | finish => exact h.finish σ
  | searchOrRetrieve =>
    simp only [runLoadCallback]
    split_ifs
    · exact shown_startBridgeSearch
    · exact shown_startRetrieveSmallConfig _
  | retrieve bridge => exact shown_startRetrieveSmallConfig _
  | search => exact shown_startBridgeSearch
  | setActiveAndRetrieve bridge => exact shown_startRetrieveSmallConfig _

theorem shown_validBridgesFound (bridges : List BridgePtr) : Shown (s.validBridgesFound σ bridges) := by
  unfold validBridgesFound
  generalize (if s.request ≠ .connectNew then
    s.persistentData.rediscoverKnownBridge σ.bridge s.heap bridges
    else (false, s.heap, s.persistentData)) = r
  dsimp only
  split_ifs
  · exact shown_startRetrieveSmallConfig _
  · exact Shown.finish σ (Shown.congr (shown_feedback _ bridges) rfl rfl rfl)
  · exact shown_startAuthentication _

theorem tells_bridgeSearchCompleted (found : List Bridge) : Tells s (s.bridgeSearchCompleted σ found) := by
  unfold bridgeSearchCompleted
  split_ifs
  · exact .refl
  dsimp only
  split_ifs
  · exact .shown ((shown_feedback _).finish σ)
  · exact .shown shown_startBridgeSearch
  · exact .shown (shown_beginSaving σ)
  · exact .shown (shown_validBridgesFound σ _)
  · exact .shown ((shown_feedback _).finish σ)
  · exact .shown (shown_beginSaving σ)
  · exact .shown (shown_startAuthentication _)

theorem tells_loadingCompleted (callback : LoadCallback) (result : OperationResult) (stored : List Bridge) :
    Tells s (s.loadingCompleted σ callback result stored) := by
  unfold loadingCompleted
  split
  · exact .refl
  dsimp only
  refine .shown (shown_runLoadCallback σ ?_ callback)
  split_ifs
  · exact shown_feedback _ _
  · exact (shown_feedback _).write _ _

theorem tells_authorizedOrRetry (procedure : Option ℕ) (bridge : BridgePtr) :
    Tells s (s.authorizedOrRetry σ ω procedure bridge) := by
  unfold authorizedOrRetry
  split_ifs
  · exact .shown (shown_startRetrieveFullConfig σ ω (.inl (Shown.congr (shown_feedback _ _) rfl rfl rfl)))
  · exact .same rfl rfl rfl rfl

/-- What is told of a flow that differs from this one in other fields only. -/
theorem Tells.of_same {t : ConnectionFlow} (h : Tells t s') (hlog : t.log = s.log)
    (hactive : t.activePtr = s.activePtr) (hrequest : t.request = s.request) (hstate : t.state = s.state) :
    Tells s s' := by
  cases h with
  | shown h => exact .shown h
  | same hlog' hactive' hrequest' hstate' =>
    exact .same (by rw [hlog', hlog]) (hactive'.trans hactive) (hrequest'.trans hrequest)
      (hstate'.trans hstate)
  | passedOn hidle hsame hrequest' hlast hx =>
    exact .passedOn (hstate ▸ hidle) (hsame.trans hstate) (hrequest'.trans hrequest) (hlog ▸ hlast) hx
  | untold hstate' hrequest' hlog' => exact .untold hstate' hrequest' (hlog ▸ hlog')

theorem tells_authenticationCompleted (procedure : Option ℕ) (bridge : BridgePtr) :
    Tells s (s.authenticationCompleted σ ω procedure bridge) := by
  unfold authenticationCompleted
  split
  · exact .refl
  dsimp only
  split_ifs
  · exact (tells_authorizedOrRetry σ ω procedure bridge).of_same rfl rfl rfl rfl
  · exact .shown (Shown.congr shown_startBridgeSearch rfl rfl rfl)
  · exact .same rfl rfl rfl rfl
  · exact (tells_authorizedOrRetry σ ω procedure bridge).of_same rfl rfl rfl rfl

theorem shown_retrieveFailed (bridge : BridgePtr) : Shown (s.retrieveFailed σ bridge) := by
  unfold retrieveFailed
  dsimp only
  split_ifs
  · exact shown_startBridgeSearch
  · exact (shown_feedback _).finish σ
  · exact shown_startAuthentication _
  · exact shown_beginSaving σ

theorem tells_retrieveSmallConfigCompleted (result : OperationResult) (bridge : BridgePtr) :
    Tells s (s.retrieveSmallConfigCompleted σ ω result bridge) := by
  unfold retrieveSmallConfigCompleted
  split_ifs
  · exact .refl
  · exact .shown (shown_retrieveFailed σ bridge)
  have hactive : Shown ((s.feedbackOn .finishRetrievingSmall bridge []).setActiveBridge σ bridge) := by
    rw [feedbackOn_eq]
    refine ⟨⟨⟨s.request, .finishRetrievingSmall, bridge, []⟩, true⟩, ?_, rfl, .inl rfl⟩
    simp [setActiveBridge, setPersistentData]
  dsimp only
  split_ifs
  · exact .shown shown_startBridgeSearch
  · exact .shown (shown_startRetrieveFullConfig σ ω (.inl hactive))
  · exact .shown (shown_startAuthentication _)

theorem tells_retrieveFullConfigCompleted (result : OperationResult) (bridge : BridgePtr) :
    Tells s (s.retrieveFullConfigCompleted σ result bridge) := by
  unfold retrieveFullConfigCompleted
  split
  · exact .refl
  dsimp only
  split_ifs
  · exact .shown (shown_retrieveFailed σ bridge)
  all_goals exact .shown (shown_beginSaving σ)

theorem shown_savingCompleted (result : OperationResult) : Shown (s.savingCompleted σ ω result) := by
  unfold savingCompleted
  have hsaved : Shown (if result = .success then
      s.feedback .finishSavingSaved (s.persistentData.getAllKnownBridges σ.bridge s.heap)
    else s.feedback .finishSavingFailed) := by
    split_ifs
    · exact shown_feedback _ _
    · exact shown_feedback _
  generalize (if result = .success then
      s.feedback .finishSavingSaved (s.persistentData.getAllKnownBridges σ.bridge s.heap)
    else s.feedback .finishSavingFailed) = t at hsaved ⊢
  dsimp only
  split_ifs
  · exact shown_activateStreaming σ ω
  · exact (shown_feedback _).finish σ
  · exact Shown.finish σ (hsaved.write _ _)

theorem tells_complete (c : Completion) (reply : Reply) : Tells s (s.complete σ ω c reply) := by
  obtain ⟨operation, procedure⟩ := c
  cases operation with
  | load callback => exact tells_loadingCompleted σ callback _ _
  | search => exact tells_bridgeSearchCompleted σ _
  | authenticate bridge => exact tells_authenticationCompleted σ ω _ _
  | pushLink bridge =>
    refine .same ?_ rfl rfl rfl
    simp [complete, pushLinkBridge, record, issueFor, sent]
  | retrieveSmallConfig bridge => exact tells_retrieveSmallConfigCompleted σ ω _ _
  | retrieveFullConfig => exact tells_retrieveFullConfigCompleted σ _ _
  | save => exact .shown (shown_savingCompleted σ ω _)

end ConnectionFlow

end HueStream.Flow
