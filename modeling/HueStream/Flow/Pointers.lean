import HueStream.Flow.Asking

/-! # Pointers to bridges

Every pointer the flow holds points to an object that was created before. So a new object never takes
the place of one that is stored, or that an operation under way is about. -/

namespace HueStream.Flow

open HueStream.Data HueStream.Lib

/-- The bridge a load is for. -/
def LoadCallback.pointer : LoadCallback → Option BridgePtr
  | .retrieve bridge | .setActiveAndRetrieve bridge => some bridge
  | _ => none

/-- The bridge an operation is about. -/
def Operation.pointer : Operation → Option BridgePtr
  | .load callback => callback.pointer
  | .authenticate bridge | .pushLink bridge | .retrieveSmallConfig bridge => some bridge
  | _ => none

/-- All pointers the flow holds are valid. -/
structure Valid (s : ConnectionFlow) : Prop where
  stored : ∀ p ∈ s.persistentData.bridges, p < s.next
  start : s.bridgeStartState < s.next
  background : ∀ p ∈ s.backgroundDiscoveredBridges, p < s.next
  tasks : ∀ task ∈ s.tasks, task.bridge < s.next
  outstanding : ∀ c ∈ s.outstanding, ∀ p, c.operation.pointer = some p → p < s.next

variable {s s' : ConnectionFlow}

theorem mem_setActiveBridge {σ : BridgeSettings} {heap : Heap} {d : HueStreamData}
    {bridge p : BridgePtr} (h : p ∈ (d.setActiveBridge σ heap bridge).bridges) :
    p ∈ d.bridges ∨ p = bridge := by
  unfold HueStreamData.setActiveBridge HueStreamData.bridges at h
  rcases List.mem_append.mp h with h | h
  · have h := List.mem_of_mem_eraseP h
    split_ifs at h
    · exact .inl h
    · exact .inl (List.mem_append.mpr (.inl h))
  · exact .inr (List.mem_singleton.mp h)

namespace Valid

theorem active (h : Valid s) : s.activePtr < s.next := h.stored _ (by simp [HueStreamData.bridges,
  ConnectionFlow.activePtr])

/-- A change of other fields. -/
theorem silent (h : Valid s) {state request ongoingAuthenticationCount authenticationProcessesInfo
    fullConfigRetriever schedulerRunning heap log procedures current reported} :
    Valid { s with
      state, request, ongoingAuthenticationCount, authenticationProcessesInfo, fullConfigRetriever,
      schedulerRunning, heap, log, procedures, current, reported } :=
  ⟨h.stored, h.start, h.background, h.tasks, h.outstanding⟩

theorem setState (h : Valid s) (x : FlowState) : Valid (s.setState x) := h.silent

theorem record (h : Valid s) (a : Act) : Valid (s.record a) := h.silent

@[simp] theorem next_feedbackOn (id : MessageId) (bridge : BridgePtr) (bridges : List BridgePtr) :
    (s.feedbackOn id bridge bridges).next = s.next := by
  rw [ConnectionFlow.feedbackOn_eq]

@[simp] theorem next_feedback (id : MessageId) (bridges : List BridgePtr) :
    (s.feedback id bridges).next = s.next := by
  rw [ConnectionFlow.feedback_eq]

theorem newMessage (h : Valid s) (m : FeedbackMessage) (own : Bool) :
    Valid (s.newMessage m own) := by
  rw [ConnectionFlow.newMessage_eq]
  exact h.silent

theorem feedbackOn (h : Valid s) (id : MessageId) (bridge : BridgePtr) (bridges : List BridgePtr) :
    Valid (s.feedbackOn id bridge bridges) :=
  h.newMessage _ _

theorem feedback (h : Valid s) (id : MessageId) (bridges : List BridgePtr := []) :
    Valid (s.feedback id bridges) :=
  h.newMessage _ _

theorem feedbacks (h : Valid s) (l : List MessageId) :
    Valid (l.foldl (fun s id => s.feedback id) s) := by
  induction l generalizing s with
  | nil => exact h
  | cons id l ih => exact ih (h.feedback id)

theorem alloc (h : Valid s) (b : Bridge) : Valid (s.alloc b) := by
  have hlt : ∀ {p}, p < s.next → p < s.next + 1 := Nat.lt_succ_of_lt
  exact ⟨fun p hp => hlt (h.stored p hp), hlt h.start, fun p hp => hlt (h.background p hp),
    fun task ht => hlt (h.tasks task ht), fun c hc p hp => hlt (h.outstanding c hc p hp)⟩

theorem setPersistentData (h : Valid s) {d : HueStreamData} (hd : ∀ p ∈ d.bridges, p < s.next) :
    Valid (s.setPersistentData d) :=
  ⟨hd, h.start, h.background, h.tasks, h.outstanding⟩

variable (σ : Settings) (ω : Answers)

theorem setActiveBridge (h : Valid s) {bridge : BridgePtr} (hb : bridge < s.next) :
    Valid (s.setActiveBridge σ bridge) := by
  refine h.setPersistentData fun p hp => ?_
  rcases mem_setActiveBridge hp with hp | rfl
  · exact h.stored p hp
  · exact hb

theorem issueFor (h : Valid s) (procedure : Option ℕ) {op : Operation}
    (hop : ∀ p, op.pointer = some p → p < s.next) : Valid (s.issueFor procedure op) := by
  refine ⟨h.stored, h.start, h.background, h.tasks, fun c hc p hp => ?_⟩
  rcases List.mem_append.mp hc with hc | hc
  · exact h.outstanding c hc p hp
  · obtain rfl := List.mem_singleton.mp hc
    exact hop p hp

theorem stopStream (h : Valid s) : Valid (s.stopStream ω) := h.silent

theorem stopIfStreaming (h : Valid s) : Valid (s.stopIfStreaming σ ω) := by
  unfold ConnectionFlow.stopIfStreaming
  split_ifs
  · exact h.stopStream ω
  · exact h

theorem next_stopIfStreaming : (s.stopIfStreaming σ ω).next = s.next := by
  unfold ConnectionFlow.stopIfStreaming
  split_ifs <;> rfl

theorem reportActionRequired (h : Valid s) : Valid (s.reportActionRequired σ) :=
  ((h.feedback .doneActionRequired).feedback _).silent

theorem finish (h : Valid s) : Valid (s.finish σ) := by
  have hidle : Valid (s.setState .idle) := h.silent
  unfold ConnectionFlow.finish
  dsimp only
  split_ifs
  · exact ((hidle.feedbacks _).feedback .userProcedureFinished).silent
  · exact hidle.silent

/-! ### Stages -/

theorem beginLoading (h : Valid s) {callback : LoadCallback}
    (hcb : ∀ p, callback.pointer = some p → p < s.next) : Valid (s.beginLoading callback) := by
  have ht : Valid (((s.feedback .startLoading).setState .loading).record .load) :=
    (h.feedback .startLoading).silent
  refine ht.issueFor _ fun p hp => ?_
  exact (next_feedback (s := s) .startLoading []) ▸ hcb p hp

theorem beginSaving (h : Valid s) : Valid (s.beginSaving σ) := by
  unfold ConnectionFlow.beginSaving
  exact (((h.feedback .startSaving _).setState .saving).record _).issueFor _ nofun

theorem startBridgeSearch (h : Valid s) : Valid s.startBridgeSearch := by
  unfold ConnectionFlow.startBridgeSearch
  exact (((h.feedback .startSearching).setState _).record _).issueFor _ nofun

theorem startAuthentication (h : Valid s) {bridges : List BridgePtr}
    (hb : ∀ p ∈ bridges, p < s.next) : Valid (s.startAuthentication bridges) := by
  have hloop : ∀ (l : List (BridgePtr × ℕ)) (t : ConnectionFlow), Valid t →
      (∀ p ∈ l, p.1 < t.next) → Valid (l.foldl (fun s p => s.authenticateOne p.2 p.1) t) := by
    intro l
    induction l with
    | nil => exact fun t ht _ => ht
    | cons p l ih =>
      intro t ht hl
      refine ih _ (ht.silent.issueFor _ ?_) fun q hq => hl q (by simp [hq])
      rintro _ ⟨⟩
      exact hl p (by simp)
  have hnext : ((s.feedback .startAuthorizing bridges).feedback .pressPushLink bridges).next =
    s.next := by simp
  refine hloop _ _ ((h.feedback .startAuthorizing bridges).feedback .pressPushLink bridges).silent ?_
  intro p hp
  have hlt := hb p.1 (List.fst_mem_of_mem_zipIdx hp)
  exact hnext ▸ hlt

theorem startRetrieveSmallConfig (h : Valid s) {bridge : BridgePtr} (hb : bridge < s.next) :
    Valid (s.startRetrieveSmallConfig bridge) := by
  have hstate : Valid (s.setState .retrieving) := h.silent
  have hmsg := hstate.feedback .startRetrievingSmall
  have hnext : ((s.setState .retrieving).feedback .startRetrievingSmall).next = s.next :=
    next_feedback (s := s.setState .retrieving) _ _
  refine (hmsg.record (.executeSmall bridge)).issueFor _ ?_
  rintro _ ⟨⟩
  exact hnext ▸ hb

theorem startRetrieveFullConfig (h : Valid s) : Valid (s.startRetrieveFullConfig σ ω) := by
  set t : ConnectionFlow := { s.setState .retrieving with
    fullConfigRetriever := some (s.activeBridge.isSupportingClipV2 σ.bridge) }
  have ht : Valid t := h.silent
  have hexec := ht.record (.executeFull s.activePtr)
  have hnone : ∀ p, Operation.retrieveFullConfig.pointer = some p → p < t.next :=
    fun _ hp => by cases hp
  unfold ConnectionFlow.startRetrieveFullConfig
  dsimp only
  split
  · exact (hexec.issueFor _ hnone).feedbackOn _ _ _
  · exact hexec.issueFor _ hnone
  · exact hexec

theorem activateStreaming (h : Valid s) : Valid (s.activateStreaming σ ω) := by
  have ht : Valid ((s.feedback .startActivating).setState .activating) :=
    (h.feedback .startActivating).silent
  have hact : ∀ b, Valid (((((s.feedback .startActivating).setState .activating).record
      (.startStream σ.useRenderThread ((s.feedback .startActivating).setState
        .activating).activePtr)).write
      ((s.feedback .startActivating).setState .activating).activePtr b)) := fun _ => ht.silent
  refine Valid.finish σ ?_
  split_ifs
  · exact ((hact _).feedback .finishActivatingActive).feedback .doneCompleted
  · exact ((hact _).feedback .finishActivatingFailed).reportActionRequired σ

theorem deactivateStreaming (h : Valid s) : Valid (s.deactivateStreaming σ ω) :=
  Valid.finish σ ((h.setState .deactivating).stopStream ω)

theorem clearBridge (h : Valid s) : Valid (s.clearBridge σ) := by
  refine Valid.beginSaving σ (Valid.feedback ?_ .doneReset)
  have halloc := h.alloc {}
  split_ifs
  · refine halloc.setPersistentData fun p hp => ?_
    rcases List.mem_append.mp hp with hp | hp
    · exact halloc.stored p (List.mem_append.mpr (.inl hp))
    · rw [List.mem_singleton.mp hp]
      exact Nat.lt_succ_self _
  · refine halloc.setPersistentData fun p hp => ?_
    rw [List.mem_singleton.mp hp]
    exact Nat.lt_succ_self _
  · exact h

/-! ### User requests -/

theorem of_start {request : RequestType} {f : ConnectionFlow → ConnectionFlow} (h : Valid s)
    (hf : ∀ s₁, Valid s₁ → s.next ≤ s₁.next → Valid (f s₁)) :
    Valid (match s.start request with | none => s | some s₁ => f s₁) := by
  split
  · exact h
  · next s₁ hstart =>
    unfold ConnectionFlow.start at hstart
    set t : ConnectionFlow := { s with
      request, procedures := s.procedures + 1, current := some s.procedures, reported := false }
    have ht : Valid t := h.silent
    split_ifs at hstart
    · obtain rfl := Option.some.inj hstart
      have halloc := (ht.feedback .userProcedureStarted).alloc
        (t.feedback .userProcedureStarted).activeBridge
      have hnext : (t.feedback .userProcedureStarted).next = s.next := next_feedback _ _
      refine hf _ ⟨halloc.stored, Nat.lt_succ_self _, halloc.background, halloc.tasks,
        halloc.outstanding⟩ ?_
      show s.next ≤ (t.feedback .userProcedureStarted).next + 1
      rw [hnext]
      exact Nat.le_succ _
    · obtain rfl := Option.some.inj hstart
      exact hf t ht le_rfl

theorem doConnectToBridge (h : Valid s) : Valid s.doConnectToBridge := by
  refine of_start h fun s₁ h₁ _ => ?_
  split_ifs
  · refine Valid.startAuthentication ?_ h₁.background
    exact ⟨h₁.stored, h₁.start, nofun, h₁.tasks, h₁.outstanding⟩
  · exact h₁.beginLoading nofun

theorem doConnectToBridgeWithIp (h : Valid s) (ipAddress : String) :
    Valid (s.doConnectToBridgeWithIp ipAddress) := by
  refine of_start h fun s₁ h₁ _ => (h₁.alloc _).beginLoading ?_
  rintro _ ⟨⟩
  exact Nat.lt_succ_self _

theorem doConnectToNewBridge (h : Valid s) : Valid (s.doConnectToNewBridge σ ω) := by
  refine of_start h fun s₁ h₁ _ => Valid.beginLoading ?_ nofun
  exact ((h₁.stopIfStreaming σ ω).alloc _).setActiveBridge σ (Nat.lt_succ_self _)

theorem doSetManual (h : Valid s) {bridge : BridgePtr} (hb : bridge < s.next) :
    Valid (s.doSetManual σ ω bridge) := by
  refine of_start h fun s₁ h₁ hle => ?_
  refine Valid.beginLoading (Valid.silent (h₁.stopIfStreaming σ ω)) ?_
  rintro _ ⟨⟩
  show bridge < (s₁.stopIfStreaming σ ω).next
  rw [next_stopIfStreaming]
  exact lt_of_lt_of_le hb hle

theorem doConnectoToBridgeWithIdKey (h : Valid s) (id user clientKey : String) :
    Valid (s.doConnectoToBridgeWithIdKey σ ω id user clientKey) := by
  refine of_start h fun s₁ h₁ _ => ((h₁.stopIfStreaming σ ω).alloc _).beginLoading ?_
  rintro _ ⟨⟩
  exact Nat.lt_succ_self _

theorem doReset (h : Valid s) (onlyActiveBridge : Bool) :
    Valid (s.doReset σ ω onlyActiveBridge) :=
  of_start h fun _ h₁ _ => (h₁.stopIfStreaming σ ω).clearBridge σ

theorem doSelectGroup (h : Valid s) (id : String) : Valid (s.doSelectGroup σ id) := by
  refine of_start h fun s₁ h₁ _ => ?_
  have ht : Valid (s₁.write s₁.activePtr (s₁.activeBridge.selectGroup id).2) := h₁.silent
  dsimp only
  split_ifs
  · exact ht.beginSaving σ
  · exact (ht.reportActionRequired σ).beginSaving σ
  · exact ht.finish σ
  · exact (ht.reportActionRequired σ).finish σ

theorem doAbort (h : Valid s) : Valid (s.doAbort σ) := by
  unfold ConnectionFlow.doAbort
  by_cases hidle : s.state = .idle
  · rw [if_pos hidle]
    exact h
  · rw [if_neg hidle]
    have hsearch : Valid (if s.state = .searchingFirst ∨ s.state = .searchingRetry then
        s.record .abortSearch else s) := by
      split_ifs
      · exact h.silent
      · exact h
    dsimp only
    generalize (if s.state = .searchingFirst ∨ s.state = .searchingRetry then
      s.record .abortSearch else s) = v at hsearch
    have hcount : Valid (if v.state = .authenticating then
        { v with ongoingAuthenticationCount := 0 } else v) := by
      split_ifs
      · exact hsearch.silent
      · exact hsearch
    generalize (if v.state = .authenticating then
      { v with ongoingAuthenticationCount := 0 } else v) = w at hcount
    exact ((hcount.setActiveBridge σ hcount.start).feedback .doneAborted).finish σ

theorem doOnBridgeMonitorEvent (h : Valid s) {message : FeedbackMessage}
    (hm : message.bridge < s.next) : Valid (s.doOnBridgeMonitorEvent σ ω message) := by
  refine ConnectionFlow.doOnBridgeMonitorEvent.eq_1 σ ω s message ▸ ?_
  dsimp only
  split
  · split_ifs
    · exact h.newMessage message false
    · exact h
  · next s₁ hstart =>
    have hle : Valid s₁ ∧ s.next ≤ s₁.next := by
      unfold ConnectionFlow.start at hstart
      split_ifs at hstart with hidle hint
      · exact absurd rfl hint
      · obtain rfl := Option.some.inj hstart
        exact ⟨h.silent, le_rfl⟩
    obtain ⟨h₁, hle⟩ := hle
    set t := s₁.setActiveBridge σ message.bridge
    have ht : Valid t := h₁.setActiveBridge σ (lt_of_lt_of_le hm hle)
    have hstop : Valid (if message.id = .streamingDisconnected then t.stopStream ω else t) := by
      split_ifs
      · exact ht.stopStream ω
      · exact ht
    generalize (if message.id = .streamingDisconnected then t.stopStream ω else t) = u at hstop
    have hrecord : Valid (u.record .refreshBridgeConnection) := hstop.silent
    split_ifs
    · exact hstop.startRetrieveFullConfig σ ω
    · exact (hrecord.beginSaving σ).finish σ
    · exact (hstop.beginSaving σ).finish σ
    · exact (hrecord.newMessage message false).finish σ
    · exact (hstop.newMessage message false).finish σ

end Valid

end HueStream.Flow
