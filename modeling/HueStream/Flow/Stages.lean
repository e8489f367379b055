import HueStream.Flow.Frame

/-! # The stages of a procedure

Apart from the answers of the authenticator, every handler ends with the beginning of a stage or with
the end of the procedure (`Stage`), and up to this last call it leaves the frame. So a step is quiet,
or starts a stage (`handle_stage`, `complete_stage`). -/

namespace HueStream.Flow

open HueStream.Data HueStream.Lib

variable {s s' : ConnectionFlow}

/-- The last call of a handler, of a flow that was in the state `x` before. -/
inductive Stage (σ : Settings) (ω : Answers) (x : FlowState) (s : ConnectionFlow) :
    ConnectionFlow → Prop
  | load (callback : LoadCallback) : Stage σ ω x s (s.beginLoading callback)
  | search : Stage σ ω x s s.startBridgeSearch
  | authenticate (bridges : List BridgePtr) (hne : bridges ≠ []) (hnodup : bridges.Nodup)
      (hx : x ≠ .authenticating) : Stage σ ω x s (s.startAuthentication bridges)
  | retrieveSmall (bridge : BridgePtr) : Stage σ ω x s (s.startRetrieveSmallConfig bridge)
  | retrieveFull : Stage σ ω x s (s.startRetrieveFullConfig σ ω)
  | save : Stage σ ω x s (s.beginSaving σ)
  | saveAside : Stage σ ω x s ((s.beginSaving σ).finish σ)
  | finish {s' : ConnectionFlow} (h : Frame s s') (hidle : s'.state = .idle) : Stage σ ω x s s'

/-- A handler that ends with the next stage. -/
def Continues (σ : Settings) (ω : Answers) (s s' : ConnectionFlow) : Prop :=
  ∃ u, Frame s u ∧ Stage σ ω s.state u s'

variable {σ : Settings} {ω : Answers}

theorem Frame.continues {u : ConnectionFlow} (h : Frame s u) (hstage : Stage σ ω s.state u s') :
    Continues σ ω s s' :=
  ⟨u, h, hstage⟩

/-- Nothing happens that concerns the stages. -/
def Quiet (s s' : ConnectionFlow) : Prop := Frame s s' ∧ s'.state = s.state

namespace ConnectionFlow

/-! ### User requests -/

theorem state_of_start {request : RequestType} (h : s.start request = some s') :
    s.state = .idle :=
  (start_eq_some h).1

variable (σ : Settings) (ω : Answers)

/-- A request is ignored, or what it does is done by what follows `Start`. -/
theorem of_start {request : RequestType} {f : ConnectionFlow → ConnectionFlow}
    (h : ∀ s₁, s.state = .idle → Frame s s₁ → Continues σ ω s (f s₁)) :
    Quiet s (match s.start request with | none => s | some s₁ => f s₁) ∨
      Continues σ ω s (match s.start request with | none => s | some s₁ => f s₁) := by
  split
  · exact .inl ⟨.refl, rfl⟩
  · next s₁ hstart => exact .inr (h s₁ (state_of_start hstart) (Frame.start hstart))

theorem stage_doLoad : Quiet s s.doLoad ∨ Continues σ ω s s.doLoad :=
  of_start σ ω fun _ _ hs₁ => hs₁.continues (.load _)

theorem stage_doConnectToBridge (hnodup : s.backgroundDiscoveredBridges.Nodup) :
    Quiet s s.doConnectToBridge ∨ Continues σ ω s s.doConnectToBridge := by
  refine of_start σ ω fun s₁ hidle hs₁ => ?_
  split_ifs with hne
  · exact (hs₁.discovered List.nodup_nil).continues
      (.authenticate _ hne (hs₁.background hnodup) (by simp [hidle]))
  · exact hs₁.continues (.load _)

theorem stage_doConnectToBridgeBackground :
    Quiet s s.doConnectToBridgeBackground ∨ Continues σ ω s s.doConnectToBridgeBackground :=
  of_start σ ω fun _ _ hs₁ => hs₁.continues (.load _)

theorem stage_doConnectToBridgeWithIp (ipAddress : String) :
    Quiet s (s.doConnectToBridgeWithIp ipAddress) ∨
      Continues σ ω s (s.doConnectToBridgeWithIp ipAddress) :=
  of_start σ ω fun s₁ _ hs₁ => (hs₁.silent : Frame s (s₁.alloc _)).continues (.load _)

theorem stage_doConnectToNewBridge :
    Quiet s (s.doConnectToNewBridge σ ω) ∨ Continues σ ω s (s.doConnectToNewBridge σ ω) := by
  refine of_start σ ω fun s₁ _ hs₁ => ?_
  have hstop := hs₁.stopIfStreaming σ ω
  set u := s₁.stopIfStreaming σ ω
  have hactive : Frame s ((u.alloc {}).setActiveBridge σ u.next) := hstop.silent
  exact hactive.continues (.load _)

theorem stage_doSetManual (bridge : BridgePtr) :
    Quiet s (s.doSetManual σ ω bridge) ∨ Continues σ ω s (s.doSetManual σ ω bridge) := by
  refine of_start σ ω fun s₁ _ hs₁ => ?_
  have hstop := hs₁.stopIfStreaming σ ω
  set u := s₁.stopIfStreaming σ ω
  have hwrite : Frame s
      (u.write bridge { u.heap bridge with isValidIp := true, isAuthorized := true }) :=
    hstop.silent
  exact hwrite.continues (.load _)

theorem stage_doConnectoToBridgeWithIdKey (id user clientKey : String) :
    Quiet s (s.doConnectoToBridgeWithIdKey σ ω id user clientKey) ∨
      Continues σ ω s (s.doConnectoToBridgeWithIdKey σ ω id user clientKey) := by
  refine of_start σ ω fun s₁ _ hs₁ => ?_
  have hstop := hs₁.stopIfStreaming σ ω
  set u := s₁.stopIfStreaming σ ω
  have halloc : ∀ bridge, Frame s (u.alloc bridge) := fun _ => hstop.silent
  exact (halloc _).continues (.load _)

theorem continues_clearBridge (h : Frame s s') : Continues σ ω s (s'.clearBridge σ) := by
  refine Frame.continues (Frame.feedback ?_ .doneReset (by decide)) .save
  split_ifs
  · exact h.silent
  · exact h.silent
  · exact h

theorem stage_doReset (onlyActiveBridge : Bool) :
    Quiet s (s.doReset σ ω onlyActiveBridge) ∨ Continues σ ω s (s.doReset σ ω onlyActiveBridge) :=
  of_start σ ω fun _ _ hs₁ => continues_clearBridge σ ω (hs₁.stopIfStreaming σ ω)

theorem stage_doSelectGroup (id : String) :
    Quiet s (s.doSelectGroup σ id) ∨ Continues σ ω s (s.doSelectGroup σ id) := by
  refine of_start σ ω fun s₁ _ hs₁ => ?_
  have ht : Frame s (s₁.write s₁.activePtr (s₁.activeBridge.selectGroup id).2) := hs₁.silent
  dsimp only
  split_ifs
  · exact ht.continues .save
  · exact (ht.reportActionRequired σ).continues .save
  · exact Frame.refl.continues (.finish (ht.finish σ) (finishes_finish σ .refl).state)
  · exact Frame.refl.continues
      (.finish ((ht.reportActionRequired σ).finish σ) (finishes_finish σ .refl).state)

theorem stage_doStartStream :
    Quiet s (s.doStartStream σ ω) ∨ Continues σ ω s (s.doStartStream σ ω) :=
  of_start σ ω fun _ _ hs₁ => hs₁.continues .retrieveFull

theorem stage_doStopStream :
    Quiet s (s.doStopStream σ ω) ∨ Continues σ ω s (s.doStopStream σ ω) :=
  of_start σ ω fun _ _ hs₁ => Frame.refl.continues
    (.finish (hs₁.deactivateStreaming σ ω) (finishes_deactivateStreaming σ ω .refl).state)

/-- An abort during the authentication gives up all its bridges. -/
theorem stage_doAbort : (s.state = .idle ∧ s.doAbort σ = s) ∨ (s.state ≠ .idle ∧
    Frame (if s.state = .authenticating then { s with ongoingAuthenticationCount := 0 } else s)
      (s.doAbort σ) ∧ (s.doAbort σ).state = .idle) := by
  unfold doAbort
  by_cases hidle : s.state = .idle
  · exact .inl ⟨hidle, if_pos hidle⟩
  refine .inr ⟨hidle, ?_⟩
  rw [if_neg hidle]
  have hv : Frame s (if s.state = .searchingFirst ∨ s.state = .searchingRetry then
      s.record .abortSearch else s) ∧ (if s.state = .searchingFirst ∨ s.state = .searchingRetry then
      s.record .abortSearch else s).state = s.state := by
    split_ifs
    · exact ⟨Frame.refl.act .abortSearch rfl rfl, rfl⟩
    · exact ⟨.refl, rfl⟩
  dsimp only
  generalize (if s.state = .searchingFirst ∨ s.state = .searchingRetry then
    s.record .abortSearch else s) = v at hv
  obtain ⟨hframe, hstate⟩ := hv
  have hw : Frame (if s.state = .authenticating then { s with ongoingAuthenticationCount := 0 } else s)
      (if v.state = .authenticating then { v with ongoingAuthenticationCount := 0 } else v) := by
    by_cases hauth : s.state = .authenticating
    · rw [if_pos hauth, if_pos (hstate.trans hauth)]
      exact ⟨hframe.outstanding, hframe.tasks, hframe.schedulerRunning, rfl, hframe.info,
        hframe.retriever, hframe.background, hframe.executions, hframe.sent⟩
    · rw [if_neg hauth, if_neg fun h => hauth (hstate.symm.trans h)]
      exact hframe
  generalize (if v.state = .authenticating then
    { v with ongoingAuthenticationCount := 0 } else v) = w at hw
  have hactive : Frame _ (w.setActiveBridge σ w.bridgeStartState) := hw.silent
  exact ⟨(hactive.feedback .doneAborted (by decide)).finish σ, (finishes_finish σ .refl).state⟩

theorem stage_doOnBridgeMonitorEvent (message : FeedbackMessage)
    (hm : message.id.isMonitorEvent = true) :
    Quiet s (s.doOnBridgeMonitorEvent σ ω message) ∨
      Continues σ ω s (s.doOnBridgeMonitorEvent σ ω message) := by
  have hid : message.id ≠ .finishAuthorizingFailed := by
    rintro heq
    rw [heq] at hm
    cases hm
  unfold doOnBridgeMonitorEvent
  split
  · dsimp only
    split_ifs
    · exact .inl ⟨Frame.refl.newMessage message false hid, by rw [newMessage_eq]⟩
    · exact .inl ⟨.refl, rfl⟩
  · next s₁ hstart =>
    refine .inr ?_
    set t := s₁.setActiveBridge σ message.bridge
    have ht : Frame s t := Frame.silent (Frame.start hstart)
    have hstop : Frame s (if message.id = .streamingDisconnected then t.stopStream ω else t) := by
      split_ifs
      · exact ht.stopStream ω
      · exact ht
    dsimp only
    generalize (if message.id = .streamingDisconnected then t.stopStream ω else t) = u at hstop
    split_ifs
    · exact hstop.continues .retrieveFull
    · exact (hstop.act .refreshBridgeConnection rfl rfl).continues .saveAside
    · exact hstop.continues .saveAside
    · exact Frame.refl.continues (.finish
        (((hstop.act .refreshBridgeConnection rfl rfl).newMessage message false hid).finish σ)
        (finishes_finish σ .refl).state)
    · exact Frame.refl.continues (.finish ((hstop.newMessage message false hid).finish σ)
        (finishes_finish σ .refl).state)

/-! ### Completions -/

theorem continues_runLoadCallback {u : ConnectionFlow} (h : Frame s u) (callback : LoadCallback) :
    Continues σ ω s (u.runLoadCallback σ callback) := by
  cases callback with
  | finish => exact Frame.refl.continues (.finish (h.finish σ) (finishes_finish σ .refl).state)
  | searchOrRetrieve =>
    unfold runLoadCallback
    split_ifs
    · exact h.continues .search
    · exact h.continues (.retrieveSmall _)
  | retrieve bridge => exact h.continues (.retrieveSmall _)
  | search => exact h.continues .search
  | setActiveAndRetrieve bridge =>
    exact (Frame.silent h : Frame s (u.setActiveBridge σ bridge)).continues (.retrieveSmall _)

theorem continues_loadingCompleted (h : s.state = .loading) (callback : LoadCallback)
    (result : OperationResult) (stored : List Bridge) :
    Continues σ ω s (s.loadingCompleted σ callback result stored) := by
  rw [loadingCompleted, if_neg (by simp [h])]
  have ht := (Frame.refl (s := s).allocAll stored).adoptData (s.allocAll stored).2
  dsimp only
  split_ifs
  · exact continues_runLoadCallback σ ω (ht.feedback .finishLoadingBridgeConfigured (by decide) _) callback
  · exact continues_runLoadCallback σ ω
      (Frame.silent (ht.feedback .finishLoadingNoBridgeConfigured (by decide))) callback

theorem sublist_filterInvalidAndDuplicateIpAddresses (heap : Heap) (bridges : List BridgePtr) :
    (filterInvalidAndDuplicateIpAddresses heap bridges).Sublist bridges := by
  have hloop : ∀ l unique : List BridgePtr, (l.foldl (fun unique x =>
      if (heap x).isValidIp && !unique.any (fun arg => (heap arg).ipAddress = (heap x).ipAddress)
      then unique ++ [x] else unique) unique).Sublist (unique ++ l) := by
    intro l
    induction l with
    | nil => simp
    | cons x l ih =>
      intro unique
      rw [List.foldl_cons]
      refine (ih _).trans ?_
      split_ifs
      · simp
      · exact (List.sublist_cons_self x l).append_left unique
  exact hloop bridges []

theorem nodup_found (heap : Heap) (found : List Bridge) :
    (filterInvalidAndDuplicateIpAddresses heap (s.allocAll found).2).Nodup :=
  (sublist_filterInvalidAndDuplicateIpAddresses heap _).nodup List.nodup_range'

theorem continues_validBridgesFound {u : ConnectionFlow} (h : Frame s u) {bridges : List BridgePtr}
    (hne : bridges ≠ []) (hnodup : bridges.Nodup) (hx : s.state ≠ .authenticating) :
    Continues σ ω s (u.validBridgesFound σ bridges) := by
  unfold validBridgesFound
  generalize (if u.request ≠ .connectNew then
    u.persistentData.rediscoverKnownBridge σ.bridge u.heap bridges
    else (false, u.heap, u.persistentData)) = r
  obtain ⟨rediscovered, heap, data⟩ := r
  set t : ConnectionFlow := { u with heap, persistentData := data }
  have ht : Frame s t := h.silent
  dsimp only
  split_ifs
  · exact ht.continues (.retrieveSmall _)
  · exact Frame.refl.continues (.finish
      (((ht.feedback .doneBridgeFound (by decide) bridges).discovered hnodup).finish σ)
      (finishes_finish σ .refl).state)
  · exact ht.continues (.authenticate bridges hne hnodup hx)

theorem continues_bridgeSearchCompleted (h : s.state = .searchingFirst ∨ s.state = .searchingRetry)
    (found : List Bridge) : Continues σ ω s (s.bridgeSearchCompleted σ found) := by
  have hx : s.state ≠ .authenticating := by
    rcases h with h | h
    · simp [h]
    · simp [h]
  have hnodup := nodup_found (s := s) (s.allocAll found).1.heap found
  have hu : Frame s (s.allocAll found).1 := Frame.refl.allocAll found
  rw [bridgeSearchCompleted, if_neg (by tauto)]
  dsimp only
  by_cases hne : filterInvalidAndDuplicateIpAddresses (s.allocAll found).1.heap
      (s.allocAll found).2 = []
  · have hnone := hu.feedback .finishSearchingNoBridgesFound (by decide)
    rw [if_pos hne]
    split_ifs
    · exact Frame.refl.continues (.finish ((hnone.feedback .doneNoBridgeFound (by decide)).finish σ)
        (finishes_finish σ .refl).state)
    · exact hnone.continues .search
    · exact (hnone.reportActionRequired σ).continues .save
  rw [if_neg hne]
  split_ifs
  · exact continues_validBridgesFound σ ω (hu.feedback .finishSearchBridgesFound (by decide) _) hne hnodup hx
  all_goals have hinvalid := hu.feedback .finishSearchingInvalidBridgesFound (by decide)
  · exact Frame.refl.continues (.finish ((hinvalid.feedback .doneNoBridgeFound (by decide)).finish σ)
      (finishes_finish σ .refl).state)
  · exact (hinvalid.reportActionRequired σ).continues .save
  · exact hinvalid.continues (.authenticate _ hne hnodup hx)

theorem continues_retrieveFailed {u : ConnectionFlow} (h : Frame s u) (bridge : BridgePtr)
    (hx : s.state ≠ .authenticating) : Continues σ ω s (u.retrieveFailed σ bridge) := by
  have hfailed := h.feedbackOn .finishRetrievingFailed (by decide) bridge []
  unfold retrieveFailed
  dsimp only
  split_ifs
  · exact hfailed.continues .search
  · exact Frame.refl.continues (.finish ((hfailed.feedback .doneBridgeFound (by decide)).finish σ)
      (finishes_finish σ .refl).state)
  · exact hfailed.continues (.authenticate _ (by simp) (by simp) hx)
  · exact (Frame.reportActionRequired σ (Frame.silent hfailed)).continues .save

theorem continues_retrieveSmallConfigCompleted (h : s.state = .retrieving)
    (result : OperationResult) (bridge : BridgePtr) :
    Continues σ ω s (s.retrieveSmallConfigCompleted σ ω result bridge) := by
  have hx : s.state ≠ .authenticating := by simp [h]
  rw [retrieveSmallConfigCompleted, if_neg (by simp [h])]
  by_cases hfailed : result = .failed
  · rw [if_pos hfailed]
    exact continues_retrieveFailed σ ω .refl bridge hx
  rw [if_neg hfailed]
  have ht : Frame s ((s.feedbackOn .finishRetrievingSmall bridge []).setActiveBridge σ bridge) :=
    Frame.silent (Frame.refl.feedbackOn .finishRetrievingSmall (by decide) bridge [])
  dsimp only
  split_ifs
  · exact ht.continues .search
  · exact ht.continues .retrieveFull
  · exact ht.continues (.authenticate _ (by simp) (by simp) hx)

theorem continues_retrieveFullConfigCompleted (h : s.state = .retrieving)
    (result : OperationResult) (bridge : BridgePtr) :
    Continues σ ω s (s.retrieveFullConfigCompleted σ result bridge) := by
  rw [retrieveFullConfigCompleted, if_neg (by simp [h])]
  set t := s.setActiveBridge σ bridge
  have ht : Frame s t := Frame.refl.silent
  dsimp only
  by_cases hfailed : result = .failed
  · rw [if_pos hfailed]
    exact continues_retrieveFailed σ ω ht bridge (by simp [h])
  rw [if_neg hfailed]
  refine Frame.continues ?_ .save
  split_ifs
  · exact (ht.feedback .finishRetrievingActionRequired (by decide)).reportActionRequired σ
  · exact ht.feedback .finishRetrievingReadyToStart (by decide)
  · exact Frame.feedback ht.silent .finishRetrievingReadyToStart (by decide)
  · exact (Frame.feedback ht.silent .finishRetrievingActionRequired (by decide)).reportActionRequired σ

theorem continues_savingCompleted (r : OperationResult) :
    Continues σ ω s (s.savingCompleted σ ω r) := by
  have ht : Frame s (if r = .success then
        s.feedback .finishSavingSaved (s.persistentData.getAllKnownBridges σ.bridge s.heap)
      else s.feedback .finishSavingFailed) := by
    split_ifs
    · exact Frame.refl.feedback .finishSavingSaved (by decide) _
    · exact Frame.refl.feedback .finishSavingFailed (by decide)
  have hidle : (s.savingCompleted σ ω r).state = .idle := by
    obtain ⟨s₁, -, hend⟩ := savingCompleted_cases (s := s) σ ω r
    exact hend.state
  refine Frame.refl.continues (.finish ?_ hidle)
  unfold savingCompleted
  dsimp only
  generalize (if r = .success then
    s.feedback .finishSavingSaved (s.persistentData.getAllKnownBridges σ.bridge s.heap)
    else s.feedback .finishSavingFailed) = t at ht
  have hbusy := ht.unbusy
  split_ifs
  · exact hbusy.activateStreaming σ ω
  · exact (hbusy.feedback .doneCompleted (by decide)).finish σ
  · exact hbusy.finish σ

/-! ### A step -/

/-- **The stages.** Whatever is handled apart from aborts, completions, pushlinks and what the rest of
the program does, is ignored or ends with a stage. -/
theorem handle_stage {i : Input} (hi : s.enabled i = true)
    (hnodup : s.backgroundDiscoveredBridges.Nodup) (habort : i ≠ .abort)
    (hdeliver : ∀ c reply keep, i ≠ .deliver c reply keep) (htimer : ∀ task, i ≠ .timer task) :
    Quiet s (s.handle σ ω i) ∨ Continues σ ω s (s.handle σ ω i) := by
  cases i with
  | load => exact stage_doLoad σ ω
  | connectToBridge => exact stage_doConnectToBridge σ ω hnodup
  | connectToBridgeBackground => exact stage_doConnectToBridgeBackground σ ω
  | connectToBridgeWithIp ip => exact stage_doConnectToBridgeWithIp σ ω ip
  | connectToNewBridge => exact stage_doConnectToNewBridge σ ω
  | setManual bridge => exact stage_doSetManual σ ω bridge
  | connectoToBridgeWithIdKey id user key => exact stage_doConnectoToBridgeWithIdKey σ ω id user key
  | reset only => exact stage_doReset σ ω only
  | selectGroup group => exact stage_doSelectGroup σ ω group
  | startStream => exact stage_doStartStream σ ω
  | stopStream => exact stage_doStopStream σ ω
  | abort => exact absurd rfl habort
  | monitorEvent message =>
    simp only [enabled, Bool.and_eq_true] at hi
    exact stage_doOnBridgeMonitorEvent σ ω message hi.2
  | deliver c reply keep => exact absurd rfl (hdeliver c reply keep)
  | timer task => exact absurd rfl (htimer task)
  | newBridge bridge => exact .inl ⟨Frame.refl.silent, rfl⟩
  | mutate p bridge => exact .inl ⟨Frame.refl.silent, rfl⟩

/-- A completion that is accepted ends with a stage, but for the pushlinks. -/
theorem complete_stage {c : Completion} (h : s.accepts c.operation = true) (reply : Reply)
    (hauth : ∀ bridge, c.operation ≠ .authenticate bridge)
    (hpush : ∀ bridge, c.operation ≠ .pushLink bridge) :
    Continues σ ω s (s.complete σ ω c reply) := by
  obtain ⟨op, procedure⟩ := c
  cases op with
  | load callback =>
    exact continues_loadingCompleted σ ω (of_decide_eq_true h) callback reply.result reply.bridges
  | search =>
    exact continues_bridgeSearchCompleted σ ω (by simpa [accepts] using h) reply.bridges
  | authenticate bridge => exact absurd rfl (hauth bridge)
  | pushLink bridge => exact absurd rfl (hpush bridge)
  | retrieveSmallConfig bridge =>
    exact continues_retrieveSmallConfigCompleted σ ω (of_decide_eq_true h) reply.result bridge
  | retrieveFullConfig =>
    exact continues_retrieveFullConfigCompleted σ ω (of_decide_eq_true h) reply.result reply.bridge
  | save => exact continues_savingCompleted σ ω reply.result

end ConnectionFlow

end HueStream.Flow
