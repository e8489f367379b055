import HueStream.Flow.Outcome

/-! # What a dispatched step does

One lemma for each user request (`opens_…`) and each completion (`…_cases`): a request is ignored
unless the flow is idle, and otherwise opens its procedure; a completion that a handler accepts is
announced by an `ID_FINISH_*` message before anything else happens. -/

namespace HueStream.Flow

open HueStream.Data HueStream.Lib

/-- A request is ignored, or opens its procedure and goes on as `P` says. -/
def Opens (request : RequestType) (P : ConnectionFlow → ConnectionFlow → Prop)
    (s s' : ConnectionFlow) : Prop :=
  (s.state ≠ .idle ∧ s' = s) ∨ ∃ s₁, s.start request = some s₁ ∧ P s₁ s'

/-- The message that a stage has ended, and nothing else. -/
def Announces (s s' : ConnectionFlow) : Prop :=
  Speaks 0 s s' ∧ ∃ m : FeedbackMessage, m.id.isFinish = true ∧ .message m true ∈ s'.log.drop s.log.length

variable {s s' s'' : ConnectionFlow} {n : ℕ}

theorem Announces.congr (h : Announces s s') (hreq : s''.request = s'.request)
    (hcur : s''.current = s'.current) (hrep : s''.reported = s'.reported)
    (hlog : s''.log = s'.log) : Announces s s'' :=
  ⟨h.1.congr hreq hcur hrep hlog, hlog ▸ h.2⟩

/-- The announcement stays in the log whatever follows. -/
theorem Announces.of_log (h : Announces s s') (hlog : s'.log <+: s''.log) :
    ∃ m : FeedbackMessage, m.id.isFinish = true ∧ .message m true ∈ s''.log.drop s.log.length := by
  obtain ⟨-, m, hm, hmem⟩ := h
  exact ⟨m, hm, (hlog.drop _).subset hmem⟩

/-- A request opens a procedure, and goes on with a first stage if it is of a connecting kind. -/
def Begins (s s' : ConnectionFlow) : Prop :=
  ∃ request s₁, s.start request = some s₁ ∧ (request.isConnecting = true → GoesOn s₁ s') ∧
    ∃ n, Outcome n s₁ s'

theorem Opens.begins_of_goesOn {request : RequestType} (h : Opens request GoesOn s s') :
    s' = s ∨ Begins s s' := by
  obtain ⟨-, rfl⟩ | ⟨s₁, hstart, hgo⟩ := h
  · exact .inl rfl
  · exact .inr ⟨request, s₁, hstart, fun _ => hgo, 0, .goesOn hgo⟩

theorem Opens.begins {request : RequestType} {P : ConnectionFlow → ConnectionFlow → Prop}
    (h : Opens request P s s') (hreq : request.isConnecting = false)
    (hout : ∀ s₁, P s₁ s' → ∃ n, Outcome n s₁ s') : s' = s ∨ Begins s s' := by
  obtain ⟨-, rfl⟩ | ⟨s₁, hstart, hP⟩ := h
  · exact .inl rfl
  · exact .inr ⟨request, s₁, hstart, by simp [hreq], hout s₁ hP⟩

namespace ConnectionFlow

variable (σ : Settings) (ω : Answers)

theorem announces_feedbackOn (h : Speaks 0 s s') (id : MessageId) (hid : id.isFinish = true)
    (bridge : BridgePtr) (bridges : List BridgePtr) :
    Announces s (s'.feedbackOn id bridge bridges) := by
  refine ⟨h.feedbackOn id (MessageId.isPlain_of_isFinish hid) bridge bridges,
    ⟨s'.request, id, bridge, bridges⟩, hid, ?_⟩
  obtain ⟨l, hl⟩ := h.log
  rw [feedbackOn_eq, ← hl]
  simp [sending]

theorem announces_feedback (h : Speaks 0 s s') (id : MessageId) (hid : id.isFinish = true)
    (bridges : List BridgePtr) : Announces s (s'.feedback id bridges) :=
  announces_feedbackOn h id hid _ bridges

/-! ### User requests -/

theorem opens_doLoad : Opens .loadBridge GoesOn s s.doLoad := by
  unfold doLoad
  split
  · next h => exact .inl ⟨start_eq_none h, rfl⟩
  · next s₁ h => exact .inr ⟨s₁, h, goesOn_beginLoading .refl _⟩

theorem opens_doConnectToBridge : Opens .connect GoesOn s s.doConnectToBridge := by
  unfold doConnectToBridge
  split
  · next h => exact .inl ⟨start_eq_none h, rfl⟩
  · next s₁ h =>
    refine .inr ⟨s₁, h, ?_⟩
    split_ifs
    · exact goesOn_startAuthentication Speaks.refl.silent _
    · exact goesOn_beginLoading .refl _

theorem opens_doConnectToBridgeBackground :
    Opens .connectBackground GoesOn s s.doConnectToBridgeBackground := by
  unfold doConnectToBridgeBackground
  split
  · next h => exact .inl ⟨start_eq_none h, rfl⟩
  · next s₁ h => exact .inr ⟨s₁, h, goesOn_beginLoading .refl _⟩

theorem opens_doConnectToBridgeWithIp (ipAddress : String) :
    Opens .connectIp GoesOn s (s.doConnectToBridgeWithIp ipAddress) := by
  unfold doConnectToBridgeWithIp
  split
  · next h => exact .inl ⟨start_eq_none h, rfl⟩
  · next s₁ h => exact .inr ⟨s₁, h, goesOn_beginLoading Speaks.refl.silent _⟩

theorem opens_doConnectToNewBridge : Opens .connectNew GoesOn s (s.doConnectToNewBridge σ ω) := by
  unfold doConnectToNewBridge
  split
  · next h => exact .inl ⟨start_eq_none h, rfl⟩
  · next s₁ h =>
    exact .inr ⟨s₁, h, goesOn_beginLoading (speaks_stopIfStreaming σ ω .refl).silent _⟩

theorem opens_doSetManual (bridge : BridgePtr) :
    Opens .setManualBridge GoesOn s (s.doSetManual σ ω bridge) := by
  unfold doSetManual
  split
  · next h => exact .inl ⟨start_eq_none h, rfl⟩
  · next s₁ h =>
    exact .inr ⟨s₁, h, goesOn_beginLoading (speaks_stopIfStreaming σ ω .refl).silent _⟩

theorem opens_doConnectoToBridgeWithIdKey (id user clientKey : String) :
    Opens .connectIdKey GoesOn s (s.doConnectoToBridgeWithIdKey σ ω id user clientKey) := by
  unfold doConnectoToBridgeWithIdKey
  split
  · next h => exact .inl ⟨start_eq_none h, rfl⟩
  · next s₁ h =>
    exact .inr ⟨s₁, h, goesOn_beginLoading (speaks_stopIfStreaming σ ω .refl).silent _⟩

theorem opens_doReset (onlyActiveBridge : Bool) :
    Opens (if onlyActiveBridge then .resetBridge else .resetAll) Saves s
      (s.doReset σ ω onlyActiveBridge) := by
  unfold doReset
  generalize (if onlyActiveBridge then RequestType.resetBridge else .resetAll) = request
  split
  · next h => exact .inl ⟨start_eq_none h, rfl⟩
  · next s₁ h =>
    exact .inr ⟨s₁, h, saves_clearBridge σ (speaks_stopIfStreaming σ ω .refl)⟩

/-- `SelectGroup` is the one request that may report, save or finish at once. -/
theorem opens_doSelectGroup (id : String) :
    Opens .select (fun s s' => ∃ n, Outcome n s s') s (s.doSelectGroup σ id) := by
  unfold doSelectGroup
  split
  · next h => exact .inl ⟨start_eq_none h, rfl⟩
  · next s₁ h =>
    refine .inr ⟨s₁, h, ?_⟩
    set t := s₁.write s₁.activePtr (s₁.activeBridge.selectGroup id).2
    have ht : Speaks 0 s₁ t := Speaks.refl.silent
    dsimp only
    split_ifs
    · exact ⟨0, .saves (saves_beginSaving σ ht)⟩
    · exact ⟨0, .reports (reports_beginSaving σ ht)⟩
    · exact ⟨0, .finishes (finishes_finish σ ht)⟩
    · exact ⟨1, .finishes (finishes_finish σ (ht.reportActionRequired σ).1)⟩

theorem opens_doStartStream : Opens .activate GoesOn s (s.doStartStream σ ω) := by
  unfold doStartStream
  split
  · next h => exact .inl ⟨start_eq_none h, rfl⟩
  · next s₁ h => exact .inr ⟨s₁, h, goesOn_startRetrieveFullConfig σ ω .refl⟩

theorem opens_doStopStream : Opens .deactivate (Finishes 0) s (s.doStopStream σ ω) := by
  unfold doStopStream
  split
  · next h => exact .inl ⟨start_eq_none h, rfl⟩
  · next s₁ h => exact .inr ⟨s₁, h, finishes_deactivateStreaming σ ω .refl⟩

/-- `Abort` does nothing in `Idle`, and finishes the procedure otherwise. -/
theorem doAbort_cases :
    (s.state = .idle ∧ s.doAbort σ = s) ∨ (s.state ≠ .idle ∧ Finishes 1 s (s.doAbort σ)) := by
  unfold doAbort
  by_cases hidle : s.state = .idle
  · exact .inl ⟨hidle, if_pos hidle⟩
  · rw [if_neg hidle]
    have hsearch : Speaks 0 s (if s.state = .searchingFirst ∨ s.state = .searchingRetry then
        s.record .abortSearch else s) := by
      split_ifs
      · exact Speaks.refl.act .abortSearch rfl
      · exact .refl
    dsimp only
    generalize (if s.state = .searchingFirst ∨ s.state = .searchingRetry then
      s.record .abortSearch else s) = t at hsearch
    refine .inr ⟨hidle, finishes_finish σ ?_⟩
    split_ifs
    · exact Speaks.terminal hsearch.silent .doneAborted rfl (by decide)
    · exact Speaks.terminal hsearch.silent .doneAborted rfl (by decide)

/-- A monitor event that finds the flow busy is dropped or forwarded. Otherwise it is an internal
procedure of its own: it fetches everything again, or is finished when it returns. -/
theorem doOnBridgeMonitorEvent_cases (message : FeedbackMessage)
    (hm : message.id.isMonitorEvent = true) :
    (s.state ≠ .idle ∧ Speaks 0 s (s.doOnBridgeMonitorEvent σ ω message) ∧
      (s.doOnBridgeMonitorEvent σ ω message).state = s.state) ∨
    ∃ s₁, s.start .internal = some s₁ ∧
      (GoesOn s₁ (s.doOnBridgeMonitorEvent σ ω message) ∨
        Finishes 0 s₁ (s.doOnBridgeMonitorEvent σ ω message)) := by
  have hplain := MessageId.isPlain_of_isMonitorEvent hm
  unfold doOnBridgeMonitorEvent
  split
  · next h =>
    refine .inl ⟨start_eq_none h, ?_⟩
    dsimp only
    split_ifs
    · exact ⟨Speaks.refl.forward message hplain, by rw [newMessage_eq]⟩
    · exact ⟨.refl, rfl⟩
  · next s₁ h =>
    refine .inr ⟨s₁, h, ?_⟩
    set t := s₁.setActiveBridge σ message.bridge
    have ht : Speaks 0 s₁ t := Speaks.refl.silent
    have hstop : Speaks 0 s₁ (if message.id = .streamingDisconnected then t.stopStream ω else t) := by
      split_ifs
      · exact speaks_stopStream ω ht
      · exact ht
    dsimp only
    generalize (if message.id = .streamingDisconnected then t.stopStream ω else t) = u at hstop
    split_ifs
    · exact .inl (goesOn_startRetrieveFullConfig σ ω hstop)
    all_goals refine .inr (finishes_finish σ ?_)
    · exact speaks_beginSaving σ (hstop.act .refreshBridgeConnection rfl)
    · exact speaks_beginSaving σ hstop
    · exact (hstop.act .refreshBridgeConnection rfl).forward message hplain
    · exact hstop.forward message hplain

/-! ### Completions -/

theorem speaks_allocAll (h : Speaks n s s') (bridges : List Bridge) :
    Speaks n s (s'.allocAll bridges).1 := by
  unfold allocAll
  induction bridges generalizing s' with
  | nil => exact h
  | cons b l ih => exact ih (h.silent : Speaks n s (s'.alloc b))

theorem speaks_adoptData (h : Speaks n s s') (ptrs : List BridgePtr) :
    Speaks n s (s'.adoptData ptrs) := by
  unfold adoptData
  split
  · exact h.silent
  · exact h.silent

theorem runLoadCallback_cases (h : Speaks 0 s s') (callback : LoadCallback) :
    (callback = .finish ∧ Finishes 0 s (s'.runLoadCallback σ callback)) ∨
      (callback ≠ .finish ∧ GoesOn s (s'.runLoadCallback σ callback)) := by
  cases callback with
  | finish => exact .inl ⟨rfl, finishes_finish σ h⟩
  | searchOrRetrieve =>
    refine .inr ⟨nofun, ?_⟩
    unfold runLoadCallback
    split_ifs
    · exact goesOn_startBridgeSearch h
    · exact goesOn_startRetrieveSmallConfig h _
  | retrieve bridge => exact .inr ⟨nofun, goesOn_startRetrieveSmallConfig h _⟩
  | search => exact .inr ⟨nofun, goesOn_startBridgeSearch h⟩
  | setActiveAndRetrieve bridge =>
    exact .inr ⟨nofun, goesOn_startRetrieveSmallConfig h.silent _⟩

theorem loadingCompleted_cases (h : s.state = .loading) (callback : LoadCallback)
    (result : OperationResult) (stored : List Bridge) :
    ∃ s₁, Announces s s₁ ∧
      ((callback = .finish ∧ Finishes 0 s₁ (s.loadingCompleted σ callback result stored)) ∨
        (callback ≠ .finish ∧ GoesOn s₁ (s.loadingCompleted σ callback result stored))) := by
  rw [loadingCompleted, if_neg (by simp [h])]
  set t := (s.allocAll stored).1.adoptData (s.allocAll stored).2
  have ht : Speaks 0 s t := speaks_adoptData (speaks_allocAll .refl stored) _
  dsimp only
  split_ifs
  · exact ⟨_, announces_feedback ht .finishLoadingBridgeConfigured rfl _,
      runLoadCallback_cases σ .refl callback⟩
  · have hnone := announces_feedback ht .finishLoadingNoBridgeConfigured rfl []
    set u := t.feedback .finishLoadingNoBridgeConfigured
    have hclear : Announces s (u.write u.activePtr u.activeBridge.clear) :=
      hnone.congr rfl rfl rfl rfl
    exact ⟨_, hclear, runLoadCallback_cases σ .refl callback⟩

theorem validBridgesFound_cases (s : ConnectionFlow) (bridges : List BridgePtr) :
    GoesOn s (s.validBridgesFound σ bridges) ∨ Finishes 1 s (s.validBridgesFound σ bridges) := by
  unfold validBridgesFound
  generalize (if s.request ≠ .connectNew then
    s.persistentData.rediscoverKnownBridge σ.bridge s.heap bridges
    else (false, s.heap, s.persistentData)) = r
  obtain ⟨rediscovered, heap, data⟩ := r
  set t : ConnectionFlow := { s with heap, persistentData := data }
  have ht : Speaks 0 s t := Speaks.refl.silent
  dsimp only
  split_ifs
  · exact .inl (goesOn_startRetrieveSmallConfig ht _)
  · exact .inr (finishes_finish σ (ht.terminal .doneBridgeFound rfl (by decide) bridges).silent)
  · exact .inl (goesOn_startAuthentication ht bridges)

theorem bridgeSearchCompleted_cases (h : s.state = .searchingFirst ∨ s.state = .searchingRetry)
    (found : List Bridge) :
    ∃ s₁, Announces s s₁ ∧ (GoesOn s₁ (s.bridgeSearchCompleted σ found) ∨
      Reports s₁ (s.bridgeSearchCompleted σ found) ∨
      Finishes 1 s₁ (s.bridgeSearchCompleted σ found)) := by
  rw [bridgeSearchCompleted, if_neg (by tauto)]
  set u := (s.allocAll found).1
  have hu : Speaks 0 s u := speaks_allocAll .refl found
  dsimp only
  by_cases hnone : filterInvalidAndDuplicateIpAddresses u.heap (s.allocAll found).2 = []
  · rw [if_pos hnone]
    refine ⟨_, announces_feedback hu .finishSearchingNoBridgesFound rfl [], ?_⟩
    split_ifs
    · exact .inr (.inr (finishes_finish σ (Speaks.refl.terminal .doneNoBridgeFound rfl (by decide))))
    · exact .inl (goesOn_startBridgeSearch .refl)
    · exact .inr (.inl (reports_beginSaving σ .refl))
  rw [if_neg hnone]
  split_ifs
  · exact ⟨_, announces_feedback hu .finishSearchBridgesFound rfl _,
      (validBridgesFound_cases σ _ _).imp_right .inr⟩
  · refine ⟨_, announces_feedback hu .finishSearchingInvalidBridgesFound rfl [], ?_⟩
    exact .inr (.inr (finishes_finish σ (Speaks.refl.terminal .doneNoBridgeFound rfl (by decide))))
  · refine ⟨_, announces_feedback hu .finishSearchingInvalidBridgesFound rfl [], ?_⟩
    exact .inr (.inl (reports_beginSaving σ .refl))
  · refine ⟨_, announces_feedback hu .finishSearchingInvalidBridgesFound rfl [], ?_⟩
    exact .inl (goesOn_startAuthentication .refl _)

/-- How often the authenticator has found no valid address for a bridge. -/
def failedTries (s : ConnectionFlow) (bridge : BridgePtr) : ℕ :=
  ((s.authenticationProcessesInfo.lookup bridge).getD {}).failedTries

/-- The address of a bridge is invalid, but `AuthenticationCompleted` gives it another chance. -/
def retriesAddress (s : ConnectionFlow) (bridge : BridgePtr) : Bool :=
  !(s.heap bridge).isValidIp && s.failedTries bridge + 1 ≤ pushlinkInvalidIpMaxRetries

/-- The answer of the authenticator decides nothing: the bridge is to be asked again, or is given up
while others are still being asked. -/
def stillAsking (s : ConnectionFlow) (bridge : BridgePtr) : Bool :=
  if (s.heap bridge).isValidIp || s.retriesAddress bridge then !(s.heap bridge).isAuthorized
  else sizeDecrement s.ongoingAuthenticationCount ≠ 0

/-- What such an answer leaves as it is: it only counts tries, schedules the next one, and writes a
bridge whose address gets another chance. -/
structure KeepsAsking (s : ConnectionFlow) (bridge : BridgePtr) (s' : ConnectionFlow) : Prop where
  state : s'.state = s.state
  request : s'.request = s.request
  current : s'.current = s.current
  reported : s'.reported = s.reported
  persistentData : s'.persistentData = s.persistentData
  log : s'.log = s.log
  heap : s'.heap = if s.retriesAddress bridge then
    Function.update s.heap bridge { s.heap bridge with isValidIp := true } else s.heap

theorem authorizedOrRetry_cases (h : Speaks 0 s s') (procedure : Option ℕ) (bridge : BridgePtr) :
    ((s'.heap bridge).isAuthorized = true ∧
      ∃ s₁, Announces s s₁ ∧ GoesOn s₁ (s'.authorizedOrRetry σ ω procedure bridge)) ∨
    ((s'.heap bridge).isAuthorized = false ∧
      ∃ tasks, s'.authorizedOrRetry σ ω procedure bridge = { s' with tasks }) := by
  unfold authorizedOrRetry
  split_ifs with hauth
  · refine .inl ⟨hauth, ?_⟩
    set t : ConnectionFlow := { s' with
      ongoingAuthenticationCount := sizeDecrement s'.ongoingAuthenticationCount }
    have ht : Speaks 0 s (t.setActiveBridge σ bridge) := h.silent
    exact ⟨_, announces_feedback ht .finishAuthorizingAuthorized rfl _,
      goesOn_startRetrieveFullConfig σ ω Speaks.refl.silent⟩
  · exact .inr ⟨by simpa using hauth, _, rfl⟩

theorem authenticationCompleted_cases (h : s.state = .authenticating) (procedure : Option ℕ)
    (bridge : BridgePtr) :
    (s.stillAsking bridge = false ∧
      ∃ s₁, Announces s s₁ ∧ GoesOn s₁ (s.authenticationCompleted σ ω procedure bridge)) ∨
    (s.stillAsking bridge = true ∧
      KeepsAsking s bridge (s.authenticationCompleted σ ω procedure bridge)) := by
  rw [authenticationCompleted, if_neg (by simp [h])]
  set tries := s.failedTries bridge with htries
  dsimp only
  by_cases hip : (s.heap bridge).isValidIp = true
  · have hno : s.retriesAddress bridge = false := by simp [retriesAddress, hip]
    rw [if_pos hip]
    set t := s.setProcessInfo bridge ((s.authenticationProcessesInfo.lookup bridge).getD {})
    rcases authorizedOrRetry_cases σ ω (Speaks.refl.congr rfl rfl rfl rfl : Speaks 0 s t) procedure bridge with
      ⟨hauth, hann⟩ | ⟨hauth, tasks, heq⟩
    · have hauth : (s.heap bridge).isAuthorized = true := hauth
      exact .inl ⟨by simp [stillAsking, hip, hauth], hann⟩
    · have hauth : (s.heap bridge).isAuthorized = false := hauth
      rw [heq]
      exact .inr ⟨by simp [stillAsking, hip, hauth], rfl, rfl, rfl, rfl, rfl, rfl,
        by rw [hno]; rfl⟩
  rw [if_neg hip]
  set t := s.setProcessInfo bridge
    { (s.authenticationProcessesInfo.lookup bridge).getD {} with failedTries := tries + 1 } with ht
  by_cases hlast : pushlinkInvalidIpMaxRetries < tries + 1
  · have hno : s.retriesAddress bridge = false := by
      simp only [retriesAddress, ← htries, Bool.and_eq_false_imp, decide_eq_false_iff_not]
      omega
    rw [if_pos (by exact hlast)]
    split_ifs with hcount
    · have hcount : sizeDecrement s.ongoingAuthenticationCount = 0 := hcount
      exact .inl ⟨by simp [stillAsking, hip, hno, hcount], _,
        announces_feedback Speaks.refl.silent .finishAuthorizingFailed rfl [],
        (goesOn_startBridgeSearch .refl).stopScheduler⟩
    · have hcount : sizeDecrement s.ongoingAuthenticationCount ≠ 0 := hcount
      exact .inr ⟨by simp [stillAsking, hip, hno, hcount], rfl, rfl, rfl, rfl, rfl, rfl,
        by rw [hno]; rfl⟩
  · have hagain : s.retriesAddress bridge = true := by
      simp only [retriesAddress, ← htries, hip, Bool.not_false, Bool.true_and, decide_eq_true_eq]
      omega
    rw [if_neg (by exact hlast)]
    set u := t.write bridge { t.heap bridge with isValidIp := true }
    have hu : (u.heap bridge).isAuthorized = (s.heap bridge).isAuthorized := by
      simp [u, t, write, setProcessInfo]
    change _ ∨ (_ ∧ KeepsAsking s bridge (u.authorizedOrRetry σ ω procedure bridge))
    rcases authorizedOrRetry_cases σ ω (Speaks.refl.congr rfl rfl rfl rfl : Speaks 0 s u) procedure bridge with
      ⟨hauth, hann⟩ | ⟨hauth, tasks, heq⟩
    · exact .inl ⟨by simp [stillAsking, hagain, ← hu, hauth], hann⟩
    · rw [heq]
      exact .inr ⟨by simp [stillAsking, hagain, ← hu, hauth], rfl, rfl, rfl, rfl, rfl, rfl,
        by rw [hagain]; rfl⟩

theorem retrieveFailed_cases (h : Speaks 0 s s') (bridge : BridgePtr) :
    ∃ s₁, Announces s s₁ ∧ (GoesOn s₁ (s'.retrieveFailed σ bridge) ∨
      Reports s₁ (s'.retrieveFailed σ bridge) ∨ Finishes 1 s₁ (s'.retrieveFailed σ bridge)) := by
  refine ⟨_, announces_feedbackOn h .finishRetrievingFailed rfl bridge [], ?_⟩
  unfold retrieveFailed
  dsimp only
  split_ifs
  · exact .inl (goesOn_startBridgeSearch .refl)
  · exact .inr (.inr (finishes_finish σ (Speaks.refl.terminal .doneBridgeFound rfl (by decide))))
  · exact .inl (goesOn_startAuthentication .refl _)
  · exact .inr (.inl (reports_beginSaving σ Speaks.refl.silent))

theorem retrieveSmallConfigCompleted_cases (h : s.state = .retrieving) (result : OperationResult)
    (bridge : BridgePtr) :
    ∃ s₁, Announces s s₁ ∧ (GoesOn s₁ (s.retrieveSmallConfigCompleted σ ω result bridge) ∨
      Reports s₁ (s.retrieveSmallConfigCompleted σ ω result bridge) ∨
      Finishes 1 s₁ (s.retrieveSmallConfigCompleted σ ω result bridge)) := by
  rw [retrieveSmallConfigCompleted, if_neg (by simp [h])]
  by_cases hfailed : result = .failed
  · rw [if_pos hfailed]
    exact retrieveFailed_cases σ .refl bridge
  rw [if_neg hfailed]
  have hann : Announces s ((s.feedbackOn .finishRetrievingSmall bridge []).setActiveBridge σ bridge) :=
    (announces_feedbackOn .refl .finishRetrievingSmall rfl bridge []).congr rfl rfl rfl rfl
  refine ⟨_, hann, .inl ?_⟩
  dsimp only
  split_ifs
  · exact goesOn_startBridgeSearch .refl
  · exact goesOn_startRetrieveFullConfig σ ω .refl
  · exact goesOn_startAuthentication .refl _

theorem retrieveFullConfigCompleted_cases (h : s.state = .retrieving) (result : OperationResult)
    (bridge : BridgePtr) :
    ∃ s₁, Announces s s₁ ∧ (GoesOn s₁ (s.retrieveFullConfigCompleted σ result bridge) ∨
      Saves s₁ (s.retrieveFullConfigCompleted σ result bridge) ∨
      Reports s₁ (s.retrieveFullConfigCompleted σ result bridge) ∨
      Finishes 1 s₁ (s.retrieveFullConfigCompleted σ result bridge)) := by
  rw [retrieveFullConfigCompleted, if_neg (by simp [h])]
  set t := s.setActiveBridge σ bridge
  have ht : Speaks 0 s t := Speaks.refl.silent
  dsimp only
  by_cases hfailed : result = .failed
  · rw [if_pos hfailed]
    obtain ⟨s₁, hann, hcases⟩ := retrieveFailed_cases σ ht bridge
    exact ⟨s₁, hann, hcases.imp_right .inr⟩
  rw [if_neg hfailed]
  split_ifs
  · exact ⟨_, announces_feedback ht .finishRetrievingActionRequired rfl [],
      .inr (.inr (.inl (reports_beginSaving σ .refl)))⟩
  · exact ⟨_, announces_feedback ht .finishRetrievingReadyToStart rfl [],
      .inr (.inl (saves_beginSaving σ .refl))⟩
  · exact ⟨_, announces_feedback ht.silent .finishRetrievingReadyToStart rfl [],
      .inr (.inl (saves_beginSaving σ .refl))⟩
  · exact ⟨_, announces_feedback ht.silent .finishRetrievingActionRequired rfl [],
      .inr (.inr (.inl (reports_beginSaving σ .refl)))⟩

/-- Whether `SavingCompleted` ends with a message that the procedure is done: the stream is started,
or no stream is wanted and the bridge is ready. -/
def concludesOnSave (s : ConnectionFlow) : Bool :=
  if s.unbusy.activationRequired σ then s.unbusy.canActivateStreaming σ
  else s.unbusy.activeBridge.isReadyToStream σ.bridge

theorem savingCompleted_cases (r : OperationResult) :
    ∃ s₁, Announces s s₁ ∧
      Finishes (if s.concludesOnSave σ then 1 else 0) s₁ (s.savingCompleted σ ω r) := by
  obtain ⟨id, bridges, hid, hsaved⟩ : ∃ id bridges, MessageId.isFinish id = true ∧
      (if r = .success then
        s.feedback .finishSavingSaved (s.persistentData.getAllKnownBridges σ.bridge s.heap)
      else s.feedback .finishSavingFailed) = s.feedback id bridges := by
    split_ifs
    · exact ⟨_, _, rfl, rfl⟩
    · exact ⟨_, _, rfl, rfl⟩
  have hreq : (s.feedback id bridges).unbusy.activationRequired σ =
      s.unbusy.activationRequired σ := by rw [feedback_eq]; rfl
  have hcan : (s.feedback id bridges).unbusy.canActivateStreaming σ =
      s.unbusy.canActivateStreaming σ := by rw [feedback_eq]; rfl
  have hready : (s.feedback id bridges).unbusy.activeBridge = s.unbusy.activeBridge := by
    rw [feedback_eq]; rfl
  refine ⟨_, announces_feedback .refl id hid bridges, ?_⟩
  have hbusy : Speaks 0 (s.feedback id bridges) (s.feedback id bridges).unbusy :=
    Speaks.refl.silent
  unfold savingCompleted concludesOnSave
  rw [hsaved]
  dsimp only
  rw [hreq, hcan, hready]
  generalize (s.feedback id bridges).unbusy = t at hbusy
  by_cases hact : s.unbusy.activationRequired σ = true
  · by_cases hcan : s.unbusy.canActivateStreaming σ = true
    · rw [hact, hcan]
      exact finishes_activateStreaming σ ω hbusy
    · simp only [hact, hcan, Bool.and_false, Bool.not_true, Bool.false_and, if_true,
        Bool.false_eq_true, if_false]
      exact finishes_finish σ hbusy
  · by_cases hready : s.unbusy.activeBridge.isReadyToStream σ.bridge = true
    · simp only [hact, hready, Bool.false_and, Bool.not_false, Bool.and_true, if_true,
        Bool.false_eq_true, if_false]
      exact finishes_finish σ (hbusy.terminal .doneCompleted rfl (by decide))
    · simp only [hact, hready, Bool.false_and, Bool.not_false, Bool.and_false,
        Bool.false_eq_true, if_false]
      exact finishes_finish σ hbusy

/-! ### A step -/

/-- The test of the state that the completion handler of an operation starts with. -/
def accepts (s : ConnectionFlow) : Operation → Bool
  | .load _ => s.state = .loading
  | .search => s.state = .searchingFirst || s.state = .searchingRetry
  | .authenticate _ => s.state = .authenticating
  | .retrieveSmallConfig _ | .retrieveFullConfig => s.state = .retrieving
  | .pushLink _ | .save => true

theorem complete_of_not_accepts {c : Completion} (h : s.accepts c.operation = false)
    (reply : Reply) : s.complete σ ω c reply = s := by
  obtain ⟨op, procedure⟩ := c
  cases op with
  | load callback => exact if_pos (of_decide_eq_false h)
  | search => exact if_pos (by simpa [accepts] using h)
  | authenticate bridge => exact if_pos (of_decide_eq_false h)
  | pushLink bridge => cases h
  | retrieveSmallConfig bridge => exact if_pos (of_decide_eq_false h)
  | retrieveFullConfig => exact if_pos (of_decide_eq_false h)
  | save => cases h

/-- How many terminal messages a completion sends that finishes the procedure. -/
def verdicts (s : ConnectionFlow) : Operation → ℕ
  | .load .finish => 0
  | .save => if s.concludesOnSave σ then 1 else 0
  | _ => 1

/-- A completion that is accepted is announced before the handler goes on, but for an answer to a
pushlink that decides nothing, and for a pushlink that is only due. -/
theorem complete_cases {c : Completion} (h : s.accepts c.operation = true) (reply : Reply) :
    (∃ bridge, c.operation = .pushLink bridge ∧
      s.complete σ ω c reply = s.pushLinkBridge c.procedure bridge) ∨
    (∃ bridge, c.operation = .authenticate bridge ∧ s.stillAsking bridge = true ∧
      KeepsAsking s bridge (s.complete σ ω c reply)) ∨
    ((∀ bridge, c.operation = .authenticate bridge → s.stillAsking bridge = false) ∧
      (∀ bridge, c.operation ≠ .pushLink bridge) ∧
      ∃ s₁, Announces s s₁ ∧
        Outcome (s.verdicts σ c.operation) s₁ (s.complete σ ω c reply)) := by
  obtain ⟨op, procedure⟩ := c
  cases op with
  | load callback =>
    obtain ⟨s₁, hann, ⟨rfl, hend⟩ | ⟨-, hend⟩⟩ :=
      loadingCompleted_cases σ (of_decide_eq_true h) callback reply.result reply.bridges
    · exact .inr (.inr ⟨nofun, nofun, s₁, hann, .finishes hend⟩)
    · exact .inr (.inr ⟨nofun, nofun, s₁, hann, .goesOn hend⟩)
  | search =>
    obtain ⟨s₁, hann, hend | hend | hend⟩ :=
      bridgeSearchCompleted_cases σ (by simpa [accepts] using h) reply.bridges
    · exact .inr (.inr ⟨nofun, nofun, s₁, hann, .goesOn hend⟩)
    · exact .inr (.inr ⟨nofun, nofun, s₁, hann, .reports hend⟩)
    · exact .inr (.inr ⟨nofun, nofun, s₁, hann, .finishes hend⟩)
  | authenticate bridge =>
    obtain ⟨hask, s₁, hann, hend⟩ | ⟨hask, hkeep⟩ :=
      authenticationCompleted_cases σ ω (of_decide_eq_true h) procedure bridge
    · exact .inr (.inr ⟨by rintro _ ⟨⟩; exact hask, nofun, s₁, hann, .goesOn hend⟩)
    · exact .inr (.inl ⟨bridge, rfl, hask, hkeep⟩)
  | pushLink bridge => exact .inl ⟨bridge, rfl, rfl⟩
  | retrieveSmallConfig bridge =>
    obtain ⟨s₁, hann, hend | hend | hend⟩ :=
      retrieveSmallConfigCompleted_cases σ ω (of_decide_eq_true h) reply.result bridge
    · exact .inr (.inr ⟨nofun, nofun, s₁, hann, .goesOn hend⟩)
    · exact .inr (.inr ⟨nofun, nofun, s₁, hann, .reports hend⟩)
    · exact .inr (.inr ⟨nofun, nofun, s₁, hann, .finishes hend⟩)
  | retrieveFullConfig =>
    obtain ⟨s₁, hann, hend | hend | hend | hend⟩ :=
      retrieveFullConfigCompleted_cases σ (of_decide_eq_true h) reply.result reply.bridge
    · exact .inr (.inr ⟨nofun, nofun, s₁, hann, .goesOn hend⟩)
    · exact .inr (.inr ⟨nofun, nofun, s₁, hann, .saves hend⟩)
    · exact .inr (.inr ⟨nofun, nofun, s₁, hann, .reports hend⟩)
    · exact .inr (.inr ⟨nofun, nofun, s₁, hann, .finishes hend⟩)
  | save =>
    obtain ⟨s₁, hann, hend⟩ := savingCompleted_cases (s := s) σ ω reply.result
    exact .inr (.inr ⟨nofun, nofun, s₁, hann, .finishes hend⟩)

/-- **What a step can do.** It changes neither the state nor the transcript but for a forwarded
message, or a completion or an abort is handled within the procedure that is under way, or a request
opens a procedure. -/
theorem handle_cases {i : Input} (hi : s.enabled i = true) :
    (Speaks 0 s (s.handle σ ω i) ∧ (s.handle σ ω i).state = s.state) ∨
      (i = .abort ∧ s.state ≠ .idle ∧ Finishes 1 s (s.handle σ ω i)) ∨
      (∃ c reply keep, i = .deliver c reply keep ∧ s.accepts c.operation = true ∧
        (∀ bridge, c.operation ≠ .pushLink bridge) ∧
        Outcome (s.verdicts σ c.operation) s (s.handle σ ω i)) ∨
      Begins s (s.handle σ ω i) := by
  have hopens : ∀ {s'}, s' = s ∨ Begins s s' → (Speaks 0 s s' ∧ s'.state = s.state) ∨
      (i = .abort ∧ s.state ≠ .idle ∧ Finishes 1 s s') ∨
      (∃ c reply keep, i = .deliver c reply keep ∧ s.accepts c.operation = true ∧
        (∀ bridge, c.operation ≠ .pushLink bridge) ∧
        Outcome (s.verdicts σ c.operation) s s') ∨ Begins s s' := by
    rintro s' (rfl | h)
    · exact .inl ⟨.refl, rfl⟩
    · exact .inr (.inr (.inr h))
  cases i with
  | load => exact hopens opens_doLoad.begins_of_goesOn
  | connectToBridge => exact hopens opens_doConnectToBridge.begins_of_goesOn
  | connectToBridgeBackground => exact hopens opens_doConnectToBridgeBackground.begins_of_goesOn
  | connectToBridgeWithIp ip => exact hopens (opens_doConnectToBridgeWithIp ip).begins_of_goesOn
  | connectToNewBridge => exact hopens (opens_doConnectToNewBridge σ ω).begins_of_goesOn
  | setManual bridge => exact hopens (opens_doSetManual σ ω bridge).begins_of_goesOn
  | connectoToBridgeWithIdKey id user key =>
    exact hopens (opens_doConnectoToBridgeWithIdKey σ ω id user key).begins_of_goesOn
  | reset only =>
    exact hopens ((opens_doReset σ ω only).begins (by cases only <;> rfl) fun _ h => ⟨0, .saves h⟩)
  | selectGroup group =>
    exact hopens ((opens_doSelectGroup σ group).begins rfl fun _ hout => hout)
  | startStream => exact hopens (opens_doStartStream σ ω).begins_of_goesOn
  | stopStream =>
    exact hopens ((opens_doStopStream σ ω).begins rfl fun _ h => ⟨0, .finishes h⟩)
  | abort =>
    rcases doAbort_cases (s := s) σ with ⟨-, heq⟩ | ⟨hstate, hend⟩
    · exact .inl ⟨by rw [handle, heq]; exact .refl, by rw [handle, heq]⟩
    · exact .inr (.inl ⟨rfl, hstate, hend⟩)
  | monitorEvent message =>
    simp only [enabled, Bool.and_eq_true] at hi
    rcases doOnBridgeMonitorEvent_cases (s := s) σ ω message hi.2 with
      ⟨-, hspeaks, hstate⟩ | ⟨s₁, hstart, hend | hend⟩
    · exact .inl ⟨hspeaks, hstate⟩
    · exact .inr (.inr (.inr ⟨_, s₁, hstart, nofun, 0, .goesOn hend⟩))
    · exact .inr (.inr (.inr ⟨_, s₁, hstart, nofun, 0, .finishes hend⟩))
  | deliver c reply keep =>
    have htake : Speaks 0 s (s.take c keep) := Speaks.refl.silent
    have hdo : s.handle σ ω (.deliver c reply keep) = (s.take c keep).complete σ ω c reply := rfl
    rw [hdo]
    cases haccepts : (s.take c keep).accepts c.operation with
    | false =>
      rw [complete_of_not_accepts σ ω haccepts]
      exact .inl ⟨htake, rfl⟩
    | true =>
      rcases complete_cases σ ω haccepts reply with
        ⟨bridge, -, heq⟩ | ⟨bridge, -, -, hkeep⟩ | ⟨-, hpush, s₁, hann, hend⟩
      · rw [heq]
        exact .inl ⟨speaks_pushLinkBridge htake _ _, rfl⟩
      · exact .inl ⟨htake.congr hkeep.request hkeep.current hkeep.reported hkeep.log, hkeep.state⟩
      · exact .inr (.inr (.inl
          ⟨c, reply, keep, rfl, haccepts, hpush, (htake.trans hann.1).outcome hend⟩))
  | timer task => exact .inl ⟨Speaks.refl.silent, rfl⟩
  | newBridge bridge => exact .inl ⟨Speaks.refl.silent, rfl⟩
  | mutate p bridge => exact .inl ⟨Speaks.refl.silent, rfl⟩

/-- The transcript only grows. -/
theorem sent_prefix_step {l : Input × Answers} (h : s.step σ l = some s') :
    sent s.log <+: sent s'.log := by
  have hlog : ∀ {t u : ConnectionFlow}, t.log <+: u.log → sent t.log <+: sent u.log :=
    fun h => h.filterMap _
  unfold step at h
  split_ifs at h with henabled
  obtain rfl := Option.some.inj h
  rcases handle_cases σ l.2 henabled with ⟨hspeaks, -⟩ | ⟨-, -, hend⟩ |
    ⟨c, reply, keep, -, -, -, hout⟩ | ⟨request, s₁, hstart, -, n, hout⟩
  · exact hlog hspeaks.log
  · exact hlog (Outcome.finishes hend).log
  · exact hlog hout.log
  · obtain ⟨-, -, -, -, -, hsent⟩ := start_eq_some hstart
    exact (hsent ▸ List.prefix_append _ _).trans (hlog hout.log)

end ConnectionFlow

end HueStream.Flow
