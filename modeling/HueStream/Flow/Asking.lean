import HueStream.Flow.Stages

/-! # The answers of the authenticator

An answer is noted in the entry of its bridge. Then the bridge is given up, authorized, or asked again
by a task of the scheduler (`answer_cases`). -/

namespace HueStream.Flow

open HueStream.Data HueStream.Lib

variable {s s' : ConnectionFlow}

namespace ConnectionFlow

/-- The entry `operator[]` finds for a bridge, or puts there. -/
def processInfo (s : ConnectionFlow) (bridge : BridgePtr) : AuthenticationProcessInfo :=
  (s.authenticationProcessesInfo.lookup bridge).getD {}

/-- An answer about the bridge authorizes it. -/
def authorizes (s : ConnectionFlow) (bridge : BridgePtr) : Bool :=
  ((s.heap bridge).isValidIp || s.retriesAddress bridge) && (s.heap bridge).isAuthorized

/-- After an answer about the bridge it is given up. -/
def givesUp (s : ConnectionFlow) (bridge : BridgePtr) : Bool :=
  !(s.heap bridge).isValidIp && !s.retriesAddress bridge

/-- An answer is noted: it has failed without a valid address. -/
structure Notes (s : ConnectionFlow) (bridge : BridgePtr) (s' : ConnectionFlow) : Prop where
  failed : ∀ p, s'.failedTries p =
    s.failedTries p + if p = bridge ∧ (s.heap bridge).isValidIp = false then 1 else 0
  numbers : ∀ p, (s'.processInfo p).bridgeNumber = (s.processInfo p).bridgeNumber
  state : s'.state = s.state
  count : s'.ongoingAuthenticationCount = s.ongoingAuthenticationCount
  background : s'.backgroundDiscoveredBridges = s.backgroundDiscoveredBridges
  outstanding : s'.outstanding = s.outstanding
  tasks : s'.tasks = s.tasks
  schedulerRunning : s'.schedulerRunning = s.schedulerRunning
  retriever : s'.fullConfigRetriever = s.fullConfigRetriever
  log : s'.log = s.log
  authorized : (s'.heap bridge).isAuthorized = (s.heap bridge).isAuthorized

theorem processInfo_setProcessInfo (bridge p : BridgePtr) (info : AuthenticationProcessInfo) :
    (s.setProcessInfo bridge info).processInfo p = if p = bridge then info else s.processInfo p := by
  unfold processInfo setProcessInfo
  by_cases hp : p = bridge
  · rw [if_pos hp, hp, AList.lookup_insert]
    rfl
  · rw [if_neg hp, AList.lookup_insert_ne hp]

theorem notes_setProcessInfo (bridge : BridgePtr) (tries : ℕ) (htries : tries = s.failedTries bridge +
      if (s.heap bridge).isValidIp = false then 1 else 0) :
    Notes s bridge (s.setProcessInfo bridge { s.processInfo bridge with failedTries := tries }) := by
  have hinfo := processInfo_setProcessInfo (s := s) bridge
  refine ⟨fun p => ?_, fun p => ?_, rfl, rfl, rfl, rfl, rfl, rfl, rfl, rfl, rfl⟩
  · show ((s.setProcessInfo bridge _).processInfo p).failedTries = (s.processInfo p).failedTries + _
    rw [hinfo p]
    by_cases hp : p = bridge
    · subst hp
      rw [if_pos rfl, htries]
      simp [failedTries, processInfo]
    · simp [hp]
  · rw [hinfo p]
    by_cases hp : p = bridge
    · rw [if_pos hp, hp]
    · rw [if_neg hp]

/-- A bridge whose address gets another chance. -/
theorem Notes.write {bridge : BridgePtr} (h : Notes s bridge s') :
    Notes s bridge (s'.write bridge { s'.heap bridge with isValidIp := true }) :=
  ⟨h.failed, h.numbers, h.state, h.count, h.background, h.outstanding, h.tasks, h.schedulerRunning,
    h.retriever, h.log, by simpa [ConnectionFlow.write] using h.authorized⟩

variable (σ : Settings) (ω : Answers)

/-- The flow with a bridge less to be asked. -/
def decremented (s : ConnectionFlow) : ConnectionFlow :=
  { s with ongoingAuthenticationCount := sizeDecrement s.ongoingAuthenticationCount }

/-- The flow with a task to ask a bridge again, which takes the place of one with the same number. -/
def askAgain (s : ConnectionFlow) (procedure : Option ℕ) (bridge : BridgePtr) : ConnectionFlow :=
  { s with tasks := (s.tasks.filter (·.id ≠ (s.processInfo bridge).bridgeNumber)) ++
      [⟨(s.processInfo bridge).bridgeNumber, bridge, procedure⟩] }

/-- A bridge that is not given up is authorized or asked again. -/
theorem authorizedOrRetry_eq (procedure : Option ℕ) (bridge : BridgePtr) :
    if (s.heap bridge).isAuthorized then
      ∃ u, Frame s.decremented u ∧
        s.authorizedOrRetry σ ω procedure bridge = u.stopScheduler.startRetrieveFullConfig σ ω
    else s.authorizedOrRetry σ ω procedure bridge = s.askAgain procedure bridge := by
  unfold authorizedOrRetry
  split_ifs
  · have h : Frame s.decremented (s.decremented.setActiveBridge σ bridge) := Frame.refl.silent
    exact ⟨_, h.feedback .finishAuthorizingAuthorized (by decide) _, rfl⟩
  · rfl

/-- **What an answer does.** It is noted; then the bridge is given up, authorized or asked again. -/
theorem answer_cases (h : s.state = .authenticating) (procedure : Option ℕ) (bridge : BridgePtr) :
    ∃ t, Notes s bridge t ∧
      ((s.givesUp bridge = true ∧ s.authorizes bridge = false ∧
        s.authenticationCompleted σ ω procedure bridge =
          if t.decremented.ongoingAuthenticationCount = 0 then
            ((t.decremented.feedback .finishAuthorizingFailed).startBridgeSearch).stopScheduler
          else t.decremented) ∨
      (s.givesUp bridge = false ∧ s.authorizes bridge = true ∧
        ∃ u, Frame t.decremented u ∧ s.authenticationCompleted σ ω procedure bridge =
          u.stopScheduler.startRetrieveFullConfig σ ω) ∨
      (s.givesUp bridge = false ∧ s.authorizes bridge = false ∧
        s.authenticationCompleted σ ω procedure bridge = t.askAgain procedure bridge)) := by
  -- what follows the note is `authorizedOrRetry`
  have hgo : ∀ t, Notes s bridge t → s.givesUp bridge = false →
      (s.authorizes bridge = (s.heap bridge).isAuthorized) →
      s.authenticationCompleted σ ω procedure bridge = t.authorizedOrRetry σ ω procedure bridge →
      ((s.givesUp bridge = false ∧ s.authorizes bridge = true ∧
        ∃ u, Frame t.decremented u ∧ s.authenticationCompleted σ ω procedure bridge =
          u.stopScheduler.startRetrieveFullConfig σ ω) ∨
      (s.givesUp bridge = false ∧ s.authorizes bridge = false ∧
        s.authenticationCompleted σ ω procedure bridge = t.askAgain procedure bridge)) := by
    intro t ht hup hauth heq
    have hcases := authorizedOrRetry_eq (s := t) σ ω procedure bridge
    rw [ht.authorized] at hcases
    split_ifs at hcases with hauthorized
    · obtain ⟨u, hframe, hu⟩ := hcases
      exact .inl ⟨hup, hauth.trans hauthorized, u, hframe, heq.trans hu⟩
    · exact .inr ⟨hup, hauth.trans (Bool.eq_false_iff.mpr hauthorized), heq.trans hcases⟩
  have hdo := authenticationCompleted.eq_1 σ ω s procedure bridge
  rw [if_neg (by simp [h])] at hdo
  dsimp only at hdo
  by_cases hip : (s.heap bridge).isValidIp = true
  · rw [if_pos hip] at hdo
    have ht := notes_setProcessInfo (s := s) bridge (s.failedTries bridge) (by simp [hip])
    exact ⟨_, ht, .inr (hgo _ ht (by simp [givesUp, hip]) (by simp [authorizes, hip]) hdo)⟩
  · have hip' : (s.heap bridge).isValidIp = false := Bool.eq_false_iff.mpr hip
    have ht := notes_setProcessInfo (s := s) bridge (s.failedTries bridge + 1)
      (by simp [hip'])
    rw [if_neg hip] at hdo
    by_cases hmany : pushlinkInvalidIpMaxRetries < s.failedTries bridge + 1
    · have hno : s.retriesAddress bridge = false := by
        simp only [retriesAddress, hip', Bool.not_false, Bool.true_and, decide_eq_false_iff_not]
        omega
      refine ⟨_, ht, .inl ⟨by simp [givesUp, hip', hno], by simp [authorizes, hip', hno], ?_⟩⟩
      rw [if_pos (by exact hmany)] at hdo
      exact hdo
    · have hyes : s.retriesAddress bridge = true := by
        simp only [retriesAddress, hip', Bool.not_false, Bool.true_and, decide_eq_true_eq]
        omega
      rw [if_neg (by exact hmany)] at hdo
      exact ⟨_, ht.write, .inr (hgo _ ht.write (by simp [givesUp, hyes])
        (by simp [authorizes, hyes]) hdo)⟩

end ConnectionFlow

end HueStream.Flow
