import HueStream.Flow.Pointers

/-! # The objects a run creates

The completions keep the pointers of the flow valid, and so does every step: in every state of a run
the flow points only to objects that were created. -/

namespace HueStream.Flow

open HueStream.Data HueStream.Lib

variable {s s' : ConnectionFlow}

namespace Valid

variable (σ : Settings) (ω : Answers)

/-! ### Completions -/

theorem allocAll (h : Valid s) (bridges : List Bridge) : Valid (s.allocAll bridges).1 ∧
    (s.allocAll bridges).1.next = s.next + bridges.length := by
  unfold ConnectionFlow.allocAll
  induction bridges generalizing s with
  | nil => exact ⟨h, rfl⟩
  | cons b l ih =>
    obtain ⟨hvalid, hnext⟩ := ih (h.alloc b)
    refine ⟨hvalid, hnext.trans ?_⟩
    exact Nat.add_right_comm _ _ _

theorem lt_of_mem_allocAll (h : Valid s) {bridges : List Bridge} {p : BridgePtr}
    (hp : p ∈ (s.allocAll bridges).2) : p < (s.allocAll bridges).1.next := by
  rw [(h.allocAll bridges).2]
  exact (List.mem_range'_1.mp hp).2

theorem adoptData (h : Valid s) {ptrs : List BridgePtr} (hptrs : ∀ p ∈ ptrs, p < s.next) :
    Valid (s.adoptData ptrs) := by
  unfold ConnectionFlow.adoptData
  split
  · next active hlast =>
    refine h.setPersistentData fun p hp => ?_
    rcases List.mem_append.mp hp with hp | hp
    · exact hptrs p (List.mem_of_mem_dropLast hp)
    · rw [List.mem_singleton.mp hp]
      exact hptrs active (List.mem_of_getLast? hlast)
  · refine (h.alloc {}).setPersistentData fun p hp => ?_
    rw [List.mem_singleton.mp hp]
    exact Nat.lt_succ_self _

theorem runLoadCallback (h : Valid s) {callback : LoadCallback}
    (hcb : ∀ p, callback.pointer = some p → p < s.next) : Valid (s.runLoadCallback σ callback) := by
  cases callback with
  | finish => exact h.finish σ
  | searchOrRetrieve =>
    unfold ConnectionFlow.runLoadCallback
    split_ifs
    · exact h.startBridgeSearch
    · exact h.startRetrieveSmallConfig h.active
  | retrieve bridge => exact h.startRetrieveSmallConfig (hcb bridge rfl)
  | search => exact h.startBridgeSearch
  | setActiveAndRetrieve bridge =>
    exact (h.setActiveBridge σ (hcb bridge rfl)).startRetrieveSmallConfig (hcb bridge rfl)

theorem loadingCompleted (h : Valid s) {callback : LoadCallback}
    (hcb : ∀ p, callback.pointer = some p → p < s.next) (result : OperationResult)
    (stored : List Bridge) : Valid (s.loadingCompleted σ callback result stored) := by
  obtain ⟨halloc, hnext⟩ := h.allocAll stored
  have hadopt := halloc.adoptData fun p hp => h.lt_of_mem_allocAll hp
  have hcb : ∀ p, callback.pointer = some p →
      p < ((s.allocAll stored).1.adoptData (s.allocAll stored).2).next := by
    intro p hp
    have hle : (s.allocAll stored).1.next ≤
        ((s.allocAll stored).1.adoptData (s.allocAll stored).2).next := by
      unfold ConnectionFlow.adoptData
      split
      · exact le_rfl
      · exact Nat.le_succ _
    exact lt_of_lt_of_le (hcb p hp) ((hnext ▸ Nat.le_add_right _ _).trans hle)
  unfold ConnectionFlow.loadingCompleted
  dsimp only
  split_ifs
  · exact h
  · exact (hadopt.feedback .finishLoadingBridgeConfigured _).runLoadCallback σ
      fun p hp => (next_feedback _ _).symm ▸ hcb p hp
  · refine Valid.runLoadCallback σ (Valid.silent (hadopt.feedback .finishLoadingNoBridgeConfigured))
      fun p hp => ?_
    exact (next_feedback _ _).symm ▸ hcb p hp

theorem rediscoverKnownBridge (h : Valid s) (bridges : List BridgePtr) :
    ∀ p ∈ (s.persistentData.rediscoverKnownBridge σ.bridge s.heap bridges).2.2.bridges,
      p < s.next := by
  have hfound : ∀ (l : List BridgePtr) (acc : Heap × Option BridgePtr),
      (∀ p ∈ l, p < s.next) → (∀ p, acc.2 = some p → p < s.next) →
      ∀ p, (l.foldl (HueStreamData.rediscoverStep σ.bridge bridges) acc).2 = some p →
        p < s.next := by
    intro l
    induction l with
    | nil => exact fun _ _ hacc => hacc
    | cons known l ih =>
      intro acc hl hacc
      refine ih _ (fun p hp => hl p (by simp [hp])) fun p hp => ?_
      unfold HueStreamData.rediscoverStep at hp
      split at hp
      · exact hacc p hp
      · rcases Option.or_eq_some_iff.mp hp with hp | ⟨-, hp⟩
        · exact hacc p hp
        · obtain rfl := Option.some.inj hp
          exact hl _ (by simp)
  have hfound := hfound s.persistentData.bridges.reverse (s.heap, none)
    (fun p hp => h.stored p (List.mem_reverse.mp hp)) nofun
  unfold HueStreamData.rediscoverKnownBridge
  generalize s.persistentData.bridges.reverse.foldl
    (HueStreamData.rediscoverStep σ.bridge bridges) (s.heap, none) = r at hfound
  obtain ⟨heap, found⟩ := r
  cases found with
  | none => exact h.stored
  | some b =>
    intro p hp
    rcases mem_setActiveBridge hp with hp | rfl
    · exact h.stored p hp
    · exact hfound p rfl

theorem validBridgesFound (h : Valid s) {bridges : List BridgePtr}
    (hb : ∀ p ∈ bridges, p < s.next) : Valid (s.validBridgesFound σ bridges) := by
  have hr : ∀ p ∈ (if s.request ≠ .connectNew then
      s.persistentData.rediscoverKnownBridge σ.bridge s.heap bridges
      else (false, s.heap, s.persistentData)).2.2.bridges, p < s.next := by
    split_ifs
    · exact h.rediscoverKnownBridge σ bridges
    · exact h.stored
  unfold ConnectionFlow.validBridgesFound
  generalize (if s.request ≠ .connectNew then
    s.persistentData.rediscoverKnownBridge σ.bridge s.heap bridges
    else (false, s.heap, s.persistentData)) = r at hr
  obtain ⟨rediscovered, heap, data⟩ := r
  have ht : Valid { s with heap, persistentData := data } :=
    ⟨hr, h.start, h.background, h.tasks, h.outstanding⟩
  have hdone := ht.feedback .doneBridgeFound bridges
  dsimp only
  split_ifs
  · exact ht.startRetrieveSmallConfig ht.active
  · refine Valid.finish σ ⟨hdone.stored, hdone.start, ?_, hdone.tasks, hdone.outstanding⟩
    exact fun p hp => (next_feedback _ _).symm ▸ hb p hp
  · exact ht.startAuthentication hb

theorem bridgeSearchCompleted (h : Valid s) (found : List Bridge) :
    Valid (s.bridgeSearchCompleted σ found) := by
  obtain ⟨hu, -⟩ := h.allocAll found
  have hsub := ConnectionFlow.sublist_filterInvalidAndDuplicateIpAddresses (s.allocAll found).1.heap
    (s.allocAll found).2
  have hb : ∀ p ∈ ConnectionFlow.filterInvalidAndDuplicateIpAddresses (s.allocAll found).1.heap
      (s.allocAll found).2, p < (s.allocAll found).1.next :=
    fun p hp => h.lt_of_mem_allocAll (hsub.subset hp)
  unfold ConnectionFlow.bridgeSearchCompleted
  dsimp only
  have hnone := hu.feedback .finishSearchingNoBridgesFound
  have hinvalid := hu.feedback .finishSearchingInvalidBridgesFound
  split_ifs
  · exact h
  · exact (hnone.feedback .doneNoBridgeFound).finish σ
  · exact hnone.startBridgeSearch
  · exact (hnone.reportActionRequired σ).beginSaving σ
  · exact (hu.feedback .finishSearchBridgesFound _).validBridgesFound σ
      fun p hp => (next_feedback _ _).symm ▸ hb p hp
  · exact (hinvalid.feedback .doneNoBridgeFound).finish σ
  · exact (hinvalid.reportActionRequired σ).beginSaving σ
  · exact hinvalid.startAuthentication fun p hp => (next_feedback _ _).symm ▸ hb p hp

theorem authorizedOrRetry (h : Valid s) (procedure : Option ℕ) {bridge : BridgePtr}
    (hb : bridge < s.next) : Valid (s.authorizedOrRetry σ ω procedure bridge) := by
  unfold ConnectionFlow.authorizedOrRetry
  split_ifs
  · have hcount : Valid { s with
        ongoingAuthenticationCount := sizeDecrement s.ongoingAuthenticationCount } := h.silent
    have hmsg := (hcount.setActiveBridge σ hb).feedback .finishAuthorizingAuthorized
      ((s.persistentData.setActiveBridge σ.bridge s.heap bridge).getAllKnownBridges σ.bridge s.heap)
    have hstop : Valid (ConnectionFlow.stopScheduler _) :=
      ⟨hmsg.stored, hmsg.start, hmsg.background, nofun, hmsg.outstanding⟩
    exact hstop.startRetrieveFullConfig σ ω
  · refine ⟨h.stored, h.start, h.background, fun task ht => ?_, h.outstanding⟩
    rcases List.mem_append.mp ht with ht | ht
    · exact h.tasks task (List.mem_filter.mp ht).1
    · rw [List.mem_singleton.mp ht]
      exact hb

theorem authenticationCompleted (h : Valid s) (procedure : Option ℕ) {bridge : BridgePtr}
    (hb : bridge < s.next) : Valid (s.authenticationCompleted σ ω procedure bridge) := by
  have hnoted : ∀ info, Valid (s.setProcessInfo bridge info) := fun _ => h.silent
  have hdecremented : ∀ info, Valid (s.setProcessInfo bridge info).decremented :=
    fun info => (hnoted info).silent
  have hwritten : ∀ info b, Valid ((s.setProcessInfo bridge info).write bridge b) :=
    fun info _ => (hnoted info).silent
  have hsearch : ∀ info, Valid ((((s.setProcessInfo bridge info).decremented.feedback
      .finishAuthorizingFailed).startBridgeSearch).stopScheduler) := by
    intro info
    have hsearch := ((hdecremented info).feedback .finishAuthorizingFailed).startBridgeSearch
    exact ⟨hsearch.stored, hsearch.start, hsearch.background, nofun, hsearch.outstanding⟩
  unfold ConnectionFlow.authenticationCompleted
  dsimp only
  split_ifs
  · exact h
  · exact (hnoted _).authorizedOrRetry σ ω procedure hb
  · exact hsearch _
  · exact hdecremented _
  · exact Valid.authorizedOrRetry σ ω (hwritten _ _) procedure hb

theorem retrieveFailed (h : Valid s) {bridge : BridgePtr} (hb : bridge < s.next) :
    Valid (s.retrieveFailed σ bridge) := by
  have hfailed := h.feedbackOn .finishRetrievingFailed bridge []
  have hb : bridge < (s.feedbackOn .finishRetrievingFailed bridge []).next := by
    rwa [next_feedbackOn]
  unfold ConnectionFlow.retrieveFailed
  dsimp only
  split_ifs
  · exact hfailed.startBridgeSearch
  · exact (hfailed.feedback .doneBridgeFound).finish σ
  · exact hfailed.startAuthentication fun p hp => List.mem_singleton.mp hp ▸ hb
  · exact Valid.beginSaving σ (Valid.reportActionRequired σ hfailed.silent)

theorem retrieveSmallConfigCompleted (h : Valid s) (result : OperationResult) {bridge : BridgePtr}
    (hb : bridge < s.next) : Valid (s.retrieveSmallConfigCompleted σ ω result bridge) := by
  have hmsg := h.feedbackOn .finishRetrievingSmall bridge []
  have hb' : bridge < (s.feedbackOn .finishRetrievingSmall bridge []).next := by
    rwa [next_feedbackOn]
  have hactive := hmsg.setActiveBridge σ hb'
  unfold ConnectionFlow.retrieveSmallConfigCompleted
  dsimp only
  split_ifs
  · exact h
  · exact h.retrieveFailed σ hb
  · exact hactive.startBridgeSearch
  · exact hactive.startRetrieveFullConfig σ ω
  · exact hactive.startAuthentication fun p hp => List.mem_singleton.mp hp ▸ hb'

theorem retrieveFullConfigCompleted (h : Valid s) (result : OperationResult) {bridge : BridgePtr}
    (hb : bridge < s.next) : Valid (s.retrieveFullConfigCompleted σ result bridge) := by
  have ht := h.setActiveBridge σ hb
  have hrequired := ht.feedback .finishRetrievingActionRequired
  unfold ConnectionFlow.retrieveFullConfigCompleted
  by_cases hstate : s.state = .retrieving
  · rw [if_neg (by simp [hstate])]
    dsimp only
    by_cases hfailed : result = .failed
    · rw [if_pos hfailed]
      exact ht.retrieveFailed σ hb
    rw [if_neg hfailed]
    refine Valid.beginSaving σ ?_
    split_ifs
    · exact hrequired.reportActionRequired σ
    · exact ht.feedback .finishRetrievingReadyToStart
    · exact Valid.feedback ht.silent .finishRetrievingReadyToStart
    · exact (Valid.feedback ht.silent .finishRetrievingActionRequired).reportActionRequired σ
  · rw [if_pos hstate]
    exact h

theorem savingCompleted (h : Valid s) (r : OperationResult) : Valid (s.savingCompleted σ ω r) := by
  have ht : Valid (if r = .success then
        s.feedback .finishSavingSaved (s.persistentData.getAllKnownBridges σ.bridge s.heap)
      else s.feedback .finishSavingFailed) := by
    split_ifs
    · exact h.feedback .finishSavingSaved _
    · exact h.feedback .finishSavingFailed
  unfold ConnectionFlow.savingCompleted
  dsimp only
  generalize (if r = .success then
    s.feedback .finishSavingSaved (s.persistentData.getAllKnownBridges σ.bridge s.heap)
    else s.feedback .finishSavingFailed) = t at ht
  have hbusy : Valid t.unbusy := ht.silent
  split_ifs
  · exact hbusy.activateStreaming σ ω
  · exact (hbusy.feedback .doneCompleted).finish σ
  · exact hbusy.finish σ

theorem complete (h : Valid s) {c : Completion}
    (hc : ∀ p, c.operation.pointer = some p → p < s.next) {reply : Reply}
    (hreply : reply.bridge < s.next) : Valid (s.complete σ ω c reply) := by
  obtain ⟨op, procedure⟩ := c
  cases op with
  | load callback => exact h.loadingCompleted σ hc reply.result reply.bridges
  | search => exact h.bridgeSearchCompleted σ reply.bridges
  | authenticate bridge => exact h.authenticationCompleted σ ω procedure (hc bridge rfl)
  | pushLink bridge => exact (h.silent : Valid (ConnectionFlow.record _ _)).issueFor procedure hc
  | retrieveSmallConfig bridge =>
    exact h.retrieveSmallConfigCompleted σ ω reply.result (hc bridge rfl)
  | retrieveFullConfig => exact h.retrieveFullConfigCompleted σ reply.result hreply
  | save => exact h.savingCompleted σ ω reply.result

/-! ### A step and a run -/

theorem init : Valid ConnectionFlow.init := by
  refine ⟨fun p hp => ?_, Nat.lt_succ_self 1, nofun, nofun, nofun⟩
  rw [List.mem_singleton.mp hp]
  exact Nat.zero_lt_two

theorem handle (h : Valid s) {i : Input} (hi : s.enabled i = true) : Valid (s.handle σ ω i) := by
  cases i with
  | load => exact of_start h fun _ h₁ _ => h₁.beginLoading nofun
  | connectToBridge => exact h.doConnectToBridge
  | connectToBridgeBackground => exact of_start h fun _ h₁ _ => h₁.beginLoading nofun
  | connectToBridgeWithIp ip => exact h.doConnectToBridgeWithIp ip
  | connectToNewBridge => exact h.doConnectToNewBridge σ ω
  | setManual bridge => exact h.doSetManual σ ω (of_decide_eq_true hi)
  | connectoToBridgeWithIdKey id user key => exact h.doConnectoToBridgeWithIdKey σ ω id user key
  | reset only => exact h.doReset σ ω only
  | selectGroup group => exact h.doSelectGroup σ group
  | startStream => exact of_start h fun _ h₁ _ => h₁.startRetrieveFullConfig σ ω
  | stopStream => exact of_start h fun _ h₁ _ => h₁.deactivateStreaming σ ω
  | abort => exact h.doAbort σ
  | monitorEvent message =>
    simp only [ConnectionFlow.enabled, Bool.and_eq_true, decide_eq_true_eq] at hi
    exact h.doOnBridgeMonitorEvent σ ω hi.1
  | deliver c reply keep =>
    simp only [ConnectionFlow.enabled, Bool.and_eq_true, decide_eq_true_eq] at hi
    have ht : Valid (s.take c keep) := by
      refine ⟨h.stored, h.start, h.background, h.tasks, fun c' hc' => h.outstanding c' ?_⟩
      unfold ConnectionFlow.take at hc'
      split_ifs at hc'
      · exact hc'
      · exact List.mem_of_mem_erase hc'
    exact ht.complete σ ω (h.outstanding c hi.1) hi.2
  | timer task =>
    simp only [ConnectionFlow.enabled, Bool.and_eq_true, decide_eq_true_eq] at hi
    have ht : Valid { s with tasks := s.tasks.erase task } :=
      ⟨h.stored, h.start, h.background, fun t ht => h.tasks t (List.mem_of_mem_erase ht),
        h.outstanding⟩
    refine ht.issueFor _ ?_
    rintro _ ⟨⟩
    exact h.tasks task hi.2
  | newBridge bridge => exact h.alloc bridge
  | mutate p bridge => exact h.silent

end Valid

theorem valid_step {σ : Settings} {l : Input × Answers} (h : (machine σ).step s l = some s')
    (hvalid : Valid s) : Valid s' := by
  obtain ⟨hi, rfl⟩ : s.enabled l.1 = true ∧ s.handle σ l.2 l.1 = s' := by
    unfold machine ConnectionFlow.step at h
    simpa using h
  exact hvalid.handle σ l.2 hi

/-- **Pointers.** In every reachable state the flow points only to objects that exist. -/
theorem valid_of_run {σ : Settings} {ts : List (Transition ConnectionFlow (Input × Answers))}
    (h : (machine σ).Run ts s) : Valid s :=
  h.invariant (fun _ hinit => hinit ▸ Valid.init) fun _ _ _ => valid_step

end HueStream.Flow
