import HueStream.Flow.Alternation

/-! # What a stage leaves

`Frame s s'` says what all but the last call of a handler leaves as it is: the operations under way,
the scheduler, what is known about the authentication, and which retriever is asked. `Moves` says the
same of the call that begins a stage, up to the operation it issues; the authentication begins with one
operation for each bridge (`Authenticates`). -/

namespace HueStream.Flow

open HueStream.Data HueStream.Lib

/-- A retriever is asked for the configuration of a bridge. -/
def Act.isExecution : Act → Bool
  | .executeSmall _ | .executeFull _ => true
  | _ => false

/-- The retrievals a log tells of. -/
def executions (log : List Act) : List Act := log.filter Act.isExecution

@[simp] theorem executions_nil : executions [] = [] := rfl

@[simp] theorem executions_append (l l' : List Act) :
    executions (l ++ l') = executions l ++ executions l' :=
  List.filter_append ..

@[simp] theorem executions_sending (s : ConnectionFlow) (m : FeedbackMessage) (own : Bool) :
    executions (s.sending m own) = [] := by
  unfold ConnectionFlow.sending
  split_ifs <;> rfl

/-- Nothing has happened to the operations under way and the authentication, and
`ID_FINISH_AUTHORIZING_FAILED` was not sent. -/
structure Frame (s s' : ConnectionFlow) : Prop where
  outstanding : s'.outstanding = s.outstanding
  tasks : s'.tasks = s.tasks
  schedulerRunning : s'.schedulerRunning = s.schedulerRunning
  count : s'.ongoingAuthenticationCount = s.ongoingAuthenticationCount
  info : s'.authenticationProcessesInfo = s.authenticationProcessesInfo
  retriever : s'.fullConfigRetriever = s.fullConfigRetriever
  background : s.backgroundDiscoveredBridges.Nodup → s'.backgroundDiscoveredBridges.Nodup
  executions : executions s'.log = executions s.log
  sent : ∃ ms, sent s'.log = sent s.log ++ ms ∧
    ∀ x ∈ ms, x.message.id ≠ .finishAuthorizingFailed

variable {s s' s'' : ConnectionFlow}

namespace Frame

theorem refl : Frame s s := ⟨rfl, rfl, rfl, rfl, rfl, rfl, id, rfl, [], by simp⟩

theorem trans (h : Frame s s') (h' : Frame s' s'') : Frame s s'' := by
  obtain ⟨ms, hms, hne⟩ := h.sent
  obtain ⟨ms', hms', hne'⟩ := h'.sent
  refine ⟨h'.outstanding.trans h.outstanding, h'.tasks.trans h.tasks,
    h'.schedulerRunning.trans h.schedulerRunning, h'.count.trans h.count, h'.info.trans h.info,
    h'.retriever.trans h.retriever, h'.background ∘ h.background,
    h'.executions.trans h.executions, ms ++ ms', ?_, fun x hx => ?_⟩
  · rw [hms', hms, List.append_assoc]
  · exact (List.mem_append.mp hx).elim (hne x) (hne' x)

/-- A change of other fields. -/
theorem silent (h : Frame s s') {state request persistentData bridgeStartState heap next procedures
    current reported} :
    Frame s { s' with
      state, request, persistentData, bridgeStartState, heap, next, procedures, current,
      reported } :=
  h.trans ⟨rfl, rfl, rfl, rfl, rfl, rfl, id, rfl, [], by simp⟩

/-- Other bridges are kept for a later connect. -/
theorem discovered (h : Frame s s') {bridges : List BridgePtr} (hnodup : bridges.Nodup) :
    Frame s { s' with backgroundDiscoveredBridges := bridges } :=
  h.trans ⟨rfl, rfl, rfl, rfl, rfl, rfl, fun _ => hnodup, rfl, [], by simp⟩

theorem newMessage (h : Frame s s') (m : FeedbackMessage) (own : Bool)
    (hm : m.id ≠ .finishAuthorizingFailed) : Frame s (s'.newMessage m own) := by
  rw [ConnectionFlow.newMessage_eq]
  exact h.trans ⟨rfl, rfl, rfl, rfl, rfl, rfl, id, by simp, [⟨m, own⟩], by simp, by simpa using hm⟩

theorem feedbackOn (h : Frame s s') (id : MessageId) (hid : id ≠ .finishAuthorizingFailed)
    (bridge : BridgePtr) (bridges : List BridgePtr) :
    Frame s (s'.feedbackOn id bridge bridges) :=
  h.newMessage _ true hid

theorem feedback (h : Frame s s') (id : MessageId) (hid : id ≠ .finishAuthorizingFailed)
    (bridges : List BridgePtr := []) : Frame s (s'.feedback id bridges) :=
  h.feedbackOn id hid _ bridges

/-- An act that is neither a message nor a retrieval. -/
theorem act (h : Frame s s') (a : Act) (ha : Flow.sent [a] = []) (hexec : Flow.executions [a] = []) :
    Frame s (s'.record a) := by
  refine h.trans ⟨rfl, rfl, rfl, rfl, rfl, rfl, id, ?_, [], ?_, by simp⟩
  · simp [ConnectionFlow.record, hexec]
  · simp [ConnectionFlow.record, ha]

theorem feedbacks (h : Frame s s') (l : List MessageId)
    (hl : ∀ id ∈ l, id ≠ .finishAuthorizingFailed) :
    Frame s (l.foldl (fun s id => s.feedback id) s') := by
  induction l generalizing s' with
  | nil => exact h
  | cons id l ih =>
    exact ih (h.feedback id (hl id (by simp))) fun id' hid' => hl id' (by simp [hid'])

variable (σ : Settings) (ω : Answers)

theorem reportActionRequired (h : Frame s s') : Frame s (s'.reportActionRequired σ) := by
  have hid : ∀ status, ConnectionFlow.actionMessage status ≠ .finishAuthorizingFailed := by
    intro status
    cases status <;> decide
  exact ((h.feedback .doneActionRequired (by decide)).feedback _ (hid _)).silent

theorem start {request : RequestType} (h : s.start request = some s') : Frame s s' := by
  unfold ConnectionFlow.start at h
  set t : ConnectionFlow := { s with
    request, procedures := s.procedures + 1, current := some s.procedures, reported := false }
  have ht : Frame s t := Frame.refl.silent
  split_ifs at h
  · obtain rfl := Option.some.inj h
    exact (ht.feedback .userProcedureStarted (by decide)).silent
  · obtain rfl := Option.some.inj h
    exact ht

theorem finish (h : Frame s s') : Frame s (s'.finish σ) := by
  have hidle : Frame s (s'.setState .idle) := h.silent
  have hdiff : Frame s ((s'.setState .idle).sendDifferences σ) := by
    refine hidle.feedbacks _ fun id hid => ?_
    have := isDifference_of_mem_compareBridges _ hid
    rintro rfl
    cases this
  unfold ConnectionFlow.finish
  dsimp only
  split_ifs
  · exact (hdiff.feedback .userProcedureFinished (by decide)).silent
  · exact hidle.silent

theorem stopStream (h : Frame s s') : Frame s (s'.stopStream ω) :=
  (h.act (.stopStream s'.activePtr) rfl rfl).silent

theorem stopIfStreaming (h : Frame s s') : Frame s (s'.stopIfStreaming σ ω) := by
  unfold ConnectionFlow.stopIfStreaming
  split_ifs
  · exact h.stopStream ω
  · exact h

theorem allocAll (h : Frame s s') (bridges : List Bridge) : Frame s (s'.allocAll bridges).1 := by
  unfold ConnectionFlow.allocAll
  induction bridges generalizing s' with
  | nil => exact h
  | cons b l ih => exact ih (h.silent : Frame s (s'.alloc b))

theorem adoptData (h : Frame s s') (ptrs : List BridgePtr) : Frame s (s'.adoptData ptrs) := by
  unfold ConnectionFlow.adoptData
  split
  · exact h.silent
  · exact h.silent

theorem unbusy (h : Frame s s') : Frame s s'.unbusy := h.silent

theorem activateStreaming (h : Frame s s') : Frame s (s'.activateStreaming σ ω) := by
  set t := (s'.feedback .startActivating).setState .activating
  have ht : Frame s t := (h.feedback .startActivating (by decide)).silent
  have hact := ht.act (.startStream σ.useRenderThread t.activePtr) rfl rfl
  refine Frame.finish σ ?_
  split_ifs
  · exact (hact.silent.feedback .finishActivatingActive (by decide)).feedback .doneCompleted (by decide)
  · exact (hact.silent.feedback .finishActivatingFailed (by decide)).reportActionRequired σ

theorem deactivateStreaming (h : Frame s s') : Frame s (s'.deactivateStreaming σ ω) :=
  (Frame.stopStream ω (h.silent : Frame s (s'.setState .deactivating))).finish σ

end Frame

/-! ### The beginning of a stage -/

/-- A stage has begun: the flow is in the state `x`, and has issued the operations `ops` and the
retrievals `execs`. -/
structure Moves (s : ConnectionFlow) (x : FlowState) (ops : List Operation) (execs : List Act)
    (s' : ConnectionFlow) : Prop where
  state : s'.state = x
  outstanding : s'.outstanding = s.outstanding ++ ops.map fun op => ⟨op, s.current⟩
  executions : executions s'.log = executions s.log ++ execs
  tasks : s'.tasks = s.tasks
  schedulerRunning : s'.schedulerRunning = s.schedulerRunning
  count : s'.ongoingAuthenticationCount = s.ongoingAuthenticationCount
  info : s'.authenticationProcessesInfo = s.authenticationProcessesInfo
  background : s.backgroundDiscoveredBridges.Nodup → s'.backgroundDiscoveredBridges.Nodup
  sent : ∃ ms, sent s'.log = sent s.log ++ ms ∧
    ∀ x ∈ ms, x.message.id ≠ .finishAuthorizingFailed

namespace Moves

variable {u : ConnectionFlow} {x : FlowState} {ops : List Operation} {execs : List Act}

theorem of_frame (h : Frame s s') : Moves s s'.state [] [] s' :=
  ⟨rfl, by simp [h.outstanding], by simp [h.executions], h.tasks, h.schedulerRunning, h.count,
    h.info, h.background, h.sent⟩

/-- The last operation of a stage. -/
theorem issue (h : Moves s x [] execs u) (op : Operation) (hcurrent : u.current = s.current) :
    Moves s x [op] execs (u.issue op) := by
  refine ⟨h.state, ?_, h.executions, h.tasks, h.schedulerRunning, h.count, h.info, h.background,
    h.sent⟩
  simp [ConnectionFlow.issue, ConnectionFlow.issueFor, h.outstanding, hcurrent]

/-- A retriever is asked. -/
theorem execute (h : Moves s x [] [] u) (a : Act) (ha : a.isExecution = true)
    (hsent : Flow.sent [a] = []) : Moves s x [] [a] (u.record a) := by
  obtain ⟨ms, hms, hne⟩ := h.sent
  refine ⟨h.state, h.outstanding, ?_, h.tasks, h.schedulerRunning, h.count, h.info, h.background,
    ms, ?_, hne⟩
  · have hexec : Flow.executions [a] = [a] := by simp [Flow.executions, ha]
    simp [ConnectionFlow.record, h.executions, hexec]
  · simp [ConnectionFlow.record, hsent, hms]

theorem frame (h : Moves s x ops execs u) (h' : Frame u s') : Moves s s'.state ops execs s' := by
  obtain ⟨ms, hms, hne⟩ := h.sent
  obtain ⟨ms', hms', hne'⟩ := h'.sent
  refine ⟨rfl, h'.outstanding.trans h.outstanding, h'.executions.trans h.executions,
    h'.tasks.trans h.tasks, h'.schedulerRunning.trans h.schedulerRunning, h'.count.trans h.count,
    h'.info.trans h.info, h'.background ∘ h.background, ms ++ ms', ?_, fun y hy => ?_⟩
  · rw [hms', hms, List.append_assoc]
  · exact (List.mem_append.mp hy).elim (hne y) (hne' y)

end Moves

namespace ConnectionFlow

theorem moves_beginLoading (callback : LoadCallback) :
    Moves s .loading [.load callback] [] (s.beginLoading callback) := by
  have h : Frame s (((s.feedback .startLoading).setState .loading).record .load) :=
    Frame.act (Frame.silent (Frame.refl.feedback .startLoading (by decide))) .load rfl rfl
  exact (Moves.of_frame h).issue _ (by simp [record, setState, feedback_eq])

theorem moves_startBridgeSearch : ∃ x, (x = .searchingFirst ∨ x = .searchingRetry) ∧
    Moves s x [.search] [] s.startBridgeSearch := by
  have h : ∀ x b, Frame s (((s.feedback .startSearching).setState x).record (.searchNew b)) :=
    fun x b => Frame.act (Frame.silent (Frame.refl.feedback .startSearching (by decide))) _ rfl rfl
  unfold startBridgeSearch
  dsimp only
  refine ⟨_, ?_, (Moves.of_frame (h _ _)).issue _ (by simp [record, setState, feedback_eq])⟩
  show (if _ then _ else _) = _ ∨ (if _ then _ else _) = _
  split_ifs
  · exact .inr rfl
  · exact .inl rfl

theorem moves_startRetrieveSmallConfig (bridge : BridgePtr) :
    Moves s .retrieving [.retrieveSmallConfig bridge] [.executeSmall bridge]
      (s.startRetrieveSmallConfig bridge) := by
  have h : Frame s (s.setState .retrieving) := Frame.refl.silent
  have hmoves := Moves.of_frame (h.feedback .startRetrievingSmall (by decide))
  rw [feedback_state] at hmoves
  exact (hmoves.execute (.executeSmall bridge) rfl rfl).issue (.retrieveSmallConfig bridge)
    (by simp [record, setState, feedback_eq])

variable (σ : Settings) (ω : Answers)

/-- The operation of a retrieval, unless the retriever has refused it. -/
def retrieval (answer : ExecuteAnswer) : List Operation :=
  if answer = .refused then [] else [.retrieveFullConfig]

theorem moves_startRetrieveFullConfig :
    Moves s .retrieving (retrieval ω.execute) [.executeFull s.activePtr]
      (s.startRetrieveFullConfig σ ω) := by
  set t : ConnectionFlow := { s.setState .retrieving with
    fullConfigRetriever := some (s.activeBridge.isSupportingClipV2 σ.bridge) }
  have h : Moves s .retrieving [] [] t :=
    ⟨rfl, (List.append_nil _).symm, (List.append_nil _).symm, rfl, rfl, rfl, rfl, id, [], by simp [t, setState]⟩
  have hexec := h.execute (.executeFull s.activePtr) rfl rfl
  unfold startRetrieveFullConfig
  dsimp only
  split
  · next hanswer =>
    rw [hanswer]
    have hmoves := (hexec.issue .retrieveFullConfig rfl).frame
      (Frame.refl.feedbackOn .startRetrieving (by decide) s.activePtr [])
    exact hmoves
  · next hanswer =>
    rw [hanswer]
    exact hexec.issue .retrieveFullConfig rfl
  · next hanswer =>
    rw [hanswer]
    exact hexec

theorem moves_beginSaving : Moves s .saving [.save] [] (s.beginSaving σ) := by
  set bridges := s.persistentData.getAllKnownBridges σ.bridge s.heap
  have h : Frame s (((s.feedback .startSaving bridges).setState .saving).record
      (.save ((s.feedback .startSaving bridges).persistentData.bridges.map
        (s.feedback .startSaving bridges).heap))) :=
    Frame.act (Frame.silent (Frame.refl.feedback .startSaving (by decide) bridges)) _ rfl rfl
  exact (Moves.of_frame h).issue .save (by simp [record, setState, feedback_eq])

theorem state_finish : (s.finish σ).state = .idle := (finishes_finish σ .refl).state

theorem moves_saveAside : Moves s .idle [.save] [] ((s.beginSaving σ).finish σ) := by
  have h := (moves_beginSaving (s := s) σ).frame (Frame.refl.finish σ)
  rwa [state_finish] at h

/-! ### The beginning of an authentication -/

/-- `emplace`: an entry that is there stays. -/
theorem lookup_emplace (info : AList fun _ : BridgePtr => AuthenticationProcessInfo)
    (p b : BridgePtr) (v : AuthenticationProcessInfo) :
    (if p ∈ info then info else info.insert p v).lookup b =
      (info.lookup b).or (if b = p then some v else none) := by
  by_cases hmem : p ∈ info
  · rw [if_pos hmem]
    split_ifs with hb
    · obtain ⟨w, hw⟩ := Option.isSome_iff_exists.mp (AList.lookup_isSome.mpr hmem)
      rw [hb, hw]
      rfl
    · rw [Option.or_none]
  · rw [if_neg hmem]
    split_ifs with hb
    · rw [hb, AList.lookup_insert, AList.lookup_eq_none.mpr hmem]
      rfl
    · rw [AList.lookup_insert_ne hb, Option.or_none]

/-- The loop of `StartAuthentication` asks every bridge, and numbers the ones without an entry. -/
theorem authenticateAll_eq (l : List BridgePtr) (k : ℕ) : ∃ info log,
    (l.zipIdx k).foldl (fun s p => s.authenticateOne p.2 p.1) s =
      { s with
        authenticationProcessesInfo := info, log := s.log ++ log
        outstanding := s.outstanding ++ l.map fun b => ⟨.authenticate b, s.current⟩ } ∧
    sent log = [] ∧ executions log = [] ∧
    ∀ b, info.lookup b = (s.authenticationProcessesInfo.lookup b).or
      (if b ∈ l then some { bridgeNumber := (k + l.idxOf b : ℕ) } else none) := by
  induction l generalizing s k with
  | nil => exact ⟨s.authenticationProcessesInfo, [], by simp⟩
  | cons p l ih =>
    obtain ⟨info, log, heq, hsent, hexec, hinfo⟩ := ih (s := s.authenticateOne k p) (k + 1)
    refine ⟨info, .authenticate p :: log, ?_, hsent, hexec, fun b => ?_⟩
    · rw [List.zipIdx_cons, List.foldl_cons, heq]
      simp [authenticateOne, pushLinkBridge, record, issueFor]
    · have hone := lookup_emplace s.authenticationProcessesInfo p b { bridgeNumber := k }
      rw [hinfo]
      refine (congrArg (Option.or · _) hone).trans ?_
      rw [Option.or_assoc]
      congr 1
      by_cases hb : b = p
      · simp [hb]
      · have hidx : (p :: l).idxOf b = l.idxOf b + 1 := List.idxOf_cons_ne _ (Ne.symm hb)
        rw [if_neg hb, hidx]
        simp [hb, Nat.add_comm, Nat.add_left_comm]

/-- `StartAuthentication`: everybody is asked, and nobody has failed yet. -/
structure Authenticates (s : ConnectionFlow) (bridges : List BridgePtr) (s' : ConnectionFlow) :
    Prop where
  state : s'.state = .authenticating
  count : s'.ongoingAuthenticationCount = bridges.length
  info : ∀ b, s'.authenticationProcessesInfo.lookup b =
    if b ∈ bridges then some { bridgeNumber := bridges.idxOf b } else none
  outstanding : s'.outstanding =
    s.outstanding ++ bridges.map fun b => ⟨.authenticate b, s.current⟩
  tasks : s'.tasks = s.tasks
  schedulerRunning : s'.schedulerRunning = true
  retriever : s'.fullConfigRetriever = s.fullConfigRetriever
  background : s'.backgroundDiscoveredBridges = s.backgroundDiscoveredBridges
  executions : Flow.executions s'.log = Flow.executions s.log
  sent : ∃ r p, Flow.sent s'.log = Flow.sent s.log ++
    [⟨⟨r, .startAuthorizing, p, bridges⟩, true⟩, ⟨⟨r, .pressPushLink, p, bridges⟩, true⟩]

theorem authenticates_startAuthentication (bridges : List BridgePtr) :
    Authenticates s bridges (s.startAuthentication bridges) := by
  set t : ConnectionFlow := { ((s.feedback .startAuthorizing bridges).feedback .pressPushLink
      bridges).setState .authenticating with
    ongoingAuthenticationCount := bridges.length, authenticationProcessesInfo := ∅,
    schedulerRunning := true } with ht
  have hlog : Flow.sent t.log = Flow.sent s.log ++
      [⟨⟨s.request, .startAuthorizing, s.activePtr, bridges⟩, true⟩,
        ⟨⟨s.request, .pressPushLink, s.activePtr, bridges⟩, true⟩] ∧
      Flow.executions t.log = Flow.executions s.log := by
    rw [ht]
    simp [feedback_eq, setState, activePtr]
  obtain ⟨info, log, heq, hsent, hexec, hinfo⟩ := authenticateAll_eq (s := t) bridges 0
  have hdo : s.startAuthentication bridges = _ := heq
  rw [hdo]
  refine ⟨rfl, rfl, fun b => ?_, ?_, ?_, rfl, ?_, ?_, ?_, s.request, s.activePtr, ?_⟩
  · refine (hinfo b).trans ?_
    simp [ht]
  · simp [ht, feedback_eq, setState]
  · simp [ht, feedback_eq, setState]
  · simp [ht, feedback_eq, setState]
  · simp [ht, feedback_eq, setState]
  · show Flow.executions (t.log ++ log) = _
    rw [executions_append, hlog.2, hexec, List.append_nil]
  · show Flow.sent (t.log ++ log) = _
    rw [sent_append, hlog.1, hsent, List.append_nil]

end ConnectionFlow

end HueStream.Flow
