import HueStream.Flow.Says

/-! # How each handler ends

The inversion lemmas of the connection flow: one lemma for every handler, which says all that the
proofs about runs need of it. A handler goes on with another stage (`GoesOn`), starts to save
(`Saves`, or `Reports` when it reported that an action is required before), or finishes the
procedure after `n` terminal messages (`Finishes n`). -/

namespace HueStream.Flow

open HueStream.Data HueStream.Lib

/-- Another stage of the procedure has begun. -/
structure GoesOn (s s' : ConnectionFlow) : Prop where
  speaks : Speaks 0 s s'
  idle : s'.state ≠ .idle
  saving : s'.state ≠ .saving

/-- Saving has begun. -/
structure Saves (s s' : ConnectionFlow) : Prop where
  speaks : Speaks 0 s s'
  state : s'.state = .saving

/-- Saving has begun, after `ReportActionRequired`. -/
structure Reports (s s' : ConnectionFlow) : Prop where
  speaks : Speaks 1 s s'
  reported : s'.reported = true
  state : s'.state = .saving

/-- The procedure is finished, after `n` terminal messages. -/
structure Finishes (n : ℕ) (s s' : ConnectionFlow) : Prop where
  speaks : ∃ s₁, Speaks n s s₁ ∧ s₁.log <+: s'.log ∧
    sent s'.log = sent s₁.log ++ (if s.request = .internal then [] else
      [⟨⟨s.request, .userProcedureFinished, s₁.activePtr, []⟩, true⟩])
  state : s'.state = .idle
  request : s'.request = .internal
  current : s'.current = none

/-- How a handler may end; `n` terminal messages are sent when it finishes the procedure. -/
inductive Outcome (n : ℕ) (s s' : ConnectionFlow) : Prop
  | goesOn (h : GoesOn s s')
  | saves (h : Saves s s')
  | reports (h : Reports s s')
  | finishes (h : Finishes n s s')

variable {n k : ℕ} {s s' s'' : ConnectionFlow}

/-! ### What is said before the last stage -/

theorem GoesOn.stopScheduler (h : GoesOn s s') : GoesOn s s'.stopScheduler :=
  ⟨h.speaks.silent, h.idle, h.saving⟩

theorem Speaks.goesOn (h : Speaks 0 s s') (h' : GoesOn s' s'') : GoesOn s s'' :=
  ⟨h.trans h'.speaks, h'.idle, h'.saving⟩

theorem Speaks.saves (h : Speaks 0 s s') (h' : Saves s' s'') : Saves s s'' :=
  ⟨h.trans h'.speaks, h'.state⟩

theorem Speaks.reports (h : Speaks 0 s s') (h' : Reports s' s'') : Reports s s'' :=
  ⟨h.trans h'.speaks, h'.reported, h'.state⟩

theorem Speaks.finishes (h : Speaks n s s') (h' : Finishes k s' s'') : Finishes (n + k) s s'' := by
  obtain ⟨s₁, hspeaks, hlog, hsent⟩ := h'.speaks
  refine ⟨⟨s₁, h.trans hspeaks, hlog, ?_⟩, h'.state, h'.request, h'.current⟩
  rwa [h.request] at hsent

theorem Speaks.outcome (h : Speaks 0 s s') : Outcome n s' s'' → Outcome n s s''
  | .goesOn h' => .goesOn (h.goesOn h')
  | .saves h' => .saves (h.saves h')
  | .reports h' => .reports (h.reports h')
  | .finishes h' => .finishes (Nat.zero_add n ▸ h.finishes h')

theorem Outcome.log (h : Outcome n s s') : s.log <+: s'.log := by
  rcases h with h | h | h | h
  · exact h.speaks.log
  · exact h.speaks.log
  · exact h.speaks.log
  · obtain ⟨s₁, hspeaks, hlog, -⟩ := h.speaks
    exact hspeaks.log.trans hlog

namespace ConnectionFlow

variable (σ : Settings) (ω : Answers)

/-! ### Starting and finishing -/

/-- `Start` succeeds in `Idle` only, and opens a procedure unless the request is internal. -/
theorem start_eq_some {request : RequestType} (h : s.start request = some s') :
    s.state = .idle ∧ s'.state = .idle ∧ s'.request = request ∧ s'.reported = false ∧
      s'.current = some s.procedures ∧
      sent s'.log = sent s.log ++ (if request = .internal then [] else
        [⟨⟨request, .userProcedureStarted, s.activePtr, []⟩, true⟩]) := by
  unfold start at h
  split_ifs at h with hidle hint
  all_goals
    obtain rfl := Option.some.inj h
    simp_all [feedback_eq, alloc, activePtr]

theorem start_eq_none {request : RequestType} (h : s.start request = none) : s.state ≠ .idle := by
  unfold start at h
  split_ifs at h with hidle
  exact hidle

theorem feedbacks_eq (l : List MessageId) :
    ∃ log, l.foldl (fun s id => s.feedback id) s = { s with log } := by
  induction l generalizing s with
  | nil => exact ⟨s.log, rfl⟩
  | cons id l ih =>
    obtain ⟨log, hlog⟩ := ih (s := s.feedback id)
    exact ⟨log, by rw [List.foldl_cons, hlog, feedback_eq]⟩

theorem state_sendDifferences : (s.sendDifferences σ).state = s.state := by
  obtain ⟨log, hlog⟩ := feedbacks_eq (s := s)
    (compareBridges σ.bridge (s.heap s.bridgeStartState) s.activeBridge)
  rw [sendDifferences, hlog]

theorem speaks_sendDifferences (h : Speaks n s s') : Speaks n s (s'.sendDifferences σ) :=
  h.feedbacks _ fun _ hid =>
    MessageId.isPlain_of_isDifference (isDifference_of_mem_compareBridges _ hid)

/-- `Finish` sends the differences, closes the procedure and returns to `Idle`. -/
theorem finishes_finish (h : Speaks n s s') : Finishes n s (s'.finish σ) := by
  have hidle := h.setState .idle
  have hdiff := speaks_sendDifferences σ hidle
  unfold finish
  dsimp only
  split_ifs with hreq
  · rw [feedback_eq]
    refine ⟨⟨_, hdiff, List.prefix_append _ _, ?_⟩, state_sendDifferences σ, rfl, rfl⟩
    rw [if_neg (hidle.request ▸ hreq)]
    simp [hdiff.request]
  · have hint : s.request = .internal := hidle.request.symm.trans (not_not.mp hreq)
    exact ⟨⟨_, hidle, List.prefix_rfl, by simp [hint]⟩, rfl, rfl, rfl⟩

/-! ### Stages -/

theorem goesOn_beginLoading (h : Speaks 0 s s') (callback : LoadCallback) :
    GoesOn s (s'.beginLoading callback) := by
  exact ⟨(((h.feedback .startLoading rfl).setState .loading).act .load rfl).silent, nofun, nofun⟩

theorem speaks_beginSaving (h : Speaks n s s') : Speaks n s (s'.beginSaving σ) :=
  (((h.feedback .startSaving rfl _).setState .saving).act (.save _) rfl).silent

theorem saves_beginSaving (h : Speaks 0 s s') : Saves s (s'.beginSaving σ) :=
  ⟨speaks_beginSaving σ h, rfl⟩

theorem reports_beginSaving (h : Speaks 0 s s') :
    Reports s ((s'.reportActionRequired σ).beginSaving σ) := by
  obtain ⟨hspeaks, hrep⟩ := h.reportActionRequired σ
  refine ⟨speaks_beginSaving σ hspeaks, ?_, rfl⟩
  rw [(speaks_beginSaving σ Speaks.refl).reported, hrep]

theorem goesOn_startBridgeSearch (h : Speaks 0 s s') : GoesOn s s'.startBridgeSearch := by
  have hsearch := h.feedback .startSearching rfl
  unfold startBridgeSearch
  dsimp only
  split_ifs
  · exact ⟨((hsearch.setState .searchingRetry).act (.searchNew _) rfl).silent, nofun, nofun⟩
  · exact ⟨((hsearch.setState .searchingFirst).act (.searchNew _) rfl).silent, nofun, nofun⟩

theorem speaks_pushLinkBridge (h : Speaks n s s') (procedure : Option ℕ) (bridge : BridgePtr) :
    Speaks n s (s'.pushLinkBridge procedure bridge) :=
  (h.act (.authenticate bridge) rfl).silent

theorem goesOn_startAuthentication (h : Speaks 0 s s') (bridges : List BridgePtr) :
    GoesOn s (s'.startAuthentication bridges) := by
  have hloop : ∀ (l : List (BridgePtr × ℕ)) (t : ConnectionFlow), Speaks 0 s t →
      t.state = .authenticating →
      GoesOn s (l.foldl (fun s p => s.authenticateOne p.2 p.1) t) := by
    intro l
    induction l with
    | nil => exact fun t ht hstate => ⟨ht, by simp [hstate], by simp [hstate]⟩
    | cons p l ih =>
      intro t ht hstate
      exact ih _ (speaks_pushLinkBridge ht.silent _ _) hstate
  exact hloop _ _ ((h.feedback .startAuthorizing rfl bridges).feedback .pressPushLink rfl bridges).silent rfl

theorem goesOn_startRetrieveSmallConfig (h : Speaks 0 s s') (bridge : BridgePtr) :
    GoesOn s (s'.startRetrieveSmallConfig bridge) := by
  have hsmall := (h.setState .retrieving).feedback .startRetrievingSmall rfl
  have hstate : (s'.startRetrieveSmallConfig bridge).state = .retrieving :=
    feedback_state (s := s'.setState .retrieving) _ _
  exact ⟨(hsmall.act (.executeSmall bridge) rfl).silent, by simp [hstate], by simp [hstate]⟩

theorem goesOn_startRetrieveFullConfig (h : Speaks 0 s s') :
    GoesOn s (s'.startRetrieveFullConfig σ ω) := by
  set t : ConnectionFlow := { s'.setState .retrieving with
    fullConfigRetriever := some (s'.activeBridge.isSupportingClipV2 σ.bridge) }
  have ht : Speaks 0 s t := h.silent
  have hexec := ht.act (.executeFull s'.activePtr) rfl
  unfold startRetrieveFullConfig
  dsimp only
  split
  · exact ⟨hexec.silent.feedbackOn .startRetrieving rfl s'.activePtr [], nofun, nofun⟩
  · exact ⟨hexec.silent, nofun, nofun⟩
  · exact ⟨hexec, nofun, nofun⟩

/-- `ActivateStreaming` sends one terminal message, whether the stream starts or not. -/
theorem finishes_activateStreaming (h : Speaks n s s') :
    Finishes (n + 1) s (s'.activateStreaming σ ω) := by
  set t := (s'.feedback .startActivating).setState .activating
  have hstart : Speaks n s t := (h.feedback .startActivating rfl).silent
  have hact := hstart.act (.startStream σ.useRenderThread t.activePtr) rfl
  unfold activateStreaming
  dsimp only
  refine finishes_finish σ ?_
  split_ifs
  · exact (hact.silent.feedback .finishActivatingActive rfl).terminal .doneCompleted rfl (by decide)
  · exact ((hact.silent.feedback .finishActivatingFailed rfl).reportActionRequired σ).1

theorem speaks_stopStream (h : Speaks n s s') : Speaks n s (s'.stopStream ω) :=
  (h.act (.stopStream s'.activePtr) rfl).silent

theorem speaks_stopIfStreaming (h : Speaks n s s') : Speaks n s (s'.stopIfStreaming σ ω) := by
  unfold stopIfStreaming
  split_ifs
  · exact speaks_stopStream ω h
  · exact h

theorem finishes_deactivateStreaming (h : Speaks n s s') :
    Finishes n s (s'.deactivateStreaming σ ω) :=
  finishes_finish σ (speaks_stopStream ω h.silent)

theorem saves_clearBridge (h : Speaks 0 s s') : Saves s (s'.clearBridge σ) := by
  refine saves_beginSaving σ (Speaks.feedback ?_ .doneReset rfl)
  split_ifs
  · exact h.silent
  · exact h.silent
  · exact h

end ConnectionFlow

end HueStream.Flow
