import HueStream.Data.Book
import HueStream.Flow.Objects

/-! # The book of the flow

The stored bridges of the flow make a book. `Leaves s s'` says that the way from `s` to `s'` leaves the
book as it is, and every object that existed with its identity; what is saved on the way is the book.
It holds of all a handler does apart from `SetActiveBridge`, the resets and what is read from outside.

The stream object writes flags and groups of the bridge it is given, so it keeps the identity
(`Answers.KeepsIdentity`). -/

namespace HueStream.Flow

open HueStream.Data HueStream.Lib

/-- The stream object keeps the identity of a bridge. -/
structure Answers.KeepsIdentity (ω : Answers) : Prop where
  stop : ∀ b, (ω.stopStream b).identity = b.identity
  start : ∀ b, (ω.startStream b).2.identity = b.identity

/-- The lists of bridges a log tells to be saved. -/
def saves (log : List Act) : List (List Bridge) :=
  log.filterMap fun | .save bridges => some bridges | _ => none

@[simp] theorem saves_append (l l' : List Act) : saves (l ++ l') = saves l ++ saves l' :=
  List.filterMap_append ..

@[simp] theorem saves_sending (s : ConnectionFlow) (m : FeedbackMessage) (own : Bool) :
    saves (s.sending m own) = [] := by
  unfold ConnectionFlow.sending
  split_ifs <;> rfl

namespace ConnectionFlow

/-- The stored bridges as a book. -/
def book (s : ConnectionFlow) : Book :=
  ⟨s.persistentData.earlier.map fun p => (s.heap p).identity, s.activeBridge.identity⟩

theorem all_book (s : ConnectionFlow) :
    s.book.all = s.persistentData.bridges.map fun p => (s.heap p).identity := by
  simp [book, Book.all, HueStreamData.bridges, activeBridge, activePtr]

/-- `SetActiveBridge` activates the entry in the book. -/
theorem book_setActiveBridge (s : ConnectionFlow) (σ : Settings) (p : BridgePtr) :
    (s.setActiveBridge σ p).book = s.book.activate σ.bridge (s.heap p).identity := by
  have hkept : (if (s.heap s.persistentData.active).hasEverBeenAuthorizedForStreaming σ.bridge then
      s.persistentData.bridges else s.persistentData.earlier).map (fun p => (s.heap p).identity) =
      s.book.kept σ.bridge := by
    unfold Book.kept
    rw [all_book]
    show List.map _ (if _ then _ else _) =
      if (s.heap s.persistentData.active).hasEverBeenAuthorizedForStreaming σ.bridge then _ else _
    split_ifs <;> rfl
  unfold Book.activate
  rw [← hkept, List.eraseP_map]
  rfl

end ConnectionFlow

/-- The way from `s` to `s'` leaves the book as it is. -/
structure Leaves (s s' : ConnectionFlow) : Prop where
  stored : ∀ p ∈ s.persistentData.bridges, p < s.next
  data : s'.persistentData = s.persistentData
  next : s.next ≤ s'.next
  identity : ∀ p < s.next, (s'.heap p).identity = (s.heap p).identity
  saved : ∃ l, saves s'.log = saves s.log ++ l ∧ ∀ bs ∈ l, bs.map Bridge.identity = s.book.all

variable {s s' s'' : ConnectionFlow}

namespace Leaves

theorem refl (h : ∀ p ∈ s.persistentData.bridges, p < s.next) : Leaves s s :=
  ⟨h, rfl, le_rfl, fun _ _ => rfl, [], by simp⟩

theorem book (h : Leaves s s') : s'.book = s.book := by
  unfold ConnectionFlow.book ConnectionFlow.activeBridge ConnectionFlow.activePtr
  rw [h.data]
  congr 1
  · refine List.map_congr_left fun p hp => h.identity p (h.stored p ?_)
    simp [HueStreamData.bridges, hp]
  · exact h.identity _ (h.stored _ (by simp [HueStreamData.bridges]))

/-- A change of other fields. -/
theorem silent (h : Leaves s s') {state request ongoingAuthenticationCount
    backgroundDiscoveredBridges bridgeStartState authenticationProcessesInfo fullConfigRetriever
    schedulerRunning tasks outstanding procedures current reported} :
    Leaves s { s' with
      state, request, ongoingAuthenticationCount, backgroundDiscoveredBridges, bridgeStartState,
      authenticationProcessesInfo, fullConfigRetriever, schedulerRunning, tasks, outstanding,
      procedures, current, reported } :=
  ⟨h.stored, h.data, h.next, h.identity, h.saved⟩

/-- An act that saves nothing. -/
theorem act (h : Leaves s s') (a : Act) (ha : saves [a] = []) :
    Leaves s (s'.record a) := by
  obtain ⟨l, hl, hbook⟩ := h.saved
  exact ⟨h.stored, h.data, h.next, h.identity, l,
    by simp [ConnectionFlow.record, ha, hl], hbook⟩

theorem newMessage (h : Leaves s s') (m : FeedbackMessage) (own : Bool) :
    Leaves s (s'.newMessage m own) := by
  obtain ⟨l, hl, hbook⟩ := h.saved
  rw [ConnectionFlow.newMessage_eq]
  exact ⟨h.stored, h.data, h.next, h.identity, l, by simp [hl], hbook⟩

theorem feedbackOn (h : Leaves s s') (id : MessageId) (bridge : BridgePtr)
    (bridges : List BridgePtr) : Leaves s (s'.feedbackOn id bridge bridges) :=
  h.newMessage _ _

theorem feedback (h : Leaves s s') (id : MessageId) (bridges : List BridgePtr := []) :
    Leaves s (s'.feedback id bridges) :=
  h.newMessage _ _

theorem feedbacks (h : Leaves s s') (l : List MessageId) :
    Leaves s (l.foldl (fun s id => s.feedback id) s') := by
  induction l generalizing s' with
  | nil => exact h
  | cons id l ih => exact ih (h.feedback id)

/-- An object is written and keeps its identity. -/
theorem write (h : Leaves s s') (p : BridgePtr) (b : Bridge)
    (hb : b.identity = (s'.heap p).identity) : Leaves s (s'.write p b) := by
  refine ⟨h.stored, h.data, h.next, fun q hq => ?_, h.saved⟩
  show (Function.update s'.heap p b q).identity = _
  by_cases hqp : q = p
  · subst hqp
    rw [Function.update_self, hb, h.identity q hq]
  · rw [Function.update_of_ne hqp, h.identity q hq]

/-- A new object is created. -/
theorem alloc (h : Leaves s s') (b : Bridge) : Leaves s (s'.alloc b) := by
  refine ⟨h.stored, h.data, h.next.trans (Nat.le_succ _), fun q hq => ?_, h.saved⟩
  show (Function.update s'.heap s'.next b q).identity = _
  rw [Function.update_of_ne (Nat.ne_of_lt (lt_of_lt_of_le hq h.next)), h.identity q hq]

theorem allocAll (h : Leaves s s') (bridges : List Bridge) :
    Leaves s (s'.allocAll bridges).1 := by
  unfold ConnectionFlow.allocAll
  induction bridges generalizing s' with
  | nil => exact h
  | cons b l ih => exact ih (h.alloc b)

theorem stopScheduler (h : Leaves s s') : Leaves s s'.stopScheduler := h.silent

theorem decremented (h : Leaves s s') : Leaves s s'.decremented := h.silent

theorem setProcessInfo (h : Leaves s s') (p : BridgePtr) (info : AuthenticationProcessInfo) :
    Leaves s (s'.setProcessInfo p info) := h.silent

variable (σ : Settings) (ω : Answers)

theorem reportActionRequired (h : Leaves s s') : Leaves s (s'.reportActionRequired σ) :=
  ((h.feedback .doneActionRequired).feedback _).silent

theorem start {request : RequestType} (hs : ∀ p ∈ s.persistentData.bridges, p < s.next)
    (h : s.start request = some s') :
    Leaves s s' := by
  unfold ConnectionFlow.start at h
  set t : ConnectionFlow := { s with
    request, procedures := s.procedures + 1, current := some s.procedures, reported := false }
  have ht : Leaves s t := (refl hs).silent
  split_ifs at h
  · obtain rfl := Option.some.inj h
    exact ((ht.feedback .userProcedureStarted).alloc _).silent
  · obtain rfl := Option.some.inj h
    exact ht

theorem finish (h : Leaves s s') : Leaves s (s'.finish σ) := by
  have hidle : Leaves s (s'.setState .idle) := h.silent
  unfold ConnectionFlow.finish
  dsimp only
  split_ifs
  · exact ((hidle.feedbacks _).feedback .userProcedureFinished).silent
  · exact hidle.silent

theorem stopStream (hω : ω.KeepsIdentity) (h : Leaves s s') : Leaves s (s'.stopStream ω) :=
  (h.act (.stopStream s'.activePtr) rfl).write _ _ (hω.stop _)

theorem stopIfStreaming (hω : ω.KeepsIdentity) (h : Leaves s s') :
    Leaves s (s'.stopIfStreaming σ ω) := by
  unfold ConnectionFlow.stopIfStreaming
  split_ifs
  · exact h.stopStream ω hω
  · exact h

/-! ### Stages -/

theorem issueFor (h : Leaves s s') (procedure : Option ℕ) (op : Operation) :
    Leaves s (s'.issueFor procedure op) := h.silent

theorem beginLoading (h : Leaves s s') (callback : LoadCallback) :
    Leaves s (s'.beginLoading callback) :=
  ((Leaves.silent (h.feedback .startLoading) :
    Leaves s ((s'.feedback .startLoading).setState .loading)).act .load rfl).issueFor _ _

/-- What is saved is the book. -/
theorem beginSaving (h : Leaves s s') : Leaves s (s'.beginSaving σ) := by
  set bridges := s'.persistentData.getAllKnownBridges σ.bridge s'.heap
  have ht : Leaves s ((s'.feedback .startSaving bridges).setState .saving) :=
    (h.feedback .startSaving bridges).silent
  obtain ⟨l, hl, hbook⟩ := ht.saved
  set t := (s'.feedback .startSaving bridges).setState .saving
  have hsave : Leaves s (t.record (.save (t.persistentData.bridges.map t.heap))) := by
    refine ⟨ht.stored, ht.data, ht.next, ht.identity,
      l ++ [t.persistentData.bridges.map t.heap], ?_, fun bs hbs => ?_⟩
    · show saves (t.log ++ [_]) = _
      rw [saves_append, hl, List.append_assoc]
      rfl
    · rcases List.mem_append.mp hbs with hbs | hbs
      · exact hbook bs hbs
      · rw [List.mem_singleton.mp hbs, ← ht.book, ConnectionFlow.all_book, List.map_map]
        rfl
  exact hsave.issueFor _ _

theorem startBridgeSearch (h : Leaves s s') : Leaves s s'.startBridgeSearch :=
  ((Leaves.silent (h.feedback .startSearching) :
    Leaves s (ConnectionFlow.setState _ _)).act _ rfl).issueFor _ _

theorem startAuthentication (h : Leaves s s') (bridges : List BridgePtr) :
    Leaves s (s'.startAuthentication bridges) := by
  have hloop : ∀ (l : List (BridgePtr × ℕ)) (t : ConnectionFlow), Leaves s t →
      Leaves s (l.foldl (fun s p => s.authenticateOne p.2 p.1) t) := by
    intro l
    induction l with
    | nil => exact fun t ht => ht
    | cons p l ih => exact fun t ht => ih _ ((ht.silent.act (.authenticate p.1) rfl).issueFor _ _)
  exact hloop _ _ ((h.feedback .startAuthorizing bridges).feedback .pressPushLink bridges).silent

theorem startRetrieveSmallConfig (h : Leaves s s') (bridge : BridgePtr) :
    Leaves s (s'.startRetrieveSmallConfig bridge) := by
  have ht : Leaves s (s'.setState .retrieving) := h.silent
  exact ((ht.feedback .startRetrievingSmall).act (.executeSmall bridge) rfl).issueFor _ _

theorem startRetrieveFullConfig (h : Leaves s s') : Leaves s (s'.startRetrieveFullConfig σ ω) := by
  have ht : Leaves s ({ s'.setState .retrieving with
      fullConfigRetriever := some (s'.activeBridge.isSupportingClipV2 σ.bridge) }.record
        (.executeFull s'.activePtr)) :=
    (Leaves.silent h : Leaves s { s'.setState .retrieving with
      fullConfigRetriever := some (s'.activeBridge.isSupportingClipV2 σ.bridge) }).act _ rfl
  unfold ConnectionFlow.startRetrieveFullConfig
  dsimp only
  split
  · exact (ht.issueFor _ _).feedbackOn _ _ _
  · exact ht.issueFor _ _
  · exact ht

theorem activateStreaming (hω : ω.KeepsIdentity) (h : Leaves s s') :
    Leaves s (s'.activateStreaming σ ω) := by
  set t := (s'.feedback .startActivating).setState .activating
  have ht : Leaves s t := (h.feedback .startActivating).silent
  have hstart : Leaves s ((t.record (.startStream σ.useRenderThread t.activePtr)).write t.activePtr
      (ω.startStream t.activeBridge).2) := (ht.act _ rfl).write _ _ (hω.start _)
  refine Leaves.finish σ ?_
  split_ifs
  · exact (hstart.feedback .finishActivatingActive).feedback .doneCompleted
  · exact (hstart.feedback .finishActivatingFailed).reportActionRequired σ

theorem deactivateStreaming (hω : ω.KeepsIdentity) (h : Leaves s s') :
    Leaves s (s'.deactivateStreaming σ ω) :=
  (Leaves.stopStream ω hω (h.silent : Leaves s (s'.setState .deactivating))).finish σ

theorem retrieveFailed (h : Leaves s s') (bridge : BridgePtr) :
    Leaves s (s'.retrieveFailed σ bridge) := by
  have hfailed := h.feedbackOn .finishRetrievingFailed bridge []
  unfold ConnectionFlow.retrieveFailed
  dsimp only
  split_ifs
  · exact hfailed.startBridgeSearch
  · exact (hfailed.feedback .doneBridgeFound).finish σ
  · exact hfailed.startAuthentication _
  · refine Leaves.beginSaving σ (Leaves.reportActionRequired σ (hfailed.write bridge _ ?_))
    rfl

end Leaves

end HueStream.Flow
