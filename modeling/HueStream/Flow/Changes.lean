import HueStream.Data.Rediscovery
import HueStream.Flow.Stored

/-! # What a step does to the book

`ConnectionFlow.change` tells from the state and the input alone which change of the book a step is.
The step makes that change, and saves only the book before it or the book after it (`handle_rebooks`):
the flow refines the book of bridges. -/

namespace HueStream.Flow

open HueStream.Data HueStream.Lib

/-- The bridge a load makes the active one when it has ended. -/
def LoadCallback.activated : LoadCallback → Option BridgePtr
  | .setActiveAndRetrieve bridge => some bridge
  | _ => none

/-- The book the storage has read. -/
def loadedBook (result : OperationResult) (stored : List Bridge) : Book :=
  match stored.getLast? with
  | none => {}
  | some active =>
    ⟨stored.dropLast.map Bridge.identity, if result = .success then active.identity else {}⟩

namespace ConnectionFlow

variable (σ : Settings) (ω : Answers)

/-- The search has found a known bridge. -/
def rediscovers (s : ConnectionFlow) (found : List Bridge) : Bool :=
  let (t, ptrs) := s.allocAll found
  let bridges := filterInvalidAndDuplicateIpAddresses t.heap ptrs
  s.request ≠ .connectNew && bridges.any (fun b => (t.heap b).isValidModelId σ.bridge) &&
    s.persistentData.bridges.any (HueStreamData.isRediscovered σ.bridge t.heap bridges)

/-- What a completion does to the book. -/
def completionChange (s : ConnectionFlow) (reply : Reply) : Operation → Change
  | .load callback =>
    if s.state = .loading then
      .load (match callback.activated with
        | none => loadedBook reply.result reply.bridges
        | some p =>
          (loadedBook reply.result reply.bridges).activate σ.bridge (s.heap p).identity)
    else .keep
  | .search =>
    if (s.state = .searchingFirst ∨ s.state = .searchingRetry) ∧ s.rediscovers σ reply.bridges then
      .rediscover
    else .keep
  | .authenticate p =>
    if s.state = .authenticating ∧ s.authorizes p then .authorize (s.heap p).identity else .keep
  | .retrieveSmallConfig p =>
    if s.state = .retrieving ∧ reply.result = .success then .activate (s.heap p).identity else .keep
  | .retrieveFullConfig =>
    if s.state = .retrieving then .activate (s.heap reply.bridge).identity else .keep
  | .pushLink _ | .save => .keep

/-- An object is about to be authorized. -/
def isAuthenticating (s : ConnectionFlow) (p : BridgePtr) : Bool :=
  s.outstanding.any (·.operation = .authenticate p)

/-- What a step does to the book. -/
def change (s : ConnectionFlow) : Input → Change
  | .connectToNewBridge => if s.state = .idle then .activate {} else .keep
  | .reset onlyActiveBridge =>
    if s.state = .idle then (if onlyActiveBridge then .forgetActive else .forgetAll) else .keep
  | .abort =>
    if s.state = .idle then .keep else .activate (s.heap s.bridgeStartState).identity
  | .monitorEvent message =>
    if s.state = .idle then .activate (s.heap message.bridge).identity else .keep
  | .deliver c reply _ => s.completionChange σ reply c.operation
  | .mutate p b =>
    if p ∈ s.persistentData.bridges then
      .rewrite (s.heap p).identity b.identity (s.isAuthenticating p)
    else .keep
  | _ => .keep

end ConnectionFlow

/-- The way from `s` to `s'` makes a change of the book, and saves the one before or after it. -/
structure Rebooks (σ : Settings) (s : ConnectionFlow) (c : Change) (s' : ConnectionFlow) : Prop where
  changes : s.book.Changes σ.bridge c s'.book
  saved : ∃ l, saves s'.log = saves s.log ++ l ∧
    ∀ bs ∈ l, bs.map Bridge.identity = s.book.all ∨ bs.map Bridge.identity = s'.book.all

variable {σ : Settings} {ω : Answers} {s s' u v : ConnectionFlow} {c : Change}

theorem Leaves.rebooks (h : Leaves s s') : Rebooks σ s .keep s' := by
  obtain ⟨l, hl, hbook⟩ := h.saved
  exact ⟨h.book ▸ .keep, l, hl, fun bs hbs => .inl (hbook bs hbs)⟩

/-- A change between two ways that leave the book. -/
theorem Rebooks.of_leaves (h : Leaves s u) (hlog : saves v.log = saves u.log)
    (hchange : s.book.Changes σ.bridge c v.book) (h' : Leaves v s') : Rebooks σ s c s' := by
  obtain ⟨l, hl, hbook⟩ := h.saved
  obtain ⟨l', hl', hbook'⟩ := h'.saved
  refine ⟨h'.book ▸ hchange, l ++ l', ?_, fun bs hbs => ?_⟩
  · rw [hl', hlog, hl, List.append_assoc]
  · rcases List.mem_append.mp hbs with hbs | hbs
    · exact .inl (hbook bs hbs)
    · exact .inr (h'.book ▸ hbook' bs hbs)

theorem Leaves.stored' (h : Leaves s u) : ∀ q ∈ u.persistentData.bridges, q < u.next := by
  intro q hq
  rw [h.data] at hq
  exact lt_of_lt_of_le (h.stored q hq) h.next

/-- `SetActiveBridge` between two ways that leave the book. -/
theorem Rebooks.setActive (h : Leaves s u) {p : BridgePtr} (hp : p < u.next)
    (hc : s.book.Changes σ.bridge c (s.book.activate σ.bridge (u.heap p).identity))
    (h' : Leaves (u.setActiveBridge σ p) (u.setActiveBridge σ p) →
      Leaves (u.setActiveBridge σ p) s') : Rebooks σ s c s' := by
  have hlog : saves (u.setActiveBridge σ p).log = saves u.log := rfl
  refine Rebooks.of_leaves h hlog ?_ (h' (Leaves.refl fun q hq => ?_))
  · rwa [ConnectionFlow.book_setActiveBridge, h.book]
  · rcases mem_setActiveBridge hq with hq | rfl
    · exact h.stored' q hq
    · exact hp

/-- A bridge that existed before becomes the active one. -/
theorem Rebooks.activate (h : Leaves s u) {p : BridgePtr} (hp : p < s.next)
    (h' : Leaves (u.setActiveBridge σ p) (u.setActiveBridge σ p) →
      Leaves (u.setActiveBridge σ p) s') : Rebooks σ s (.activate (s.heap p).identity) s' := by
  refine Rebooks.setActive h (lt_of_lt_of_le hp h.next) ?_ h'
  rw [h.identity p hp]
  exact .activate _

namespace ConnectionFlow

/-! ### User requests -/

/-- A request that leaves the book once it has started. -/
theorem rebooks_of_start {request : RequestType} {f : ConnectionFlow → ConnectionFlow}
    (h : Valid s) (hf : ∀ s₁, s.start request = some s₁ → Leaves s s₁ → Leaves s (f s₁)) :
    Rebooks σ s .keep (match s.start request with | none => s | some s₁ => f s₁) := by
  cases hstart : s.start request with
  | none => exact (Leaves.refl h.stored).rebooks
  | some s₁ => exact (hf s₁ hstart (Leaves.start h.stored hstart)).rebooks

/-- A request that changes the book once it has started. -/
theorem rebooks_of_idle {request : RequestType} {f : ConnectionFlow → ConnectionFlow}
    (h : Valid s)
    (hf : ∀ s₁, s.start request = some s₁ → Leaves s s₁ → Rebooks σ s c (f s₁)) :
    Rebooks σ s (if s.state = .idle then c else .keep)
      (match s.start request with | none => s | some s₁ => f s₁) := by
  cases hstart : s.start request with
  | none =>
    rw [if_neg (start_eq_none hstart)]
    exact (Leaves.refl h.stored).rebooks
  | some s₁ =>
    rw [if_pos (start_eq_some hstart).1]
    exact hf s₁ hstart (Leaves.start h.stored hstart)

theorem rebooks_doConnectToNewBridge (h : Valid s) (hω : ω.KeepsIdentity) :
    Rebooks σ s (if s.state = .idle then .activate {} else .keep) (s.doConnectToNewBridge σ ω) := by
  refine rebooks_of_idle h fun s₁ _ h₁ => ?_
  have hu : Leaves s ((s₁.stopIfStreaming σ ω).alloc {}) := (h₁.stopIfStreaming σ ω hω).alloc {}
  refine Rebooks.setActive hu (Nat.lt_succ_self _) ?_ fun hv => hv.beginLoading _
  have hnew : (((s₁.stopIfStreaming σ ω).alloc {}).heap (s₁.stopIfStreaming σ ω).next).identity =
      {} := by
    simp [alloc, Bridge.identity]
  rw [hnew]
  exact .activate _

theorem rebooks_doReset (h : Valid s) (hω : ω.KeepsIdentity) (onlyActiveBridge : Bool) :
    Rebooks σ s (if s.state = .idle then (if onlyActiveBridge then .forgetActive else .forgetAll)
      else .keep) (s.doReset σ ω onlyActiveBridge) := by
  refine rebooks_of_idle h fun s₁ hstart h₁ => ?_
  have hu : Leaves s (s₁.stopIfStreaming σ ω) := h₁.stopIfStreaming σ ω hω
  have hrequest : (s₁.stopIfStreaming σ ω).request =
      if onlyActiveBridge then .resetBridge else .resetAll := by
    rw [← (start_eq_some hstart).2.2.1]
    unfold stopIfStreaming
    split_ifs <;> rfl
  generalize s₁.stopIfStreaming σ ω = t at hu hrequest
  have hfresh : ((t.alloc {}).heap t.next).identity = {} := by
    simp [alloc, Bridge.identity]
  have hearlier := (hu.alloc {}).book
  unfold clearBridge
  dsimp only
  cases onlyActiveBridge with
  | true =>
    have hrequest : t.request = .resetBridge := hrequest
    rw [if_pos rfl, if_pos hrequest]
    set v := (t.alloc {}).setPersistentData (t.persistentData.clearActiveBridge t.next)
    have hv : v.book = { s.book with active := {} } := by
      rw [← hearlier]
      show Book.mk _ _ = Book.mk _ _
      exact congrArg _ hfresh
    have hlog : saves v.log = saves t.log := rfl
    refine Rebooks.of_leaves hu hlog (hv ▸ .forgetActive) ?_
    refine Leaves.beginSaving σ (Leaves.feedback (Leaves.refl fun p hp => ?_) .doneReset)
    rcases List.mem_append.mp hp with hp | hp
    · exact Nat.lt_succ_of_lt (hu.stored' p (List.mem_append.mpr (.inl hp)))
    · rw [List.mem_singleton.mp hp]
      exact Nat.lt_succ_self _
  | false =>
    have hrequest : t.request = .resetAll := hrequest
    rw [if_neg (by simp), if_neg (by simp [hrequest]), if_pos hrequest]
    set v := (t.alloc {}).setPersistentData (.clear t.next)
    have hv : v.book = {} := by
      show Book.mk _ _ = Book.mk _ _
      exact congrArg _ hfresh
    have hlog : saves v.log = saves t.log := rfl
    refine Rebooks.of_leaves hu hlog (hv ▸ .forgetAll) ?_
    refine Leaves.beginSaving σ (Leaves.feedback (Leaves.refl fun p hp => ?_) .doneReset)
    rw [List.mem_singleton.mp hp]
    exact Nat.lt_succ_self _

theorem rebooks_doSelectGroup (h : Valid s) (id : String) :
    Rebooks σ s .keep (s.doSelectGroup σ id) := by
  refine rebooks_of_start h fun s₁ _ h₁ => ?_
  have ht : Leaves s (s₁.write s₁.activePtr (s₁.activeBridge.selectGroup id).2) := by
    refine h₁.write _ _ ?_
    unfold Bridge.selectGroup
    split_ifs <;> rfl
  dsimp only
  split_ifs
  · exact ht.beginSaving σ
  · exact (ht.reportActionRequired σ).beginSaving σ
  · exact ht.finish σ
  · exact (ht.reportActionRequired σ).finish σ

theorem rebooks_doAbort (h : Valid s) :
    Rebooks σ s (if s.state = .idle then .keep else .activate (s.heap s.bridgeStartState).identity)
      (s.doAbort σ) := by
  unfold doAbort
  by_cases hidle : s.state = .idle
  · rw [if_pos hidle, if_pos hidle]
    exact (Leaves.refl h.stored).rebooks
  rw [if_neg hidle, if_neg hidle]
  have hs := Leaves.refl h.stored
  have hv : Leaves s (if s.state = .searchingFirst ∨ s.state = .searchingRetry then
      s.record .abortSearch else s) ∧ (if s.state = .searchingFirst ∨ s.state = .searchingRetry then
      s.record .abortSearch else s).bridgeStartState = s.bridgeStartState := by
    split_ifs
    · exact ⟨hs.act .abortSearch rfl, rfl⟩
    · exact ⟨hs, rfl⟩
  dsimp only
  generalize (if s.state = .searchingFirst ∨ s.state = .searchingRetry then
    s.record .abortSearch else s) = v at hv
  have hw : Leaves s (if v.state = .authenticating then
      { v with ongoingAuthenticationCount := 0 } else v) ∧ (if v.state = .authenticating then
      { v with ongoingAuthenticationCount := 0 } else v).bridgeStartState = s.bridgeStartState := by
    split_ifs
    · exact ⟨hv.1.silent, hv.2⟩
    · exact hv
  generalize (if v.state = .authenticating then
    { v with ongoingAuthenticationCount := 0 } else v) = w at hw
  rw [hw.2]
  exact Rebooks.activate hw.1 h.start fun hx => (hx.feedback .doneAborted).finish σ

theorem rebooks_doOnBridgeMonitorEvent (h : Valid s) (hω : ω.KeepsIdentity)
    {message : FeedbackMessage} (hm : message.bridge < s.next) :
    Rebooks σ s (if s.state = .idle then .activate (s.heap message.bridge).identity else .keep)
      (s.doOnBridgeMonitorEvent σ ω message) := by
  unfold doOnBridgeMonitorEvent
  cases hstart : s.start .internal with
  | none =>
    rw [if_neg (start_eq_none hstart)]
    have hs := Leaves.refl h.stored
    dsimp only
    split_ifs
    · exact (hs.newMessage message false).rebooks
    · exact hs.rebooks
  | some s₁ =>
    rw [if_pos (start_eq_some hstart).1]
    refine Rebooks.activate (Leaves.start h.stored hstart) hm fun hv => ?_
    dsimp only
    have hstop : Leaves (s₁.setActiveBridge σ message.bridge)
        (if message.id = .streamingDisconnected then
          (s₁.setActiveBridge σ message.bridge).stopStream ω
        else s₁.setActiveBridge σ message.bridge) := by
      split_ifs
      · exact hv.stopStream ω hω
      · exact hv
    generalize (if message.id = .streamingDisconnected then
      (s₁.setActiveBridge σ message.bridge).stopStream ω
      else s₁.setActiveBridge σ message.bridge) = u at hstop
    have hrefresh := hstop.act .refreshBridgeConnection rfl
    split_ifs
    · exact hstop.startRetrieveFullConfig σ ω
    · exact (hrefresh.beginSaving σ).finish σ
    · exact (hstop.beginSaving σ).finish σ
    · exact (hrefresh.newMessage message false).finish σ
    · exact (hstop.newMessage message false).finish σ

end ConnectionFlow

end HueStream.Flow
