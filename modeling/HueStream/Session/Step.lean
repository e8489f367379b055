import HueStream.Lib.Run
import HueStream.Session.Handlers

/-! # The session as a machine

The callers and the bridge may do anything in any order. The bridge object is shared, and what the
fetched resources and the events make of it is left open: it may become another one at any time.
After the retriever is destroyed, the callbacks of its requests still run, and find it gone. -/

namespace HueStream.Session

open HueStream.Data HueStream.Lib

/-- What can happen next. -/
inductive Input
  | execute (bridge : Bridge)
  | refresh
  /-- `OnBridgeMonitorEvent` with `ID_BRIDGE_DISCONNECTED`. -/
  | disconnected
  | bridgeChanged (bridge : Bridge)
  /-- A request is answered for the last time. -/
  | answer (r : ℕ × Request) (answer : Answer)
  /-- An event stream delivers some bytes. -/
  | chunk (id : ℕ) (bytes : List Char) (outcome : List Char → EventOutcome)
  | destroy

namespace BridgeConfigRetriever

variable (isValid : List Char → Bool) (s : BridgeConfigRetriever)

/-- The last answer to a request. -/
def onAnswer (request : Request) (answer : Answer) : Option BridgeConfigRetriever :=
  match request with
  | .fetch .whitelist call => some (s.onWhitelist call answer)
  | .fetch .applicationId call => some (s.onApplicationId call answer)
  | .fetch .resource call => s.onResource call answer
  | .ownerName => some (s.onOwnerName answer)
  | .eventStream => some (s.onStreamEnd answer)

/-- The last answer to a request whose retriever is gone. -/
def onLateAnswer (request : Request) : BridgeConfigRetriever :=
  match request with
  | .eventStream => s
  | _ => { s with busy := false, refreshing := false }

/-- What may happen: nobody uses a retriever that is gone, and only open requests are answered. -/
def enabled : Input → Bool
  | .answer r _ => r ∈ s.requests
  | .chunk id _ _ => (id, Request.eventStream) ∈ s.requests
  | _ => !s.destroyed

/-- One input. -/
def handle : Input → Option BridgeConfigRetriever
  | .execute bridge => s.execute bridge
  | .refresh => s.refreshBridgeConnection
  | .disconnected => some s.onBridgeDisconnect
  | .bridgeChanged bridge => some (s.modifyBridge fun _ => bridge)
  | .answer r answer =>
    if s.destroyed then some ((s.close r).onLateAnswer r.2) else (s.close r).onAnswer r.2 answer
  | .chunk _ bytes outcome => some (if s.destroyed then s else s.onChunk isValid bytes outcome)
  | .destroy => some { s.abort with destroyed := true }

/-- One step. -/
def step (input : Input) : Option BridgeConfigRetriever :=
  if s.enabled input then s.handle isValid input else none

end BridgeConfigRetriever

/-- The session, with what `libjson::is_valid` accepts. -/
def session (isValid : List Char → Bool) : Machine BridgeConfigRetriever Input where
  Init s := s = {}
  step s input := s.step isValid input

/-! ### What a step can do

For each input one lemma says what a step with it comes to. What the bridge object, the feedback and
the white list become is left open there: it decides nothing about requests, flags and callbacks. The
other lemmas follow the open requests through the operations. -/

open HueStream.Data HueStream.Flow HueStream.Retriever HueStream.Lib

namespace BridgeConfigRetriever

variable {s s' : BridgeConfigRetriever} {r : ℕ × Request}

/-! ### Open requests -/

theorem filter_erase {α : Type*} [BEq α] [LawfulBEq α] (p : α → Bool) (l : List α) (a : α) :
    (l.erase a).filter p = if p a then (l.filter p).erase a else l.filter p := by
  induction l with
  | nil => simp
  | cons b l ih =>
    by_cases hab : b = a
    · subst hab
      by_cases hp : p b = true <;> simp [hp]
    · rw [List.erase_cons_tail (by simpa using hab)]
      by_cases hp : p b = true <;> by_cases ha : p a = true <;>
        simp [hp, ha, ih, List.erase_cons_tail, hab]

@[simp] theorem fetches_request (request : Request) : (s.request request).fetches =
    s.fetches ++ if request.isFetch then [(s.nextRequest, request)] else [] := by
  unfold fetches BridgeConfigRetriever.request
  rw [List.filter_append]
  cases request <;> rfl

@[simp] theorem streams_request (request : Request) : (s.request request).streams =
    s.streams ++ if request = .eventStream then [(s.nextRequest, request)] else [] := by
  unfold streams BridgeConfigRetriever.request
  rw [List.filter_append]
  by_cases h : request = .eventStream <;> simp [h]

theorem fetches_close (r : ℕ × Request) : (s.close r).fetches =
    if r.2.isFetch then s.fetches.erase r else s.fetches := filter_erase _ _ _

theorem streams_close (r : ℕ × Request) : (s.close r).streams =
    if r.2 = .eventStream then s.streams.erase r else s.streams := by
  have h := filter_erase (fun r : ℕ × Request => decide (r.2 = .eventStream)) s.requests r
  simp only [decide_eq_true_eq] at h
  exact h

theorem mem_fetches : r ∈ s.fetches ↔ r ∈ s.requests ∧ r.2.isFetch = true := List.mem_filter

theorem mem_streams : r ∈ s.streams ↔ r ∈ s.requests ∧ r.2 = .eventStream := by
  rw [streams, List.mem_filter, decide_eq_true_eq]

/-- Request ids are given out once, and the one kept for the event stream belongs to a stream. -/
structure WellIndexed (s : BridgeConfigRetriever) : Prop where
  lt : ∀ r ∈ s.requests, r.1 < s.nextRequest
  stream : ∀ id, s.eventRequestId = some id → id < s.nextRequest ∧
    ∀ r ∈ s.requests, r.1 = id → r.2 = .eventStream

theorem abort_eq : s.abort = { s with
    requests := s.requests.filter fun r => some r.1 ≠ s.eventRequestId
    eventRequestId := none } := by
  unfold abort cancel
  obtain ⟨⟩ := s
  next eventRequestId _ _ _ _ _ _ _ _ _ _ => cases eventRequestId <;> simp

theorem fetches_abort (h : s.WellIndexed) : s.abort.fetches = s.fetches := by
  rw [abort_eq]
  unfold fetches
  rw [List.filter_filter]
  refine List.filter_congr fun r hr => ?_
  cases hfetch : r.2.isFetch with
  | false => rfl
  | true =>
    rw [Bool.true_and, decide_eq_true_eq]
    intro hid
    have hstream := (h.stream r.1 hid.symm).2 r hr rfl
    rw [hstream] at hfetch
    contradiction

theorem streams_abort : s.abort.streams = s.streams.filter fun r => some r.1 ≠ s.eventRequestId := by
  rw [abort_eq]
  unfold streams
  rw [List.filter_filter, List.filter_filter]
  simp only [Bool.and_comm]

theorem WellIndexed.request (h : s.WellIndexed) (request : Request) :
    (s.request request).WellIndexed := by
  refine ⟨fun r hr => ?_, fun id hid => ?_⟩
  · rcases List.mem_append.mp hr with hr | hr
    · exact Nat.lt_succ_of_lt (h.lt r hr)
    · obtain rfl := List.mem_singleton.mp hr
      exact Nat.lt_succ_self _
  · obtain ⟨hlt, hstream⟩ := h.stream id hid
    refine ⟨Nat.lt_succ_of_lt hlt, fun r hr hrid => ?_⟩
    rcases List.mem_append.mp hr with hr | hr
    · exact hstream r hr hrid
    · obtain rfl := List.mem_singleton.mp hr
      exact absurd hrid (Nat.ne_of_gt hlt)

/-- Fewer requests, and the same id or none for the event stream. -/
theorem WellIndexed.sub (h : s.WellIndexed) (hrequests : ∀ r ∈ s'.requests, r ∈ s.requests)
    (hnext : s'.nextRequest = s.nextRequest)
    (hid : s'.eventRequestId = s.eventRequestId ∨ s'.eventRequestId = none) : s'.WellIndexed := by
  refine ⟨fun r hr => hnext ▸ h.lt r (hrequests r hr), fun id hsome => ?_⟩
  rcases hid with hid | hid
  · obtain ⟨hlt, hstream⟩ := h.stream id (hid ▸ hsome)
    exact ⟨hnext ▸ hlt, fun r hr => hstream r (hrequests r hr)⟩
  · rw [hid] at hsome
    contradiction

theorem WellIndexed.close (h : s.WellIndexed) (r : ℕ × Request) : (s.close r).WellIndexed :=
  h.sub (fun _ hr => List.mem_of_mem_erase hr) rfl (.inl rfl)

theorem WellIndexed.abort (h : s.WellIndexed) : s.abort.WellIndexed := by
  refine h.sub (fun r hr => ?_) ?_ (.inr ?_)
  · rw [abort_eq] at hr
    exact List.mem_of_mem_filter hr
  · rw [abort_eq]
  · rw [abort_eq]

/-! ### Callers -/

theorem onBridgeDisconnect_cases (s : BridgeConfigRetriever) :
    s.connected = false ∧ s.onBridgeDisconnect = s ∨
    s.connected = true ∧ s.onBridgeDisconnect =
      { s.abort with connected := false, sendFeedback := false, sendConnectFeedback := true } := by
  unfold onBridgeDisconnect
  cases h : s.connected with
  | false => exact .inl ⟨rfl, by simp⟩
  | true =>
    refine .inr ⟨rfl, ?_⟩
    rw [if_pos rfl, abort_eq, abort_eq]

/-- The bridge a call is about is not the one of the last fetch. -/
def isOther (s : BridgeConfigRetriever) (bridge : Bridge) : Bool :=
  s.bridge.any fun current => current.id ≠ bridge.id

/-- A fetch is started. -/
def start (s : BridgeConfigRetriever) (bridge : Bridge) (call : Option ℕ) : BridgeConfigRetriever :=
  { s with busy := true, connected := true, bridge := some bridge, cb := call,
           lastFetch := .running }.request (.fetch .whitelist call)

theorem doExecute_cases {bridge : Bridge} {call : Option ℕ} {started : Bool} (hbusy : s.busy = true)
    (h : s.doExecute bridge call = some (started, s')) :
    s.connected = true ∧ s.isOther bridge = false ∧ started = false ∧
      (∃ result current, s.bridge = some current ∧
        result = (if !current.isAuthorized || !current.isValidIp then .failed else .success) ∧
        s' = { s.invoke call result with busy := false }) ∨
    s.connected = false ∧ started = true ∧ s' = s.start bridge call ∨
    s.connected = true ∧ s.isOther bridge = true ∧ started = true ∧
      s' = { s.abort with sendFeedback := false, sendConnectFeedback := true }.start bridge call := by
  unfold doExecute at h
  have hchange : s.changeBridge bridge = if s.isOther bridge then s.onBridgeDisconnect else s := rfl
  rw [hchange] at h
  rcases onBridgeDisconnect_cases s with ⟨hconnected, hdisconnect⟩ | ⟨hconnected, hdisconnect⟩
  · rw [hdisconnect, ite_self] at h
    simp only [hconnected, Bool.false_eq_true, if_false, Option.some.injEq, Prod.mk.injEq] at h
    obtain ⟨rfl, rfl⟩ := h
    refine .inr (.inl ⟨hconnected, rfl, ?_⟩)
    unfold start
    rw [hbusy]
  · rw [hdisconnect] at h
    cases hother : s.isOther bridge with
    | false =>
      simp only [hother, Bool.false_eq_true, if_false, hconnected, if_true, Option.bind_eq_bind,
        Option.bind_eq_some_iff, Option.some.injEq, Prod.mk.injEq] at h
      obtain ⟨current, hcurrent, rfl, rfl⟩ := h
      exact .inl ⟨hconnected, rfl, rfl, _, current, hcurrent, rfl, rfl⟩
    | true =>
      simp only [hother, if_true, Bool.false_eq_true, if_false, Option.some.injEq,
        Prod.mk.injEq] at h
      obtain ⟨rfl, rfl⟩ := h
      refine .inr (.inr ⟨hconnected, rfl, rfl, ?_⟩)
      unfold start
      rw [abort_eq]
      simp only [hbusy]

/-- What a call is told when the bridge is answered from the cache. -/
def cacheResult (bridge : Bridge) : OperationResult :=
  if !bridge.isAuthorized || !bridge.isValidIp then .failed else .success

/-- The state a fetch is started from: the one before, or the one a disconnect makes of it. -/
def ready (s : BridgeConfigRetriever) : BridgeConfigRetriever :=
  if s.connected then { s.abort with sendFeedback := false, sendConnectFeedback := true } else s

theorem answered_ready : s.ready.answered = s.answered := by
  unfold ready
  split_ifs
  · rw [abort_eq]
  · rfl

/-- **Execute** is refused, or answered from the cache, or starts a fetch. -/
theorem execute_cases {bridge : Bridge} (h : s.execute bridge = some s') :
    s.busy = true ∧ s' = { s with calls := s.calls + 1 }.invoke (some s.calls) .failed ∨
    s.busy = false ∧ s.connected = true ∧ s.isOther bridge = false ∧
      (∃ current, s.bridge = some current ∧
        s' = { s with calls := s.calls + 1 }.invoke (some s.calls) (cacheResult current)) ∨
    s.busy = false ∧ (s.connected = true → s.isOther bridge = true) ∧
      s' = { s.ready with calls := s.calls + 1 }.start bridge (some s.calls) := by
  unfold execute at h
  cases hbusy : s.busy with
  | true =>
    simp only [hbusy, if_true, Option.some.injEq] at h
    exact .inl ⟨rfl, by rw [← h, ← hbusy]⟩
  | false =>
    simp only [hbusy, Bool.false_eq_true, if_false, Option.map_eq_some_iff, Prod.exists] at h
    obtain ⟨started, s₁, hexecute, rfl⟩ := h
    rcases doExecute_cases rfl hexecute with
      ⟨hconnected, hother, -, result, current, hcurrent, rfl, rfl⟩ | ⟨hconnected, -, rfl⟩ |
        ⟨hconnected, hother, -, rfl⟩
    · refine .inr (.inl ⟨rfl, hconnected, hother, current, hcurrent, ?_⟩)
      rw [← hbusy]
      rfl
    · have hconnected : s.connected = false := hconnected
      refine .inr (.inr ⟨rfl, fun h => ?_, ?_⟩)
      · rw [hconnected] at h
        contradiction
      · unfold ready start
        rw [hconnected]
        rfl
    · have hconnected : s.connected = true := hconnected
      refine .inr (.inr ⟨rfl, fun _ => hother, ?_⟩)
      unfold ready start
      rw [hconnected, if_pos rfl, abort_eq, abort_eq]

/-- **A refresh** is refused, silently keeps the busy flag it has taken, or starts a fetch. -/
theorem refresh_cases (h : s.refreshBridgeConnection = some s') :
    s.busy = true ∧ s' = s ∨
    s.busy = false ∧ (s.refreshing = true ∨ s.connected = false) ∧ s' = { s with busy := true } ∨
    s.busy = false ∧ s.refreshing = false ∧ s.connected = true ∧ ∃ bridge,
      s' = { s.abort with
        sendFeedback := false, sendConnectFeedback := false, refreshing := true }.start
          bridge none := by
  unfold refreshBridgeConnection at h
  cases hbusy : s.busy with
  | true =>
    simp only [hbusy, if_true, Option.some.injEq] at h
    exact .inl ⟨rfl, h.symm⟩
  | false =>
    simp only [hbusy, Bool.false_eq_true, if_false] at h
    split_ifs at h with hrefuse
    · rw [Bool.or_eq_true, Bool.not_eq_true'] at hrefuse
      exact .inr (.inl ⟨rfl, hrefuse, (Option.some.inj h).symm⟩)
    · rw [Bool.or_eq_true, Bool.not_eq_true', not_or, Bool.not_eq_true, Bool.not_eq_false] at hrefuse
      simp only [Option.bind_eq_bind, Option.bind_eq_some_iff, Option.some.injEq,
        Prod.exists] at h
      obtain ⟨bridge, hbridge, started, s₁, hexecute, hs'⟩ := h
      refine .inr (.inr ⟨rfl, hrefuse.1, hrefuse.2, bridge, ?_⟩)
      have hconnected : ({ ({ s with busy := true, connected := false } :
          BridgeConfigRetriever).abort with
            sendFeedback := false, sendConnectFeedback := false, refreshing := true } :
          BridgeConfigRetriever).connected = false := by rw [abort_eq]
      have hbusy : ({ ({ s with busy := true, connected := false } :
          BridgeConfigRetriever).abort with
            sendFeedback := false, sendConnectFeedback := false, refreshing := true } :
          BridgeConfigRetriever).busy = true := by rw [abort_eq]
      rcases doExecute_cases hbusy hexecute with ⟨htrue, -⟩ | ⟨-, rfl, rfl⟩ | ⟨htrue, -⟩
      · exact absurd (hconnected.symm.trans htrue) (by decide)
      · rw [if_pos rfl] at hs'
        rw [← hs']
        unfold start
        rw [abort_eq, abort_eq]
      · exact absurd (hconnected.symm.trans htrue) (by decide)

/-! ### Answers -/

theorem askOwnerName_cases (s : BridgeConfigRetriever) :
    s.askOwnerName = s ∨ s.askOwnerName = { s with updatingWhiteList := true }.request .ownerName := by
  unfold askOwnerName
  split_ifs
  · exact .inl rfl
  · exact .inr rfl

/-- A white list asked for, or nothing. -/
def asking (s : BridgeConfigRetriever) (asks : Bool) : BridgeConfigRetriever :=
  if asks then s.askOwnerName else s

theorem asking_cases (s : BridgeConfigRetriever) (asks : Bool) :
    s.asking asks = s ∨
      s.asking asks = { s with updatingWhiteList := true }.request .ownerName := by
  unfold asking
  split_ifs
  · exact askOwnerName_cases s
  · exact .inl rfl

/-- Asking for a white list is neither a fetch nor an event stream. -/
theorem asking_eq (s : BridgeConfigRetriever) (asks : Bool) : ∃ updatingWhiteList requests nextRequest,
    s.asking asks = { s with updatingWhiteList, requests, nextRequest } ∧
      (s.asking asks).fetches = s.fetches ∧ (s.asking asks).streams = s.streams := by
  rcases asking_cases s asks with heq | heq
  · exact ⟨_, _, _, heq, by rw [heq], by rw [heq]⟩
  · refine ⟨_, _, _, heq, ?_, ?_⟩
    · rw [heq, fetches_request]
      exact List.append_nil _
    · rw [heq, streams_request]
      exact List.append_nil _

section asking

variable (asks : Bool)

@[simp] theorem fetches_asking : (s.asking asks).fetches = s.fetches := by
  obtain ⟨_, _, _, -, h, -⟩ := asking_eq s asks
  exact h

@[simp] theorem streams_asking : (s.asking asks).streams = s.streams := by
  obtain ⟨_, _, _, -, -, h⟩ := asking_eq s asks
  exact h

@[simp] theorem busy_asking : (s.asking asks).busy = s.busy := by
  obtain ⟨_, _, _, h, -⟩ := asking_eq s asks
  rw [h]

@[simp] theorem connected_asking : (s.asking asks).connected = s.connected := by
  obtain ⟨_, _, _, h, -⟩ := asking_eq s asks
  rw [h]

@[simp] theorem cb_asking : (s.asking asks).cb = s.cb := by
  obtain ⟨_, _, _, h, -⟩ := asking_eq s asks
  rw [h]

@[simp] theorem calls_asking : (s.asking asks).calls = s.calls := by
  obtain ⟨_, _, _, h, -⟩ := asking_eq s asks
  rw [h]

@[simp] theorem answered_asking : (s.asking asks).answered = s.answered := by
  obtain ⟨_, _, _, h, -⟩ := asking_eq s asks
  rw [h]

@[simp] theorem lastFetch_asking : (s.asking asks).lastFetch = s.lastFetch := by
  obtain ⟨_, _, _, h, -⟩ := asking_eq s asks
  rw [h]

@[simp] theorem eventRequestId_asking : (s.asking asks).eventRequestId = s.eventRequestId := by
  obtain ⟨_, _, _, h, -⟩ := asking_eq s asks
  rw [h]

@[simp] theorem responseEvent_asking : (s.asking asks).responseEvent = s.responseEvent := by
  obtain ⟨_, _, _, h, -⟩ := asking_eq s asks
  rw [h]

@[simp] theorem destroyed_asking : (s.asking asks).destroyed = s.destroyed := by
  obtain ⟨_, _, _, h, -⟩ := asking_eq s asks
  rw [h]

end asking

/-- The answer is the failure of the fetch: an error, or a page of resources without data. -/
def failsFetch (stage : Stage) : Answer → Bool
  | .ok page => stage = .resource && !page.hasData
  | _ => true

/-- The answer is the end of the fetch: the last page of the last resource. -/
def completesFetch (s : BridgeConfigRetriever) (stage : Stage) : Answer → Bool
  | .ok page => stage = .resource && page.hasData && !page.cursor &&
      s.resourceToGet.all fun resource => resource.next.isNone
  | _ => false

/-- **An answer to a fetch** leads to the next request of it, or it fails, or it is complete. -/
theorem onAnswer_fetch_cases {stage : Stage} {call : Option ℕ} {answer : Answer}
    (h : s.onAnswer (.fetch stage call) answer = some s') :
    (∃ next bridge resourceToGet asks, s' =
      { s.asking asks with bridge, resourceToGet }.request (.fetch next call)) ∨
    failsFetch stage answer = true ∧ (∃ bridge, s' = { s with bridge }.fail) ∨
    s.completesFetch stage answer = true ∧
      ∃ asks, s' = { s.asking asks with resourceToGet := none }.complete := by
  cases stage with
  | whitelist =>
    cases answer with
    | ok page =>
      obtain rfl := Option.some.inj h
      exact .inl ⟨.applicationId, _, _, false, rfl⟩
    | _ =>
      obtain rfl := Option.some.inj h
      exact .inr (.inl ⟨rfl, _, rfl⟩)
  | applicationId =>
    cases answer with
    | ok page =>
      obtain rfl := Option.some.inj h
      exact .inl ⟨.resource, _, _, false, rfl⟩
    | _ =>
      obtain rfl := Option.some.inj h
      exact .inr (.inl ⟨rfl, _, rfl⟩)
  | resource =>
    cases answer with
    | ok page =>
      rw [onAnswer, onResource, onGetResource] at h
      by_cases hdata : (!page.hasData) = true
      · rw [if_pos hdata] at h
        obtain rfl := Option.some.inj h
        exact .inr (.inl ⟨hdata, _, rfl⟩)
      · rw [if_neg hdata, Option.bind_eq_bind, Option.bind_eq_some_iff] at h
        obtain ⟨resource, hresource, h⟩ := h
        dsimp only at h
        split at h
        · obtain rfl := Option.some.inj h
          exact .inl ⟨.resource, _, _, page.asksOwner, rfl⟩
        · next hlast =>
          obtain rfl := Option.some.inj h
          refine .inr (.inr ⟨?_, page.asksOwner, rfl⟩)
          cases hcursor : page.cursor with
          | true =>
            rw [hcursor, if_pos rfl] at hlast
            contradiction
          | false =>
            rw [hcursor, if_neg Bool.false_ne_true] at hlast
            simpa [completesFetch, hresource, hcursor, hlast] using hdata
    | _ =>
      obtain rfl := Option.some.inj h
      exact .inr (.inl ⟨rfl, _, rfl⟩)

/-- The input makes the retriever call `Finish` outside a fetch: a refresh of the white list for the
name of an owner has failed, the event stream has broken, or an event is complete. -/
def finishesOutside (isValid : List Char → Bool) (s : BridgeConfigRetriever) : Input → Bool
  | .answer (_, .ownerName) (.ok _) => false
  | .answer (_, .ownerName) _ => true
  | .answer (_, .eventStream) (.error true) => false
  | .answer (_, .eventStream) _ => true
  | .chunk _ bytes _ => !(readEvents isValid (s.responseEvent ++ bytes)).1.isEmpty
  | _ => false

/-- **An answer outside a fetch** changes nothing but the white list, or is finished. -/
theorem onAnswer_outside_cases (id : ℕ) {request : Request} {answer : Answer}
    (hrequest : request.isFetch = false) (h : s.onAnswer request answer = some s') :
    (∀ isValid s, finishesOutside isValid s (.answer (id, request) answer) = false) ∧
      (∃ bridge updatingWhiteList, s' = { s with bridge, updatingWhiteList }) ∨
    (∀ isValid s, finishesOutside isValid s (.answer (id, request) answer) = true) ∧
      ∃ bridge, s' = { s with bridge }.finish .failed := by
  cases request with
  | fetch stage call => simp [Request.isFetch] at hrequest
  | ownerName =>
    cases answer with
    | ok page =>
      obtain rfl := Option.some.inj h
      exact .inl ⟨fun _ _ => rfl, _, _, rfl⟩
    | _ =>
      obtain rfl := Option.some.inj h
      exact .inr ⟨fun _ _ => rfl, _, rfl⟩
  | eventStream =>
    cases answer with
    | error canceled =>
      cases canceled with
      | true =>
        obtain rfl := Option.some.inj h
        exact .inl ⟨fun _ _ => rfl, _, _, rfl⟩
      | false =>
        obtain rfl := Option.some.inj h
        exact .inr ⟨fun _ _ => rfl, _, rfl⟩
    | _ =>
      obtain rfl := Option.some.inj h
      exact .inr ⟨fun _ _ => rfl, _, rfl⟩

theorem onChunk_eq (isValid : List Char → Bool) (bytes : List Char)
    (outcome : List Char → EventOutcome) : s.onChunk isValid bytes outcome =
      ((readEvents isValid (s.responseEvent ++ bytes)).1.map outcome).foldl onEvent
        { s with responseEvent := (readEvents isValid (s.responseEvent ++ bytes)).2 } := by
  rw [List.foldl_map]
  rfl

/-- What an event preserves, one piece of the stream preserves; without an event it only adds to the
buffer. -/
theorem onChunk_cases (isValid : List Char → Bool) (bytes : List Char)
    (outcome : List Char → EventOutcome) :
    (∃ responseEvent, s.onChunk isValid bytes outcome = { s with responseEvent }) ∧
      (readEvents isValid (s.responseEvent ++ bytes)).1 = [] ∨
    (readEvents isValid (s.responseEvent ++ bytes)).1 ≠ [] ∧
      ∃ (responseEvent : List Char) (outcomes : List EventOutcome), s.onChunk isValid bytes outcome =
        outcomes.foldl onEvent { s with responseEvent } := by
  by_cases hnone : (readEvents isValid (s.responseEvent ++ bytes)).1 = []
  · refine .inl ⟨⟨(readEvents isValid (s.responseEvent ++ bytes)).2, ?_⟩, hnone⟩
    rw [onChunk_eq, hnone]
    rfl
  · exact .inr ⟨hnone, _, _, onChunk_eq isValid bytes outcome⟩

/-! ### Request ids -/

theorem WellIndexed.congr (h : s.WellIndexed) (hrequests : s'.requests = s.requests)
    (hnext : s'.nextRequest = s.nextRequest) (hid : s'.eventRequestId = s.eventRequestId) :
    s'.WellIndexed :=
  h.sub (fun _ hr => hrequests ▸ hr) hnext (.inl hid)

theorem WellIndexed.start (h : s.WellIndexed) (bridge : Bridge) (call : Option ℕ) :
    (s.start bridge call).WellIndexed :=
  WellIndexed.request (s := { s with
    busy := true, connected := true, bridge := some bridge, cb := call, lastFetch := .running })
    (h.congr rfl rfl rfl) _

theorem WellIndexed.ready (h : s.WellIndexed) : s.ready.WellIndexed := by
  unfold BridgeConfigRetriever.ready
  split_ifs
  · exact h.abort.congr rfl rfl rfl
  · exact h

theorem WellIndexed.asking (h : s.WellIndexed) (asks : Bool) : (s.asking asks).WellIndexed := by
  rcases asking_cases s asks with heq | heq
  · rwa [heq]
  · rw [heq]
    exact WellIndexed.request (s := { s with updatingWhiteList := true }) (h.congr rfl rfl rfl) _

theorem WellIndexed.onEvent (h : s.WellIndexed) (outcome : EventOutcome) :
    (s.onEvent outcome).WellIndexed :=
  (h.asking outcome.asksOwner).congr rfl rfl rfl

theorem WellIndexed.onEvents (h : s.WellIndexed) (outcomes : List EventOutcome) :
    (outcomes.foldl BridgeConfigRetriever.onEvent s).WellIndexed := by
  induction outcomes generalizing s with
  | nil => exact h
  | cons outcome outcomes ih => exact ih (h.onEvent outcome)

theorem WellIndexed.listenToEvents (h : s.WellIndexed) : s.listenToEvents.WellIndexed := by
  have hrequest := h.request .eventStream
  refine ⟨hrequest.lt, fun id hid => ?_⟩
  obtain rfl : s.nextRequest = id := Option.some.inj hid
  refine ⟨Nat.lt_succ_self _, fun r hr hrid => ?_⟩
  rcases List.mem_append.mp hr with hr | hr
  · exact absurd hrid (Nat.ne_of_lt (h.lt r hr))
  · rw [List.mem_singleton.mp hr]

/-- The end of a fetch: it listens to events. -/
theorem complete_cases (s : BridgeConfigRetriever) : ∃ sendConnectFeedback sent,
    s.complete = { { s with
      answered := s.answered ++ s.cb.toList.map fun call => (call, OperationResult.success)
      cb := none, sendFeedback := true, sendConnectFeedback, sent, refreshing := false
      lastFetch := .finished }.listenToEvents with busy := false } := by
  refine ⟨s.complete.sendConnectFeedback, s.complete.sent, ?_⟩
  unfold complete
  cases hrefreshing : s.refreshing with
  | false =>
    simp only [finish, report, invoke, hrefreshing, Bool.false_eq_true, if_false]
    rfl
  | true =>
    simp only [finish, report, invoke, hrefreshing, if_true, Bool.false_eq_true, if_false]
    rfl

theorem WellIndexed.complete (h : s.WellIndexed) : s.complete.WellIndexed := by
  obtain ⟨sendConnectFeedback, sent, heq⟩ := complete_cases s
  rw [heq]
  exact (WellIndexed.listenToEvents (h.congr rfl rfl rfl)).congr rfl rfl rfl

theorem WellIndexed.step {isValid : List Char → Bool} {input : Input} (h : s.WellIndexed)
    (hstep : s.step isValid input = some s') : s'.WellIndexed := by
  rw [BridgeConfigRetriever.step] at hstep
  split_ifs at hstep
  cases input with
  | execute bridge =>
    rcases execute_cases hstep with ⟨-, rfl⟩ | ⟨-, -, -, current, -, rfl⟩ | ⟨-, -, rfl⟩
    · exact h.congr rfl rfl rfl
    · exact h.congr rfl rfl rfl
    · refine WellIndexed.start ?_ _ _
      exact h.ready.congr rfl rfl rfl
  | refresh =>
    rcases refresh_cases hstep with ⟨-, rfl⟩ | ⟨-, -, rfl⟩ | ⟨-, -, -, bridge, rfl⟩
    · exact h
    · exact h.congr rfl rfl rfl
    · refine WellIndexed.start ?_ _ _
      exact h.abort.congr rfl rfl rfl
  | disconnected =>
    obtain rfl := Option.some.inj hstep
    rcases onBridgeDisconnect_cases s with ⟨-, heq⟩ | ⟨-, heq⟩
    · rwa [heq]
    · rw [heq]
      exact h.abort.congr rfl rfl rfl
  | bridgeChanged bridge =>
    obtain rfl := Option.some.inj hstep
    exact h.congr rfl rfl rfl
  | destroy =>
    obtain rfl := Option.some.inj hstep
    exact h.abort.congr rfl rfl rfl
  | chunk id bytes outcome =>
    obtain rfl := Option.some.inj hstep
    split_ifs
    · exact h
    · rcases onChunk_cases (s := s) isValid bytes outcome with
        ⟨⟨responseEvent, heq⟩, -⟩ | ⟨-, responseEvent, outcomes, heq⟩
      · rw [heq]
        exact h.congr rfl rfl rfl
      · rw [heq]
        refine WellIndexed.onEvents ?_ outcomes
        exact h.congr rfl rfl rfl
  | answer r answer =>
    obtain ⟨id, request⟩ := r
    have hclose := h.close (id, request)
    simp only [handle] at hstep
    split_ifs at hstep
    · obtain rfl := Option.some.inj hstep
      cases request <;> exact hclose.congr rfl rfl rfl
    · cases hfetch : request.isFetch with
      | true =>
        cases request with
        | fetch stage call =>
          rcases onAnswer_fetch_cases hstep with
            ⟨next, bridge, resourceToGet, asks, rfl⟩ | ⟨-, bridge, rfl⟩ | ⟨-, asks, rfl⟩
          · refine WellIndexed.request ?_ _
            exact (hclose.asking asks).congr rfl rfl rfl
          · exact hclose.congr rfl rfl rfl
          · refine WellIndexed.complete ?_
            exact (hclose.asking asks).congr rfl rfl rfl
        | _ => simp [Request.isFetch] at hfetch
      | false =>
        rcases onAnswer_outside_cases id hfetch hstep with
          ⟨-, bridge, updatingWhiteList, rfl⟩ | ⟨-, bridge, rfl⟩
        · exact hclose.congr rfl rfl rfl
        · exact hclose.congr rfl rfl rfl

/-- `Finish` can end a connection, not make one. -/
theorem connected_of_report {result : OperationResult} (h : (s.report result).connected = true) :
    s.connected = true := by
  by_contra hdisconnected
  rw [Bool.not_eq_true] at hdisconnected
  simp [report, hdisconnected] at h

theorem WellIndexed.init : ({} : BridgeConfigRetriever).WellIndexed := by
  refine ⟨fun r hr => ?_, fun id hid => ?_⟩
  · exact absurd hr List.not_mem_nil
  · contradiction

/-- Destruction is for good. -/
theorem destroyed_of_step {isValid : List Char → Bool} {input : Input}
    (h : s.destroyed = true)
    (hstep : s.step isValid input = some s') : s'.destroyed = true := by
  rw [BridgeConfigRetriever.step] at hstep
  split_ifs at hstep with henabled
  cases input with
  | answer r answer =>
    rw [handle, if_pos h] at hstep
    obtain rfl := Option.some.inj hstep
    unfold onLateAnswer
    split
    · exact h
    · exact h
  | chunk id bytes outcome =>
    rw [handle, if_pos h] at hstep
    obtain rfl := Option.some.inj hstep
    exact h
  | _ => simp [enabled, h] at henabled

end BridgeConfigRetriever

/-- What the steps of a retriever keep that is not destroyed. -/
theorem invariant_of_alive {isValid : List Char → Bool}
    {ts : List (Transition BridgeConfigRetriever Input)} {s : BridgeConfigRetriever}
    {I : BridgeConfigRetriever → Prop} {C : BridgeConfigRetriever → Input → Prop}
    (hrun : (session isValid).Run ts s) (hinit : I {})
    (hstep : ∀ {s s' : BridgeConfigRetriever} {input : Input}, s.WellIndexed →
      s.destroyed = false → C s input → s.step isValid input = some s' → I s →
      s'.destroyed = false → I s')
    (hC : ∀ t ∈ ts, C t.before t.label) (halive : s.destroyed = false) : I s := by
  have hinvariant : s.WellIndexed ∧ (s.destroyed = false → I s) := by
    refine hrun.invariant_of (I := fun s => s.WellIndexed ∧ (s.destroyed = false → I s))
      ?_ ?_ hC
    · rintro s rfl
      exact ⟨BridgeConfigRetriever.WellIndexed.init, fun _ => hinit⟩
    · intro s input s' hs' hc ⟨hindex, h⟩
      refine ⟨hindex.step hs', fun halive' => ?_⟩
      have halive : s.destroyed = false := by
        by_contra hdestroyed
        rw [BridgeConfigRetriever.destroyed_of_step (by simpa using hdestroyed) hs'] at halive'
        contradiction
      exact hstep hindex halive hc hs' (h halive) halive'
  exact hinvariant.2 halive

end HueStream.Session
