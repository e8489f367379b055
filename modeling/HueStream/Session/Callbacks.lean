import HueStream.Session.InFlight

/-! # The callbacks of the calls

`Finish` invokes the callback it finds, whoever calls it. It is the right one at the end of the fetch
that was started for it; at the end of another fetch, after a failed fetch that has left its callback
behind, and outside a fetch it is not.

The invariant is a ledger: either no fetch of a call is under way and every call so far was answered
once, or there is one such fetch, its callback is kept and not yet invoked, and all the others were
answered once. -/

namespace HueStream.Session

open HueStream.Data HueStream.Flow HueStream.Lib BridgeConfigRetriever

/-- The call whose callback the fetch has to invoke. -/
def Request.call : Request → Option ℕ
  | .fetch _ call => call
  | _ => none

variable {isValid : List Char → Bool} {s s' : BridgeConfigRetriever} {r : ℕ × Request} {k : ℕ}
  {ts : List (Transition BridgeConfigRetriever Input)}

namespace BridgeConfigRetriever

variable (s) (k)

/-- How often the callback of a call was invoked. -/
def timesAnswered : ℕ := s.answered.countP fun a => a.1 = k

/-- The fetches that are under way for a call. -/
def callFetches : List (ℕ × Request) := s.fetches.filter fun r => r.2.call.isSome

/-- The fetch of a call is under way. -/
def isFetchingFor : Bool := s.callFetches.any fun r => r.2.call = some k

end BridgeConfigRetriever

/-- No callback was invoked twice, and the callback of a call whose fetch is over was invoked. -/
def AnsweredOnce (s : BridgeConfigRetriever) : Prop :=
  ∀ k < s.calls, s.timesAnswered k ≤ 1 ∧ (s.isFetchingFor k = false → s.timesAnswered k = 1)

/-- The inputs that invoke no callback of another call: a fetch ends with its own callback in place or
none, and nothing is finished outside a fetch while a callback is in place. -/
def keepsCallbacks (isValid : List Char → Bool) (s : BridgeConfigRetriever) : Input → Bool
  | .answer (_, .fetch stage call) answer =>
    !(failsFetch stage answer || s.completesFetch stage answer) || s.cb = none || s.cb = call
  | input => s.cb = none || !finishesOutside isValid s input

/-! ### Counting -/

theorem countP_invoked (call : Option ℕ) (result : OperationResult) (k : ℕ) :
    (call.toList.map fun call => (call, result)).countP (fun a => a.1 = k) =
      if call = some k then 1 else 0 := by
  cases call with
  | none => rfl
  | some j => simp [List.countP_cons]

theorem timesAnswered_append {call : Option ℕ} {result : OperationResult}
    (h : s'.answered = s.answered ++ call.toList.map fun call => (call, result)) (k : ℕ) :
    s'.timesAnswered k = s.timesAnswered k + if call = some k then 1 else 0 := by
  unfold timesAnswered
  rw [h, List.countP_append, countP_invoked]

theorem timesAnswered_eq_zero (h : ∀ a ∈ s.answered, a.1 < k) : s.timesAnswered k = 0 := by
  unfold timesAnswered
  rw [List.countP_eq_zero]
  intro a ha
  have hlt := h a ha
  simpa using Nat.ne_of_lt hlt

theorem callFetches_close (hr : r.2.isFetch = true) : (s.close r).callFetches =
    if r.2.call.isSome then s.callFetches.erase r else s.callFetches := by
  unfold callFetches
  rw [fetches_close, if_pos hr, filter_erase]

theorem callFetches_of_fetches (h : s'.fetches = s.fetches) : s'.callFetches = s.callFetches := by
  unfold callFetches
  rw [h]

theorem callFetches_request (request : Request) : (s.request request).callFetches =
    s.callFetches ++ if request.call.isSome then [(s.nextRequest, request)] else [] := by
  unfold callFetches
  rw [fetches_request, List.filter_append]
  cases request with
  | fetch stage call => cases call <;> rfl
  | _ => rfl

/-! ### The ledger -/

/-- No fetch of a call is under way, and every call was answered. -/
structure Settled (s : BridgeConfigRetriever) : Prop where
  idle : s.callFetches = []
  once : ∀ k < s.calls, s.timesAnswered k = 1

/-- The fetch of one call is under way, and every other call was answered. -/
structure Serving (s : BridgeConfigRetriever) (r : ℕ × Request) (k : ℕ) : Prop where
  alone : s.callFetches = [r]
  call : r.2.call = some k
  busy : s.busy = true
  cb : s.cb = some k
  once : ∀ j < s.calls, s.timesAnswered j = if j = k then 0 else 1

/-- Only calls that were made are kept and answered, and one at most is not yet. -/
structure Ledger (s : BridgeConfigRetriever) : Prop where
  made : ∀ a ∈ s.answered, a.1 < s.calls
  kept : ∀ k, s.cb = some k → k < s.calls
  served : Settled s ∨ ∃ r k, Serving s r k

theorem Ledger.answeredOnce (h : Ledger s) : AnsweredOnce s := by
  intro k hk
  rcases h.served with hsettled | ⟨r, j, hserving⟩
  · exact ⟨(hsettled.once k hk).le, fun _ => hsettled.once k hk⟩
  · have htimes := hserving.once k hk
    by_cases hkj : k = j
    · rw [if_pos hkj] at htimes
      refine ⟨by omega, fun hfetching => ?_⟩
      unfold isFetchingFor at hfetching
      rw [hserving.alone] at hfetching
      simp [hserving.call, hkj] at hfetching
    · rw [if_neg hkj] at htimes
      exact ⟨htimes.le, fun _ => htimes⟩

theorem Ledger.settled (h : Ledger s) (hcb : s.cb = none) : Settled s := by
  rcases h.served with hsettled | ⟨r, k, hserving⟩
  · exact hsettled
  · rw [hserving.cb] at hcb
    contradiction

theorem Ledger.settled_of_not_busy (h : Ledger s) (hbusy : s.busy = false) : Settled s := by
  rcases h.served with hsettled | ⟨r, k, hserving⟩
  · exact hsettled
  · rw [hserving.busy] at hbusy
    contradiction

/-- The fetch of a call goes on. -/
theorem Ledger.continue (h : Ledger s) (r' : ℕ × Request) (hserving : Serving s r k)
    (hfetches : s'.callFetches = [r']) (hcall : r'.2.call = some k) (hbusy : s'.busy = true)
    (hcb : s'.cb = s.cb) (hcalls : s'.calls = s.calls) (hanswered : s'.answered = s.answered) :
    Ledger s' := by
  refine ⟨?_, ?_, .inr ⟨r', k, hfetches, hcall, hbusy, hcb.trans hserving.cb, ?_⟩⟩
  · rw [hanswered, hcalls]
    exact h.made
  · rw [hcb, hcalls]
    exact h.kept
  · unfold timesAnswered
    rw [hcalls, hanswered]
    exact hserving.once

/-- What a step leaves as it is. -/
theorem Ledger.congr (h : Ledger s) (hfetches : s'.callFetches = s.callFetches)
    (hbusy : s.busy = true → s'.busy = true) (hcb : s'.cb = s.cb) (hcalls : s'.calls = s.calls)
    (hanswered : s'.answered = s.answered) : Ledger s' := by
  rcases h.served with hsettled | ⟨r, k, hserving⟩
  · refine ⟨?_, ?_, .inl ⟨hfetches.trans hsettled.idle, ?_⟩⟩
    · rw [hanswered, hcalls]
      exact h.made
    · rw [hcb, hcalls]
      exact h.kept
    · unfold timesAnswered
      rw [hcalls, hanswered]
      exact hsettled.once
  · exact h.continue r hserving (hfetches.trans hserving.alone) hserving.call (hbusy hserving.busy)
      hcb hcalls hanswered

/-- While no call is waiting, a step that leaves no callback and invokes none. -/
theorem Ledger.settle (h : Ledger s) (hsettled : Settled s)
    (hfetches : s'.callFetches = s.callFetches) (hcb : s'.cb = none) (hcalls : s'.calls = s.calls)
    (hanswered : s'.answered = s.answered) : Ledger s' := by
  refine ⟨?_, ?_, .inl ⟨hfetches.trans hsettled.idle, ?_⟩⟩
  · rw [hanswered, hcalls]
    exact h.made
  · intro k hk
    rw [hcb] at hk
    contradiction
  · unfold timesAnswered
    rw [hcalls, hanswered]
    exact hsettled.once

/-- A call is answered on the spot. -/
theorem Ledger.answer (h : Ledger s) (result : OperationResult) :
    Ledger ({ s with calls := s.calls + 1 }.invoke (some s.calls) result) := by
  have htimes : ∀ k, ({ s with calls := s.calls + 1 }.invoke (some s.calls) result).timesAnswered k =
      s.timesAnswered k + if some s.calls = some k then 1 else 0 := timesAnswered_append rfl
  have hnew : s.timesAnswered s.calls = 0 := timesAnswered_eq_zero h.made
  refine ⟨fun a ha => ?_, fun k hk => Nat.lt_succ_of_lt (h.kept k hk), ?_⟩
  · rcases List.mem_append.mp ha with ha | ha
    · exact Nat.lt_succ_of_lt (h.made a ha)
    · obtain rfl := List.mem_singleton.mp ha
      exact Nat.lt_succ_self _
  · rcases h.served with hsettled | ⟨r, k, hserving⟩
    · refine .inl ⟨hsettled.idle, fun j hj => ?_⟩
      rw [htimes]
      rcases Nat.lt_succ_iff_lt_or_eq.mp hj with hlt | rfl
      · rw [if_neg (by simpa using Nat.ne_of_gt hlt), hsettled.once j hlt]
      · rw [if_pos rfl, hnew]
    · have hk := h.kept k hserving.cb
      refine .inr ⟨r, k, hserving.alone, hserving.call, hserving.busy, hserving.cb, fun j hj => ?_⟩
      rw [htimes]
      rcases Nat.lt_succ_iff_lt_or_eq.mp hj with hlt | rfl
      · rw [if_neg (by simpa using Nat.ne_of_gt hlt), hserving.once j hlt, Nat.add_zero]
      · rw [if_pos rfl, hnew, if_neg (Nat.ne_of_gt hk)]

/-- A fetch is started for a call. -/
theorem Ledger.start {bridge : Bridge} (h : Ledger s) (hindex : s.WellIndexed)
    (hbusy : s.busy = false) :
    Ledger ({ s.ready with calls := s.calls + 1 }.start bridge (some s.calls)) := by
  have hsettled := h.settled_of_not_busy hbusy
  have hnew : s.timesAnswered s.calls = 0 := timesAnswered_eq_zero h.made
  have hold : ∀ k, timesAnswered ({ s.ready with calls := s.calls + 1 }.start bridge
      (some s.calls)) k = s.timesAnswered k := fun k => by
    unfold timesAnswered
    rw [← answered_ready (s := s)]
    rfl
  refine ⟨fun a ha => ?_, fun k hk => ?_, .inr ⟨(s.ready.nextRequest, .fetch .whitelist s.calls),
    s.calls, ?_, rfl, rfl, rfl, fun j hj => ?_⟩⟩
  · refine Nat.lt_succ_of_lt (h.made a ?_)
    rw [← answered_ready (s := s)]
    exact ha
  · obtain rfl : s.calls = k := Option.some.inj hk
    exact Nat.lt_succ_self _
  · refine (callFetches_request _).trans ?_
    show s.ready.callFetches ++ _ = _
    rw [callFetches_of_fetches (fetches_ready hindex), hsettled.idle]
    rfl
  · rw [hold]
    rcases Nat.lt_succ_iff_lt_or_eq.mp hj with hlt | rfl
    · rw [if_neg (Nat.ne_of_lt hlt), hsettled.once j hlt]
    · rw [if_pos rfl, hnew]

/-- The fetch of a call ends and invokes the callback of that call. -/
theorem Serving.finish (h : Serving s r k) (result : OperationResult) (hk : k < s.calls)
    (hmade : ∀ a ∈ s.answered, a.1 < s.calls) (hfetches : s'.callFetches = [])
    (hcb : s'.cb = some k ∨ s'.cb = none) (hcalls : s'.calls = s.calls)
    (hanswered : s'.answered = s.answered ++ s.cb.toList.map fun call => (call, result)) :
    Ledger s' := by
  have htimes := timesAnswered_append hanswered
  rw [h.cb] at hanswered htimes
  refine ⟨fun a ha => ?_, fun j hj => ?_, .inl ⟨hfetches, fun j hj => ?_⟩⟩
  · rw [hcalls]
    rw [hanswered] at ha
    rcases List.mem_append.mp ha with ha | ha
    · exact hmade a ha
    · obtain rfl := List.mem_singleton.mp ha
      exact hk
  · rw [hcalls]
    rcases hcb with hcb | hcb
    · rw [hcb] at hj
      obtain rfl := Option.some.inj hj
      exact hk
    · rw [hcb] at hj
      contradiction
  · rw [htimes, h.once j (hcalls ▸ hj)]
    by_cases hjk : j = k
    · rw [if_pos hjk, if_pos (by rw [hjk])]
    · rw [if_neg hjk, if_neg (by simpa using Ne.symm hjk)]

/-! ### Steps -/

/-- What ends a fetch finds its own callback or none. -/
theorem cb_of_keepsCallbacks {id : ℕ} {stage : Stage} {call : Option ℕ} {answer : Answer}
    (hkeeps : keepsCallbacks isValid s (.answer (id, .fetch stage call) answer) = true)
    (hends : failsFetch stage answer = true ∨ s.completesFetch stage answer = true) :
    s.cb = none ∨ s.cb = call := by
  simp only [keepsCallbacks, Bool.or_eq_true, Bool.not_eq_true', Bool.or_eq_false_iff,
    decide_eq_true_eq] at hkeeps
  rcases hkeeps with (⟨hfails, hcompletes⟩ | hcb) | hcb
  · rcases hends with hends | hends
    · rw [hfails] at hends
      contradiction
    · rw [hcompletes] at hends
      contradiction
  · exact .inl hcb
  · exact .inr hcb

/-- The fetch of a refresh is answered. -/
theorem ledger_refresh {id : ℕ} {stage : Stage} {answer : Answer} (h : Ledger s)
    (hkeeps : keepsCallbacks isValid s (.answer (id, .fetch stage none) answer) = true)
    (hanswer : (s.close (id, .fetch stage none)).onAnswer (.fetch stage none) answer = some s') :
    Ledger s' := by
  have hcb := cb_of_keepsCallbacks hkeeps
  rw [or_self] at hcb
  have hclose : Ledger (s.close (id, .fetch stage none)) :=
    h.congr (callFetches_close rfl) (fun hbusy => hbusy) rfl rfl rfl
  have hfetches : ∀ asks, ((s.close (id, .fetch stage none)).asking asks).callFetches =
      (s.close (id, .fetch stage none)).callFetches := fun asks =>
    callFetches_of_fetches (fetches_asking asks)
  rcases onAnswer_fetch_cases hanswer with
    ⟨next, bridge, resourceToGet, asks, rfl⟩ | ⟨hends, bridge, rfl⟩ | ⟨hends, asks, rfl⟩
  · refine hclose.congr ?_ (fun hbusy => ?_) (cb_asking asks) (calls_asking asks)
      (answered_asking asks)
    · exact (callFetches_request _).trans ((List.append_nil _).trans (hfetches asks))
    · exact (busy_asking asks).trans hbusy
  · have hnone : s.cb = none := hcb (.inl hends)
    refine hclose.settle (hclose.settled hnone) rfl hnone rfl ?_
    show s.answered ++ s.cb.toList.map _ = s.answered
    rw [hnone]
    exact List.append_nil _
  · have hnone : s.cb = none := hcb (.inr hends)
    obtain ⟨_, _, heq⟩ := complete_cases
      ({ (s.close (id, .fetch stage none)).asking asks with resourceToGet := none })
    rw [heq]
    refine hclose.settle (hclose.settled hnone) ?_ rfl (calls_asking asks) ?_
    · exact (callFetches_request _).trans ((List.append_nil _).trans (hfetches asks))
    · show ((s.close _).asking asks).answered ++ ((s.close _).asking asks).cb.toList.map _ = _
      rw [cb_asking, answered_asking]
      show _ ++ s.cb.toList.map _ = _
      rw [hnone]
      exact List.append_nil _

/-- The fetch of a call is answered. -/
theorem ledger_call {id : ℕ} {stage : Stage} {answer : Answer} (h : Ledger s)
    (hr : (id, .fetch stage (some k)) ∈ s.requests)
    (hanswer : (s.close (id, .fetch stage (some k))).onAnswer (.fetch stage (some k)) answer =
      some s') : Ledger s' := by
  have hmem : (id, Request.fetch stage (some k)) ∈ s.callFetches :=
    List.mem_filter.mpr ⟨mem_fetches.mpr ⟨hr, rfl⟩, rfl⟩
  obtain ⟨j, hserving⟩ : ∃ j, Serving s (id, .fetch stage (some k)) j := by
    rcases h.served with hsettled | ⟨r, j, hserving⟩
    · rw [hsettled.idle] at hmem
      exact absurd hmem List.not_mem_nil
    · have halone := hserving.alone
      rw [halone, List.mem_singleton] at hmem
      exact ⟨j, hmem ▸ hserving⟩
  obtain rfl : k = j := Option.some.inj hserving.call
  have hk := h.kept k hserving.cb
  have hclose : (s.close (id, .fetch stage (some k))).callFetches = [] := by
    rw [callFetches_close rfl, hserving.alone]
    simp [Request.call]
  have hfetches : ∀ asks, ((s.close (id, .fetch stage (some k))).asking asks).callFetches = [] :=
    fun asks => (callFetches_of_fetches (fetches_asking asks)).trans hclose
  rcases onAnswer_fetch_cases hanswer with
    ⟨next, bridge, resourceToGet, asks, rfl⟩ | ⟨-, bridge, rfl⟩ | ⟨-, asks, rfl⟩
  · refine h.continue (((s.close (id, .fetch stage (some k))).asking asks).nextRequest,
      .fetch next (some k)) hserving ?_ rfl ((busy_asking asks).trans hserving.busy)
      (cb_asking asks) (calls_asking asks) (answered_asking asks)
    refine (callFetches_request _).trans ?_
    show ((s.close _).asking asks).callFetches ++ _ = _
    rw [hfetches]
    rfl
  · exact hserving.finish _ hk h.made hclose (.inl hserving.cb) rfl rfl
  · obtain ⟨_, _, heq⟩ := complete_cases
      ({ (s.close (id, .fetch stage (some k))).asking asks with resourceToGet := none })
    rw [heq]
    refine hserving.finish .success hk h.made ?_ (.inr rfl) (calls_asking asks) ?_
    · exact (callFetches_request _).trans ((List.append_nil _).trans (hfetches asks))
    · show ((s.close _).asking asks).answered ++ ((s.close _).asking asks).cb.toList.map _ = _
      rw [cb_asking, answered_asking]
      rfl

/-- Events invoke no callback when none is in place. -/
theorem ledger_onEvents (h : Ledger s) (hcb : s.cb = none) (outcomes : List EventOutcome) :
    Ledger (outcomes.foldl onEvent s) := by
  induction outcomes generalizing s with
  | nil => exact h
  | cons outcome outcomes ih =>
    have hnone : (s.asking outcome.asksOwner).cb = none := (cb_asking _).trans hcb
    refine ih (h.settle (h.settled hcb) ?_ hnone (calls_asking _) ?_) hnone
    · exact callFetches_of_fetches (fetches_asking outcome.asksOwner)
    · show (s.asking _).answered ++ (s.asking _).cb.toList.map _ = _
      rw [hnone, answered_asking]
      exact List.append_nil _

/-- **What a step does to the ledger**: with every callback invoked by its own fetch, it stays in
order. -/
theorem ledger_step {input : Input} (hindex : s.WellIndexed) (h : Ledger s)
    (hdestroyed : s.destroyed = false) (hkeeps : keepsCallbacks isValid s input = true)
    (hstep : s.step isValid input = some s') : Ledger s' := by
  rw [BridgeConfigRetriever.step] at hstep
  split_ifs at hstep with henabled
  cases input with
  | execute bridge =>
    rcases execute_cases hstep with ⟨-, rfl⟩ | ⟨-, -, -, current, -, rfl⟩ | ⟨hbusy, -, rfl⟩
    · exact h.answer .failed
    · exact h.answer (cacheResult current)
    · exact h.start hindex hbusy
  | refresh =>
    rcases refresh_cases hstep with ⟨-, rfl⟩ | ⟨-, -, rfl⟩ | ⟨hbusy, -, -, bridge, rfl⟩
    · exact h
    · exact h.congr rfl (fun _ => rfl) rfl rfl rfl
    · refine h.settle (h.settled_of_not_busy hbusy) ?_ rfl ?_ ?_
      · refine (callFetches_request _).trans ((List.append_nil _).trans ?_)
        exact callFetches_of_fetches (fetches_abort hindex)
      · show s.abort.calls = s.calls
        rw [abort_eq]
      · show s.abort.answered = s.answered
        rw [abort_eq]
  | disconnected =>
    obtain rfl := Option.some.inj hstep
    rcases onBridgeDisconnect_cases s with ⟨-, heq⟩ | ⟨-, heq⟩
    · rwa [heq]
    · rw [heq]
      refine h.congr (callFetches_of_fetches (fetches_abort hindex)) (fun hbusy => ?_) ?_ ?_ ?_
      all_goals
        rw [abort_eq]
      exact hbusy
  | bridgeChanged bridge =>
    obtain rfl := Option.some.inj hstep
    exact h.congr rfl (fun hbusy => hbusy) rfl rfl rfl
  | destroy =>
    obtain rfl := Option.some.inj hstep
    refine h.congr (callFetches_of_fetches (fetches_abort hindex)) (fun hbusy => ?_) ?_ ?_ ?_
    all_goals
      rw [abort_eq]
    exact hbusy
  | chunk id bytes outcome =>
    rw [handle, hdestroyed] at hstep
    obtain rfl := Option.some.inj hstep
    simp only [Bool.false_eq_true, if_false]
    rcases onChunk_cases (s := s) isValid bytes outcome with
      ⟨⟨responseEvent, heq⟩, -⟩ | ⟨hevents, responseEvent, outcomes, heq⟩
    · rw [heq]
      exact h.congr rfl (fun hbusy => hbusy) rfl rfl rfl
    · have hcb : s.cb = none := by
        simp only [keepsCallbacks, finishesOutside, Bool.or_eq_true, decide_eq_true_eq,
          Bool.not_not, List.isEmpty_iff] at hkeeps
        exact hkeeps.resolve_right hevents
      rw [heq]
      refine ledger_onEvents (s := { s with responseEvent }) ?_ hcb outcomes
      exact h.congr rfl (fun hbusy => hbusy) rfl rfl rfl
  | answer r answer =>
    obtain ⟨id, request⟩ := r
    have hmem : (id, request) ∈ s.requests := by simpa [enabled] using henabled
    simp only [handle, hdestroyed, Bool.false_eq_true, if_false] at hstep
    cases hfetch : request.isFetch with
    | true =>
      cases request with
      | fetch stage call =>
        cases call with
        | none => exact ledger_refresh h hkeeps hstep
        | some k => exact ledger_call h hmem hstep
      | _ => simp [Request.isFetch] at hfetch
    | false =>
      have hclose : (s.close (id, request)).callFetches = s.callFetches := by
        refine callFetches_of_fetches ?_
        rw [fetches_close, if_neg (by simp [hfetch])]
      rcases onAnswer_outside_cases id hfetch hstep with
        ⟨-, bridge, updatingWhiteList, rfl⟩ | ⟨hfinishes, bridge, rfl⟩
      · exact h.congr hclose (fun hbusy => hbusy) rfl rfl rfl
      · have hcb : s.cb = none := by
          cases request with
          | fetch stage call => simp [Request.isFetch] at hfetch
          | _ => simpa [keepsCallbacks, hfinishes] using hkeeps
        refine h.settle (h.settled hcb) hclose hcb rfl ?_
        show s.answered ++ s.cb.toList.map _ = _
        rw [hcb]
        exact List.append_nil _

/-- **Every callback is invoked once by the time its fetch is over**, and never again, after every run
in which no step invokes the callback of another call. -/
theorem answered_once (hrun : (session isValid).Run ts s)
    (hkeeps : ∀ t ∈ ts, keepsCallbacks isValid t.before t.label = true)
    (halive : s.destroyed = false) : AnsweredOnce s := by
  refine Ledger.answeredOnce ?_
  refine invariant_of_alive (C := fun s input => keepsCallbacks isValid s input = true) hrun ?_
    (fun hindex halive hkeep hstep h _ => ledger_step hindex h halive hkeep hstep) hkeeps halive
  refine ⟨fun a ha => absurd ha List.not_mem_nil, fun k hk => ?_, .inl ⟨rfl, fun k hk => ?_⟩⟩
  · contradiction
  · exact absurd hk (Nat.not_lt_zero k)

/-- A call whose fetch fails at once, a call that is refused meanwhile, and a call that waits. -/
theorem answered_once_after_failure : ∃ ts s, (session fun _ => true).Run ts s ∧
    s.destroyed = false ∧ s.answered = [(1, .failed), (0, .failed)] ∧ s.calls = 3 ∧
      AnsweredOnce s := by
  obtain ⟨ts, s, hrun, h⟩ := Machine.exists_run (M := session fun _ => true) (s := {})
    [.execute {}, .execute {}, .answer (0, .fetch .whitelist (some 0)) .unauthorized, .execute {}]
    (fun ts s => decide (s.destroyed = false ∧ s.answered = [(1, .failed), (0, .failed)] ∧
      s.calls = 3) && ts.all fun t => keepsCallbacks (fun _ => true) t.before t.label)
    rfl (by decide)
  rw [Bool.and_eq_true, decide_eq_true_eq, List.all_eq_true] at h
  obtain ⟨⟨halive, hanswered, hcalls⟩, hkeeps⟩ := h
  exact ⟨ts, s, hrun, halive, hanswered, hcalls, answered_once hrun hkeeps halive⟩

/-- A white list that cannot be fetched for the name of an owner invokes the callback in the middle of
the fetch, and the end of the fetch invokes it again. -/
theorem exists_callback_invoked_twice : ∃ ts s, (session fun _ => true).Run ts s ∧
    s.destroyed = false ∧ s.calls = 1 ∧ s.timesAnswered 0 = 2 := by
  obtain ⟨ts, s, hrun, h⟩ := Machine.exists_run (M := session fun _ => true) (s := {})
    [.execute {}, .answer (0, .fetch .whitelist (some 0)) (.ok {}),
      .answer (1, .fetch .applicationId (some 0)) (.ok {}),
      .answer (2, .fetch .resource (some 0)) (.ok { asksOwner := true }),
      .answer (3, .ownerName) (.error false),
      .answer (4, .fetch .resource (some 0)) .unauthorized]
    (fun _ s => s.destroyed = false ∧ s.calls = 1 ∧ s.timesAnswered 0 = 2) rfl (by decide)
  exact ⟨ts, s, hrun, of_decide_eq_true h⟩

end HueStream.Session
