import HueStream.Session.InFlight

/-! # Answers from the cache

A connected retriever answers from its cache. It is connected from the start of a fetch on, so what
the cache holds is whole only if no call gets through before the fetch is over, and if a failed fetch
ends the connection; `Finish` ends it only when a callback is in place. -/

namespace HueStream.Session

open HueStream.Data HueStream.Flow HueStream.Lib BridgeConfigRetriever

variable {isValid : List Char → Bool} {s s' : BridgeConfigRetriever}
  {ts : List (Transition BridgeConfigRetriever Input)}

/-- A call is answered with success on the spot. -/
def FromCache (t : Transition BridgeConfigRetriever Input) : Prop :=
  (∃ bridge, t.label = .execute bridge) ∧
    t.after.answered = t.before.answered ++ [(t.before.calls, .success)]

/-- The last fetch ran to its end, and none is under way. -/
def IsWhole (s : BridgeConfigRetriever) : Prop := s.lastFetch = .finished ∧ s.fetches = []

/-- The inputs that leave no half of a fetch behind: nothing outside a fetch is finished while one is
under way, and a fetch that fails has a callback in place, or is disconnected before. -/
def keepsWhole (isValid : List Char → Bool) (s : BridgeConfigRetriever) : Input → Bool
  | .answer (_, .fetch stage _) answer =>
    !failsFetch stage answer || s.cb.isSome || !s.connected
  | input => s.fetches.isEmpty || !finishesOutside isValid s input

/-- A fetch under way keeps the retriever busy, and there is one at most; without one a connected
retriever has its last fetch whole. -/
structure CacheInvariant (s : BridgeConfigRetriever) : Prop where
  busy : s.fetches ≠ [] → s.busy = true
  one : s.fetches.length ≤ 1
  whole : s.fetches = [] → s.connected = true → s.lastFetch = .finished

namespace CacheInvariant

theorem fetches_eq_nil (h : CacheInvariant s) (hbusy : s.busy = false) : s.fetches = [] := by
  by_contra hne
  rw [h.busy hne] at hbusy
  contradiction

/-- A fetch goes on. -/
theorem fetching {r : ℕ × Request} (hfetches : s.fetches = [r]) (hbusy : s.busy = true) :
    CacheInvariant s := by
  refine ⟨fun _ => hbusy, ?_, fun hnone => ?_⟩
  · rw [hfetches]
    exact le_rfl
  · rw [hfetches] at hnone
    contradiction

/-- No fetch is under way. -/
theorem idle (hfetches : s.fetches = []) (hwhole : s.connected = true → s.lastFetch = .finished) :
    CacheInvariant s := by
  refine ⟨fun hne => absurd hfetches hne, ?_, fun _ => hwhole⟩
  rw [hfetches]
  exact Nat.zero_le _

/-- What a step leaves as it is; it may disconnect. -/
theorem congr (h : CacheInvariant s) (hfetches : s'.fetches = s.fetches)
    (hbusy : s.busy = true → s'.busy = true) (hconnected : s'.connected = true → s.connected = true)
    (hlast : s'.lastFetch = s.lastFetch) : CacheInvariant s' := by
  refine ⟨?_, ?_, ?_⟩
  · rw [hfetches]
    exact fun hne => hbusy (h.busy hne)
  · rw [hfetches]
    exact h.one
  · rw [hfetches, hlast]
    exact fun hnil hc => h.whole hnil (hconnected hc)

end CacheInvariant

/-- A fetch is started while none is under way. -/
theorem cacheInvariant_start {bridge : Bridge} {call : Option ℕ} (h : s.fetches = []) :
    CacheInvariant (s.start bridge call) := by
  refine CacheInvariant.fetching (r := (s.nextRequest, .fetch .whitelist call)) ?_ rfl
  exact fetches_start_of_idle h

theorem cacheInvariant_fetch {id : ℕ} {stage : Stage} {call : Option ℕ} {answer : Answer}
    (hr : (id, .fetch stage call) ∈ s.requests) (h : CacheInvariant s)
    (hkeeps : keepsWhole isValid s (.answer (id, .fetch stage call) answer) = true)
    (hanswer : (s.close (id, .fetch stage call)).onAnswer (.fetch stage call) answer = some s') :
    CacheInvariant s' := by
  have hclose := fetches_close_of_mem h.one hr rfl
  have hbusy := h.busy (List.ne_nil_of_mem (mem_fetches.mpr ⟨hr, rfl⟩))
  rcases onAnswer_fetch_cases hanswer with
    ⟨next, bridge, resourceToGet, asks, rfl⟩ | ⟨hfails, bridge, rfl⟩ | ⟨-, asks, rfl⟩
  · refine CacheInvariant.fetching
      (r := (((s.close (id, .fetch stage call)).asking asks).nextRequest, .fetch next call)) ?_ ?_
    · refine (fetches_request _).trans ?_
      show ((s.close (id, .fetch stage call)).asking asks).fetches ++ _ = _
      rw [fetches_asking, hclose]
      rfl
    · exact (busy_asking (s := s.close (id, .fetch stage call)) asks).trans hbusy
  · -- with a callback the failure disconnects, without one it was disconnected before
    refine CacheInvariant.idle hclose fun hconnected => ?_
    have hstill : (if s.cb.isSome = true then false else s.connected) = true := by
      simpa [fail, finish, report, invoke, close] using hconnected
    rw [keepsWhole, hfails, Bool.not_true, Bool.false_or, Bool.or_eq_true,
      Bool.not_eq_true'] at hkeeps
    rcases hkeeps with hcb | hdisconnected
    · rw [if_pos hcb] at hstill
      contradiction
    · rw [hdisconnected, ite_self] at hstill
      contradiction
  · obtain ⟨_, _, heq⟩ := complete_cases
      ({ (s.close (id, .fetch stage call)).asking asks with resourceToGet := none })
    rw [heq]
    refine CacheInvariant.idle ?_ fun _ => rfl
    refine (fetches_request _).trans ?_
    show ((s.close (id, .fetch stage call)).asking asks).fetches ++ _ = _
    rw [fetches_asking, hclose]
    rfl

theorem cacheInvariant_onEvents (hfetches : s.fetches = [])
    (hwhole : s.connected = true → s.lastFetch = .finished) (outcomes : List EventOutcome) :
    CacheInvariant (outcomes.foldl onEvent s) := by
  induction outcomes generalizing s with
  | nil => exact CacheInvariant.idle hfetches hwhole
  | cons outcome outcomes ih =>
    refine ih ((fetches_asking _).trans hfetches) fun hconnected => ?_
    show (s.asking outcome.asksOwner).lastFetch = .finished
    rw [lastFetch_asking]
    refine hwhole ?_
    exact (connected_asking _).symm.trans (connected_of_report hconnected)

/-- **What a step keeps**: a connected retriever without a fetch under way has its last fetch whole. -/
theorem cacheInvariant_step {input : Input} (hindex : s.WellIndexed) (h : CacheInvariant s)
    (hdestroyed : s.destroyed = false) (hkeeps : keepsWhole isValid s input = true)
    (hstep : s.step isValid input = some s') : CacheInvariant s' := by
  rw [BridgeConfigRetriever.step] at hstep
  split_ifs at hstep with henabled
  cases input with
  | execute bridge =>
    rcases execute_cases hstep with ⟨-, rfl⟩ | ⟨-, -, -, current, -, rfl⟩ | ⟨hbusy, -, rfl⟩
    · exact h.congr rfl (fun hbusy => hbusy) (fun hc => hc) rfl
    · exact h.congr rfl (fun hbusy => hbusy) (fun hc => hc) rfl
    · refine cacheInvariant_start ?_
      show s.ready.fetches = []
      rw [fetches_ready hindex]
      exact h.fetches_eq_nil hbusy
  | refresh =>
    rcases refresh_cases hstep with ⟨-, rfl⟩ | ⟨-, -, rfl⟩ | ⟨hbusy, -, -, bridge, rfl⟩
    · exact h
    · exact h.congr rfl (fun _ => rfl) (fun hc => hc) rfl
    · refine cacheInvariant_start ?_
      show s.abort.fetches = []
      rw [fetches_abort hindex]
      exact h.fetches_eq_nil hbusy
  | disconnected =>
    obtain rfl := Option.some.inj hstep
    rcases onBridgeDisconnect_cases s with ⟨-, heq⟩ | ⟨-, heq⟩
    · rwa [heq]
    · rw [heq]
      refine h.congr (fetches_abort hindex) (fun hbusy => ?_) (fun hc => ?_) ?_
      · show s.abort.busy = true
        rw [abort_eq]
        exact hbusy
      · contradiction
      · show s.abort.lastFetch = s.lastFetch
        rw [abort_eq]
  | bridgeChanged bridge =>
    obtain rfl := Option.some.inj hstep
    exact h.congr rfl (fun hbusy => hbusy) (fun hc => hc) rfl
  | destroy =>
    obtain rfl := Option.some.inj hstep
    refine h.congr (fetches_abort hindex) (fun hbusy => ?_) (fun hc => ?_) ?_
    · show s.abort.busy = true
      rw [abort_eq]
      exact hbusy
    · rw [abort_eq] at hc
      exact hc
    · show s.abort.lastFetch = s.lastFetch
      rw [abort_eq]
  | chunk id bytes outcome =>
    rw [handle, hdestroyed] at hstep
    obtain rfl := Option.some.inj hstep
    simp only [Bool.false_eq_true, if_false]
    rcases onChunk_cases (s := s) isValid bytes outcome with
      ⟨⟨responseEvent, heq⟩, -⟩ | ⟨hevents, responseEvent, outcomes, heq⟩
    · rw [heq]
      exact h.congr rfl (fun hbusy => hbusy) (fun hc => hc) rfl
    · have hfetches : s.fetches = [] := by
        simp only [keepsWhole, finishesOutside, Bool.or_eq_true, List.isEmpty_iff,
          Bool.not_not] at hkeeps
        exact hkeeps.resolve_right hevents
      rw [heq]
      exact cacheInvariant_onEvents (s := { s with responseEvent }) hfetches (h.whole hfetches) outcomes
  | answer r answer =>
    obtain ⟨id, request⟩ := r
    have hmem : (id, request) ∈ s.requests := by simpa [enabled] using henabled
    simp only [handle, hdestroyed, Bool.false_eq_true, if_false] at hstep
    cases hfetch : request.isFetch with
    | true =>
      cases request with
      | fetch stage call => exact cacheInvariant_fetch hmem h hkeeps hstep
      | _ => simp [Request.isFetch] at hfetch
    | false =>
      have hclose : (s.close (id, request)).fetches = s.fetches := by
        rw [fetches_close, if_neg (by simp [hfetch])]
      rcases onAnswer_outside_cases id hfetch hstep with
        ⟨-, bridge, updatingWhiteList, rfl⟩ | ⟨hfinishes, bridge, rfl⟩
      · exact h.congr hclose (fun hbusy => hbusy) (fun hc => hc) rfl
      · have hfetches : s.fetches = [] := by
          cases request with
          | fetch stage call => simp [Request.isFetch] at hfetch
          | _ => simpa [keepsWhole, hfinishes] using hkeeps
        refine CacheInvariant.idle (hclose.trans hfetches) fun hc => ?_
        exact h.whole hfetches (connected_of_report hc)

/-- **A call is answered from the cache only if the last fetch ran to its end**, and no fetch that has
failed leaves the retriever connected, in every run whose steps leave no half of a fetch behind. -/
theorem from_cache_whole (hrun : (session isValid).Run ts s)
    (hkeeps : ∀ t ∈ ts, keepsWhole isValid t.before t.label = true) :
    (∀ t ∈ ts, FromCache t → IsWhole t.before) ∧
      (s.destroyed = false → s.fetches = [] → s.connected = true → s.lastFetch = .finished) := by
  have hinvariant : ∀ {us s}, (session isValid).Run us s →
      (∀ t ∈ us, keepsWhole isValid t.before t.label = true) → s.destroyed = false →
        CacheInvariant s := fun hrun hkeeps halive => by
    refine invariant_of_alive (C := fun s input => keepsWhole isValid s input = true) hrun ?_
      (fun hindex halive hkeep hstep h _ => cacheInvariant_step hindex h halive hkeep hstep)
      hkeeps halive
    exact CacheInvariant.idle rfl fun hc => by contradiction
  refine ⟨fun t ht hcache => ?_, fun halive => (hinvariant hrun hkeeps halive).whole⟩
  obtain ⟨hstep, us, hus, hrun'⟩ := hrun.reaches_before ht
  obtain ⟨⟨bridge, hlabel⟩, hanswered⟩ := hcache
  rw [hlabel] at hstep
  replace hstep : t.before.step isValid (.execute bridge) = some t.after := hstep
  rw [BridgeConfigRetriever.step] at hstep
  split_ifs at hstep with henabled
  have halive : t.before.destroyed = false := by simpa [enabled] using henabled
  have h := hinvariant hrun' (fun u hu => hkeeps u (hus.subset hu)) halive
  rcases execute_cases hstep with ⟨-, heq⟩ | ⟨hbusy, hconnected, -, current, -, -⟩ | ⟨-, -, heq⟩
  · -- refused: it was told that it failed
    rw [heq] at hanswered
    have htold := List.append_cancel_left hanswered
    simp at htold
  · have hfetches := h.fetches_eq_nil hbusy
    exact ⟨h.whole hfetches hconnected, hfetches⟩
  · -- a fetch was started: nobody was told anything
    have hsame : t.after.answered = t.before.answered := by
      rw [heq]
      show t.before.ready.answered = t.before.answered
      exact answered_ready
    rw [hsame] at hanswered
    have hlength := congrArg List.length hanswered
    simp at hlength

/-- The answers that lead the fetch of a call to its end, when its first request is `first`. -/
def wholeFetch (first call : ℕ) : List Input :=
  [.answer (first, .fetch .whitelist (some call)) (.ok {}),
    .answer (first + 1, .fetch .applicationId (some call)) (.ok {})] ++
  (List.range 8).map fun n => .answer (first + 2 + n, .fetch .resource (some call)) (.ok {})

set_option maxRecDepth 4000 in
/-- A call after a fetch. -/
theorem from_cache_whole_answered : ∃ ts s, (session fun _ => true).Run ts s ∧
    s.answered = [(0, .success), (1, .success)] ∧ (∀ t ∈ ts, FromCache t → IsWhole t.before) ∧
      (s.destroyed = false → s.fetches = [] → s.connected = true → s.lastFetch = .finished) := by
  obtain ⟨ts, s, hrun, h⟩ := Machine.exists_run (M := session fun _ => true) (s := {})
    (.execute {} :: wholeFetch 0 0 ++ [.execute {}])
    (fun ts s => decide (s.answered = [(0, .success), (1, .success)]) &&
      ts.all fun t => keepsWhole (fun _ => true) t.before t.label) rfl (by decide)
  rw [Bool.and_eq_true, decide_eq_true_eq, List.all_eq_true] at h
  exact ⟨ts, s, hrun, h.1, from_cache_whole hrun h.2⟩

/-- The last transition is a call answered from the cache after a fetch that has failed. -/
def answersAfterFailure (ts : List (Transition BridgeConfigRetriever Input)) : Bool :=
  match ts.getLast? with
  | some ⟨s, .execute _, s'⟩ =>
    s'.answered = s.answered ++ [(s.calls, .success)] && s.lastFetch = .failed
  | _ => false

set_option maxRecDepth 4000 in
/-- A refresh that fails when it has cleared the groups and zones has nobody to tell and stays
connected; the next call is answered with success. -/
theorem exists_answer_after_failed_refresh : ∃ ts s, (session fun _ => true).Run ts s ∧
    ∃ t ∈ ts, FromCache t ∧ t.before.lastFetch = .failed := by
  obtain ⟨ts, s, hrun, h⟩ := Machine.exists_run (M := session fun _ => true) (s := {})
    (.execute {} :: wholeFetch 0 0 ++ [.refresh, .answer (11, .fetch .whitelist none) (.ok {}),
      .answer (12, .fetch .applicationId none) (.ok {}),
      .answer (13, .fetch .resource none) (.error false), .execute {}])
    (fun ts _ => answersAfterFailure ts) rfl (by decide)
  refine ⟨ts, s, hrun, ?_⟩
  unfold answersAfterFailure at h
  split at h
  · next b bridge a hlast =>
    rw [Bool.and_eq_true, decide_eq_true_eq, decide_eq_true_eq] at h
    exact ⟨_, List.mem_of_getLast? hlast, ⟨⟨bridge, rfl⟩, h.1⟩, h.2⟩
  · contradiction

end HueStream.Session
