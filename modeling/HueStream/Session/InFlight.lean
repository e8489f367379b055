import HueStream.Session.Step

/-! # The busy flag and the fetches under way

A fetch takes the busy flag and gives it back at its end. Two things break the pairing: a refresh that
finds nothing to do keeps the flag it has taken, and `Finish` gives the flag back also when it is
called from outside a fetch while one is under way. -/

namespace HueStream.Session

open HueStream.Data HueStream.Flow HueStream.Lib BridgeConfigRetriever

variable {isValid : List Char → Bool} {s s' : BridgeConfigRetriever}
  {ts : List (Transition BridgeConfigRetriever Input)}

/-- The retriever is busy exactly while a fetch is under way, and there is one at most. -/
def BusyWhileFetching (s : BridgeConfigRetriever) : Prop :=
  (s.busy = true ↔ s.fetches ≠ []) ∧ s.fetches.length ≤ 1

/-- The inputs that keep the flag: a refresh finds the retriever busy, or connected and not yet
refreshing; nothing outside a fetch is finished while one is under way. -/
def keepsBusyFlag (isValid : List Char → Bool) (s : BridgeConfigRetriever) : Input → Bool
  | .refresh => s.busy || s.connected && !s.refreshing
  | input => s.destroyed || s.fetches.isEmpty || !finishesOutside isValid s input

theorem BusyWhileFetching.idle (hfetches : s.fetches = []) (hbusy : s.busy = false) :
    BusyWhileFetching s := by
  refine ⟨?_, ?_⟩
  · rw [hbusy, hfetches]
    simp
  · rw [hfetches]
    simp

theorem BusyWhileFetching.fetching {r : ℕ × Request} (hfetches : s.fetches = [r])
    (hbusy : s.busy = true) : BusyWhileFetching s := by
  refine ⟨?_, ?_⟩
  · rw [hbusy, hfetches]
    simp
  · rw [hfetches]
    simp

theorem BusyWhileFetching.fetches_eq_nil (h : BusyWhileFetching s) (hbusy : s.busy = false) :
    s.fetches = [] := by
  by_contra hne
  rw [h.1.mpr hne] at hbusy
  contradiction

theorem BusyWhileFetching.congr (h : BusyWhileFetching s) (hfetches : s'.fetches = s.fetches)
    (hbusy : s'.busy = s.busy) : BusyWhileFetching s' := by
  unfold BusyWhileFetching
  rwa [hfetches, hbusy]

theorem fetches_start_of_idle {bridge : Bridge} {call : Option ℕ} (h : s.fetches = []) :
    (s.start bridge call).fetches = [(s.nextRequest, .fetch .whitelist call)] := by
  refine (fetches_request _).trans ?_
  show s.fetches ++ _ = _
  rw [h]
  rfl

theorem busyWhileFetching_start {bridge : Bridge} {call : Option ℕ} (h : s.fetches = []) :
    BusyWhileFetching (s.start bridge call) :=
  BusyWhileFetching.fetching (fetches_start_of_idle h) rfl

theorem fetches_ready (h : s.WellIndexed) : s.ready.fetches = s.fetches := by
  unfold ready
  split_ifs
  · exact fetches_abort h
  · rfl

/-- An answer to the one fetch under way. -/
theorem fetches_close_of_mem {r : ℕ × Request} (hone : s.fetches.length ≤ 1) (hr : r ∈ s.requests)
    (hfetch : r.2.isFetch = true) : (s.close r).fetches = [] := by
  have hmem : r ∈ s.fetches := mem_fetches.mpr ⟨hr, hfetch⟩
  rw [fetches_close, if_pos hfetch]
  obtain ⟨r', hr'⟩ := List.length_eq_one_iff.mp
    (Nat.le_antisymm hone (List.length_pos_of_mem hmem))
  rw [hr', List.mem_singleton] at hmem
  rw [hr', hmem]
  simp

theorem busyWhileFetching_fetch {id : ℕ} {stage : Stage} {call : Option ℕ} {answer : Answer}
    (hr : (id, .fetch stage call) ∈ s.requests) (h : BusyWhileFetching s)
    (hanswer : (s.close (id, .fetch stage call)).onAnswer (.fetch stage call) answer = some s') :
    BusyWhileFetching s' := by
  have hclose := fetches_close_of_mem h.2 hr rfl
  have hbusy := h.1.mpr (List.ne_nil_of_mem (mem_fetches.mpr ⟨hr, rfl⟩))
  rcases onAnswer_fetch_cases hanswer with
    ⟨next, bridge, resourceToGet, asks, rfl⟩ | ⟨-, bridge, rfl⟩ | ⟨-, asks, rfl⟩
  · refine BusyWhileFetching.fetching
      (r := (((s.close (id, .fetch stage call)).asking asks).nextRequest, .fetch next call)) ?_ ?_
    · refine (fetches_request _).trans ?_
      show ((s.close (id, .fetch stage call)).asking asks).fetches ++ _ = _
      rw [fetches_asking, hclose]
      rfl
    · exact (busy_asking (s := s.close (id, .fetch stage call)) asks).trans hbusy
  · exact BusyWhileFetching.idle hclose rfl
  · obtain ⟨_, _, heq⟩ := complete_cases
      ({ (s.close (id, .fetch stage call)).asking asks with resourceToGet := none })
    rw [heq]
    refine BusyWhileFetching.idle ?_ rfl
    refine (fetches_request _).trans ?_
    show ((s.close (id, .fetch stage call)).asking asks).fetches ++ _ = _
    rw [fetches_asking, hclose]
    rfl

theorem busyWhileFetching_onEvents (h : s.fetches = []) (hbusy : s.busy = false)
    (outcomes : List EventOutcome) : BusyWhileFetching (outcomes.foldl onEvent s) := by
  induction outcomes generalizing s with
  | nil => exact BusyWhileFetching.idle h hbusy
  | cons outcome outcomes ih =>
    refine ih ?_ rfl
    exact (fetches_asking outcome.asksOwner).trans h

/-- **What a step keeps**: no fetch without the flag, no flag without a fetch, one fetch at most. -/
theorem busyWhileFetching_step {input : Input} (hindex : s.WellIndexed) (h : BusyWhileFetching s)
    (hdestroyed : s.destroyed = false) (hkeeps : keepsBusyFlag isValid s input = true)
    (hstep : s.step isValid input = some s') : s'.destroyed = false → BusyWhileFetching s' := by
  intro hdestroyed'
  rw [BridgeConfigRetriever.step] at hstep
  split_ifs at hstep with henabled
  cases input with
  | execute bridge =>
    rcases execute_cases hstep with ⟨hbusy, rfl⟩ | ⟨hbusy, -, -, current, -, rfl⟩ | ⟨hbusy, -, rfl⟩
    · exact h.congr rfl rfl
    · exact h.congr rfl rfl
    · refine busyWhileFetching_start ?_
      show s.ready.fetches = []
      rw [fetches_ready hindex]
      exact h.fetches_eq_nil hbusy
  | refresh =>
    rcases refresh_cases hstep with ⟨-, rfl⟩ | ⟨hbusy, hidle, rfl⟩ | ⟨hbusy, -, -, bridge, rfl⟩
    · exact h
    · -- excluded: such a refresh keeps the flag it has taken
      rw [keepsBusyFlag, hbusy, Bool.false_or, Bool.and_eq_true, Bool.not_eq_true'] at hkeeps
      rcases hidle with hrefreshing | hconnected
      · rw [hkeeps.2] at hrefreshing
        contradiction
      · rw [hkeeps.1] at hconnected
        contradiction
    · refine busyWhileFetching_start ?_
      show s.abort.fetches = []
      rw [fetches_abort hindex]
      exact h.fetches_eq_nil hbusy
  | disconnected =>
    obtain rfl := Option.some.inj hstep
    rcases onBridgeDisconnect_cases s with ⟨-, heq⟩ | ⟨-, heq⟩
    · rwa [heq]
    · rw [heq]
      refine h.congr (fetches_abort hindex) ?_
      show s.abort.busy = s.busy
      rw [abort_eq]
  | bridgeChanged bridge =>
    obtain rfl := Option.some.inj hstep
    exact h.congr rfl rfl
  | destroy =>
    obtain rfl := Option.some.inj hstep
    contradiction
  | chunk id bytes outcome =>
    rw [handle, hdestroyed] at hstep
    obtain rfl := Option.some.inj hstep
    rcases onChunk_cases (s := s) isValid bytes outcome with
      ⟨⟨responseEvent, heq⟩, -⟩ | ⟨hevents, responseEvent, outcomes, heq⟩
    · simp only [Bool.false_eq_true, if_false]
      rw [heq]
      exact h.congr rfl rfl
    · have hfetches : s.fetches = [] := by
        simp only [keepsBusyFlag, finishesOutside, hdestroyed, Bool.false_or, Bool.or_eq_true,
          List.isEmpty_iff, Bool.not_not] at hkeeps
        exact hkeeps.resolve_right hevents
      simp only [Bool.false_eq_true, if_false]
      rw [heq]
      have hbusy : s.busy = false := by
        by_contra hbusy
        exact h.1.mp (by simpa using hbusy) hfetches
      exact busyWhileFetching_onEvents (s := { s with responseEvent }) hfetches hbusy outcomes
  | answer r answer =>
    obtain ⟨id, request⟩ := r
    have hmem : (id, request) ∈ s.requests := by simpa [enabled] using henabled
    simp only [handle, hdestroyed, Bool.false_eq_true, if_false] at hstep
    cases hfetch : request.isFetch with
    | true =>
      cases request with
      | fetch stage call => exact busyWhileFetching_fetch hmem h hstep
      | _ => simp [Request.isFetch] at hfetch
    | false =>
      have hclose : (s.close (id, request)).fetches = s.fetches := by
        rw [fetches_close, if_neg (by simp [hfetch])]
      rcases onAnswer_outside_cases id hfetch hstep with
        ⟨-, bridge, updatingWhiteList, rfl⟩ | ⟨hfinishes, bridge, rfl⟩
      · exact h.congr hclose rfl
      · have hfetches : s.fetches = [] := by
          simpa [keepsBusyFlag, hdestroyed, hfinishes] using hkeeps
        exact BusyWhileFetching.idle (hclose.trans hfetches) rfl

end HueStream.Session
