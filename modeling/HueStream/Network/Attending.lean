import HueStream.Network.Finishing

/-! # Who waits for an info

An info is waited for in vain when it is not ready and no request is to finish it. Where it is that far:
a caller waits without a request that was started, the final completion finds the client shut down, or
an event stream that a caller waits for ends well. -/

namespace HueStream.Network

open HueStream.Lib

variable {s s' : HttpClient} {l : ClientLabel} {n m info : ℕ} {q : Request}

namespace HttpClient

/-- No one is left with an info that nothing finishes. -/
def attends (s : HttpClient) : ClientLabel → Prop
  | .executeAsync info _ _ hasThreadPool waits => waits = true →
      s.starts info hasThreadPool = true ∨ s.isReady info = true ∨ s.outstanding info
  | .test n => s.isShutdown = true → (s.requests n).completed = true →
      (s.requests n).info ∉ s.waiters
  | .callbackReturns n => (s.requests n).isEventingRequest = true →
      (s.requests n).handler = .calling .success → (s.requests n).completed = true →
        (s.requests n).info ∉ s.waiters
  | _ => True

instance : (l : ClientLabel) → Decidable (s.attends l)
  | .executeAsync info _ _ hasThreadPool waits => inferInstanceAs (Decidable (waits = true →
      s.starts info hasThreadPool = true ∨ s.isReady info = true ∨ s.outstanding info))
  | .test n => inferInstanceAs (Decidable (s.isShutdown = true →
      (s.requests n).completed = true → (s.requests n).info ∉ s.waiters))
  | .callbackReturns n => inferInstanceAs (Decidable ((s.requests n).isEventingRequest = true →
      (s.requests n).handler = .calling .success → (s.requests n).completed = true →
        (s.requests n).info ∉ s.waiters))
  | .store | .cancelAsyncRequest _ | .destroy | .delete _ | .body _ | .complete _ _ | .callback _
  | .finishRequest _ | .remove _ | .wake _ => .isTrue trivial

end HttpClient

/-- The request that goes on, where the step is of one. -/
def ClientLabel.request : ClientLabel → Option ℕ
  | .delete n | .body n | .complete n _ | .test n | .callback n | .callbackReturns n
  | .finishRequest n | .remove n => some n
  | _ => none

/-- **What is promised of the requests and of who waits.** -/
structure Finishes (s : HttpClient) : Prop where
  /-- A request is freed once, or it is still to be freed by one. -/
  freed : ∀ n < s.created, s.places n = 1
  /-- When the client is destroyed, all requests are freed or with who cancels them. -/
  closed : s.isShutdown = true → ∀ n < s.created, (s.requests n).frees = 1 ∨ n ∈ s.canceling
  /-- Who cancels goes on, and so does who finishes an info. -/
  goesOn : ∀ n < s.created, n ∈ s.canceling ∨ (s.requests n).outstanding = true →
    ∃ l, (l.request = some n ∨ l = .store) ∧ (s.step l).isSome
  /-- Without a stream the callback is called once at most. -/
  once : ∀ n, (s.requests n).isEventingRequest = false → (s.requests n).callbacks ≤ 1
  /-- It is not called after a completion that saw the shutdown. -/
  late : ∀ n, (s.requests n).late = false
  /-- Who waits finds the info ready, or a request that is to finish it. -/
  attended : ∀ info ∈ s.waiters, s.isReady info = true ∨ s.outstanding info

/-! ### What goes on -/

/-- The handler of a request goes on, unless there is nothing left of it. -/
theorem exists_next (hn : n < s.created) :
    ((s.requests n).handler = .idle ∧ (s.requests n).completed = true) ∨
      ∃ l, (l.request = some n ∨ l = .store) ∧ (s.step l).isSome := by
  cases hhandler : (s.requests n).handler with
  | idle =>
    cases hcompleted : (s.requests n).completed with
    | true => exact .inl ⟨rfl, rfl⟩
    | false =>
      exact .inr ⟨.complete n .error, .inl rfl, by simp [HttpClient.step, hn, hcompleted, hhandler]⟩
  | test completion =>
    exact .inr ⟨.test n, .inl rfl, by simp [HttpClient.step, hn, HttpClient.handle, hhandler]⟩
  | callback completion =>
    exact .inr ⟨.callback n, .inl rfl, by simp [HttpClient.step, hn, HttpClient.handle, hhandler]⟩
  | calling completion =>
    exact .inr ⟨.callbackReturns n, .inl rfl, by simp [HttpClient.step, hn, HttpClient.handle, hhandler]⟩
  | finish completion =>
    exact .inr ⟨.finishRequest n, .inl rfl, by simp [HttpClient.step, hn, HttpClient.handle, hhandler]⟩
  | remove =>
    cases hstoring : s.storing with
    | none =>
      exact .inr ⟨.remove n, .inl rfl,
        by simp [HttpClient.step, hn, HttpClient.handle, hhandler, hstoring]⟩
    | some m => exact .inr ⟨.store, .inr rfl, by simp [HttpClient.step, hstoring]⟩

theorem Managed.goesOn (hn : n < s.created) (h : n ∈ s.canceling ∨ (s.requests n).outstanding = true) :
    ∃ l, (l.request = some n ∨ l = .store) ∧ (s.step l).isSome := by
  rcases exists_next hn with ⟨hidle, hcompleted⟩ | hnext
  · rcases h with hcanceling | hout
    · exact ⟨.delete n, .inl rfl,
        by simp [HttpClient.step, hcanceling, HttpClient.isCanceled, hidle, hcompleted]⟩
    · simp [Request.outstanding, hidle, hcompleted] at hout
  · exact hnext

/-- A request that is neither with its call nor on the list is freed or with who cancels it. -/
theorem Managed.closed (h : Managed s) (hshutdown : s.isShutdown = true) (hn : n < s.created) :
    (s.requests n).frees = 1 ∨ n ∈ s.canceling := by
  obtain ⟨hstoring, hactive⟩ := h.shutdown hshutdown
  have hplaced := h.placed n hn
  rw [HttpClient.places, hstoring, hactive] at hplaced
  by_cases hcanceling : n ∈ s.canceling
  · exact .inr hcanceling
  · have hzero := List.count_eq_zero.mpr hcanceling
    simp only [reduceCtorEq, if_false, List.count_nil] at hplaced
    exact .inl (by omega)

theorem Managed.finishes (h : Managed s)
    (hattended : ∀ info ∈ s.waiters, s.isReady info = true ∨ s.outstanding info) : Finishes s where
  freed := h.placed
  closed hshutdown _ hn := h.closed hshutdown hn
  goesOn _ hn hcanceling := Managed.goesOn hn hcanceling
  once n hevents := by
    have hle := (h.handled n).once hevents
    omega
  late n := (h.handled n).late
  attended := hattended

/-! ### Who waits -/

/-- A request goes on and is to finish its info as before: so is every info. -/
theorem outstanding_of (hn : n < s.created) (hrequests : s'.requests = Function.update s.requests n q)
    (hcreated : s'.created = s.created) (hinfo : q.info = (s.requests n).info)
    (hq : (s.requests n).info = info → (s.requests n).outstanding = true → q.outstanding = true)
    (h : s.outstanding info) : s'.outstanding info := by
  obtain ⟨m, hm, heq, hout⟩ := h
  refine ⟨m, hcreated ▸ hm, ?_⟩
  rw [hrequests]
  rcases eq_or_ne m n with rfl | hne
  · rw [Function.update_self]
    exact ⟨hinfo.trans heq, hq heq hout⟩
  · rw [Function.update_of_ne hne]
    exact ⟨heq, hout⟩

/-- The next part of a handler leaves the info to be finished, where someone waits for it. -/
theorem Proceeds.attends (h : Proceeds s n l q) (hC : s.attends l) (hinfo : (s.requests n).info ∈ s.waiters)
    (hout : (s.requests n).outstanding = true) : q.outstanding = true := by
  cases h with
  | body _ hcompleted => simp [Request.outstanding, hcompleted]
  | complete => simp [Request.outstanding]
  | sawShutdown _ hshutdown =>
    have hcompleted : (s.requests n).completed = false := by
      by_contra hcompleted
      exact hC hshutdown (by simpa using hcompleted) hinfo
    simp [Request.outstanding, hcompleted]
  | passes | calls | skips | finishes => simp [Request.outstanding]
  | streamEnds hhandler hevents =>
    have hcompleted : (s.requests n).completed = false := by
      by_contra hcompleted
      exact hC hevents hhandler (by simpa using hcompleted) hinfo
    simp [Request.outstanding, hcompleted]
  | removed hhandler => simpa [Request.outstanding, hhandler] using hout

/-- Who waits finds the info ready, or a request that is to finish it. -/
def Attended (s : HttpClient) : Prop :=
  ∀ info ∈ s.waiters, s.isReady info = true ∨ s.outstanding info

theorem Attended.starts (h : Attended s) {hasCallback isEventingRequest hasThreadPool waits : Bool}
    (hstarts : s.starts info hasThreadPool = true) :
    Attended { s.executeAsync info hasCallback isEventingRequest hasThreadPool with
      waiters := if waits then info :: s.waiters else s.waiters } := by
  rw [HttpClient.executeAsync, if_pos hstarts]
  intro info' hmem
  rcases eq_or_ne info' info with rfl | hne
  · exact .inr ⟨s.created, Nat.lt_succ_self _, by simp [Request.outstanding]⟩
  · have hmem' : info' ∈ s.waiters := by
      have hmem : info' ∈ (if waits then info :: s.waiters else s.waiters) := hmem
      split_ifs at hmem
      · exact (List.mem_cons.mp hmem).resolve_left hne
      · exact hmem
    rcases h info' hmem' with hready | ⟨m, hm, heq, hout⟩
    · exact .inl (by simpa [Function.update_of_ne hne] using hready)
    · have hm' : m ≠ s.created := by omega
      exact .inr ⟨m, Nat.lt_succ_of_lt hm, by simp [Function.update_of_ne hm', heq, hout]⟩

theorem Attended.refused (h : Attended s) {hasThreadPool waits : Bool}
    (hstarts : s.starts info hasThreadPool = false)
    (hC : waits = true →
      s.starts info hasThreadPool = true ∨ s.isReady info = true ∨ s.outstanding info) :
    Attended { s with waiters := if waits then info :: s.waiters else s.waiters } := by
  intro info' hmem
  have hmem : info' ∈ (if waits then info :: s.waiters else s.waiters) := hmem
  split_ifs at hmem with hwaits
  · rcases List.mem_cons.mp hmem with rfl | hmem
    · refine (hC hwaits).resolve_left ?_
      rw [hstarts]
      simp
    · exact h info' hmem
  · exact h info' hmem

theorem Attended.finish (h : Attended s) (hn : n < s.created) {completion : Completion} :
    Attended (s.finishRequest n (s.requests n) completion) := by
  intro info hmem
  rcases eq_or_ne info (s.requests n).info with rfl | hne
  · exact .inl (Function.update_self ..)
  · rcases h info hmem with hready | hout
    · exact .inl ((Function.update_of_ne hne ..).trans hready)
    · exact .inr (outstanding_of hn rfl rfl rfl (fun heq => absurd heq.symm hne) hout)

/-- **A step that meets the condition leaves no one waiting in vain.** -/
theorem Attended.of_step (h : Attended s) (hs : Managed s) (hstep : ClientStep s l s')
    (hC : s.attends l) : Attended s' := by
  have hkeep {n : ℕ} {q : Request} (hn : n < s.created)
      (hrequests : s'.requests = Function.update s.requests n q)
      (hcreated : s'.created = s.created) (hready : s'.isReady = s.isReady)
      (hwaiters : s'.waiters = s.waiters) (hinfo : q.info = (s.requests n).info)
      (hq : (s.requests n).info ∈ s.waiters → (s.requests n).outstanding = true → q.outstanding = true) :
      Attended s' := by
    intro info hmem
    rw [hwaiters] at hmem
    rw [hready]
    exact (h info hmem).imp_right
      (outstanding_of hn hrequests hcreated hinfo fun heq => hq (heq ▸ hmem))
  cases hstep with
  | starts hstarts => exact h.starts hstarts
  | refused hstarts => exact h.refused hstarts hC
  | store | cancel | cancelNothing | destroy => exact h
  | delete hcanceling =>
    exact hkeep (hs.lt_of_canceling hcanceling) rfl rfl rfl rfl rfl fun _ hout => hout
  | proceeds hn hq => exact hkeep hn rfl rfl rfl rfl hq.info_eq (hq.attends hC)
  | finish hn => exact h.finish hn
  | remove hn hhandler =>
    refine hkeep hn rfl rfl rfl rfl rfl fun _ hout => ?_
    simpa [Request.outstanding, hhandler] using hout
  | wake => exact fun info hmem => h info (List.mem_of_mem_erase hmem)

/-- A request that was to finish its info no longer is: nothing else is, and the info is not ready. -/
theorem Managed.lost (h : Managed s) (hn : n < s.created) (hout : (s.requests n).outstanding = true)
    (hinfo : q.info = (s.requests n).info) (hq : q.outstanding = false) :
    (s.setRequest n q).isReady (s.requests n).info = false ∧
      ¬ (s.setRequest n q).outstanding (s.requests n).info := by
  refine ⟨(h.running n hn hout).2, ?_⟩
  rintro ⟨m, hm, heq, hout'⟩
  rcases eq_or_ne m n with rfl | hne
  · rw [HttpClient.setRequest_requests_self, hq] at hout'
    cases hout'
  · rw [HttpClient.setRequest_requests_of_ne hne] at heq hout'
    exact hne (h.unique m hm n hn hout' hout heq)

/-- **A step that fails the condition leaves someone waiting in vain.** -/
theorem Managed.not_attended (h : Managed s) (hstep : ClientStep s l s') (hC : ¬ s.attends l) :
    ¬ Attended s' := by
  intro hattended
  cases hstep with
  | starts hstarts => exact hC fun _ => .inl hstarts
  | @refused info _ _ _ waits hstarts =>
    refine hC fun hwaits => .inr (hattended info ?_)
    rw [hwaits]
    exact List.mem_cons_self
  | store | cancel | cancelNothing | destroy | delete | finish | remove | wake => exact hC trivial
  | @proceeds l n q hn hq =>
    have hlost (hout : (s.requests n).outstanding = true) (hnot : q.outstanding = false)
        (hmem : (s.requests n).info ∈ s.waiters) : False := by
      obtain ⟨hready, hnone⟩ := h.lost hn hout hq.info_eq hnot
      rcases hattended _ hmem with hready' | hout'
      · rw [hready] at hready'
        cases hready'
      · exact hnone hout'
    cases hq with
    | body | complete | calls | skips | removed => exact hC trivial
    | sawShutdown hhandler hshutdown =>
      refine hC fun _ hcompleted hmem => hlost ?_ ?_ hmem
      · simp [Request.outstanding, hhandler]
      · simp [Request.outstanding, hcompleted]
    | passes hhandler hshutdown =>
      refine hC fun hshutdown' => ?_
      rw [hshutdown] at hshutdown'
      cases hshutdown'
    | finishes hhandler hends =>
      refine hC fun hevents hsuccess => ?_
      rw [hhandler] at hsuccess
      rcases hends with hevents' | hends
      · rw [hevents] at hevents'
        cases hevents'
      · exact absurd (HandlerPoint.calling.inj hsuccess) hends
    | streamEnds hhandler hevents =>
      refine hC fun _ _ hcompleted hmem => hlost ?_ ?_ hmem
      · simp [Request.outstanding, hhandler]
      · simp [Request.outstanding, hcompleted]

/-! ### Every run -/

/-- **The requests are freed once, and no one waits in vain**, after every step of a run, exactly when no
step leaves someone with an info that nothing finishes. -/
theorem finishes_iff {ts : List (Transition HttpClient ClientLabel)} (h : httpClient.Run ts s) :
    (∀ t ∈ ts, Finishes t.after) ↔ ∀ t ∈ ts, t.before.attends t.label := by
  refine h.forall_after_iff (I := fun s => Managed s ∧ Attended s) (fun s hs => ?_)
    (fun s hs => hs.1.finishes hs.2) (fun s l s' hstep hC hs => ?_) fun s l s' hstep hC hs hG => ?_
  · obtain rfl : s = {} := hs
    exact ⟨.init, fun info hmem => absurd hmem List.not_mem_nil⟩
  · have hstep := clientStep_cases hstep
    exact ⟨hs.1.of_step hstep, hs.2.of_step hs.1 hstep hC⟩
  · exact hs.1.not_attended (clientStep_cases hstep) hC hG.attended

/-- `Execute`: the request is completed before it is stored. -/
theorem finishes_iff_execute : ∃ ts s, httpClient.Run ts s ∧ s.waiters = [] ∧
    (s.requests 0).frees = 1 ∧ ∀ t ∈ ts, Finishes t.after := by
  obtain ⟨ts, s, hrun, h⟩ := Machine.exists_run (M := httpClient) (s := {})
    [.executeAsync 0 false false true true, .complete 0 .success, .test 0, .callback 0,
      .callbackReturns 0, .finishRequest 0, .store, .wake 0, .remove 0, .destroy]
    (fun ts s => decide (s.waiters = [] ∧ (s.requests 0).frees = 1) &&
      ts.all fun t => decide (t.before.attends t.label)) rfl (by decide +kernel)
  simp only [Bool.and_eq_true, decide_eq_true_eq, List.all_eq_true] at h
  exact ⟨ts, s, hrun, h.1.1, h.1.2, (finishes_iff hrun).mpr h.2⟩

/-- `Execute` without a thread pool waits for an info that was not started. And the client is destroyed
while `Execute` waits: the completion that `cancel` causes finds it shut down, the request is deleted,
and the info is not finished. -/
theorem exists_waiter_in_vain :
    (∃ ts s, httpClient.Run ts s ∧ s.created = 0 ∧ s.waiters = [0] ∧ s.isReady 0 = false ∧
      ¬ s.outstanding 0) ∧
    ∃ ts s, httpClient.Run ts s ∧ (s.requests 0).frees = 1 ∧ s.waiters = [0] ∧ s.isReady 0 = false ∧
      ¬ s.outstanding 0 := by
  constructor
  · obtain ⟨ts, s, hrun, h⟩ := Machine.exists_run (M := httpClient) (s := {})
      [.executeAsync 0 false false false true]
      (fun _ s => decide (s.created = 0 ∧ s.waiters = [0] ∧ s.isReady 0 = false ∧ ¬ s.outstanding 0))
      rfl (by decide +kernel)
    exact ⟨ts, s, hrun, of_decide_eq_true h⟩
  · obtain ⟨ts, s, hrun, h⟩ := Machine.exists_run (M := httpClient) (s := {})
      [.executeAsync 0 false false true true, .store, .destroy, .complete 0 .canceled, .test 0, .delete 0]
      (fun _ s => decide ((s.requests 0).frees = 1 ∧ s.waiters = [0] ∧ s.isReady 0 = false ∧
        ¬ s.outstanding 0)) rfl (by decide +kernel)
    exact ⟨ts, s, hrun, of_decide_eq_true h⟩

end HueStream.Network
