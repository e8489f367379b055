import HueStream.Network.HttpClient

/-! # Requests are freed and their infos finished

A request is in one place from its allocation on: with the call that allocates it, on the list, with who
cancels it, or freed. A request that is not finished is the only one of its info, which is then running
and not ready; so who waits for the info waits for this request. A final completion that finds the client
shut down, and a stream that ends well, leave the info unfinished: what this breaks, and exactly when. -/

namespace HueStream.Network

open HueStream.Lib

variable {s s' : HttpClient} {l : ClientLabel} {n m info : ℕ} {q : Request}

/-! ### What a step can do -/

/-- The request of the handler goes on; what else its steps change is said beside it. -/
inductive Proceeds (s : HttpClient) (n : ℕ) : ClientLabel → Request → Prop
  | body (hevents : (s.requests n).isEventingRequest = true)
      (hcompleted : (s.requests n).completed = false) (hidle : (s.requests n).handler = .idle) :
      Proceeds s n (.body n) { s.requests n with handler := .test .success }
  | complete {completion : Completion} (hcompleted : (s.requests n).completed = false)
      (hidle : (s.requests n).handler = .idle) :
      Proceeds s n (.complete n completion)
        { s.requests n with completed := true, handler := .test completion }
  | sawShutdown {completion : Completion} (hhandler : (s.requests n).handler = .test completion)
      (hshutdown : s.isShutdown = true) :
      Proceeds s n (.test n) { s.requests n with handler := .idle, sawShutdown := true }
  | passes {completion : Completion} (hhandler : (s.requests n).handler = .test completion)
      (hshutdown : s.isShutdown = false) :
      Proceeds s n (.test n) { s.requests n with handler := .callback completion }
  | calls {completion : Completion} (hhandler : (s.requests n).handler = .callback completion) :
      Proceeds s n (.callback n) { s.requests n with
        handler := .calling completion
        callbacks := (s.requests n).callbacks + 1
        late := (s.requests n).late || (s.requests n).sawShutdown }
  | skips {completion : Completion} (hhandler : (s.requests n).handler = .callback completion) :
      Proceeds s n (.callback n) { s.requests n with handler := .calling completion }
  | finishes {completion : Completion} (hhandler : (s.requests n).handler = .calling completion)
      (hends : (s.requests n).isEventingRequest = false ∨ completion ≠ .success) :
      Proceeds s n (.callbackReturns n) { s.requests n with handler := .finish completion }
  | streamEnds (hhandler : (s.requests n).handler = .calling .success)
      (hevents : (s.requests n).isEventingRequest = true) :
      Proceeds s n (.callbackReturns n) { s.requests n with handler := .idle }
  | removed (hhandler : (s.requests n).handler = .remove) :
      Proceeds s n (.remove n) { s.requests n with handler := .idle }

/-- What a step can do. -/
inductive ClientStep (s : HttpClient) : ClientLabel → HttpClient → Prop
  | starts {info : ℕ} {hasCallback isEventingRequest hasThreadPool waits : Bool}
      (hstarts : s.starts info hasThreadPool = true) (hstoring : s.storing = none) :
      ClientStep s (.executeAsync info hasCallback isEventingRequest hasThreadPool waits)
        { s.executeAsync info hasCallback isEventingRequest hasThreadPool with
          waiters := if waits then info :: s.waiters else s.waiters }
  | refused {info : ℕ} {hasCallback isEventingRequest hasThreadPool waits : Bool}
      (hstarts : s.starts info hasThreadPool = false) :
      ClientStep s (.executeAsync info hasCallback isEventingRequest hasThreadPool waits)
        { s with waiters := if waits then info :: s.waiters else s.waiters }
  | store {n : ℕ} (hstoring : s.storing = some n) :
      ClientStep s .store { s with storing := none, activeRequests := s.activeRequests ++ [n] }
  | cancel {n : ℕ} (hactive : n ∈ s.activeRequests) :
      ClientStep s (.cancelAsyncRequest n)
        { s with activeRequests := s.activeRequests.erase n, canceling := n :: s.canceling }
  | cancelNothing {n : ℕ} : ClientStep s (.cancelAsyncRequest n) s
  | destroy (hstoring : s.storing = none) : ClientStep s .destroy
      { s with isShutdown := true, activeRequests := [], canceling := s.activeRequests ++ s.canceling }
  | delete {n : ℕ} (hcanceling : n ∈ s.canceling) :
      ClientStep s (.delete n)
        { s.setRequest n { s.requests n with frees := (s.requests n).frees + 1 } with
          canceling := s.canceling.erase n }
  | proceeds {l : ClientLabel} {n : ℕ} {q : Request} (hn : n < s.created) (hq : Proceeds s n l q) :
      ClientStep s l (s.setRequest n q)
  | finish {n : ℕ} {completion : Completion} (hn : n < s.created)
      (hhandler : (s.requests n).handler = .finish completion) :
      ClientStep s (.finishRequest n) (s.finishRequest n (s.requests n) completion)
  | remove {n : ℕ} (hn : n < s.created) (hhandler : (s.requests n).handler = .remove)
      (hactive : n ∈ s.activeRequests) :
      ClientStep s (.remove n)
        { s.setRequest n { s.requests n with handler := .idle, frees := (s.requests n).frees + 1 } with
          activeRequests := s.activeRequests.erase n }
  | wake {info : ℕ} (hready : s.isReady info = true) :
      ClientStep s (.wake info) { s with waiters := s.waiters.erase info }

theorem handle_cases (hn : n < s.created)
    (hl : l = .test n ∨ l = .callback n ∨ l = .callbackReturns n ∨ l = .finishRequest n ∨ l = .remove n)
    (h : s.handle n (s.requests n) l = some s') : ClientStep s l s' := by
  rcases hl with rfl | rfl | rfl | rfl | rfl
  · simp only [HttpClient.handle] at h
    split at h
    · rename_i completion hhandler
      cases h
      split_ifs with hshutdown
      · exact .proceeds hn (.sawShutdown hhandler hshutdown)
      · exact .proceeds hn (.passes hhandler (by simpa using hshutdown))
    · cases h
  · simp only [HttpClient.handle] at h
    split at h
    · rename_i completion hhandler
      cases h
      split_ifs with hcallback
      · exact .proceeds hn (.calls hhandler)
      · exact .proceeds hn (.skips hhandler)
    · cases h
  · simp only [HttpClient.handle] at h
    split at h
    · rename_i completion hhandler
      cases h
      unfold HttpClient.callbackReturns
      split_ifs with hfinishes
      · simp only [Bool.or_eq_true, decide_eq_true_eq, Bool.not_eq_true'] at hfinishes
        refine .proceeds hn (.finishes hhandler ?_)
        rcases hfinishes with (rfl | hevents) | hends
        · exact .inr (by simp)
        · exact .inl hevents
        · exact .inr hends
      · simp only [Bool.or_eq_true, decide_eq_true_eq, Bool.not_eq_true', not_or, ne_eq,
          not_not, Bool.not_eq_false] at hfinishes
        obtain ⟨⟨-, hevents⟩, rfl⟩ := hfinishes
        exact .proceeds hn (.streamEnds hhandler hevents)
    · cases h
  · simp only [HttpClient.handle] at h
    split at h
    · rename_i completion hhandler
      cases h
      exact .finish hn hhandler
    · cases h
  · simp only [HttpClient.handle] at h
    split_ifs at h with hremove
    cases h
    unfold HttpClient.remove
    split_ifs with hactive
    · exact .remove hn hremove.1 hactive
    · exact .proceeds hn (.removed hremove.1)

/-- **What a step can do.** -/
theorem clientStep_cases (h : s.step l = some s') : ClientStep s l s' := by
  cases l with
  | executeAsync info hasCallback isEventingRequest hasThreadPool waits =>
    simp only [HttpClient.step] at h
    by_cases hlock : (hasThreadPool && s.storing.isSome) = true
    · rw [if_pos hlock] at h
      cases h
    · rw [if_neg hlock] at h
      cases h
      by_cases hstarts : s.starts info hasThreadPool = true
      · have hpool : hasThreadPool = true := by
          simp only [HttpClient.starts, Bool.and_eq_true] at hstarts
          exact hstarts.1.1
        exact .starts hstarts (by simpa [hpool] using hlock)
      · rw [HttpClient.executeAsync, if_neg hstarts]
        exact .refused (by simpa using hstarts)
  | store =>
    simp only [HttpClient.step, Option.map_eq_some_iff] at h
    obtain ⟨n, hstoring, rfl⟩ := h
    exact .store hstoring
  | cancelAsyncRequest n =>
    simp only [HttpClient.step] at h
    split_ifs at h with hlock hactive
    · cases h
      exact .cancel hactive
    · cases h
      exact .cancelNothing
  | destroy =>
    simp only [HttpClient.step] at h
    split_ifs at h with hlock
    cases h
    exact .destroy (by simpa using hlock)
  | delete n =>
    simp only [HttpClient.step] at h
    split_ifs at h with hcanceling
    cases h
    exact .delete hcanceling.1
  | body n =>
    simp only [HttpClient.step] at h
    split_ifs at h with hbody
    cases h
    exact .proceeds hbody.1 (.body hbody.2.1 hbody.2.2.1 hbody.2.2.2)
  | complete n completion =>
    simp only [HttpClient.step] at h
    split_ifs at h with hcomplete
    cases h
    exact .proceeds hcomplete.1 (.complete hcomplete.2.1 hcomplete.2.2)
  | wake info =>
    simp only [HttpClient.step] at h
    split_ifs at h with hwake
    cases h
    exact .wake hwake.2
  | test n | callback n | callbackReturns n | finishRequest n | remove n =>
    simp only [HttpClient.step] at h
    split_ifs at h with hn
    exact handle_cases hn (by simp) h

/-! ### What holds in every state -/

/-- The handler of a part of a stream can be there. -/
def HandlerPoint.ofBody : HandlerPoint → Bool
  | .idle | .test .success | .callback .success | .calling .success => true
  | _ => false

/-- What is so of every request, whatever its place. -/
structure Request.Handled (q : Request) (isShutdown : Bool) : Prop where
  /-- Without a stream there is one completion, the final one. -/
  single : q.isEventingRequest = false → q.handler ≠ .idle → q.completed = true
  /-- Before the final completion there are parts of a stream. -/
  body : q.completed = false → q.handler.ofBody = true
  /-- Without a stream the callback is called once at most. -/
  once : q.isEventingRequest = false →
    q.callbacks + (if !q.completed || q.handler.early then 1 else 0) ≤ 1
  saw : q.sawShutdown = true → isShutdown = true ∧ ∀ completion, q.handler ≠ .callback completion
  late : q.late = false

/-- How often the request is with the call that allocates it, on the list, with who cancels it, or
freed. -/
def HttpClient.places (s : HttpClient) (n : ℕ) : ℕ :=
  (if s.storing = some n then 1 else 0) + s.activeRequests.count n + s.canceling.count n +
    (s.requests n).frees

/-- **What holds of the requests in every state.** -/
structure Managed (s : HttpClient) : Prop where
  handled : ∀ n, (s.requests n).Handled s.isShutdown
  /-- Each is in one place. -/
  placed : ∀ n < s.created, s.places n = 1
  fresh : ∀ n, s.created ≤ n → s.storing ≠ some n ∧ n ∉ s.activeRequests ∧ n ∉ s.canceling
  shutdown : s.isShutdown = true → s.storing = none ∧ s.activeRequests = []
  /-- One that is to finish its info has it running, and is the only one. -/
  running : ∀ n < s.created, (s.requests n).outstanding = true →
    s.isRunning (s.requests n).info = true ∧ s.isReady (s.requests n).info = false
  unique : ∀ n < s.created, ∀ m < s.created, (s.requests n).outstanding = true →
    (s.requests m).outstanding = true → (s.requests n).info = (s.requests m).info → n = m

@[simp] theorem HttpClient.setRequest_requests_self : (s.setRequest n q).requests n = q := by
  simp [HttpClient.setRequest]

theorem HttpClient.setRequest_requests_of_ne (h : m ≠ n) :
    (s.setRequest n q).requests m = s.requests m := by simp [HttpClient.setRequest, h]

theorem Proceeds.info_eq (h : Proceeds s n l q) : q.info = (s.requests n).info := by
  cases h <;> rfl

theorem Proceeds.frees_eq (h : Proceeds s n l q) : q.frees = (s.requests n).frees := by
  cases h <;> rfl

theorem Proceeds.outstanding (h : Proceeds s n l q) (hq : q.outstanding = true) :
    (s.requests n).outstanding = true := by
  cases h with
  | body _ hcompleted => simp [Request.outstanding, hcompleted]
  | complete hcompleted => simp [Request.outstanding, hcompleted]
  | sawShutdown hhandler | passes hhandler | calls hhandler | skips hhandler | finishes hhandler
  | streamEnds hhandler => simp [Request.outstanding, hhandler]
  | removed hhandler => simpa [Request.outstanding, hhandler] using hq

/-- The condition of a callback that was not called does not depend on where the handler is. -/
theorem Request.Handled.once_of_late {q : Request} {isShutdown : Bool} (h : q.Handled isShutdown)
    (hevents : q.isEventingRequest = false) (hhandler : q.handler ≠ .idle) {handler : HandlerPoint}
    (hearly : handler.early = true → q.handler.early = true) :
    q.callbacks + (if !q.completed || handler.early then 1 else 0) ≤ 1 := by
  have hle := h.once hevents
  rw [h.single hevents hhandler] at hle ⊢
  cases hnew : handler.early with
  | false => simp at hle ⊢; omega
  | true => rwa [hearly hnew] at hle

/-- What is so of a request is so of it after the next part of its handler. -/
theorem Proceeds.handled (h : Proceeds s n l q) (hs : (s.requests n).Handled s.isShutdown) :
    q.Handled s.isShutdown := by
  have hbody := hs.body
  cases h with
  | body hevents hcompleted hidle =>
    exact ⟨by simp [hevents], fun _ => rfl, by simp [hevents],
      fun hsaw => ⟨(hs.saw hsaw).1, by simp⟩, hs.late⟩
  | complete hcompleted hidle =>
    refine ⟨fun _ _ => rfl, by simp, fun hevents => ?_, fun hsaw => ⟨(hs.saw hsaw).1, by simp⟩, hs.late⟩
    simpa [hcompleted, HandlerPoint.early] using hs.once hevents
  | sawShutdown hhandler hshutdown =>
    exact ⟨fun _ hne => absurd rfl hne, fun _ => rfl,
      fun hevents => hs.once_of_late hevents (by simp [hhandler]) (by simp [HandlerPoint.early]),
      fun _ => ⟨hshutdown, by simp⟩, hs.late⟩
  | passes hhandler hshutdown =>
    rw [hhandler] at hbody
    refine ⟨fun hevents _ => hs.single hevents (by simp [hhandler]), fun hcompleted => ?_,
      fun hevents => hs.once_of_late hevents (by simp [hhandler]) (by simp [hhandler, HandlerPoint.early]),
      fun hsaw => ?_, hs.late⟩
    · have hsuccess := hbody hcompleted
      unfold HandlerPoint.ofBody at hsuccess ⊢
      split at hsuccess <;> simp_all
    · rw [(hs.saw hsaw).1] at hshutdown
      cases hshutdown
  | calls hhandler =>
    rw [hhandler] at hbody
    refine ⟨fun hevents _ => hs.single hevents (by simp [hhandler]), fun hcompleted => ?_,
      fun hevents => ?_, fun hsaw => absurd hhandler ((hs.saw hsaw).2 _), ?_⟩
    · have hsuccess := hbody hcompleted
      unfold HandlerPoint.ofBody at hsuccess ⊢
      split at hsuccess <;> simp_all
    · have hcompleted := hs.single hevents (by simp [hhandler])
      simpa [hhandler, hcompleted, HandlerPoint.early] using hs.once hevents
    · have hsaw : (s.requests n).sawShutdown = false := by
        by_contra hsaw
        exact (hs.saw (by simpa using hsaw)).2 _ hhandler
      simp [hs.late, hsaw]
  | skips hhandler =>
    rw [hhandler] at hbody
    refine ⟨fun hevents _ => hs.single hevents (by simp [hhandler]), fun hcompleted => ?_,
      fun hevents => hs.once_of_late hevents (by simp [hhandler]) (by simp [HandlerPoint.early]),
      fun hsaw => absurd hhandler ((hs.saw hsaw).2 _), hs.late⟩
    have hsuccess := hbody hcompleted
    unfold HandlerPoint.ofBody at hsuccess ⊢
    split at hsuccess <;> simp_all
  | finishes hhandler hends =>
    rw [hhandler] at hbody
    refine ⟨fun hevents _ => hs.single hevents (by simp [hhandler]), fun hcompleted => ?_,
      fun hevents => hs.once_of_late hevents (by simp [hhandler]) (by simp [HandlerPoint.early]),
      fun hsaw => ⟨(hs.saw hsaw).1, by simp⟩, hs.late⟩
    rcases hends with hevents | hends
    · have hcompleted' := hs.single hevents (by simp [hhandler])
      have hcompleted : (s.requests n).completed = false := hcompleted
      rw [hcompleted'] at hcompleted
      cases hcompleted
    · have hsuccess := hbody hcompleted
      unfold HandlerPoint.ofBody at hsuccess
      split at hsuccess <;> simp_all
  | streamEnds hhandler hevents =>
    exact ⟨by simp [hevents], fun _ => rfl, by simp [hevents],
      fun hsaw => ⟨(hs.saw hsaw).1, by simp⟩, hs.late⟩
  | removed hhandler =>
    exact ⟨fun _ hne => absurd rfl hne, fun _ => rfl,
      fun hevents => hs.once_of_late hevents (by simp [hhandler]) (by simp [HandlerPoint.early]),
      fun hsaw => ⟨(hs.saw hsaw).1, by simp⟩, hs.late⟩

/-! ### The steps keep it -/

theorem places_eq (hstoring : s'.storing = s.storing) (hactive : s'.activeRequests = s.activeRequests)
    (hcanceling : s'.canceling = s.canceling) (hfrees : (s'.requests m).frees = (s.requests m).frees) :
    s'.places m = s.places m := by
  rw [HttpClient.places, HttpClient.places, hstoring, hactive, hcanceling, hfrees]

/-- The request goes on, and no more of it is to finish its info than before. -/
theorem Managed.of_request (h : Managed s) (hn : n < s.created)
    (hrequests : s'.requests = Function.update s.requests n q) (hcreated : s'.created = s.created)
    (hshutdown : s'.isShutdown = s.isShutdown) (hhandled : q.Handled s.isShutdown)
    (hinfo : q.info = (s.requests n).info)
    (houtstanding : q.outstanding = true → (s.requests n).outstanding = true)
    (hplaces : ∀ m < s.created, s'.places m = s.places m)
    (hfresh : ∀ m, s.created ≤ m → s'.storing ≠ some m ∧ m ∉ s'.activeRequests ∧ m ∉ s'.canceling)
    (hlists : s'.isShutdown = true → s'.storing = none ∧ s'.activeRequests = [])
    (hinfos : ∀ m < s.created, (s'.requests m).outstanding = true →
      s'.isRunning (s.requests m).info = s.isRunning (s.requests m).info ∧
        s'.isReady (s.requests m).info = s.isReady (s.requests m).info) : Managed s' := by
  have hinfo' (m : ℕ) : (s'.requests m).info = (s.requests m).info := by
    rw [hrequests]
    rcases eq_or_ne m n with rfl | hne
    · rw [Function.update_self, hinfo]
    · rw [Function.update_of_ne hne]
  have hold (m : ℕ) (hm : (s'.requests m).outstanding = true) : (s.requests m).outstanding = true := by
    rw [hrequests] at hm
    rcases eq_or_ne m n with rfl | hne
    · rw [Function.update_self] at hm
      exact houtstanding hm
    · rwa [Function.update_of_ne hne] at hm
  refine ⟨fun m => ?_, fun m hm => ?_, fun m hm => hfresh m (hcreated ▸ hm), hlists,
    fun m hm hm' => ?_, fun m hm k hk hm' hk' heq => ?_⟩
  · rw [hrequests, hshutdown]
    rcases eq_or_ne m n with rfl | hne
    · rw [Function.update_self]
      exact hhandled
    · rw [Function.update_of_ne hne]
      exact h.handled m
  · rw [hcreated] at hm
    rw [hplaces m hm]
    exact h.placed m hm
  · rw [hcreated] at hm
    rw [hinfo', (hinfos m hm hm').1, (hinfos m hm hm').2]
    exact h.running m hm (hold m hm')
  · rw [hcreated] at hm hk
    rw [hinfo', hinfo'] at heq
    exact h.unique m hm k hk (hold m hm') (hold k hk') heq

theorem Managed.proceeds (h : Managed s) (hn : n < s.created) (hq : Proceeds s n l q) :
    Managed (s.setRequest n q) := by
  refine h.of_request hn rfl rfl rfl (hq.handled (h.handled n)) hq.info_eq hq.outstanding
    (fun m _ => places_eq rfl rfl rfl ?_) h.fresh h.shutdown fun m _ _ => ⟨rfl, rfl⟩
  rcases eq_or_ne m n with rfl | hne
  · rw [HttpClient.setRequest_requests_self, hq.frees_eq]
  · rw [HttpClient.setRequest_requests_of_ne hne]

/-- A request whose handler is at `FinishRequest` or later was completed. -/
theorem Request.Handled.completed_of_finish {q : Request} {isShutdown : Bool} (h : q.Handled isShutdown)
    {completion : Completion} (hhandler : q.handler = .finish completion) : q.completed = true := by
  by_contra hcompleted
  have hbody := h.body (by simpa using hcompleted)
  rw [hhandler] at hbody
  cases hbody

/-- `FinishRequest`: no other request of the info is to finish it. -/
theorem Managed.finish (h : Managed s) (hn : n < s.created) {completion : Completion}
    (hhandler : (s.requests n).handler = .finish completion) :
    Managed (s.finishRequest n (s.requests n) completion) := by
  have hcompleted := (h.handled n).completed_of_finish hhandler
  have houtstanding : (s.requests n).outstanding = true := by simp [Request.outstanding, hhandler]
  set handler : HandlerPoint := if completion = .canceled then .idle else .remove with hnew
  have hearly : handler.early = false ∧ (∀ completion', handler ≠ .callback completion') ∧
      ({ s.requests n with handler } : Request).outstanding = false := by
    rw [hnew]
    split_ifs <;> simp [HandlerPoint.early, Request.outstanding, hcompleted]
  refine h.of_request hn (q := { s.requests n with handler }) rfl rfl rfl
    ⟨fun _ _ => hcompleted, fun hnot => ?_, fun hevents => (h.handled n).once_of_late hevents
      (by simp [hhandler]) (by simp [hearly.1]), fun hsaw => ⟨((h.handled n).saw hsaw).1, hearly.2.1⟩,
      (h.handled n).late⟩ rfl (fun _ => houtstanding) (fun m _ => places_eq rfl rfl rfl ?_) h.fresh
    h.shutdown fun m hm hm' => ?_
  · have hnot : (s.requests n).completed = false := hnot
    rw [hcompleted] at hnot
    cases hnot
  · show ((s.setRequest n { s.requests n with handler }).requests m).frees = _
    rcases eq_or_ne m n with rfl | hne
    · rw [HttpClient.setRequest_requests_self]
    · rw [HttpClient.setRequest_requests_of_ne hne]
  · have hm' : ((s.setRequest n { s.requests n with handler }).requests m).outstanding = true := hm'
    have hne : m ≠ n := by
      rintro rfl
      rw [HttpClient.setRequest_requests_self, hearly.2.2] at hm'
      cases hm'
    rw [HttpClient.setRequest_requests_of_ne hne] at hm'
    have hinfo : (s.requests m).info ≠ (s.requests n).info :=
      fun heq => hne (h.unique m hm n hn hm' houtstanding heq)
    exact ⟨Function.update_of_ne hinfo _ _, Function.update_of_ne hinfo _ _⟩

/-- No request goes on; they change places. -/
theorem Managed.of_lists (h : Managed s) (hrequests : s'.requests = s.requests)
    (hcreated : s'.created = s.created) (hshutdown : s.isShutdown = true → s'.isShutdown = true)
    (hrunning : s'.isRunning = s.isRunning) (hready : s'.isReady = s.isReady)
    (hplaces : ∀ m, s'.places m = s.places m)
    (hfresh : ∀ m, s.created ≤ m → s'.storing ≠ some m ∧ m ∉ s'.activeRequests ∧ m ∉ s'.canceling)
    (hlists : s'.isShutdown = true → s'.storing = none ∧ s'.activeRequests = []) : Managed s' := by
  refine ⟨fun m => ?_, fun m hm => ?_, fun m hm => hfresh m (hcreated ▸ hm), hlists, ?_, ?_⟩
  · rw [hrequests]
    have hs := h.handled m
    exact ⟨hs.single, hs.body, hs.once, fun hsaw => ⟨hshutdown (hs.saw hsaw).1, (hs.saw hsaw).2⟩, hs.late⟩
  · rw [hplaces m]
    exact h.placed m (hcreated ▸ hm)
  · rw [hrequests, hcreated, hrunning, hready]
    exact h.running
  · rw [hrequests, hcreated]
    exact h.unique

/-- Only who waits changes. -/
theorem Managed.of_waiters (h : Managed s) (waiters : List ℕ) : Managed { s with waiters } :=
  h.of_lists rfl rfl id rfl rfl (fun _ => rfl) h.fresh h.shutdown

theorem Request.Handled.started {hasCallback isEventingRequest isShutdown : Bool} :
    Request.Handled { info, isEventingRequest, hasCallback } isShutdown where
  single _ hne := absurd rfl hne
  body _ := rfl
  once _ := by simp
  saw hsaw := nomatch hsaw
  late := rfl

theorem Managed.starts (h : Managed s) {hasCallback isEventingRequest hasThreadPool : Bool}
    (hstarts : s.starts info hasThreadPool = true) (hstoring : s.storing = none) :
    Managed (s.executeAsync info hasCallback isEventingRequest hasThreadPool) := by
  rw [HttpClient.executeAsync, if_pos hstarts]
  simp only [HttpClient.starts, Bool.and_eq_true, Bool.not_eq_true'] at hstarts
  obtain ⟨⟨-, hshutdown⟩, hrunning⟩ := hstarts
  have hother {m : ℕ} (hm : m < s.created) (hout : (s.requests m).outstanding = true) :
      (s.requests m).info ≠ info := by
    intro heq
    have hrun := (h.running m hm hout).1
    rw [heq, hrunning] at hrun
    cases hrun
  have hcase {m : ℕ} (hm : m < s.created + 1) : m = s.created ∨ m < s.created ∧ m ≠ s.created := by omega
  refine ⟨fun m => ?_, fun m hm => ?_, fun m hm => ?_, fun hs => ?_, fun m hm hout => ?_,
    fun m hm k hk hmout hkout heq => ?_⟩
  · rcases eq_or_ne m s.created with rfl | hne
    · simp only [Function.update_self]
      exact .started
    · simp only [Function.update_of_ne hne]
      exact h.handled m
  · rcases hcase hm with rfl | ⟨hlt, hne⟩
    · obtain ⟨-, hactive, hcanceling⟩ := h.fresh s.created le_rfl
      simp [HttpClient.places, List.count_eq_zero.mpr hactive, List.count_eq_zero.mpr hcanceling]
    · have hplaced := h.placed m hlt
      simpa [HttpClient.places, hstoring, Function.update_of_ne hne, hne.symm] using hplaced
  · have hm : s.created + 1 ≤ m := hm
    obtain ⟨-, hactive, hcanceling⟩ := h.fresh m (by omega)
    exact ⟨fun heq => by have := Option.some.inj heq; omega, hactive, hcanceling⟩
  · have hs : s.isShutdown = true := hs
    rw [hshutdown] at hs
    cases hs
  · rcases hcase hm with rfl | ⟨hlt, hne⟩
    · simp
    · simp only [Function.update_of_ne hne] at hout ⊢
      rw [Function.update_of_ne (hother hlt hout), Function.update_of_ne (hother hlt hout)]
      exact h.running m hlt hout
  · rcases hcase hm with rfl | ⟨hmlt, hmne⟩ <;> rcases hcase hk with rfl | ⟨hklt, hkne⟩
    · rfl
    · simp only [Function.update_self, Function.update_of_ne hkne] at hkout heq
      exact absurd heq.symm (hother hklt hkout)
    · simp only [Function.update_self, Function.update_of_ne hmne] at hmout heq
      exact absurd heq (hother hmlt hmout)
    · simp only [Function.update_of_ne hmne, Function.update_of_ne hkne] at hmout hkout heq
      exact h.unique m hmlt k hklt hmout hkout heq

theorem Managed.store (h : Managed s) (hstoring : s.storing = some n) :
    Managed { s with storing := none, activeRequests := s.activeRequests ++ [n] } := by
  refine h.of_lists rfl rfl id rfl rfl (fun m => ?_) (fun m hm => ?_) fun hs => ?_
  · simp only [HttpClient.places, hstoring, List.count_append, List.count_singleton, Option.some.injEq,
      beq_iff_eq, reduceCtorEq, if_false]
    omega
  · obtain ⟨hne, hactive, hcanceling⟩ := h.fresh m hm
    refine ⟨nofun, fun hmem => ?_, hcanceling⟩
    rcases List.mem_append.mp hmem with hmem | hmem
    · exact hactive hmem
    · obtain rfl := List.mem_singleton.mp hmem
      exact hne hstoring
  · have hnone := (h.shutdown hs).1
    rw [hstoring] at hnone
    cases hnone

theorem Managed.cancel (h : Managed s) (hactive : n ∈ s.activeRequests) :
    Managed { s with activeRequests := s.activeRequests.erase n, canceling := n :: s.canceling } := by
  refine h.of_lists rfl rfl id rfl rfl (fun m => ?_) (fun m hm => ?_) fun hs => ?_
  · have hcount := count_erase_add hactive m
    simp only [HttpClient.places, List.count_cons, beq_iff_eq, eq_comm (a := n)]
    omega
  · obtain ⟨hne, hactive', hcanceling⟩ := h.fresh m hm
    refine ⟨hne, fun hmem => hactive' (List.mem_of_mem_erase hmem), fun hmem => ?_⟩
    rcases List.mem_cons.mp hmem with rfl | hmem
    · exact hactive' hactive
    · exact hcanceling hmem
  · obtain ⟨hnone, hnil⟩ := h.shutdown hs
    exact ⟨hnone, by simp [hnil]⟩

theorem Managed.destroy (h : Managed s) (hstoring : s.storing = none) :
    Managed { s with
      isShutdown := true, activeRequests := [], canceling := s.activeRequests ++ s.canceling } := by
  refine h.of_lists rfl rfl (fun _ => rfl) rfl rfl (fun m => ?_) (fun m hm => ?_) fun _ => ⟨hstoring, rfl⟩
  · simp only [HttpClient.places, List.count_append, List.count_nil]
    omega
  · obtain ⟨hne, hactive, hcanceling⟩ := h.fresh m hm
    exact ⟨hne, List.not_mem_nil, fun hmem => (List.mem_append.mp hmem).elim hactive hcanceling⟩

/-- A request is freed by who has it. -/
theorem Managed.free (h : Managed s) (hn : n < s.created) (handler : HandlerPoint) {ns ms : List ℕ}
    (hhandled : ({ s.requests n with handler, frees := (s.requests n).frees + 1 } : Request).Handled
      s.isShutdown)
    (houtstanding : ({ s.requests n with handler, frees := (s.requests n).frees + 1 } : Request).outstanding
      = true → (s.requests n).outstanding = true)
    (hactive : ∀ m ∈ ns, m ∈ s.activeRequests) (hcanceling : ∀ m ∈ ms, m ∈ s.canceling)
    (hcount : ∀ m, ns.count m + ms.count m + (if m = n then 1 else 0) =
      s.activeRequests.count m + s.canceling.count m) :
    Managed { s.setRequest n { s.requests n with handler, frees := (s.requests n).frees + 1 } with
      activeRequests := ns, canceling := ms } := by
  refine h.of_request hn rfl rfl rfl hhandled rfl houtstanding (fun m _ => ?_) (fun m hm => ?_)
    (fun hs => ?_) fun m _ _ => ⟨rfl, rfl⟩
  · have hcount := hcount m
    dsimp only [HttpClient.places, HttpClient.setRequest]
    rcases eq_or_ne m n with rfl | hne
    · rw [if_pos rfl] at hcount
      simp only [Function.update_self]
      omega
    · rw [if_neg hne] at hcount
      simp only [Function.update_of_ne hne]
      omega
  · obtain ⟨hne, hactive', hcanceling'⟩ := h.fresh m hm
    exact ⟨hne, fun hmem => hactive' (hactive m hmem), fun hmem => hcanceling' (hcanceling m hmem)⟩
  · obtain ⟨hnone, hnil⟩ := h.shutdown hs
    exact ⟨hnone, List.eq_nil_iff_forall_not_mem.mpr fun m hm => by simpa [hnil] using hactive m hm⟩

theorem Managed.lt_of_canceling (h : Managed s) (hcanceling : n ∈ s.canceling) : n < s.created := by
  by_contra hn
  exact (h.fresh n (by omega)).2.2 hcanceling

theorem Managed.delete (h : Managed s) (hcanceling : n ∈ s.canceling) :
    Managed { s.setRequest n { s.requests n with frees := (s.requests n).frees + 1 } with
      canceling := s.canceling.erase n } := by
  have hs := h.handled n
  exact h.free (h.lt_of_canceling hcanceling) (s.requests n).handler
    ⟨hs.single, hs.body, hs.once, hs.saw, hs.late⟩ id
    (fun _ => id) (fun _ => List.mem_of_mem_erase) fun m => by
      have hcount := count_erase_add hcanceling m
      show s.activeRequests.count m + (s.canceling.erase n).count m + _ = _
      omega

theorem Managed.remove (h : Managed s) (hn : n < s.created) (hhandler : (s.requests n).handler = .remove)
    (hactive : n ∈ s.activeRequests) :
    Managed { s.setRequest n { s.requests n with handler := .idle, frees := (s.requests n).frees + 1 } with
      activeRequests := s.activeRequests.erase n } := by
  have hs := (Proceeds.removed (s := s) hhandler).handled (h.handled n)
  refine h.free hn .idle ⟨hs.single, hs.body, hs.once, hs.saw, hs.late⟩ (fun hout => ?_)
    (fun _ => List.mem_of_mem_erase) (fun _ => id) fun m => ?_
  · simpa [Request.outstanding, hhandler] using hout
  · have hcount := count_erase_add hactive m
    show (s.activeRequests.erase n).count m + s.canceling.count m + _ = _
    omega

theorem Managed.of_step (h : Managed s) (hstep : ClientStep s l s') : Managed s' := by
  cases hstep with
  | starts hstarts hstoring => exact (h.starts hstarts hstoring).of_waiters _
  | refused | wake => exact h.of_waiters _
  | store hstoring => exact h.store hstoring
  | cancel hactive => exact h.cancel hactive
  | cancelNothing => exact h
  | destroy hstoring => exact h.destroy hstoring
  | delete hcanceling => exact h.delete hcanceling
  | proceeds hn hq => exact h.proceeds hn hq
  | finish hn hhandler => exact h.finish hn hhandler
  | remove hn hhandler hactive => exact h.remove hn hhandler hactive

theorem Managed.init : Managed {} where
  handled _ := .started
  placed _ hn := absurd hn (Nat.not_lt_zero _)
  fresh _ _ := by simp
  shutdown _ := ⟨rfl, rfl⟩
  running _ hn := absurd hn (Nat.not_lt_zero _)
  unique _ hn := absurd hn (Nat.not_lt_zero _)

end HueStream.Network
