import HueStream.Curl.Steps

/-! # What holds in every state of the client

Messages and the thread are about requests there are (`Orderly`), the functions that wait are those that stop a
request (`Stacked`), and every request is as its life allows (`Sound`). -/

namespace HueStream.Curl

open HueStream.Lib

variable {s s' : CurlHttpClient} {r : ℕ} {l : CurlLabel} {q : CurlRequest}
  {ts : List (Transition CurlHttpClient CurlLabel)}

/-! ### Messages and the thread -/

theorem Orderly.congr (ho : Orderly s) (hstarted : s'.started = s.started)
    (hrequests : ∀ r, s.started ≤ r → s'.requests r = s.requests r) (hmessages : s'.messages.Sublist s.messages)
    (hjobs : ∀ job ∈ s'.jobs, job ∈ s.jobs ∨ ∀ r, job.request = some r → r < s.started)
    (hbusy : ∀ r work, s'.point = .busy r work → r < s.started)
    (hcollecting : ∀ r, (s'.requests r).transfer.isFinished = true → s'.point.isCollecting = true) : Orderly s' := by
  refine ⟨fun r hr => ?_, fun m hm => ?_, fun job hjob r hr => ?_, fun r work hpoint => ?_, ho.ordered.sublist hmessages,
    hcollecting⟩
  · rw [hstarted] at hr
    rw [hrequests r hr, ho.fresh r hr]
  · rw [hstarted]
    exact ho.messages m (hmessages.subset hm)
  · rw [hstarted]
    rcases hjobs job hjob with hjob | hjob
    · exact ho.jobs job hjob r hr
    · exact hjob r hr
  · rw [hstarted]
    exact hbusy r work hpoint

theorem update_of_le {r' n : ℕ} {requests : ℕ → CurlRequest} (hr : r < n) (h : n ≤ r') (q : CurlRequest) :
    Function.update requests r q r' = requests r' :=
  Function.update_of_ne (by omega) ..

theorem isFinished_update {r' : ℕ} (hrequests : s'.requests = Function.update s.requests r q)
    (htransfer : q.transfer = (s.requests r).transfer) (hr' : (s'.requests r').transfer.isFinished = true) :
    (s.requests r').transfer.isFinished = true := by
  rw [hrequests] at hr'
  by_cases hrr : r' = r
  · subst hrr
    rw [Function.update_self, htransfer] at hr'
    exact hr'
  · rwa [Function.update_of_ne hrr] at hr'

/-- A step that only touches a request, and not its transfer. -/
theorem Orderly.update (ho : Orderly s) (hr : r < s.started) (hstarted : s'.started = s.started)
    (hrequests : s'.requests = Function.update s.requests r q) (htransfer : q.transfer = (s.requests r).transfer)
    (hmessages : s'.messages = s.messages) (hpoint : s'.point = s.point)
    (hjobs : ∀ job ∈ s'.jobs, job ∈ s.jobs ∨ ∀ r, job.request = some r → r < s.started) : Orderly s' := by
  refine ho.congr hstarted (fun r' hr' => ?_) (hmessages ▸ List.Sublist.refl _) hjobs ?_ fun r' hr' => ?_
  · rw [hrequests]
    exact update_of_le hr hr' q
  · rw [hpoint]
    exact ho.busy
  · rw [hpoint]
    exact ho.collecting r' (isFinished_update hrequests htransfer hr')

theorem Orderly.stopStep (ho : Orderly s) (hr : r < s.started) (h : StopStep s r s') : Orderly s' := by
  cases h with
  | _ => exact ho.update hr rfl rfl rfl rfl rfl fun job hjob => .inl hjob

theorem not_isFinished_of_not_isCollecting (ho : Orderly s) (h : s.point.isCollecting = false) (r : ℕ) :
    (s.requests r).transfer.isFinished = false := by
  by_contra hnot
  rw [ho.collecting r (by simpa using hnot)] at h
  cases h

theorem Orderly.popStep (ho : Orderly s) (hpoint : s.point = .popping) (h : PopStep s s') : Orderly s' := by
  have hnone := not_isFinished_of_not_isCollecting ho (by rw [hpoint]; rfl)
  have hsub : ∀ {m : Message} {messages : List Message}, s.messages = m :: messages →
      messages.Sublist s.messages ∧ m.request < s.started := by
    intro m messages hmessages
    rw [hmessages]
    exact ⟨List.sublist_cons_self m messages, ho.messages m (hmessages ▸ List.mem_cons_self)⟩
  cases h with
  | none hmessages =>
    exact ho.congr rfl (fun _ _ => rfl) (List.nil_sublist _) (fun job hjob => .inl hjob)
      (fun r work hbusy => by cases hbusy) fun r hr => rfl
  | @start r messages hmessages =>
    obtain ⟨hsublist, hr⟩ := hsub hmessages
    refine ho.congr rfl (fun r' hr' => update_of_le hr hr' _) hsublist (fun job hjob => .inl hjob)
      (fun r work hbusy => ho.busy r work hbusy) fun r' hr' => ?_
    by_cases hrr : r' = r
    · subst hrr
      simp [Transfer.isFinished] at hr'
    · have hsame : (s.requests r').transfer.isFinished = true := by rwa [set_requests_of_ne hrr] at hr'
      rw [hnone r'] at hsame
      cases hsame
  | @cancel r messages hmessages hhandle =>
    obtain ⟨hsublist, hr⟩ := hsub hmessages
    refine ho.congr rfl (fun r' hr' => update_of_le hr hr' _) hsublist (fun job hjob => .inl hjob) ?_ fun r' hr' => ?_
    · rintro r' work hbusy
      cases hbusy
      exact hr
    · by_cases hrr : r' = r
      · subst hrr
        simp [CurlRequest.sendResponse, Transfer.isFinished] at hr'
      · have hsame : (s.requests r').transfer.isFinished = true := by rwa [set_requests_of_ne hrr] at hr'
        rw [hnone r'] at hsame
        cases hsame
  | @acknowledge r messages hmessages hhandle =>
    obtain ⟨hsublist, hr⟩ := hsub hmessages
    refine ho.congr rfl (fun _ _ => rfl) hsublist (fun job hjob => .inl hjob) ?_ fun r' hr' => ?_
    · rintro r' work hbusy
      cases hbusy
      exact hr
    · have hsame : (s.requests r').transfer.isFinished = true := hr'
      rw [hnone r'] at hsame
      cases hsame

theorem Orderly.start (ho : Orderly s) (expectEventStream hasFile : Bool) :
    Orderly (s.start expectEventStream hasFile) := by
  have hnot : ∀ m ∈ s.messages, m.request ≠ s.started := fun m hm => (ho.messages m hm).ne
  refine ⟨fun r hr => ?_, fun m hm => ?_, fun job hjob r hr => ?_, fun r work hpoint => ?_, ?_, fun r hr => ?_⟩
  · have hlt : s.started < r := hr
    simp only [CurlHttpClient.start]
    rw [Function.update_of_ne hlt.ne', ho.fresh r hlt.le]
  · rcases List.mem_append.mp hm with hm | hm
    · exact Nat.lt_succ_of_lt (ho.messages m hm)
    · obtain rfl := List.mem_singleton.mp hm
      exact Nat.lt_succ_self _
  · exact Nat.lt_succ_of_lt (ho.jobs job hjob r hr)
  · exact Nat.lt_succ_of_lt (ho.busy r work hpoint)
  · refine List.pairwise_append.mpr ⟨ho.ordered, List.pairwise_singleton _ _, fun m hm m' hm' r hstop => ?_⟩
    obtain rfl := List.mem_singleton.mp hm'
    rintro hstart
    obtain rfl := Message.start.inj hstart
    exact hnot m hm (by rw [hstop]; rfl)
  · by_cases hrr : r = s.started
    · subst hrr
      simp [CurlHttpClient.start, Transfer.isFinished] at hr
    · refine ho.collecting r ?_
      simpa [CurlHttpClient.start, Function.update_of_ne hrr] using hr

theorem Orderly.stop (ho : Orderly s) (hr : r < s.started) (hstarted : s'.started = s.started)
    (hrequests : s'.requests = Function.update s.requests r q) (htransfer : q.transfer = (s.requests r).transfer)
    (hmessages : s'.messages = s.messages ++ [.stop r]) (hpoint : s'.point = s.point) (hjobs : s'.jobs = s.jobs) :
    Orderly s' := by
  have hbefore : Orderly { s' with messages := s.messages } :=
    ho.update hr hstarted hrequests htransfer rfl hpoint fun job hjob => .inl (hjobs ▸ hjob)
  refine ⟨hbefore.fresh, fun m hm => ?_, hbefore.jobs, hbefore.busy, ?_, hbefore.collecting⟩
  · rw [hmessages] at hm
    rcases List.mem_append.mp hm with hm | hm
    · exact hbefore.messages m hm
    · obtain rfl := List.mem_singleton.mp hm
      rw [hstarted]
      exact hr
  · rw [hmessages]
    refine List.pairwise_append.mpr ⟨ho.ordered, List.pairwise_singleton _ _, fun m hm m' hm' r _ => ?_⟩
    obtain rfl := List.mem_singleton.mp hm'
    simp

theorem Orderly.call (ho : Orderly s) {job : Job} (hjob : ∀ r, job.request = some r → r < s.started) :
    Orderly (s.call job) := by
  cases job with
  | other => exact ho
  | data r body => exact ho.update (hjob r rfl) rfl rfl rfl rfl rfl fun job hjob => .inl hjob
  | final r => exact ho.update (hjob r rfl) rfl rfl rfl rfl rfl fun job hjob => .inl hjob

theorem mem_of_mem_posts {job : Job} {jobs : List Job} (h : job ∈ q.posts jobs) : job ∈ jobs := by
  unfold CurlRequest.posts at h
  split_ifs at h
  · cases h
  · exact h

theorem Orderly.step (ho : Orderly s) (h : CurlStep s l s') : Orderly s' := by
  cases h with
  | start expectEventStream hasFile => exact ho.start expectEventStream hasFile
  | stop hr hidle hfree => exact ho.stop hr rfl rfl rfl rfl rfl rfl
  | advance hr hat hstop => exact ho.stopStep hr hstop
  | postOther =>
    refine ho.congr rfl (fun _ _ => rfl) (List.Sublist.refl _) (fun job hjob => ?_) ho.busy ho.collecting
    rcases List.mem_append.mp hjob with hjob | hjob
    · exact .inl hjob
    · obtain rfl := List.mem_singleton.mp hjob
      exact .inr fun r hr => by cases hr
  | @run job jobs hjobs hmay =>
    have hrest : Orderly { s with jobs, stack := { job } :: s.stack } :=
      ho.congr rfl (fun _ _ => rfl) (List.Sublist.refl _) (fun j hj => .inl (hjobs ▸ List.mem_cons_of_mem job hj))
        ho.busy ho.collecting
    exact hrest.call (ho.jobs job (hjobs ▸ List.mem_cons_self))
  | finish hstack hfree => exact ⟨ho.fresh, ho.messages, ho.jobs, ho.busy, ho.ordered, ho.collecting⟩
  | wake hpoint =>
    have hnone := not_isFinished_of_not_isCollecting ho (by rw [hpoint]; rfl)
    refine ho.congr rfl (fun _ _ => rfl) (List.Sublist.refl _) (fun job hjob => .inl hjob)
      (fun r work hbusy => by cases hbusy) fun r hr => ?_
    rw [hnone r] at hr
    cases hr
  | pop hpoint hpop => exact ho.popStep hpoint hpop
  | @write r w hpoint hr hrunning =>
    rw [written_eq]
    refine ho.update hr rfl rfl rfl rfl rfl fun job hjob => ?_
    rcases List.mem_append.mp hjob with hjob | hjob
    · exact .inl hjob
    · obtain ⟨body, -, rfl⟩ := List.mem_map.mp (mem_of_mem_posts hjob)
      exact .inr fun r' hr' => Option.some.inj hr' ▸ hr
  | @complete r code status hpoint hr hrunning =>
    have hcollecting : s.point.isCollecting = true := by rw [hpoint]; rfl
    exact ho.congr rfl (fun r' hr' => update_of_le hr hr' _) (List.Sublist.refl _) (fun job hjob => .inl hjob) ho.busy
      fun _ _ => hcollecting
  | performed numActive hpoint =>
    exact ho.congr rfl (fun _ _ => rfl) (List.Sublist.refl _) (fun job hjob => .inl hjob)
      (fun r work hbusy => by cases hbusy) fun r hr => rfl
  | @read r code status hpoint hr hfinished =>
    refine ho.congr rfl (fun r' hr' => update_of_le hr hr' _) (List.Sublist.refl _) (fun job hjob => .inl hjob)
      ?_ fun r' hr' => rfl
    rintro r' work hbusy
    cases hbusy
    exact hr
  | readNone hpoint hnone =>
    refine ho.congr rfl (fun _ _ => rfl) (List.Sublist.refl _) (fun job hjob => .inl hjob)
      (fun r work hbusy => by cases hbusy) fun r hr => ?_
    rcases lt_or_ge r s.started with hlt | hge
    · rw [hnone r hlt] at hr
      cases hr
    · rw [ho.fresh r hge] at hr
      cases hr
  | @post r isStopping hpoint =>
    rw [post_eq]
    have hr := ho.busy r _ hpoint
    refine ho.congr rfl (fun _ _ => rfl) (List.Sublist.refl _) (fun job hjob => ?_) ?_ fun r' hr' => ?_
    · rcases List.mem_append.mp hjob with hjob | hjob
      · exact .inl hjob
      · obtain rfl := List.mem_singleton.mp (mem_of_mem_posts hjob)
        exact .inr fun r' hr' => Option.some.inj hr' ▸ hr
    · rintro r' work hbusy
      cases hbusy
      exact hr
    · have hcollecting := ho.collecting r' hr'
      rwa [hpoint] at hcollecting
  | @posted r isStopping hpoint =>
    have hr := ho.busy r _ hpoint
    refine ho.congr rfl (fun r' hr' => update_of_le hr hr' _) (List.Sublist.refl _) (fun job hjob => .inl hjob)
      ?_ fun r' hr' => ?_
    · rintro r' work hbusy
      cases isStopping with
      | true =>
        cases hbusy
        exact hr
      | false => cases hbusy
    · have hcollecting := ho.collecting r'
        (isFinished_update (s := s) (r := r) (q := { s.requests r with callbackPosted := true }) rfl rfl hr')
      rw [hpoint] at hcollecting
      cases isStopping with
      | true => cases hcollecting
      | false => rfl
  | @completed r hpoint =>
    have hr := ho.busy r _ hpoint
    refine ho.congr rfl (fun r' hr' => update_of_le hr hr' _) (List.Sublist.refl _) (fun job hjob => .inl hjob)
      (fun r' work hbusy => by cases hbusy) fun r' hr' => ?_
    have hcollecting := ho.collecting r'
      (isFinished_update (s := s) (r := r) (q := { s.requests r with isComplete := true }) rfl rfl hr')
    rw [hpoint] at hcollecting
    cases hcollecting

/-! ### What runs in the queue -/

/-- `stop_request` has been called and not returned. -/
def StopPoint.isPending : StopPoint → Bool
  | .idle | .returned => false
  | _ => true

/-- `stop_request` waits for nothing more. -/
def StopPoint.isOver : StopPoint → Bool
  | .delete | .returned => true
  | _ => false

/-- Just the calls of `stop_request` in the queue wait there, each in a function of its own, and those that were
not made in a callback of their request leave none running. -/
structure Stacked (s : CurlHttpClient) : Prop where
  count : ∀ r, s.stack.countP (·.stopping = some r) =
    if ((s.requests r).isInside && (s.requests r).stop.isPending) = true then 1 else 0
  /-- The functions around such a call. -/
  around : ∀ f below, f :: below <:+ s.stack → ∀ r, f.stopping = some r → (s.requests r).isWithin = false →
    ∀ g ∈ f :: below, g.job.request ≠ some r
  left : ∀ r, (s.requests r).stop.isOver = true → (s.requests r).isWithin = false →
    ∀ g ∈ s.stack, g.job.request ≠ some r

/-- How far the calls of `stop_request` have come stays the same. -/
def SameStops (s s' : CurlHttpClient) : Prop :=
  ∀ r, (s'.requests r).isInside = (s.requests r).isInside ∧ (s'.requests r).isWithin = (s.requests r).isWithin ∧
    (s'.requests r).stop = (s.requests r).stop

theorem sameStops_update (hrequests : s'.requests = Function.update s.requests r q)
    (hinside : q.isInside = (s.requests r).isInside) (hwithin : q.isWithin = (s.requests r).isWithin)
    (hstop : q.stop = (s.requests r).stop) : SameStops s s' := by
  intro r'
  rw [hrequests]
  by_cases hrr : r' = r
  · subst hrr
    rw [Function.update_self]
    exact ⟨hinside, hwithin, hstop⟩
  · rw [Function.update_of_ne hrr]
    exact ⟨rfl, rfl, rfl⟩

theorem Stacked.congr (h : Stacked s) (hstops : SameStops s s') (hstack : s'.stack = s.stack) : Stacked s' := by
  refine ⟨fun r => ?_, fun f below hsuffix r hstopping hwithin => ?_, fun r hover hwithin => ?_⟩
  · rw [hstack, (hstops r).1, (hstops r).2.2]
    exact h.count r
  · rw [hstack] at hsuffix
    rw [(hstops r).2.1] at hwithin
    exact h.around f below hsuffix r hstopping hwithin
  · rw [hstack]
    rw [(hstops r).2.2] at hover
    rw [(hstops r).2.1] at hwithin
    exact h.left r hover hwithin

/-- A function begins to run. -/
theorem Stacked.push (h : Stacked s) (job : Job) (hstops : SameStops s s') (hstack : s'.stack = { job } :: s.stack)
    (hjob : ∀ r, job.request = some r → (s.requests r).stop.isOver = false) : Stacked s' := by
  refine ⟨fun r => ?_, fun f below hsuffix r hstopping hwithin => ?_, fun r hover hwithin g hg => ?_⟩
  · rw [hstack, (hstops r).1, (hstops r).2.2, List.countP_cons_of_neg (by simp)]
    exact h.count r
  · rw [hstack, List.suffix_cons_iff] at hsuffix
    rw [(hstops r).2.1] at hwithin
    rcases hsuffix with heq | hsuffix
    · obtain ⟨rfl, rfl⟩ := List.cons.inj heq
      cases hstopping
    · exact h.around f below hsuffix r hstopping hwithin
  · rw [hstack] at hg
    rw [(hstops r).2.2] at hover
    rw [(hstops r).2.1] at hwithin
    rcases List.mem_cons.mp hg with rfl | hg
    · intro hr
      rw [hjob r hr] at hover
      cases hover
    · exact h.left r hover hwithin g hg

/-- A function that does not wait ends. -/
theorem Stacked.pop (h : Stacked s) {f : Frame} {stack : List Frame} (hstack : s.stack = f :: stack)
    (hfree : f.stopping = none) : Stacked { s with stack } := by
  refine ⟨fun r => ?_, fun g below hsuffix r hstopping hwithin => ?_, fun r hover hwithin g hg => ?_⟩
  · have hcount := h.count r
    rw [hstack, List.countP_cons_of_neg (by simp [hfree])] at hcount
    exact hcount
  · refine h.around g below ?_ r hstopping hwithin
    rw [hstack]
    exact hsuffix.trans (List.suffix_cons f stack)
  · refine h.left r hover hwithin g ?_
    rw [hstack]
    exact List.mem_cons_of_mem f hg

/-- A request is touched and the stack stays. -/
theorem Stacked.update (h : Stacked s) (hrequests : s'.requests = Function.update s.requests r q)
    (hstack : s'.stack = s.stack)
    (hcount : (q.isInside && q.stop.isPending) = ((s.requests r).isInside && (s.requests r).stop.isPending))
    (hwithin : q.isWithin = (s.requests r).isWithin ∨ (s.requests r).stop.isPending = false)
    (hleft : q.stop.isOver = true → q.isWithin = false → ∀ g ∈ s.stack, g.job.request ≠ some r) : Stacked s' := by
  refine ⟨fun r' => ?_, fun f below hsuffix r' hstopping hnot => ?_, fun r' hover hnot => ?_⟩
  · rw [hstack, h.count r', hrequests]
    by_cases hrr : r' = r
    · subst hrr
      rw [Function.update_self, hcount]
    · rw [Function.update_of_ne hrr]
  · rw [hstack] at hsuffix
    refine h.around f below hsuffix r' hstopping ?_
    by_cases hrr : r' = r
    · subst hrr
      rw [hrequests, Function.update_self] at hnot
      rcases hwithin with hwithin | hidle
      · rw [← hwithin, hnot]
      · -- Nothing in the stack is stopping this request.
        have hzero := h.count r'
        rw [hidle, Bool.and_false, if_neg (by simp), List.countP_eq_zero] at hzero
        exact absurd hstopping (by simpa using hzero f (hsuffix.subset List.mem_cons_self))
    · rwa [hrequests, Function.update_of_ne hrr] at hnot
  · rw [hstack]
    by_cases hrr : r' = r
    · subst hrr
      rw [hrequests, Function.update_self] at hover hnot
      exact hleft hover hnot
    · rw [hrequests, Function.update_of_ne hrr] at hover hnot
      exact h.left r' hover hnot

/-- The function that runs begins to stop a request. -/
theorem Stacked.mark (h : Stacked s) {f : Frame} {below : List Frame} (hbefore : s.stack = f :: below)
    (hfree : f.stopping = none) (hidle : (s.requests r).stop.isPending = false)
    (hrequests : s'.requests = Function.update s.requests r q) (hstack : s'.stack = { f with stopping := some r } :: below)
    (hinside : q.isInside = true) (hpending : q.stop.isPending = true) (hover : q.stop.isOver = false)
    (hwithin : q.isWithin = s.stack.any (·.job.request = some r)) : Stacked s' := by
  have hzero : below.countP (·.stopping = some r) = 0 := by
    have hcount := h.count r
    rwa [hidle, Bool.and_false, if_neg (by simp), hbefore, List.countP_cons_of_neg (by simp [hfree])] at hcount
  refine ⟨fun r' => ?_, fun g below' hsuffix r' hstopping hnot => ?_, fun r' hover' hnot g hg => ?_⟩
  · rw [hstack, hrequests]
    by_cases hrr : r' = r
    · subst hrr
      rw [Function.update_self, hinside, hpending, List.countP_cons_of_pos (by simp), hzero]
      rfl
    · rw [Function.update_of_ne hrr, List.countP_cons_of_neg (by simp [Ne.symm hrr]), ← h.count r', hbefore,
        List.countP_cons_of_neg (by simp [hfree])]
  · rw [hstack, List.suffix_cons_iff] at hsuffix
    rcases hsuffix with heq | hsuffix
    · obtain ⟨rfl, rfl⟩ := List.cons.inj heq
      obtain rfl : r = r' := Option.some.inj hstopping
      rw [hrequests, Function.update_self, hwithin, hbefore] at hnot
      intro x hx
      rcases List.mem_cons.mp hx with rfl | hx
      · simpa using List.any_eq_false.mp hnot f List.mem_cons_self
      · simpa using List.any_eq_false.mp hnot x (List.mem_cons_of_mem f hx)
    · have hmem := hsuffix.subset List.mem_cons_self
      have hrr : r' ≠ r := by
        rintro rfl
        exact absurd hstopping (by simpa using List.countP_eq_zero.mp hzero g hmem)
      rw [hrequests, Function.update_of_ne hrr] at hnot
      refine h.around g below' ?_ r' hstopping hnot
      rw [hbefore]
      exact hsuffix.trans (List.suffix_cons f below)
  · have hrr : r' ≠ r := by
      rintro rfl
      rw [hrequests, Function.update_self, hover] at hover'
      cases hover'
    rw [hrequests, Function.update_of_ne hrr] at hover' hnot
    have hleft := h.left r' hover' hnot
    rw [hbefore] at hleft
    rw [hstack] at hg
    rcases List.mem_cons.mp hg with rfl | hg
    · exact hleft f List.mem_cons_self
    · exact hleft g (List.mem_cons_of_mem f hg)

/-- The function that runs has stopped a request. -/
theorem Stacked.unmark (h : Stacked s) {f : Frame} {below : List Frame} (hbefore : s.stack = f :: below)
    (hstopping : f.stopping = some r) (hpending : (s.requests r).stop.isPending = true)
    (hover : (s.requests r).stop.isOver = true)
    (hrequests : s'.requests = Function.update s.requests r q) (hstack : s'.stack = { f with stopping := none } :: below)
    (hinside : q.isInside = (s.requests r).isInside) (hnone : q.stop.isPending = false)
    (hwithin : q.isWithin = (s.requests r).isWithin) : Stacked s' := by
  have hzero : below.countP (·.stopping = some r) = 0 := by
    have hcount := h.count r
    rw [hbefore, List.countP_cons_of_pos (by simp [hstopping])] at hcount
    split_ifs at hcount
    omega
  refine ⟨fun r' => ?_, fun g below' hsuffix r' hr' hnot => ?_, fun r' hover' hnot g hg => ?_⟩
  · rw [hstack, hrequests, List.countP_cons_of_neg (by simp)]
    by_cases hrr : r' = r
    · subst hrr
      rw [Function.update_self, hnone, Bool.and_false, hzero]
      rfl
    · rw [Function.update_of_ne hrr, ← h.count r', hbefore, List.countP_cons_of_neg]
      simp [hstopping, Ne.symm hrr]
  · rw [hstack, List.suffix_cons_iff] at hsuffix
    rcases hsuffix with heq | hsuffix
    · obtain ⟨rfl, rfl⟩ := List.cons.inj heq
      cases hr'
    · have hmem := hsuffix.subset List.mem_cons_self
      have hrr : r' ≠ r := by
        rintro rfl
        exact absurd hr' (by simpa using List.countP_eq_zero.mp hzero g hmem)
      rw [hrequests, Function.update_of_ne hrr] at hnot
      refine h.around g below' ?_ r' hr' hnot
      rw [hbefore]
      exact hsuffix.trans (List.suffix_cons f below)
  · have hleft : ∀ x ∈ s.stack, x.job.request ≠ some r' := by
      by_cases hrr : r' = r
      · subst hrr
        rw [hrequests, Function.update_self, hwithin] at hnot
        exact h.left r' hover hnot
      · rw [hrequests, Function.update_of_ne hrr] at hover' hnot
        exact h.left r' hover' hnot
    rw [hbefore] at hleft
    rw [hstack] at hg
    rcases List.mem_cons.mp hg with rfl | hg
    · exact hleft f List.mem_cons_self
    · exact hleft g (List.mem_cons_of_mem f hg)

theorem Stacked.stopStep (h : Stacked s) (hat : s.isAt r = true) (hstep : StopStep s r s') : Stacked s' := by
  cases hstep with
  | seeComplete hpoint hcomplete =>
    exact h.update rfl rfl (by simp [hpoint, StopPoint.isPending]) (.inl rfl) (by simp [StopPoint.isOver])
  | seePosted hpoint hposted =>
    exact h.update rfl rfl (by simp [hpoint, StopPoint.isPending]) (.inl rfl) (by simp [StopPoint.isOver])
  | close hpoint =>
    exact h.update rfl rfl (by simp [hpoint, StopPoint.isPending]) (.inl rfl) (by simp [StopPoint.isOver])
  | clear hpoint hcleared =>
    refine h.update rfl rfl (by simp [hpoint, StopPoint.isPending]) (.inl rfl) fun _ hwithin => ?_
    simp only [CurlHttpClient.isCleared, Bool.and_eq_true, Bool.or_eq_true] at hcleared
    rcases hcleared.2 with hinside | houtside
    · -- The function that waits is the first one.
      simp only [CurlHttpClient.isAt, hinside, Bool.not_true, Bool.false_or] at hat
      obtain ⟨f, hf, hstopping⟩ := (Option.any_eq_true _ _).mp hat
      obtain ⟨below, hstack⟩ := List.head?_eq_some_iff.mp hf
      have haround := h.around f below (hstack ▸ List.suffix_refl _) r (by simpa using hstopping) hwithin
      rwa [hstack]
    · intro g hg
      simpa using List.all_eq_true.mp houtside g hg
  | delete hpoint =>
    cases hinside : (s.requests r).isInside with
    | false =>
      refine h.update (r := r) rfl ?_ ?_ (.inl rfl) fun _ hwithin => h.left r (by rw [hpoint]; rfl) hwithin
      · rw [if_neg (by simp)]
      · simp [hinside]
    | true =>
      simp only [CurlHttpClient.isAt, hinside, Bool.not_true, Bool.false_or] at hat
      obtain ⟨f, hf, hstopping⟩ := (Option.any_eq_true _ _).mp hat
      obtain ⟨below, hstack⟩ := List.head?_eq_some_iff.mp hf
      refine h.unmark (r := r) hstack (by simpa using hstopping) (by rw [hpoint]; rfl) (by rw [hpoint]; rfl) rfl ?_ rfl
        rfl rfl
      rw [if_pos rfl, hstack]
      rfl

theorem sameStops_call (job : Job) : SameStops s (s.call job) := by
  cases job with
  | other => exact fun _ => ⟨rfl, rfl, rfl⟩
  | data r body => exact sameStops_update (r := r) rfl rfl rfl rfl
  | final r => exact sameStops_update (r := r) rfl rfl rfl rfl

theorem Stacked.step (h : Stacked s) (ho : Orderly s) (hs : ∀ r < s.started, Sound r (s.life r))
    (hstep : CurlStep s l s') : Stacked s' := by
  cases hstep with
  | start expectEventStream hasFile =>
    have hfresh := ho.fresh s.started le_rfl
    refine h.congr (sameStops_update (r := s.started) rfl ?_ ?_ ?_) rfl
    · rw [hfresh]
    · rw [hfresh]
    · rw [hfresh]
  | @stop r isInside hr hidle hfree =>
    have hpending : (s.requests r).stop.isPending = false := by rw [hidle]; rfl
    cases isInside with
    | false =>
      refine h.update (r := r) rfl ?_ ?_ (.inr hpending) (by simp [StopPoint.isOver])
      · rw [if_neg (by simp)]
      · rw [hpending, Bool.and_false]
        rfl
    | true =>
      obtain ⟨f, hf, hnone⟩ := (Option.any_eq_true _ _).mp (hfree rfl)
      obtain ⟨below, hstack⟩ := List.head?_eq_some_iff.mp hf
      refine h.mark (r := r) hstack (by simpa using hnone) hpending rfl ?_ rfl rfl rfl (by simp)
      rw [if_pos rfl, hstack]
      rfl
  | advance hr hat hstop => exact h.stopStep hat hstop
  | postOther => exact h.congr (fun _ => ⟨rfl, rfl, rfl⟩) rfl
  | @run job jobs hjobs hmay =>
    refine h.push job (sameStops_call (s := { s with jobs, stack := { job } :: s.stack }) job) ?_ fun r hr => ?_
    · cases job <;> rfl
    · -- A request that is over has no functions in the queue.
      have hlt := ho.jobs job (hjobs ▸ List.mem_cons_self) r hr
      have hmem : job ∈ (s.life r).jobs := by simp [CurlHttpClient.life, hjobs, hr]
      have hcleared := (hs r hlt).cleared
      by_contra hover
      have hnil : (s.life r).jobs = [] := by
        refine hcleared ?_
        show (s.requests r).stop = .delete ∨ (s.requests r).stop = .returned
        cases hstop : (s.requests r).stop <;> simp [hstop, StopPoint.isOver] at hover ⊢
      rw [hnil] at hmem
      cases hmem
  | finish hstack hfree => exact h.pop hstack hfree
  | wake hpoint => exact h.congr (fun _ => ⟨rfl, rfl, rfl⟩) rfl
  | pop hpoint hpop =>
    cases hpop with
    | none hmessages => exact h.congr (fun _ => ⟨rfl, rfl, rfl⟩) rfl
    | @start r messages hmessages => exact h.congr (sameStops_update (r := r) rfl rfl rfl rfl) rfl
    | @cancel r messages hmessages hhandle => exact h.congr (sameStops_update (r := r) rfl rfl rfl rfl) rfl
    | acknowledge hmessages hhandle => exact h.congr (fun _ => ⟨rfl, rfl, rfl⟩) rfl
  | @write r w hpoint hr hrunning =>
    rw [written_eq]
    exact h.congr (sameStops_update (r := r) rfl rfl rfl rfl) rfl
  | @complete r code status hpoint hr hrunning => exact h.congr (sameStops_update (r := r) rfl rfl rfl rfl) rfl
  | performed numActive hpoint => exact h.congr (fun _ => ⟨rfl, rfl, rfl⟩) rfl
  | @read r code status hpoint hr hfinished => exact h.congr (sameStops_update (r := r) rfl rfl rfl rfl) rfl
  | readNone hpoint hnone => exact h.congr (fun _ => ⟨rfl, rfl, rfl⟩) rfl
  | post hpoint =>
    rw [post_eq]
    exact h.congr (fun _ => ⟨rfl, rfl, rfl⟩) rfl
  | @posted r isStopping hpoint => exact h.congr (sameStops_update (r := r) rfl rfl rfl rfl) rfl
  | @completed r hpoint => exact h.congr (sameStops_update (r := r) rfl rfl rfl rfl) rfl

/-! ### All of it -/

/-- What holds in every state of a run. -/
structure Consistent (s : CurlHttpClient) : Prop where
  orderly : Orderly s
  stacked : Stacked s
  sound : ∀ r < s.started, Sound r (s.life r)

theorem Consistent.init : Consistent {} := by
  refine ⟨⟨fun _ _ => rfl, ?_, ?_, ?_, .nil, ?_⟩, ⟨fun _ => rfl, ?_, ?_⟩, ?_⟩
  all_goals simp [Transfer.isFinished]

theorem started_of_step (h : CurlStep s l s') : s'.started = s.started ∨
    ∃ expectEventStream hasFile, s' = s.start expectEventStream hasFile := by
  cases h with
  | start expectEventStream hasFile => exact .inr ⟨expectEventStream, hasFile, rfl⟩
  | advance hr hat hstop => cases hstop <;> exact .inl rfl
  | @run job jobs hjobs hmay => cases job <;> exact .inl rfl
  | pop hpoint hpop => cases hpop <;> exact .inl rfl
  | write w hpoint hr hrunning =>
    rw [written_eq]
    exact .inl rfl
  | post hpoint =>
    rw [post_eq]
    exact .inl rfl
  | _ => exact .inl rfl

theorem life_start (ho : Orderly s) (expectEventStream hasFile : Bool) :
    (s.start expectEventStream hasFile).life s.started =
      ⟨{ buffers := { expectEventStream, hasFile } }, 1, 0, none, []⟩ := by
  have hmessages : ∀ m : Message, m.request = s.started → s.messages.count m = 0 := fun m hm =>
    List.count_eq_zero.mpr fun hmem => (ho.messages m hmem).ne hm
  have hwork : s.point.work s.started = none := by
    cases hpoint : s.point with
    | busy r work => exact work_busy_of_ne (ho.busy r work hpoint).ne work
    | _ => rfl
  have hjobs : s.jobs.filter (·.request = some s.started) = [] := by
    rw [List.filter_eq_nil_iff]
    intro job hjob
    simpa using fun hr => (ho.jobs job hjob _ hr).ne rfl
  simp [CurlHttpClient.life, CurlHttpClient.start, hmessages (.start s.started) rfl, hmessages (.stop s.started) rfl,
    hwork, hjobs]

theorem Consistent.step (h : Consistent s) (hstep : CurlStep s l s') : Consistent s' := by
  refine ⟨h.orderly.step hstep, h.stacked.step h.orderly h.sound hstep, fun r hr => ?_⟩
  rcases lt_or_ge r s.started with hlt | hge
  · rcases life_of_step hstep h.orderly hlt with hlife | hmoves
    · rw [hlife]
      exact h.sound r hlt
    · exact (h.sound r hlt).moves hmoves
  · -- Only the request that has just been started is new.
    rcases started_of_step hstep with hstarted | ⟨expectEventStream, hasFile, rfl⟩
    · omega
    · obtain rfl : r = s.started := Nat.le_antisymm (Nat.lt_succ_iff.mp hr) hge
      rw [life_start h.orderly]
      exact Sound.init _ expectEventStream hasFile

theorem consistent_of_run (h : curlHttpClient.Run ts s) : Consistent s := by
  refine h.invariant ?_ fun s l s' hstep hs => hs.step (curlStep_of_step hstep)
  rintro s rfl
  exact Consistent.init

end HueStream.Curl
