import HueStream.Curl.Running
import Mathlib.Algebra.BigOperators.Group.Finset.Basic

/-! # What the client owes its callers

Every request has its callbacks in order and once, none after `stop_request` has returned, and whatever was
stopped or has completed gets its final one as soon as nobody asks for anything new (`serves`). -/

namespace HueStream.Curl

open HueStream.Lib Finset

variable {s s' : CurlHttpClient} {r : ℕ} {l : CurlLabel} {q : CurlRequest} {v : Life} {n : ℕ}
  {ts : List (Transition CurlHttpClient CurlLabel)}

/-! ### The callbacks of a request -/

/-- All callbacks have been called: the events in their order, and then the result. -/
def CurlRequest.Answered (q : CurlRequest) : Prop :=
  ∃ x, q.IsResult x ∧ q.called = q.buffers.events.map .data ++ [.final x.1 x.2]

/-- Some of the first events have been passed on, or all and the result. -/
def CurlRequest.Delivers (q : CurlRequest) : Prop :=
  (∃ n, q.called = (q.buffers.events.take n).map .data) ∨ q.Answered

theorem map_callback_data (bodies : List String) :
    (bodies.map (Job.data r)).map (Job.callback q) = bodies.map HttpCallback.data := by
  rw [List.map_map]
  rfl

theorem called_of_start {ran jobs : List Job} {bodies : List String} (h : ran ++ jobs = bodies.map (.data r)) :
    ∃ n, ran.map (Job.callback q) = (bodies.take n).map .data := by
  have hran : ran = (bodies.take ran.length).map (.data r) := by
    rw [List.map_take, ← h, List.take_left]
  generalize ran.length = n at hran
  exact ⟨n, by rw [hran, map_callback_data]⟩

theorem Sound.answered_of_posted (h : Sound r v) (hposted : v.isPosted = true) (hjobs : v.jobs = []) :
    v.request.Answered := by
  simp only [Life.isPosted, Bool.and_eq_true, Bool.not_eq_true'] at hposted
  obtain ⟨-, ⟨x, hx, hresult⟩, -⟩ := h.answered hposted.1
  obtain ⟨ran, hran, hcalled⟩ := h.delivered
  refine ⟨x, hresult, ?_⟩
  rw [hjobs, List.append_nil, Life.posted, Life.isPosted, hposted.1, hposted.2] at hran
  have hevents := map_callback_data (r := r) (q := v.request) v.request.buffers.events
  rw [hcalled, hran, Bool.not_false, Bool.and_self, if_pos rfl, List.map_append, hevents]
  simp [Job.callback, CurlRequest.finalCallback, hx]

theorem Sound.delivers (h : Sound r v) : v.request.Delivers := by
  obtain ⟨ran, hran, hcalled⟩ := h.delivered
  rw [Life.posted] at hran
  by_cases hposted : v.isPosted = true
  · rw [if_pos hposted] at hran
    rcases v.jobs.eq_nil_or_concat' with hjobs | ⟨jobs, last, hjobs⟩
    · exact .inr (h.answered_of_posted hposted hjobs)
    · -- The last function in the queue is the final one.
      rw [hjobs, ← List.append_assoc] at hran
      obtain ⟨hran, -⟩ := List.append_inj' hran rfl
      obtain ⟨n, hn⟩ := called_of_start (q := v.request) hran
      exact .inl ⟨n, hcalled.trans hn⟩
  · rw [if_neg hposted, List.append_nil] at hran
    obtain ⟨n, hn⟩ := called_of_start (q := v.request) hran
    exact .inl ⟨n, hcalled.trans hn⟩

/-- A request that is in use has not been stopped. -/
theorem Sound.not_returned (h : Sound r v) (huse : v.starts ≠ 0 ∨ v.stops ≠ 0 ∨ v.work ≠ none ∨
    v.request.transfer ≠ .detached ∨ v.jobs ≠ []) : v.request.stop ≠ .returned := by
  intro hreturned
  have hcomplete := h.waited (by simp [hreturned]) (by simp [hreturned])
  have hposted := h.complete hcomplete
  have hhandle : v.request.handle = false := by
    by_contra hnot
    rw [(h.unanswered (by simpa using hnot)).2.1] at hposted
    cases hposted
  have hone := h.stops_eq_one (by simp [hreturned])
  rw [hcomplete] at hone
  rcases huse with hstarts | hstops | hwork | htransfer | hjobs
  · rw [(h.fresh hstarts).2] at hhandle
    cases hhandle
  · simp only [if_true] at hone
    omega
  · obtain ⟨work, hwork⟩ := Option.ne_none_iff_exists'.mp hwork
    have hsending := (h.answered hhandle).2.2
    rw [hposted, hwork] at hsending
    rw [hwork] at hone
    cases work with
    | complete => simp [Work.isStopping] at hone
    | _ => cases hsending
  · exact htransfer (h.answered hhandle).1
  · exact hjobs (h.cleared (.inr hreturned))

/-! ### What every step promises -/

namespace CurlHttpClient

/-- The requests a step reads or writes. -/
def uses (s : CurlHttpClient) : CurlLabel → List ℕ
  | .stop r _ | .advance r | .write r _ | .complete r _ _ | .read r => [r]
  | .run => (s.jobs.head?.bind Job.request).toList
  | .pop => (s.messages.head?.map Message.request).toList
  | .send => match s.point with
    | .busy r _ => [r]
    | _ => []
  | _ => []

end CurlHttpClient

/-- Nothing is left to do, and all requests that were stopped or have completed are answered. -/
structure Over (s : CurlHttpClient) : Prop where
  messages : s.messages = []
  jobs : s.jobs = []
  stack : s.stack = []
  stops : ∀ r < s.started, (s.requests r).stop = .idle ∨ (s.requests r).stop = .returned
  answered : ∀ r < s.started, (s.requests r).stop ≠ .idle ∨ (s.requests r).completion ≠ none → (s.requests r).Answered

/-- Without new requests and news of curl everything comes to its end. -/
def Settles (s : CurlHttpClient) : Prop :=
  ∃ ls us s', (∀ l ∈ ls, l.isInternal = true) ∧ curlHttpClient.trail s ls = some (us, s') ∧ Over s'

/-- What a step of the client promises. A request is deleted when `stop_request` returns. -/
structure ServesCallers (t : Transition CurlHttpClient CurlLabel) : Prop where
  /-- No request is used after it is deleted. -/
  used : ∀ r ∈ t.before.uses t.label, (t.before.requests r).stop ≠ .returned
  same : ∀ r, (t.before.requests r).stop = .returned → t.after.requests r = t.before.requests r
  handed : ∀ r < t.after.started, (t.after.requests r).handed ≤ 1
  delivers : ∀ r < t.after.started, (t.after.requests r).Delivers
  /-- When `stop_request` returns, the final callback has been called, and, if it was not called in a callback of
  the request, none is running. -/
  returned : ∀ r, (t.before.requests r).stop ≠ .returned → (t.after.requests r).stop = .returned →
    (t.after.requests r).Answered ∧
      ((t.after.requests r).isWithin = false → ∀ g ∈ t.after.stack, g.job.request ≠ some r)
  settles : Settles t.after

theorem Consistent.used (h : Consistent s) (hstep : CurlStep s l s') {r : ℕ} (hr : r ∈ s.uses l) :
    (s.requests r).stop ≠ .returned := by
  have huse : r < s.started → ((s.life r).starts ≠ 0 ∨ (s.life r).stops ≠ 0 ∨ (s.life r).work ≠ none ∨
      (s.life r).request.transfer ≠ .detached ∨ (s.life r).jobs ≠ []) → (s.requests r).stop ≠ .returned :=
    fun hlt huse => (h.sound r hlt).not_returned huse
  cases hstep with
  | stop hlt hidle hfree =>
    obtain rfl := List.mem_singleton.mp hr
    simp [hidle]
  | advance hlt hat hstop =>
    obtain rfl := List.mem_singleton.mp hr
    cases hstop with
    | seeComplete hpoint => simp [hpoint]
    | seePosted hpoint => simp [hpoint]
    | close hpoint => simp [hpoint]
    | clear hpoint => simp [hpoint]
    | delete hpoint => simp [hpoint]
  | @run job jobs hjobs hmay =>
    have hjob : job.request = some r := by simpa [CurlHttpClient.uses, hjobs] using hr
    refine huse (h.orderly.jobs job (hjobs ▸ List.mem_cons_self) r hjob) (.inr (.inr (.inr (.inr ?_))))
    simp [CurlHttpClient.life, hjobs, hjob]
  | pop hpoint hpop =>
    cases hpop with
    | none hmessages => simp [CurlHttpClient.uses, hmessages] at hr
    | @start r' messages hmessages =>
      obtain rfl : r = r' := by simpa [CurlHttpClient.uses, hmessages, Message.request] using hr
      refine huse (h.orderly.messages (.start r) (hmessages ▸ List.mem_cons_self)) (.inl ?_)
      simp [CurlHttpClient.life, hmessages]
    | @cancel r' messages hmessages hhandle =>
      obtain rfl : r = r' := by simpa [CurlHttpClient.uses, hmessages, Message.request] using hr
      refine huse (h.orderly.messages (.stop r) (hmessages ▸ List.mem_cons_self)) (.inr (.inl ?_))
      simp [CurlHttpClient.life, hmessages]
    | @acknowledge r' messages hmessages hhandle =>
      obtain rfl : r = r' := by simpa [CurlHttpClient.uses, hmessages, Message.request] using hr
      refine huse (h.orderly.messages (.stop r) (hmessages ▸ List.mem_cons_self)) (.inr (.inl ?_))
      simp [CurlHttpClient.life, hmessages]
  | write w hpoint hlt hrunning =>
    obtain rfl := List.mem_singleton.mp hr
    exact huse hlt (.inr (.inr (.inr (.inl (by simp [CurlHttpClient.life, hrunning])))))
  | complete code status hpoint hlt hrunning =>
    obtain rfl := List.mem_singleton.mp hr
    exact huse hlt (.inr (.inr (.inr (.inl (by simp [CurlHttpClient.life, hrunning])))))
  | read hpoint hlt hfinished =>
    obtain rfl := List.mem_singleton.mp hr
    exact huse hlt (.inr (.inr (.inr (.inl (by simp [CurlHttpClient.life, hfinished])))))
  | @post r' isStopping hpoint =>
    obtain rfl : r = r' := by simpa [CurlHttpClient.uses, hpoint] using hr
    exact huse (h.orderly.busy r _ hpoint) (.inr (.inr (.inl (by simp [CurlHttpClient.life, hpoint, work_busy]))))
  | @posted r' isStopping hpoint =>
    obtain rfl : r = r' := by simpa [CurlHttpClient.uses, hpoint] using hr
    exact huse (h.orderly.busy r _ hpoint) (.inr (.inr (.inl (by simp [CurlHttpClient.life, hpoint, work_busy]))))
  | @completed r' hpoint =>
    obtain rfl : r = r' := by simpa [CurlHttpClient.uses, hpoint] using hr
    exact huse (h.orderly.busy r _ hpoint) (.inr (.inr (.inl (by simp [CurlHttpClient.life, hpoint, work_busy]))))
  | _ => cases hr

theorem Sound.not_returned_of_moves (h : Sound r v) {v' : Life} (hmoves : Moves r v v') :
    v.request.stop ≠ .returned := by
  cases hmoves with
  | stop isInside isWithin hidle => simp [hidle]
  | handOver hstarts => exact h.not_returned (.inl hstarts)
  | cancel hstops => exact h.not_returned (.inr (.inl hstops))
  | acknowledge hstops => exact h.not_returned (.inr (.inl hstops))
  | write w hrunning => exact h.not_returned (.inr (.inr (.inr (.inl (by simp [hrunning])))))
  | complete code status hrunning => exact h.not_returned (.inr (.inr (.inr (.inl (by simp [hrunning])))))
  | read hfinished => exact h.not_returned (.inr (.inr (.inr (.inl (by simp [hfinished])))))
  | post hwork => exact h.not_returned (.inr (.inr (.inl (by simp [hwork]))))
  | posted hwork => exact h.not_returned (.inr (.inr (.inl (by simp [hwork]))))
  | completed hwork => exact h.not_returned (.inr (.inr (.inl (by simp [hwork]))))
  | seeComplete hpoint => simp [hpoint]
  | seePosted hpoint => simp [hpoint]
  | close hpoint => simp [hpoint]
  | clear hpoint => simp [hpoint]
  | delete hpoint => simp [hpoint]
  | call hjobs => exact h.not_returned (.inr (.inr (.inr (.inr (by simp [hjobs])))))

/-- What has been stopped stays as it is. -/
theorem Consistent.same (h : Consistent s) (hstep : CurlStep s l s') {r : ℕ} (hr : (s.requests r).stop = .returned) :
    s'.requests r = s.requests r := by
  have hlt : r < s.started := by
    by_contra hge
    rw [h.orderly.fresh r (by omega)] at hr
    cases hr
  rcases life_of_step hstep h.orderly hlt with hlife | hmoves
  · exact congrArg Life.request hlife
  · exact absurd hr ((h.sound r hlt).not_returned_of_moves hmoves)

/-- Once the thread has answered the message of `stop_request`, the final callback is posted. -/
theorem Sound.isPosted_of_isComplete (h : Sound r v) (hcomplete : v.request.isComplete = true) : v.isPosted = true := by
  have hposted := h.complete hcomplete
  have hhandle : v.request.handle = false := by
    by_contra hnot
    rw [(h.unanswered (by simpa using hnot)).2.1] at hposted
    cases hposted
  have hsending := (h.answered hhandle).2.2
  rw [hposted] at hsending
  have hnot : v.work.any (·.isSending) = false := by simpa using hsending.symm
  have hposting := isPosting_of_isSending hnot
  simp [Life.isPosted, hhandle, hposting]

theorem Consistent.returned (h : Consistent s) {r : ℕ} (hr : (s.requests r).stop = .returned) :
    (s.requests r).Answered ∧ ((s.requests r).isWithin = false → ∀ g ∈ s.stack, g.job.request ≠ some r) := by
  have hlt : r < s.started := by
    by_contra hge
    rw [h.orderly.fresh r (by omega)] at hr
    cases hr
  have hsound := h.sound r hlt
  have hcomplete := hsound.waited (show (s.requests r).stop ≠ .idle by simp [hr])
    (show (s.requests r).stop ≠ .complete by simp [hr])
  exact ⟨hsound.answered_of_posted (hsound.isPosted_of_isComplete hcomplete) (hsound.cleared (.inr hr)),
    h.stacked.left r (by rw [hr]; rfl)⟩

/-! ### Everything comes to its end -/

def StopPoint.weight : StopPoint → ℕ
  | .complete => 5
  | .posted => 4
  | .shutdown => 3
  | .clear => 2
  | .delete => 1
  | .idle | .returned => 0

def CurlRequest.weight (q : CurlRequest) : ℕ := q.stop.weight + if q.transfer.isFinished then 5 else 0

def CurlPoint.weight : CurlPoint → ℕ
  | .popping => 0
  | .top => 1
  | .reading => 2
  | .performing => 3
  | .busy _ (.post isStopping) => if isStopping then 5 else 6
  | .busy _ (.posted isStopping) => if isStopping then 2 else 3
  | .busy _ .complete => 1

/-- What is left to do. -/
def CurlHttpClient.weight (s : CurlHttpClient) : ℕ :=
  ∑ r ∈ range s.started, (s.requests r).weight + 6 * s.messages.length + s.point.weight + 2 * s.jobs.length +
    s.stack.length

theorem sum_update_add {α : Type*} (f : ℕ → α) (a : α) (w : α → ℕ) (hr : r < n) :
    ∑ i ∈ range n, w (Function.update f r a i) + w (f r) = ∑ i ∈ range n, w (f i) + w a := by
  have hmem := mem_range.mpr hr
  rw [← add_sum_erase _ _ hmem, ← add_sum_erase _ (fun i => w (f i)) hmem, Function.update_self]
  have hrest : ∑ i ∈ (range n).erase r, w (Function.update f r a i) = ∑ i ∈ (range n).erase r, w (f i) := by
    refine sum_congr rfl fun i hi => ?_
    rw [Function.update_of_ne (ne_of_mem_erase hi)]
  omega

/-- A step that touches a request. -/
theorem weight_update (hr : r < s.started) (hstarted : s'.started = s.started)
    (hrequests : s'.requests = Function.update s.requests r q)
    (hlt : q.weight + 6 * s'.messages.length + s'.point.weight + 2 * s'.jobs.length + s'.stack.length <
      (s.requests r).weight + 6 * s.messages.length + s.point.weight + 2 * s.jobs.length + s.stack.length) :
    s'.weight < s.weight := by
  have hsum := sum_update_add s.requests q CurlRequest.weight hr
  unfold CurlHttpClient.weight
  rw [hstarted, hrequests]
  omega

/-- Some internal step leaves less to do. -/
def Falls (s : CurlHttpClient) : Prop :=
  ∃ l s', l.isInternal = true ∧ curlHttpClient.step s l = some s' ∧ s'.weight < s.weight

theorem weight_sendResponse (q : CurlRequest) (code : CurlCode) (status : ℕ) :
    (q.sendResponse code status).weight = q.stop.weight := by
  simp [CurlRequest.sendResponse, CurlRequest.weight, Transfer.isFinished]

theorem stop_weight_le (q : CurlRequest) : q.stop.weight ≤ q.weight := Nat.le_add_right ..

/-- The thread takes a message. -/
theorem Consistent.falls_of_message (h : Consistent s) (hpoint : s.point = .popping) {m : Message}
    {messages : List Message} (hmessages : s.messages = m :: messages) : Falls s := by
  have hlt := h.orderly.messages m (hmessages ▸ List.mem_cons_self)
  have hlength : s.messages.length = messages.length + 1 := by rw [hmessages]; rfl
  have hzero : s.point.weight = 0 := by rw [hpoint]; rfl
  cases m with
  | start r =>
    have hstep : s.pop = some ({ s with messages }.set r
        { s.requests r with transfer := .running, handed := (s.requests r).handed + 1 }) := by
      simp [CurlHttpClient.pop, hpoint, hmessages]
    refine ⟨.pop, _, rfl, hstep, weight_update (r := r) hlt rfl rfl ?_⟩
    have hle := stop_weight_le (s.requests r)
    simp only [CurlHttpClient.set, CurlRequest.weight, Transfer.isFinished, hlength] at hle ⊢
    simp only [Bool.false_eq_true, if_false]
    omega
  | stop r =>
    cases hhandle : (s.requests r).handle with
    | true =>
      have hstep : s.pop = some ({ s with messages, point := .busy r (.post true) }.set r
          ((s.requests r).sendResponse .abortedByCallback 0)) := by
        simp [CurlHttpClient.pop, hpoint, hmessages, hhandle]
      refine ⟨.pop, _, rfl, hstep, weight_update (r := r) hlt rfl rfl ?_⟩
      have hle := stop_weight_le (s.requests r)
      rw [weight_sendResponse]
      simp only [CurlHttpClient.set, CurlPoint.weight, hlength, if_true]
      omega
    | false =>
      have hstep : s.pop = some { s with messages, point := .busy r .complete } := by
        simp [CurlHttpClient.pop, hpoint, hmessages, hhandle]
      refine ⟨.pop, _, rfl, hstep, ?_⟩
      simp only [CurlHttpClient.weight, CurlPoint.weight, hlength]
      omega

/-- The thread reads what curl has reported, or has read it all. -/
theorem falls_of_reading (hpoint : s.point = .reading) : Falls s := by
  by_cases hfinished : ∃ r < s.started, (s.requests r).transfer.isFinished = true
  · obtain ⟨r, hr, hfinished⟩ := hfinished
    cases htransfer : (s.requests r).transfer with
    | finished code status =>
      have hstep : s.read r = some ({ s with point := .busy r (.post false) }.set r
          ((s.requests r).sendResponse code status)) := by
        simp [CurlHttpClient.read, htransfer, hpoint, hr]
      refine ⟨.read r, _, rfl, hstep, weight_update (r := r) hr rfl rfl ?_⟩
      rw [weight_sendResponse]
      simp only [CurlHttpClient.set, CurlRequest.weight, CurlPoint.weight, htransfer, hpoint]
      simp only [Transfer.isFinished, Bool.false_eq_true, if_false, if_true]
      omega
    | _ =>
      rw [htransfer] at hfinished
      cases hfinished
  · have hnone : ∀ r < s.started, (s.requests r).transfer.isFinished = false := by
      intro r hr
      by_contra hnot
      exact hfinished ⟨r, hr, by simpa using hnot⟩
    refine ⟨.readNone, _, rfl, if_pos ⟨hpoint, hnone⟩, ?_⟩
    simp only [CurlHttpClient.weight, hpoint, CurlPoint.weight]
    omega

/-- The thread goes on with the request it is busy with. -/
theorem Consistent.falls_of_busy (h : Consistent s) {work : Work} (hpoint : s.point = .busy r work) : Falls s := by
  have hr := h.orderly.busy r work hpoint
  cases work with
  | post isStopping =>
    have hstep : s.send = some { s.post r (.final r) with point := .busy r (.posted isStopping) } := by
      simp [CurlHttpClient.send, hpoint]
    refine ⟨.send, _, rfl, hstep, ?_⟩
    have hle : ((s.requests r).posts [Job.final r]).length ≤ 1 := by
      unfold CurlRequest.posts
      split_ifs <;> simp
    rw [post_eq]
    simp only [CurlHttpClient.weight, hpoint, List.length_append]
    cases isStopping <;> simp only [CurlPoint.weight, Bool.false_eq_true, if_false, if_true] <;> omega
  | posted isStopping =>
    have hstep : s.send = some ({ s with point := if isStopping then .busy r .complete else .reading }.set r
        { s.requests r with callbackPosted := true }) := by
      simp [CurlHttpClient.send, hpoint]
    refine ⟨.send, _, rfl, hstep, weight_update (r := r) hr rfl rfl ?_⟩
    cases isStopping <;> simp [CurlHttpClient.set, CurlRequest.weight, hpoint, CurlPoint.weight]
  | complete =>
    have hstep : s.send = some ({ s with point := .popping }.set r { s.requests r with isComplete := true }) := by
      simp [CurlHttpClient.send, hpoint]
    refine ⟨.send, _, rfl, hstep, weight_update (r := r) hr rfl rfl ?_⟩
    simp [CurlHttpClient.set, CurlRequest.weight, hpoint, CurlPoint.weight]

/-- The thread comes to the messages, and takes them. -/
theorem Consistent.falls_of_thread (h : Consistent s)
    (hbusy : s.messages ≠ [] ∨ s.point ≠ .top ∧ s.point ≠ .popping) : Falls s := by
  cases hpoint : s.point with
  | top =>
    have hmessages : s.messages ≠ [] := hbusy.resolve_right (by simp [hpoint])
    refine ⟨.wake, _, rfl, if_pos ⟨hpoint, .inr hmessages⟩, ?_⟩
    simp only [CurlHttpClient.weight, hpoint, CurlPoint.weight]
    omega
  | popping =>
    obtain ⟨m, messages, hm⟩ := List.exists_cons_of_ne_nil (hbusy.resolve_right (by simp [hpoint]))
    exact h.falls_of_message hpoint hm
  | performing =>
    refine ⟨.performed 0, _, rfl, if_pos hpoint, ?_⟩
    simp only [CurlHttpClient.weight, hpoint, CurlPoint.weight]
    omega
  | reading => exact falls_of_reading hpoint
  | busy r work => exact h.falls_of_busy hpoint

/-- The thread has nothing to do. -/
structure Idle (s : CurlHttpClient) : Prop where
  messages : s.messages = []
  point : s.point = .top ∨ s.point = .popping

theorem Idle.work (h : Idle s) (r : ℕ) : s.point.work r = none := by
  rcases h.point with hpoint | hpoint
  · rw [hpoint]
    rfl
  · rw [hpoint]
    rfl

theorem Consistent.isComplete (h : Consistent s) (hidle : Idle s) (hr : r < s.started)
    (hstop : (s.requests r).stop ≠ .idle) : (s.requests r).isComplete = true := by
  have hone := (h.sound r hr).stops_eq_one hstop
  simp only [CurlHttpClient.life, hidle.messages, hidle.work r, List.count_nil, Option.any_none] at hone
  by_contra hnot
  simp [hnot] at hone

theorem weight_requests_call (s : CurlHttpClient) (job : Job) (i : ℕ) :
    ((s.call job).requests i).weight = (s.requests i).weight := by
  cases job with
  | other => rfl
  | data r body =>
    by_cases hi : i = r
    · subst hi
      simp [CurlHttpClient.call, CurlRequest.weight]
    · rw [CurlHttpClient.call, set_requests_of_ne hi]
  | final r =>
    by_cases hi : i = r
    · subst hi
      simp [CurlHttpClient.call, CurlRequest.weight]
    · rw [CurlHttpClient.call, set_requests_of_ne hi]

theorem weight_call (s : CurlHttpClient) (job : Job) : (s.call job).weight = s.weight := by
  have hsum : ∑ i ∈ range s.started, ((s.call job).requests i).weight = ∑ i ∈ range s.started, (s.requests i).weight :=
    sum_congr rfl fun i _ => weight_requests_call s job i
  unfold CurlHttpClient.weight
  rw [← hsum]
  cases job <;> rfl

/-- The queue runs its next function. -/
theorem falls_of_run (hmay : s.mayRun = true) (hjobs : s.jobs ≠ []) : Falls s := by
  obtain ⟨job, jobs, hjobs⟩ := List.exists_cons_of_ne_nil hjobs
  have hstep : s.run = some ({ s with jobs, stack := { job } :: s.stack }.call job) := by
    simp [CurlHttpClient.run, hjobs, hmay]
  refine ⟨.run, _, rfl, hstep, ?_⟩
  have hlength : s.jobs.length = jobs.length + 1 := by rw [hjobs]; rfl
  rw [weight_call]
  simp only [CurlHttpClient.weight, hlength, List.length_cons]
  omega

/-- The caller who stops a request goes on. -/
theorem Consistent.falls_of_stop (h : Consistent s) (hidle : Idle s) (hr : r < s.started)
    (hpending : (s.requests r).stop.isPending = true) (hat : s.isAt r = true)
    (hcleared : (s.requests r).stop = .clear → s.isCleared r = true) : Falls s := by
  have hstop : (s.requests r).stop ≠ .idle := by
    intro heq
    rw [heq] at hpending
    cases hpending
  have hcomplete := h.isComplete hidle hr hstop
  have hposted : (s.requests r).callbackPosted = true := (h.sound r hr).complete hcomplete
  have hfalls : ∀ q, s.advance r = some (s.set r q) → q.weight < (s.requests r).weight → Falls s := by
    intro q hstep hlt
    refine ⟨.advance r, _, rfl, hstep, weight_update (r := r) hr rfl rfl ?_⟩
    simp only [CurlHttpClient.set]
    omega
  cases hpoint : (s.requests r).stop with
  | idle => exact absurd hpoint hstop
  | returned =>
    rw [hpoint] at hpending
    cases hpending
  | delete =>
    have hstep : s.advance r = some { s.set r { s.requests r with stop := .returned } with
        stack := if (s.requests r).isInside then s.stack.modifyHead fun f => { f with stopping := none }
          else s.stack } := by
      simp [CurlHttpClient.advance, hr, hat, hpoint]
    refine ⟨.advance r, _, rfl, hstep, weight_update (r := r) hr rfl rfl ?_⟩
    have hlength : (if (s.requests r).isInside then s.stack.modifyHead fun f => { f with stopping := none }
        else s.stack).length = s.stack.length := by
      split_ifs <;> simp
    rw [hlength]
    simp only [CurlHttpClient.set, CurlRequest.weight, hpoint, StopPoint.weight]
    omega
  | complete =>
    exact hfalls { s.requests r with stop := .posted } (by simp [CurlHttpClient.advance, hr, hat, hpoint, hcomplete])
      (by simp [CurlRequest.weight, hpoint, StopPoint.weight])
  | posted =>
    exact hfalls { s.requests r with stop := .shutdown } (by simp [CurlHttpClient.advance, hr, hat, hpoint, hposted])
      (by simp [CurlRequest.weight, hpoint, StopPoint.weight])
  | shutdown =>
    exact hfalls { s.requests r with closing := true, stop := .clear }
      (by simp [CurlHttpClient.advance, hr, hat, hpoint]) (by simp [CurlRequest.weight, hpoint, StopPoint.weight])
  | clear =>
    exact hfalls { s.requests r with stop := .delete }
      (by simp [CurlHttpClient.advance, hr, hat, hpoint, hcleared hpoint])
      (by simp [CurlRequest.weight, hpoint, StopPoint.weight])

/-- What runs in the queue ends, or stops a request. -/
theorem Consistent.falls_of_stack (h : Consistent s) (hidle : Idle s) {f : Frame} {below : List Frame}
    (hstack : s.stack = f :: below) : Falls s := by
  cases hstopping : f.stopping with
  | none =>
    have hstep : s.finish = some { s with stack := below } := by
      simp [CurlHttpClient.finish, hstack, hstopping]
    refine ⟨.finish, _, rfl, hstep, ?_⟩
    have hlength : s.stack.length = below.length + 1 := by rw [hstack]; rfl
    simp only [CurlHttpClient.weight, hlength]
    omega
  | some r =>
    have hcount := h.stacked.count r
    rw [hstack, List.countP_cons_of_pos (by simp [hstopping])] at hcount
    have hboth : ((s.requests r).isInside && (s.requests r).stop.isPending) = true := by
      by_contra hnot
      rw [if_neg hnot] at hcount
      omega
    simp only [Bool.and_eq_true] at hboth
    have hr : r < s.started := by
      by_contra hge
      rw [h.orderly.fresh r (by omega)] at hboth
      cases hboth.1
    have hat : s.isAt r = true := by simp [CurlHttpClient.isAt, hstack, hstopping]
    by_cases hwaits : (s.requests r).stop = .clear ∧ s.isCleared r = false
    · -- It waits for a function in the queue, which runs meanwhile.
      obtain ⟨hpoint, hcleared⟩ := hwaits
      have hjob : s.jobs.any (·.request = some r) = true := by
        simp only [CurlHttpClient.isCleared, hboth.1, Bool.true_or, Bool.and_true] at hcleared
        obtain ⟨job, hmem, hjob⟩ := List.all_eq_false.mp hcleared
        exact List.any_eq_true.mpr ⟨job, hmem, by simpa using hjob⟩
      refine falls_of_run ?_ (List.ne_nil_of_mem (List.any_eq_true.mp hjob).choose_spec.1)
      simp [CurlHttpClient.mayRun, hstack, hstopping, hpoint, hjob]
    · refine h.falls_of_stop hidle hr hboth.2 hat fun hpoint => ?_
      by_contra hnot
      exact hwaits ⟨hpoint, by simpa using hnot⟩

theorem Consistent.answered (h : Consistent s) (hidle : Idle s) (hjobs : s.jobs = []) (hr : r < s.started)
    (hstop : (s.requests r).stop ≠ .complete)
    (hover : (s.requests r).stop ≠ .idle ∨ (s.requests r).completion ≠ none) : (s.requests r).Answered := by
  have hsound := h.sound r hr
  have hhandle : (s.requests r).handle = false := by
    by_contra hnot
    have hhandle : (s.requests r).handle = true := by simpa using hnot
    have hpoint := (hsound.waiting_of_handle hhandle).2.2
    have hcompletion := (hsound.unanswered hhandle).2.2.2
    rcases hover with hover | hover
    · rcases hpoint with hpoint | hpoint
      · exact hover hpoint
      · exact hstop hpoint
    · -- Curl has not reported what the thread has not read.
      have hcollecting : s.point.isCollecting = false := by
        rcases hidle.point with hpoint | hpoint
        · rw [hpoint]
          rfl
        · rw [hpoint]
          rfl
      have hnot := not_isFinished_of_not_isCollecting h.orderly hcollecting r
      have hcompletion : (s.requests r).completion = (s.requests r).transfer.completion := hcompletion
      rw [hcompletion] at hover
      cases htransfer : (s.requests r).transfer with
      | finished code status =>
        rw [htransfer] at hnot
        cases hnot
      | _ =>
        rw [htransfer] at hover
        exact hover rfl
  refine hsound.answered_of_posted ?_ ?_
  · simp [Life.isPosted, CurlHttpClient.life, hhandle, hidle.work r]
  · simp [CurlHttpClient.life, hjobs]

/-- **As long as not everything is over** some internal step leaves less to do. -/
theorem Consistent.falls (h : Consistent s) (hover : ¬ Over s) : Falls s := by
  by_cases hbusy : s.messages ≠ [] ∨ s.point ≠ .top ∧ s.point ≠ .popping
  · exact h.falls_of_thread hbusy
  · rw [not_or, not_not, not_and_or, not_not, not_not] at hbusy
    have hidle : Idle s := ⟨hbusy.1, hbusy.2⟩
    cases hstack : s.stack with
    | cons f below => exact h.falls_of_stack hidle hstack
    | nil =>
      by_cases hjobs : s.jobs = []
      · by_cases hpending : ∃ r < s.started, (s.requests r).stop.isPending = true
        · obtain ⟨r, hr, hpending⟩ := hpending
          have houtside : (s.requests r).isInside = false := by
            by_contra hnot
            have hcount := h.stacked.count r
            rw [hstack, hpending, (by simpa using hnot : (s.requests r).isInside = true)] at hcount
            cases hcount
          refine h.falls_of_stop hidle hr hpending (by simp [CurlHttpClient.isAt, houtside]) fun _ => ?_
          simp [CurlHttpClient.isCleared, hjobs, hstack]
        · have hstops : ∀ r < s.started, (s.requests r).stop = .idle ∨ (s.requests r).stop = .returned := by
            intro r hr
            cases hstop : (s.requests r).stop with
            | idle => exact .inl rfl
            | returned => exact .inr rfl
            | _ => exact absurd ⟨r, hr, by rw [hstop]; rfl⟩ hpending
          refine absurd ⟨hidle.messages, hjobs, hstack, hstops, fun r hr => ?_⟩ hover
          refine h.answered hidle hjobs hr ?_
          rcases hstops r hr with hstop | hstop
          · simp [hstop]
          · simp [hstop]
      · exact falls_of_run (by simp [CurlHttpClient.mayRun, hstack]) hjobs

/-- **The client settles.** -/
theorem Consistent.settles (h : Consistent s) : Settles s := by
  refine Machine.exists_trail (I := Consistent) CurlHttpClient.weight (fun s hs hover => ?_) h
  obtain ⟨l, s', hl, hstep, hlt⟩ := hs.falls hover
  exact ⟨l, s', hl, hstep, hs.step (curlStep_of_step hstep), hlt⟩

end HueStream.Curl
