import HueStream.Curl.CurlHttpClient

/-! # The life of one request

Seen from one request, the client is a protocol of its own: there are messages about it underway, the thread may
be busy with it, and functions for it are in the queue. What holds of every request (`Sound`) is kept by each of
its moves (`Sound.moves`); that the client only makes such moves is shown elsewhere. -/

namespace HueStream.Curl

/-- A request with the messages about it, what the thread does for it, and its functions in the queue. -/
structure Life where
  request : CurlRequest
  starts : ℕ
  stops : ℕ
  work : Option Work
  jobs : List Job

/-- The thread answers a message of `stop_request`. -/
def Work.isStopping : Work → Bool
  | .post isStopping | .posted isStopping => isStopping
  | .complete => true

/-- The thread is in `send_response`. -/
def Work.isSending : Work → Bool
  | .post _ | .posted _ => true
  | .complete => false

/-- ... and has not posted yet. -/
def Work.isPosting : Work → Bool
  | .post _ => true
  | _ => false

/-- The call of `_callback` that a posted function makes. -/
def Job.callback (q : CurlRequest) : Job → HttpCallback
  | .data _ body => .data body
  | _ => q.finalCallback

def Transfer.completion : Transfer → Option (CurlCode × ℕ)
  | .finished code status => some (code, status)
  | _ => none

/-- What is added to the queue of a request. -/
def CurlRequest.posts (q : CurlRequest) (jobs : List Job) : List Job := if q.closing then [] else jobs

/-- What may happen to the request `r`. -/
inductive Moves (r : ℕ) (v : Life) : Life → Prop
  | stop (isInside isWithin : Bool) (h : v.request.stop = .idle) : Moves r v { v with
      request := { v.request with stop := .complete, isInside, isWithin }
      stops := v.stops + 1 }
  | handOver (h : v.starts ≠ 0) : Moves r v { v with
      request := { v.request with transfer := .running, handed := v.request.handed + 1 }
      starts := v.starts - 1 }
  | cancel (h : v.stops ≠ 0) (hstarts : v.starts = 0) (hfinished : v.request.transfer.isFinished = false)
      (hwork : v.work = none) (hhandle : v.request.handle = true) : Moves r v { v with
      request := v.request.sendResponse .abortedByCallback 0
      stops := v.stops - 1
      work := some (.post true) }
  | acknowledge (h : v.stops ≠ 0) (hwork : v.work = none) (hhandle : v.request.handle = false) : Moves r v { v with
      stops := v.stops - 1
      work := some .complete }
  | write (w : Write) (h : v.request.transfer = .running) : Moves r v { v with
      request := { v.request with buffers := (v.request.buffers.write w).1 }
      jobs := v.jobs ++ v.request.posts ((v.request.buffers.write w).2.toList.map (.data r)) }
  | complete (code : CurlCode) (status : ℕ) (h : v.request.transfer = .running) : Moves r v { v with
      request := { v.request with transfer := .finished code status, completion := some (code, status) } }
  | read {code : CurlCode} {status : ℕ} (h : v.request.transfer = .finished code status) (hwork : v.work = none) :
      Moves r v { v with request := v.request.sendResponse code status, work := some (.post false) }
  | post {isStopping : Bool} (h : v.work = some (.post isStopping)) : Moves r v { v with
      jobs := v.jobs ++ v.request.posts [.final r]
      work := some (.posted isStopping) }
  | posted {isStopping : Bool} (h : v.work = some (.posted isStopping)) : Moves r v { v with
      request := { v.request with callbackPosted := true }
      work := if isStopping then some .complete else none }
  | completed (h : v.work = some .complete) : Moves r v { v with
      request := { v.request with isComplete := true }
      work := none }
  | seeComplete (h : v.request.stop = .complete) (hcomplete : v.request.isComplete = true) :
      Moves r v { v with request := { v.request with stop := .posted } }
  | seePosted (h : v.request.stop = .posted) (hposted : v.request.callbackPosted = true) :
      Moves r v { v with request := { v.request with stop := .shutdown } }
  | close (h : v.request.stop = .shutdown) :
      Moves r v { v with request := { v.request with closing := true, stop := .clear } }
  | clear (h : v.request.stop = .clear) (hjobs : v.jobs = []) :
      Moves r v { v with request := { v.request with stop := .delete } }
  | delete (h : v.request.stop = .delete) : Moves r v { v with request := { v.request with stop := .returned } }
  | call {job : Job} {jobs : List Job} (h : v.jobs = job :: jobs) : Moves r v { v with
      request := { v.request with called := v.request.called ++ [job.callback v.request] }
      jobs }

/-- The final callback has been posted. -/
def Life.isPosted (v : Life) : Bool := !v.request.handle && !v.work.any (·.isPosting)

/-- All functions that have been posted. -/
def Life.posted (r : ℕ) (v : Life) : List Job :=
  v.request.buffers.events.map (.data r) ++ if v.isPosted then [.final r] else []

/-- What holds of every request. -/
structure Sound (r : ℕ) (v : Life) : Prop where
  handed : v.starts + v.request.handed = 1
  fresh : v.starts ≠ 0 → v.request.transfer = .detached ∧ v.request.handle = true
  /-- The message of `stop_request` is underway, or the thread answers it, or has done so. -/
  stops : v.stops + (if v.work.any (·.isStopping) then 1 else 0) + (if v.request.isComplete then 1 else 0) =
    if v.request.stop = .idle then 0 else 1
  /-- Before `send_response`. -/
  unanswered : v.request.handle = true → v.request.response = none ∧ v.request.callbackPosted = false ∧
    v.work = none ∧ v.request.completion = v.request.transfer.completion
  /-- In `send_response` and after it. -/
  answered : v.request.handle = false → v.request.transfer = .detached ∧
    (∃ x, v.request.response = some x ∧ v.request.IsResult x) ∧
    v.request.callbackPosted = !v.work.any (·.isSending)
  complete : v.request.isComplete = true → v.request.callbackPosted = true
  waited : v.request.stop ≠ .idle → v.request.stop ≠ .complete → v.request.isComplete = true
  closing : v.request.closing = true → v.request.isComplete = true
  cleared : v.request.stop = .delete ∨ v.request.stop = .returned → v.jobs = []
  fits : v.request.buffers.Fits
  /-- What has been posted has run or is in the queue, in its order. -/
  delivered : ∃ ran, ran ++ v.jobs = v.posted r ∧ v.request.called = ran.map (·.callback v.request)

variable {r : ℕ} {v v' : Life} {q q' : CurlRequest} {x : HttpErrorCode × String} {job : Job} {jobs ran : List Job}

theorem Sound.init (r : ℕ) (expectEventStream hasFile : Bool) :
    Sound r ⟨{ buffers := { expectEventStream, hasFile } }, 1, 0, none, []⟩ := by
  refine ⟨rfl, fun _ => ⟨rfl, rfl⟩, rfl, fun _ => ⟨rfl, rfl, rfl, rfl⟩, ?_, ?_, ?_, ?_, ?_, ⟨?_, ?_⟩, [], ?_, rfl⟩
  all_goals simp [Buffers.body, Life.posted, Life.isPosted, Buffers.events]

theorem CurlRequest.IsResult.congr (h : q.IsResult x) (hcompletion : q'.completion = q.completion)
    (hbuffers : q'.buffers = q.buffers) (hstop : q.stop ≠ .idle → q'.stop ≠ .idle) : q'.IsResult x := by
  unfold IsResult at h ⊢
  rw [hcompletion, hbuffers]
  rcases h with h | ⟨hnone, hstopped, hx⟩
  · exact .inl h
  · exact .inr ⟨hnone, hstop hstopped, hx⟩

/-! ### The caller -/

/-- A move of the caller who stops the request. -/
theorem Sound.caller (h : Sound r v) (stop : StopPoint) (closing isInside isWithin : Bool) (stops : ℕ)
    (hstop : stop ≠ .idle)
    (hstops : stops + (if v.work.any (·.isStopping) then 1 else 0) + (if v.request.isComplete then 1 else 0) = 1)
    (hwaited : stop ≠ .complete → v.request.isComplete = true)
    (hclosing : closing = true → v.request.isComplete = true)
    (hcleared : stop = .delete ∨ stop = .returned → v.jobs = []) :
    Sound r { v with request := { v.request with stop, closing, isInside, isWithin }, stops } := by
  refine ⟨h.handed, h.fresh, ?_, h.unanswered, fun hhandle => ?_, h.complete, fun _ => hwaited, hclosing, hcleared,
    h.fits, h.delivered⟩
  · rw [if_neg hstop]
    exact hstops
  · obtain ⟨htransfer, ⟨x, hx, hresult⟩, hposted⟩ := h.answered hhandle
    exact ⟨htransfer, ⟨x, hx, hresult.congr rfl rfl fun _ => hstop⟩, hposted⟩

theorem Sound.stops_eq_one (h : Sound r v) (hstop : v.request.stop ≠ .idle) :
    v.stops + (if v.work.any (·.isStopping) then 1 else 0) + (if v.request.isComplete then 1 else 0) = 1 := by
  rw [h.stops, if_neg hstop]

/-! ### The thread -/

theorem isPosting_of_isSending {work : Option Work} (h : work.any (·.isSending) = false) :
    work.any (·.isPosting) = false := by
  cases work with
  | none => rfl
  | some work =>
    cases work with
    | complete => rfl
    | _ => cases h

/-- Before `send_response` all functions that were posted are about data. -/
theorem callback_of_mem {bodies : List String} (h : ran ++ jobs = bodies.map (.data r)) (hjob : job ∈ ran) :
    job.callback q = job.callback q' := by
  have hmem : job ∈ bodies.map (.data r) := h ▸ List.mem_append_left jobs hjob
  obtain ⟨body, -, rfl⟩ := List.mem_map.mp hmem
  rfl

theorem Life.posted_of_handle (hhandle : v.request.handle = true) :
    v.posted r = v.request.buffers.events.map (.data r) := by
  simp [Life.posted, Life.isPosted, hhandle]

/-- `send_response` begins: nothing is posted yet. -/
theorem Sound.sendResponse (h : Sound r v) (hhandle : v.request.handle = true) (hstarts : v.starts = 0)
    (code : CurlCode) (status stops : ℕ) (isStopping : Bool)
    (hresult : v.request.completion = some (code, status) ∨
      v.request.completion = none ∧ v.request.stop ≠ .idle ∧ code = .abortedByCallback)
    (hstops : stops + (if isStopping then 1 else 0) + (if v.request.isComplete then 1 else 0) =
      if v.request.stop = .idle then 0 else 1) :
    Sound r { v with
      request := v.request.sendResponse code status
      stops
      work := some (.post isStopping) } := by
  have hbody := h.fits.body
  obtain ⟨ran, hran, hcalled⟩ := h.delivered
  rw [Life.posted_of_handle hhandle] at hran
  refine ⟨h.handed, fun hne => absurd hstarts hne, hstops, fun hnot => ?_, fun _ => ⟨rfl, ⟨_, rfl, ?_⟩, ?_⟩,
    h.complete, h.waited, h.closing, h.cleared, h.fits, ran, ?_, ?_⟩
  · cases hnot
  · rw [hbody]
    rcases hresult with hcompletion | ⟨hcompletion, hstop, rfl⟩
    · exact .inl ⟨code, status, hcompletion, rfl⟩
    · exact .inr ⟨hcompletion, hstop, rfl⟩
  · exact (h.unanswered hhandle).2.1
  · rw [hran]
    simp [Life.posted, Life.isPosted, CurlRequest.sendResponse, Work.isPosting]
  · rw [CurlRequest.sendResponse, hcalled]
    exact List.map_congr_left fun job hjob => callback_of_mem hran hjob

theorem Sound.handle_of_transfer (h : Sound r v) (htransfer : v.request.transfer ≠ .detached) :
    v.request.handle = true ∧ v.starts = 0 := by
  constructor
  · by_contra hnot
    exact htransfer (h.answered (by simpa using hnot)).1
  · by_contra hne
    exact htransfer (h.fresh hne).1

/-- Before `send_response` nobody has stopped waiting for the request. -/
theorem Sound.waiting_of_handle (h : Sound r v) (hhandle : v.request.handle = true) :
    v.request.isComplete = false ∧ v.request.closing = false ∧
      (v.request.stop = .idle ∨ v.request.stop = .complete) := by
  have hcomplete : v.request.isComplete = false := by
    by_contra hnot
    have hposted := h.complete (by simpa using hnot)
    rw [(h.unanswered hhandle).2.1] at hposted
    cases hposted
  refine ⟨hcomplete, ?_, ?_⟩
  · by_contra hnot
    rw [h.closing (by simpa using hnot)] at hcomplete
    cases hcomplete
  · by_contra hnot
    rw [not_or] at hnot
    rw [h.waited hnot.1 hnot.2] at hcomplete
    cases hcomplete

/-- A write posts the next part of the events. -/
theorem Sound.write (h : Sound r v) (w : Write) (hrunning : v.request.transfer = .running) : Sound r { v with
      request := { v.request with buffers := (v.request.buffers.write w).1 }
      jobs := v.jobs ++ v.request.posts ((v.request.buffers.write w).2.toList.map (.data r)) } := by
  obtain ⟨hhandle, hstarts⟩ := h.handle_of_transfer (by simp [hrunning])
  obtain ⟨-, hopen, hstop⟩ := h.waiting_of_handle hhandle
  obtain ⟨ran, hran, hcalled⟩ := h.delivered
  rw [Life.posted_of_handle hhandle] at hran
  refine ⟨h.handed, fun hne => absurd hstarts hne, h.stops, h.unanswered, fun hnot => ?_, h.complete, h.waited,
    h.closing, fun hpoint => ?_, h.fits.write w, ran, ?_, ?_⟩
  · exact absurd (hhandle.symm.trans hnot) (by simp)
  · dsimp only at hpoint
    rcases hstop with hstop | hstop
    · simp [hstop] at hpoint
    · simp [hstop] at hpoint
  · simp only [Life.posted, Life.isPosted, CurlRequest.posts, hhandle, hopen, h.fits.events_write w]
    simp [← hran]
  · rw [hcalled]
    exact List.map_congr_left fun job hjob => callback_of_mem hran hjob

/-- When the thread is busy with the request, `send_response` has begun. -/
theorem Sound.handle_of_work (h : Sound r v) {work : Work} (hwork : v.work = some work) : v.request.handle = false := by
  by_contra hnot
  have hnone := (h.unanswered (by simpa using hnot)).2.2.1
  rw [hwork] at hnone
  cases hnone

theorem Sound.waiting_of_not_posted (h : Sound r v) (hposted : v.request.callbackPosted = false) :
    v.request.closing = false ∧ ¬ (v.request.stop = .delete ∨ v.request.stop = .returned) := by
  have hcomplete : v.request.isComplete ≠ true := by
    intro hcomplete
    rw [h.complete hcomplete] at hposted
    cases hposted
  constructor
  · by_contra hnot
    exact hcomplete (h.closing (by simpa using hnot))
  · rintro (hpoint | hpoint)
    · exact hcomplete (h.waited (by simp [hpoint]) (by simp [hpoint]))
    · exact hcomplete (h.waited (by simp [hpoint]) (by simp [hpoint]))

/-- The final callback is posted after all others. -/
theorem Sound.post (h : Sound r v) {isStopping : Bool} (hwork : v.work = some (.post isStopping)) : Sound r { v with
      jobs := v.jobs ++ v.request.posts [.final r]
      work := some (.posted isStopping) } := by
  have hhandle := h.handle_of_work hwork
  obtain ⟨htransfer, hresult, hposted⟩ := h.answered hhandle
  have hnot : v.request.callbackPosted = false := by rw [hposted, hwork]; rfl
  obtain ⟨hopen, hpoint⟩ := h.waiting_of_not_posted hnot
  have hstops := h.stops
  rw [hwork] at hstops
  obtain ⟨ran, hran, hcalled⟩ := h.delivered
  refine ⟨h.handed, h.fresh, hstops, fun hopen => ?_, fun _ => ⟨htransfer, hresult, hnot⟩, h.complete, h.waited, h.closing,
    fun hp => absurd hp hpoint, h.fits, ran, ?_, hcalled⟩
  · exact absurd (hhandle.symm.trans hopen) (by simp)
  · rw [Life.posted, Life.isPosted, hwork] at hran
    simp only [Life.posted, Life.isPosted, CurlRequest.posts, hopen, hhandle]
    simp [← List.append_assoc, hran, Work.isPosting]

theorem Sound.setPosted (h : Sound r v) {isStopping : Bool} (hwork : v.work = some (.posted isStopping)) :
    Sound r { v with
      request := { v.request with callbackPosted := true }
      work := if isStopping then some .complete else none } := by
  have hhandle := h.handle_of_work hwork
  obtain ⟨htransfer, ⟨x, hx, hresult⟩, -⟩ := h.answered hhandle
  have hstops := h.stops
  rw [hwork] at hstops
  obtain ⟨ran, hran, hcalled⟩ := h.delivered
  refine ⟨h.handed, h.fresh, ?_, fun hopen => ?_, fun _ => ⟨htransfer, ⟨x, hx, hresult⟩, ?_⟩, fun _ => rfl, h.waited,
    h.closing, h.cleared, h.fits, ran, ?_, hcalled⟩
  · rw [← hstops]
    cases isStopping <;> simp [Work.isStopping]
  · exact absurd (hhandle.symm.trans hopen) (by simp)
  · cases isStopping <;> rfl
  · rw [hran, Life.posted, Life.posted, Life.isPosted, Life.isPosted, hwork]
    cases isStopping <;> rfl

theorem Sound.setComplete (h : Sound r v) (hwork : v.work = some .complete) :
    Sound r { v with request := { v.request with isComplete := true }, work := none } := by
  have hhandle := h.handle_of_work hwork
  obtain ⟨htransfer, ⟨x, hx, hresult⟩, hposted⟩ := h.answered hhandle
  rw [hwork] at hposted
  have hstops := h.stops
  rw [hwork] at hstops
  obtain ⟨ran, hran, hcalled⟩ := h.delivered
  refine ⟨h.handed, h.fresh, ?_, fun hopen => ?_, fun _ => ⟨htransfer, ⟨x, hx, hresult⟩, hposted⟩, fun _ => hposted,
    fun _ _ => rfl, fun _ => rfl, h.cleared, h.fits, ran, ?_, hcalled⟩
  · have hle : (if v.request.stop = .idle then 0 else 1) ≤ 1 := by split_ifs <;> simp
    simp only [Option.any_some, Work.isStopping, if_true] at hstops
    rw [← hstops] at hle ⊢
    have hnot : v.request.isComplete ≠ true := by
      intro hcomplete
      rw [if_pos hcomplete] at hle
      omega
    rw [if_neg hnot]
    simp
  · exact absurd (hhandle.symm.trans hopen) (by simp)
  · rw [hran, Life.posted, Life.posted, Life.isPosted, Life.isPosted, hwork]
    rfl

theorem Sound.call (h : Sound r v) (hjobs : v.jobs = job :: jobs) : Sound r { v with
      request := { v.request with called := v.request.called ++ [job.callback v.request] }
      jobs } := by
  obtain ⟨ran, hran, hcalled⟩ := h.delivered
  refine ⟨h.handed, h.fresh, h.stops, h.unanswered, h.answered, h.complete, h.waited, h.closing, fun hpoint => ?_, h.fits,
    ran ++ [job], ?_, ?_⟩
  · have hnil := h.cleared hpoint
    rw [hjobs] at hnil
    cases hnil
  · rw [hjobs] at hran
    rw [List.append_assoc]
    exact hran
  · rw [hcalled, List.map_append]
    rfl

/-! ### Every move -/

theorem Sound.moves (h : Sound r v) (hmoves : Moves r v v') : Sound r v' := by
  cases hmoves with
  | stop isInside isWithin hidle =>
    refine h.caller .complete v.request.closing isInside isWithin _ (by simp) ?_ (by simp) h.closing (by simp)
    have hstops := h.stops
    rw [if_pos hidle] at hstops
    omega
  | handOver hstarts =>
    obtain ⟨hdetached, hhandle⟩ := h.fresh hstarts
    have hhanded := h.handed
    refine ⟨?_, fun hne => ?_, h.stops, fun _ => ?_, fun hnot => ?_, h.complete, h.waited, h.closing, h.cleared, h.fits,
      h.delivered⟩
    · dsimp only
      omega
    · dsimp only at hne
      omega
    · obtain ⟨hresponse, hposted, hwork, hcompletion⟩ := h.unanswered hhandle
      refine ⟨hresponse, hposted, hwork, ?_⟩
      rw [hdetached] at hcompletion
      exact hcompletion
    · exact absurd (hhandle.symm.trans hnot) (by simp)
  | cancel hstops hstarts hfinished hwork hhandle =>
    have hcompletion := (h.unanswered hhandle).2.2.2
    have hone := h.stops
    rw [hwork] at hone
    have hstop : v.request.stop ≠ .idle := by
      intro hidle
      rw [if_pos hidle] at hone
      omega
    refine h.sendResponse hhandle hstarts .abortedByCallback 0 (v.stops - 1) true (.inr ⟨?_, hstop, rfl⟩) ?_
    · cases htransfer : v.request.transfer with
      | finished code status =>
        rw [htransfer] at hfinished
        cases hfinished
      | _ =>
        rw [htransfer] at hcompletion
        exact hcompletion
    · rw [← hone]
      simp
      omega
  | acknowledge hstops hwork hhandle =>
    obtain ⟨htransfer, hresult, hposted⟩ := h.answered hhandle
    rw [hwork] at hposted
    have hone := h.stops
    rw [hwork] at hone
    obtain ⟨ran, hran, hcalled⟩ := h.delivered
    refine ⟨h.handed, h.fresh, ?_, fun hnot => ?_, fun _ => ⟨htransfer, hresult, hposted⟩, h.complete, h.waited,
      h.closing, h.cleared, h.fits, ran, ?_, hcalled⟩
    · rw [← hone]
      simp [Work.isStopping]
      omega
    · exact absurd (hhandle.symm.trans hnot) (by simp)
    · rw [hran]
      simp [Life.posted, Life.isPosted, hwork, Work.isPosting]
  | write w hrunning => exact h.write w hrunning
  | complete code status hrunning =>
    obtain ⟨hhandle, hstarts⟩ := h.handle_of_transfer (by simp [hrunning])
    refine ⟨h.handed, fun hne => absurd hstarts hne, h.stops, fun _ => ?_, fun hnot => ?_, h.complete, h.waited, h.closing,
      h.cleared, h.fits, h.delivered⟩
    · obtain ⟨hresponse, hposted, hwork, -⟩ := h.unanswered hhandle
      exact ⟨hresponse, hposted, hwork, rfl⟩
    · exact absurd (hhandle.symm.trans hnot) (by simp)
  | @read code status hfinished hwork =>
    obtain ⟨hhandle, hstarts⟩ := h.handle_of_transfer (by simp [hfinished])
    have hcompletion := (h.unanswered hhandle).2.2.2
    rw [hfinished] at hcompletion
    have hone := h.stops
    rw [hwork] at hone
    exact h.sendResponse hhandle hstarts code status v.stops false (.inl hcompletion) (by simpa using hone)
  | post hwork => exact h.post hwork
  | posted hwork => exact h.setPosted hwork
  | completed hwork => exact h.setComplete hwork
  | seeComplete hpoint hcomplete =>
    exact h.caller .posted v.request.closing v.request.isInside v.request.isWithin v.stops (by simp)
      (h.stops_eq_one (by simp [hpoint])) (fun _ => hcomplete) h.closing (by simp)
  | seePosted hpoint hposted =>
    exact h.caller .shutdown v.request.closing v.request.isInside v.request.isWithin v.stops (by simp)
      (h.stops_eq_one (by simp [hpoint])) (fun _ => h.waited (by simp [hpoint]) (by simp [hpoint])) h.closing (by simp)
  | close hpoint =>
    have hcomplete := h.waited (by simp [hpoint]) (by simp [hpoint])
    exact h.caller .clear true v.request.isInside v.request.isWithin v.stops (by simp)
      (h.stops_eq_one (by simp [hpoint])) (fun _ => hcomplete) (fun _ => hcomplete) (by simp)
  | clear hpoint hjobs =>
    exact h.caller .delete v.request.closing v.request.isInside v.request.isWithin v.stops (by simp)
      (h.stops_eq_one (by simp [hpoint])) (fun _ => h.waited (by simp [hpoint]) (by simp [hpoint])) h.closing
      (fun _ => hjobs)
  | delete hpoint =>
    exact h.caller .returned v.request.closing v.request.isInside v.request.isWithin v.stops (by simp)
      (h.stops_eq_one (by simp [hpoint])) (fun _ => h.waited (by simp [hpoint]) (by simp [hpoint])) h.closing
      (fun _ => h.cleared (.inl hpoint))
  | call hjobs => exact h.call hjobs

end HueStream.Curl
