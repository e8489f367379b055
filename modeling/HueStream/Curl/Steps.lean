import HueStream.Curl.Life

/-! # The steps of the client

The cases of a step (`CurlStep`), and that each is at most a move of one request (`life_of_step`), given that the
messages about a request come in their order (`Orderly`). -/

namespace HueStream.Curl

open HueStream.Lib

/-- Where `stop_request` goes next. -/
inductive StopStep (s : CurlHttpClient) (r : ℕ) : CurlHttpClient → Prop
  | seeComplete (h : (s.requests r).stop = .complete) (hcomplete : (s.requests r).isComplete = true) :
      StopStep s r (s.set r { s.requests r with stop := .posted })
  | seePosted (h : (s.requests r).stop = .posted) (hposted : (s.requests r).callbackPosted = true) :
      StopStep s r (s.set r { s.requests r with stop := .shutdown })
  | close (h : (s.requests r).stop = .shutdown) :
      StopStep s r (s.set r { s.requests r with closing := true, stop := .clear })
  | clear (h : (s.requests r).stop = .clear) (hcleared : s.isCleared r = true) :
      StopStep s r (s.set r { s.requests r with stop := .delete })
  | delete (h : (s.requests r).stop = .delete) :
      StopStep s r { s.set r { s.requests r with stop := .returned } with
        stack := if (s.requests r).isInside then s.stack.modifyHead fun f => { f with stopping := none } else s.stack }

/-- What the thread makes of a message. -/
inductive PopStep (s : CurlHttpClient) : CurlHttpClient → Prop
  | none (h : s.messages = []) : PopStep s { s with messages := [], point := .performing }
  | start {r : ℕ} {messages : List Message} (h : s.messages = .start r :: messages) :
      PopStep s ({ s with messages }.set r
        { s.requests r with transfer := .running, handed := (s.requests r).handed + 1 })
  | cancel {r : ℕ} {messages : List Message} (h : s.messages = .stop r :: messages)
      (hhandle : (s.requests r).handle = true) :
      PopStep s ({ s with messages, point := .busy r (.post true) }.set r
        ((s.requests r).sendResponse .abortedByCallback 0))
  | acknowledge {r : ℕ} {messages : List Message} (h : s.messages = .stop r :: messages)
      (hhandle : (s.requests r).handle = false) : PopStep s { s with messages, point := .busy r .complete }

/-- The cases of a step. -/
inductive CurlStep (s : CurlHttpClient) : CurlLabel → CurlHttpClient → Prop
  | start (expectEventStream hasFile : Bool) :
      CurlStep s (.start expectEventStream hasFile) (s.start expectEventStream hasFile)
  | stop {r : ℕ} {isInside : Bool} (hr : r < s.started) (hidle : (s.requests r).stop = .idle)
      (hfree : isInside = true → s.isFree = true) : CurlStep s (.stop r isInside) { s with
        requests := Function.update s.requests r { s.requests r with
          stop := .complete
          isInside
          isWithin := isInside && s.stack.any (·.job.request = some r) }
        messages := s.messages ++ [.stop r]
        stack := if isInside then s.stack.modifyHead fun f => { f with stopping := some r } else s.stack }
  | advance {r : ℕ} {s' : CurlHttpClient} (hr : r < s.started) (hat : s.isAt r = true) (h : StopStep s r s') :
      CurlStep s (.advance r) s'
  | postOther : CurlStep s .postOther { s with jobs := s.jobs ++ [.other] }
  | run {job : Job} {jobs : List Job} (hjobs : s.jobs = job :: jobs) (hmay : s.mayRun = true) :
      CurlStep s .run ({ s with jobs, stack := { job } :: s.stack }.call job)
  | finish {f : Frame} {stack : List Frame} (hstack : s.stack = f :: stack) (hfree : f.stopping = none) :
      CurlStep s .finish { s with stack }
  | wake (hpoint : s.point = .top) : CurlStep s .wake { s with point := .popping }
  | pop {s' : CurlHttpClient} (hpoint : s.point = .popping) (h : PopStep s s') : CurlStep s .pop s'
  | write {r : ℕ} (w : Write) (hpoint : s.point = .performing) (hr : r < s.started)
      (hrunning : (s.requests r).transfer = .running) : CurlStep s (.write r w) (s.written r w)
  | complete {r : ℕ} (code : CurlCode) (status : ℕ) (hpoint : s.point = .performing) (hr : r < s.started)
      (hrunning : (s.requests r).transfer = .running) : CurlStep s (.complete r code status) (s.set r
        { s.requests r with transfer := .finished code status, completion := some (code, status) })
  | performed (numActive : ℕ) (hpoint : s.point = .performing) :
      CurlStep s (.performed numActive) { s with point := .reading, numActive }
  | read {r : ℕ} {code : CurlCode} {status : ℕ} (hpoint : s.point = .reading) (hr : r < s.started)
      (hfinished : (s.requests r).transfer = .finished code status) : CurlStep s (.read r)
      ({ s with point := .busy r (.post false) }.set r ((s.requests r).sendResponse code status))
  | readNone (hpoint : s.point = .reading)
      (hnone : ∀ r < s.started, (s.requests r).transfer.isFinished = false) :
      CurlStep s .readNone { s with point := .top }
  | post {r : ℕ} {isStopping : Bool} (hpoint : s.point = .busy r (.post isStopping)) :
      CurlStep s .send { s.post r (.final r) with point := .busy r (.posted isStopping) }
  | posted {r : ℕ} {isStopping : Bool} (hpoint : s.point = .busy r (.posted isStopping)) : CurlStep s .send
      ({ s with point := if isStopping then .busy r .complete else .reading }.set r
        { s.requests r with callbackPosted := true })
  | completed {r : ℕ} (hpoint : s.point = .busy r .complete) : CurlStep s .send
      ({ s with point := .popping }.set r { s.requests r with isComplete := true })

variable {s s' : CurlHttpClient} {r : ℕ} {l : CurlLabel}

theorem stopStep_of_advance (h : s.advance r = some s') : r < s.started ∧ s.isAt r = true ∧ StopStep s r s' := by
  unfold CurlHttpClient.advance at h
  obtain ⟨⟨hr, hat⟩, h⟩ := Option.ite_none_right_eq_some.mp h
  refine ⟨hr, hat, ?_⟩
  cases hstop : (s.requests r).stop with
  | complete =>
    simp only [hstop] at h
    obtain ⟨hcomplete, h⟩ := Option.ite_none_right_eq_some.mp h
    exact Option.some.inj h ▸ .seeComplete hstop hcomplete
  | posted =>
    simp only [hstop] at h
    obtain ⟨hposted, h⟩ := Option.ite_none_right_eq_some.mp h
    exact Option.some.inj h ▸ .seePosted hstop hposted
  | shutdown =>
    simp only [hstop] at h
    exact Option.some.inj h ▸ .close hstop
  | clear =>
    simp only [hstop] at h
    obtain ⟨hcleared, h⟩ := Option.ite_none_right_eq_some.mp h
    exact Option.some.inj h ▸ .clear hstop hcleared
  | delete =>
    simp only [hstop] at h
    exact Option.some.inj h ▸ .delete hstop
  | _ => simp [hstop] at h

theorem popStep_of_pop (h : s.pop = some s') : s.point = .popping ∧ PopStep s s' := by
  unfold CurlHttpClient.pop at h
  obtain ⟨hpoint, h⟩ := Option.ite_none_right_eq_some.mp h
  refine ⟨hpoint, ?_⟩
  cases hmessages : s.messages with
  | nil =>
    simp only [hmessages] at h
    obtain rfl := Option.some.inj h
    exact .none hmessages
  | cons m messages =>
    cases m with
    | start r =>
      simp only [hmessages] at h
      exact Option.some.inj h ▸ .start hmessages
    | stop r =>
      simp only [hmessages] at h
      split_ifs at h with hhandle
      · exact Option.some.inj h ▸ .cancel hmessages hhandle
      · exact Option.some.inj h ▸ .acknowledge hmessages (by simpa using hhandle)

theorem curlStep_of_step (h : curlHttpClient.step s l = some s') : CurlStep s l s' := by
  cases l with
  | start expectEventStream hasFile => exact Option.some.inj h ▸ .start expectEventStream hasFile
  | stop r isInside =>
    have h : s.stop r isInside = some s' := h
    unfold CurlHttpClient.stop at h
    obtain ⟨hguard, h⟩ := Option.ite_none_right_eq_some.mp h
    obtain rfl := Option.some.inj h
    exact .stop hguard.1 hguard.2.1 hguard.2.2
  | advance r =>
    obtain ⟨hr, hat, hstep⟩ := stopStep_of_advance h
    exact .advance hr hat hstep
  | postOther => exact Option.some.inj h ▸ .postOther
  | run =>
    have h : s.run = some s' := h
    unfold CurlHttpClient.run at h
    cases hjobs : s.jobs with
    | nil => simp [hjobs] at h
    | cons job jobs =>
      simp only [hjobs] at h
      obtain ⟨hmay, h⟩ := Option.ite_none_right_eq_some.mp h
      exact Option.some.inj h ▸ .run hjobs hmay
  | finish =>
    have h : s.finish = some s' := h
    unfold CurlHttpClient.finish at h
    cases hstack : s.stack with
    | nil => simp [hstack] at h
    | cons f stack =>
      simp only [hstack] at h
      obtain ⟨hfree, h⟩ := Option.ite_none_right_eq_some.mp h
      exact Option.some.inj h ▸ .finish hstack hfree
  | wake =>
    have h : s.wake = some s' := h
    unfold CurlHttpClient.wake at h
    obtain ⟨hguard, h⟩ := Option.ite_none_right_eq_some.mp h
    exact Option.some.inj h ▸ .wake hguard.1
  | pop =>
    obtain ⟨hpoint, hstep⟩ := popStep_of_pop h
    exact .pop hpoint hstep
  | write r w =>
    have h : s.write r w = some s' := h
    unfold CurlHttpClient.write at h
    obtain ⟨hguard, h⟩ := Option.ite_none_right_eq_some.mp h
    exact Option.some.inj h ▸ .write w hguard.1 hguard.2.1 hguard.2.2
  | complete r code status =>
    have h : s.complete r code status = some s' := h
    unfold CurlHttpClient.complete at h
    obtain ⟨hguard, h⟩ := Option.ite_none_right_eq_some.mp h
    exact Option.some.inj h ▸ .complete code status hguard.1 hguard.2.1 hguard.2.2
  | performed numActive =>
    have h : s.performed numActive = some s' := h
    unfold CurlHttpClient.performed at h
    obtain ⟨hpoint, h⟩ := Option.ite_none_right_eq_some.mp h
    exact Option.some.inj h ▸ .performed numActive hpoint
  | read r =>
    have h : s.read r = some s' := h
    unfold CurlHttpClient.read at h
    cases htransfer : (s.requests r).transfer with
    | finished code status =>
      simp only [htransfer] at h
      obtain ⟨hguard, h⟩ := Option.ite_none_right_eq_some.mp h
      exact Option.some.inj h ▸ .read hguard.1 hguard.2 htransfer
    | _ => simp [htransfer] at h
  | readNone =>
    have h : s.readNone = some s' := h
    unfold CurlHttpClient.readNone at h
    obtain ⟨hguard, h⟩ := Option.ite_none_right_eq_some.mp h
    exact Option.some.inj h ▸ .readNone hguard.1 hguard.2
  | send =>
    have h : s.send = some s' := h
    unfold CurlHttpClient.send at h
    cases hpoint : s.point with
    | busy r work =>
      cases work with
      | post isStopping =>
        simp only [hpoint] at h
        exact Option.some.inj h ▸ .post hpoint
      | posted isStopping =>
        simp only [hpoint] at h
        exact Option.some.inj h ▸ .posted hpoint
      | complete =>
        simp only [hpoint] at h
        exact Option.some.inj h ▸ .completed hpoint
    | _ => simp [hpoint] at h

/-! ### What a step does to one request -/

/-- What the thread does for a request. -/
def CurlPoint.work (r : ℕ) : CurlPoint → Option Work
  | .busy r' work => if r' = r then some work else none
  | _ => none

/-- The thread may know of completions it has not read. -/
def CurlPoint.isCollecting : CurlPoint → Bool
  | .performing | .reading => true
  | .busy _ (.post isStopping) | .busy _ (.posted isStopping) => !isStopping
  | _ => false

namespace CurlHttpClient

def life (s : CurlHttpClient) (r : ℕ) : Life :=
  ⟨s.requests r, s.messages.count (.start r), s.messages.count (.stop r), s.point.work r,
    s.jobs.filter (·.request = some r)⟩

end CurlHttpClient

def Message.request : Message → ℕ
  | .start r | .stop r => r

/-- Everything is about requests that were started, the message that starts a request comes before the one that
stops it, and what curl has reported is read before the next message. -/
structure Orderly (s : CurlHttpClient) : Prop where
  fresh : ∀ r, s.started ≤ r → s.requests r = {}
  messages : ∀ m ∈ s.messages, m.request < s.started
  jobs : ∀ job ∈ s.jobs, ∀ r, job.request = some r → r < s.started
  busy : ∀ r work, s.point = .busy r work → r < s.started
  ordered : s.messages.Pairwise fun m m' => ∀ r, m = .stop r → m' ≠ .start r
  collecting : ∀ r, (s.requests r).transfer.isFinished = true → s.point.isCollecting = true

@[simp] theorem set_requests_self (q : CurlRequest) : (s.set r q).requests r = q := Function.update_self ..

theorem set_requests_of_ne {r' : ℕ} (h : r' ≠ r) (q : CurlRequest) : (s.set r q).requests r' = s.requests r' :=
  Function.update_of_ne h ..

/-- A message about another request. -/
theorem count_concat_of_ne {m m' : Message} (h : m ≠ m') (messages : List Message) :
    (messages ++ [m]).count m' = messages.count m' := by
  rw [List.count_append, List.count_singleton, if_neg (by simpa using h), Nat.add_zero]

theorem count_cons_of_ne {m m' : Message} (h : m ≠ m') (messages : List Message) :
    (m :: messages).count m' = messages.count m' := by
  rw [List.count_cons, if_neg (by simpa using h), Nat.add_zero]

theorem life_set (q : CurlRequest) : (s.set r q).life r = { s.life r with request := q } := by
  simp only [CurlHttpClient.life, set_requests_self]
  rfl

theorem life_set_of_ne {r' : ℕ} (h : r' ≠ r) (q : CurlRequest) : (s.set r q).life r' = s.life r' := by
  simp only [CurlHttpClient.life, set_requests_of_ne h]
  rfl

/-- Messages before one that stops a request: none that starts it comes later. -/
theorem Orderly.count_start (ho : Orderly s) {messages : List Message} (h : s.messages = .stop r :: messages) :
    s.messages.count (.start r) = 0 := by
  rw [List.count_eq_zero, h]
  intro hmem
  have hordered := ho.ordered
  rw [h, List.pairwise_cons] at hordered
  rcases List.mem_cons.mp hmem with heq | hmem
  · cases heq
  · exact hordered.1 _ hmem r rfl rfl

theorem work_of_point {point : CurlPoint} (h : ∀ r' work, point ≠ .busy r' work) : point.work r = none := by
  cases point with
  | busy r' work => exact absurd rfl (h r' work)
  | _ => rfl

theorem work_busy (work : Work) : (CurlPoint.busy r work).work r = some work := if_pos rfl

theorem work_busy_of_ne {r' : ℕ} (h : r' ≠ r) (work : Work) : (CurlPoint.busy r' work).work r = none := if_neg h

theorem life_of_stopStep {r' : ℕ} (h : StopStep s r' s') :
    s'.life r = s.life r ∨ Moves r (s.life r) (s'.life r) := by
  by_cases hrr : r = r'
  · subst hrr
    refine .inr ?_
    cases h with
    | seeComplete hpoint hcomplete => exact life_set (s := s) _ ▸ .seeComplete hpoint hcomplete
    | seePosted hpoint hposted => exact life_set (s := s) _ ▸ .seePosted hpoint hposted
    | close hpoint => exact life_set (s := s) _ ▸ .close hpoint
    | clear hpoint hcleared =>
      refine life_set (s := s) _ ▸ .clear hpoint ?_
      simp only [CurlHttpClient.isCleared, Bool.and_eq_true, List.all_eq_true] at hcleared
      exact List.filter_eq_nil_iff.mpr fun job hjob => by simpa using hcleared.1 job hjob
    | delete hpoint =>
      have hm := Moves.delete (r := r) (v := s.life r) hpoint
      rw [← life_set] at hm
      exact hm
  · refine .inl ?_
    cases h with
    | delete hpoint => exact life_set_of_ne (s := s) hrr _
    | _ => exact life_set_of_ne hrr _

theorem life_of_popStep (h : PopStep s s') (ho : Orderly s) (hpoint : s.point = .popping) :
    s'.life r = s.life r ∨ Moves r (s.life r) (s'.life r) := by
  have hwork : (s.life r).work = none := by
    simp [CurlHttpClient.life, hpoint, CurlPoint.work]
  cases h with
  | none hmessages => 
    refine .inl ?_
    simp [CurlHttpClient.life, hmessages, hpoint, CurlPoint.work]
  | @start r' messages hmessages =>
    by_cases hrr : r = r'
    · subst hrr
      refine .inr ?_
      have hm := Moves.handOver (r := r) (v := s.life r) (by simp [CurlHttpClient.life, hmessages])
      simpa [CurlHttpClient.life, hmessages, CurlHttpClient.set] using hm
    · refine .inl ?_
      rw [life_set_of_ne hrr]
      simp [CurlHttpClient.life, hmessages, Ne.symm hrr]
  | @cancel r' messages hmessages hhandle =>
    by_cases hrr : r = r'
    · subst hrr
      refine .inr ?_
      have hfinished : (s.requests r).transfer.isFinished = false := by
        by_contra hnot
        have hcollecting := ho.collecting r (by simpa using hnot)
        rw [hpoint] at hcollecting
        cases hcollecting
      have hm := Moves.cancel (r := r) (v := s.life r) (by simp [CurlHttpClient.life, hmessages])
        (ho.count_start hmessages) hfinished hwork hhandle
      simpa [CurlHttpClient.life, hmessages, CurlHttpClient.set, work_busy] using hm
    · refine .inl ?_
      rw [life_set_of_ne hrr]
      simp [CurlHttpClient.life, hmessages, Ne.symm hrr, hpoint, CurlPoint.work]
  | @acknowledge r' messages hmessages hhandle =>
    by_cases hrr : r = r'
    · subst hrr
      refine .inr ?_
      have hm := Moves.acknowledge (r := r) (v := s.life r) (by simp [CurlHttpClient.life, hmessages]) hwork hhandle
      simpa [CurlHttpClient.life, hmessages, work_busy] using hm
    · refine .inl ?_
      simp [CurlHttpClient.life, hmessages, Ne.symm hrr, hpoint, CurlPoint.work]

theorem post_eq (job : Job) : s.post r job = { s with jobs := s.jobs ++ (s.requests r).posts [job] } := by
  unfold CurlHttpClient.post CurlRequest.posts
  split_ifs
  · rw [List.append_nil]
  · rfl

theorem written_eq (w : Write) : s.written r w = { s with
    requests := Function.update s.requests r { s.requests r with buffers := ((s.requests r).buffers.write w).1 }
    jobs := s.jobs ++ (s.requests r).posts (((s.requests r).buffers.write w).2.toList.map (.data r)) } := by
  unfold CurlHttpClient.written
  cases hbody : ((s.requests r).buffers.write w).2 with
  | none => simp [hbody, CurlRequest.posts, CurlHttpClient.set]
  | some body =>
    simp only [hbody, Option.elim_some, post_eq, set_requests_self]
    rfl

/-- The jobs that are added for a request. -/
theorem filter_posts (jobs : List Job) (h : ∀ job ∈ jobs, job.request = some r) (q : CurlRequest) (r' : ℕ) :
    (q.posts jobs).filter (·.request = some r') = if r' = r then q.posts jobs else [] := by
  have hall : ∀ job ∈ q.posts jobs, job.request = some r := by
    unfold CurlRequest.posts
    split_ifs
    · simp
    · exact h
  split_ifs with hrr
  · refine List.filter_eq_self.mpr fun job hjob => ?_
    simp [hall job hjob, hrr]
  · refine List.filter_eq_nil_iff.mpr fun job hjob => ?_
    simp [hall job hjob, Ne.symm hrr]

theorem life_of_write {r' : ℕ} (w : Write) (hrunning : (s.requests r').transfer = .running) :
    (s.written r' w).life r = s.life r ∨ Moves r (s.life r) ((s.written r' w).life r) := by
  have hfilter := filter_posts (r := r') (((s.requests r').buffers.write w).2.toList.map (.data r'))
    (by simp [Job.request]) (s.requests r') r
  rw [written_eq]
  by_cases hrr : r = r'
  · subst hrr
    rw [if_pos rfl] at hfilter
    have hm := Moves.write (r := r) (v := s.life r) w hrunning
    refine .inr ?_
    simpa [CurlHttpClient.life, hfilter] using hm
  · rw [if_neg hrr] at hfilter
    refine .inl ?_
    simp [CurlHttpClient.life, hfilter, Function.update_of_ne hrr]

/-- A function that runs is taken from the queue. -/
theorem life_of_run {job : Job} {jobs : List Job} (hjobs : s.jobs = job :: jobs) (stack : List Frame) :
    (({ s with jobs, stack } : CurlHttpClient).call job).life r = s.life r ∨
      Moves r (s.life r) ((({ s with jobs, stack } : CurlHttpClient).call job).life r) := by
  by_cases hjob : job.request = some r
  · refine .inr ?_
    have hlife : (s.life r).jobs = job :: jobs.filter (·.request = some r) := by
      simp [CurlHttpClient.life, hjobs, hjob]
    have hm := Moves.call (r := r) hlife
    cases job with
    | other => cases hjob
    | data r' body =>
      obtain rfl := Option.some.inj hjob
      rw [CurlHttpClient.call, life_set]
      exact hm
    | final r' =>
      obtain rfl := Option.some.inj hjob
      rw [CurlHttpClient.call, life_set]
      exact hm
  · refine .inl ?_
    have hlife : ({ s with jobs, stack } : CurlHttpClient).life r = s.life r := by
      simp [CurlHttpClient.life, hjobs, hjob]
    cases job with
    | other => exact hlife
    | data r' body =>
      have hrr : r ≠ r' := fun heq => hjob (congrArg some heq.symm)
      rw [CurlHttpClient.call, life_set_of_ne hrr, hlife]
    | final r' =>
      have hrr : r ≠ r' := fun heq => hjob (congrArg some heq.symm)
      rw [CurlHttpClient.call, life_set_of_ne hrr, hlife]

/-- **The client makes at most one move** of a request in a step. -/
theorem life_of_step (h : CurlStep s l s') (ho : Orderly s) (hr : r < s.started) :
    s'.life r = s.life r ∨ Moves r (s.life r) (s'.life r) := by
  cases h with
  | start expectEventStream hasFile =>
    have hne : r ≠ s.started := by omega
    refine .inl ?_
    simp [CurlHttpClient.life, CurlHttpClient.start, Function.update_of_ne hne, Ne.symm hne]
  | @stop r' isInside hr' hidle hfree =>
    by_cases hrr : r = r'
    · subst hrr
      refine .inr ?_
      have hm := Moves.stop (r := r) (v := s.life r) isInside (isInside && s.stack.any (·.job.request = some r)) hidle
      simpa [CurlHttpClient.life, List.count_singleton] using hm
    · refine .inl ?_
      simp [CurlHttpClient.life, Function.update_of_ne hrr, Ne.symm hrr]
  | advance hr' hat hstop => exact life_of_stopStep hstop
  | postOther =>
    refine .inl ?_
    simp [CurlHttpClient.life, Job.request]
  | run hjobs hmay => exact life_of_run hjobs _
  | finish hstack hfree => exact .inl rfl
  | wake hpoint =>
    refine .inl ?_
    simp [CurlHttpClient.life, hpoint, CurlPoint.work]
  | pop hpoint hpop => exact life_of_popStep hpop ho hpoint
  | write w hpoint hr' hrunning => exact life_of_write w hrunning
  | @complete r' code status hpoint hr' hrunning =>
    by_cases hrr : r = r'
    · subst hrr
      exact .inr (life_set (s := s) _ ▸ .complete code status hrunning)
    · exact .inl (life_set_of_ne hrr _)
  | performed numActive hpoint =>
    refine .inl ?_
    simp [CurlHttpClient.life, hpoint, CurlPoint.work]
  | @read r' code status hpoint hr' hfinished =>
    have hwork : (s.life r).work = none := by
      simp [CurlHttpClient.life, hpoint, CurlPoint.work]
    by_cases hrr : r = r'
    · subst hrr
      refine .inr ?_
      have hm := Moves.read (r := r) (v := s.life r) hfinished hwork
      simpa [CurlHttpClient.life, CurlHttpClient.set, work_busy] using hm
    · refine .inl ?_
      rw [life_set_of_ne hrr]
      simp [CurlHttpClient.life, Ne.symm hrr, hpoint, CurlPoint.work]
  | readNone hpoint hnone =>
    refine .inl ?_
    simp [CurlHttpClient.life, hpoint, CurlPoint.work]
  | @post r' isStopping hpoint =>
    have hwork : (s.life r).work = s.point.work r := rfl
    have hfilter := filter_posts (r := r') [.final r'] (by simp [Job.request]) (s.requests r') r
    rw [post_eq]
    by_cases hrr : r = r'
    · subst hrr
      rw [hpoint, work_busy] at hwork
      rw [if_pos rfl] at hfilter
      refine .inr ?_
      have hm := Moves.post (r := r) hwork
      simpa [CurlHttpClient.life, work_busy, hfilter] using hm
    · rw [if_neg hrr] at hfilter
      refine .inl ?_
      simp [CurlHttpClient.life, hpoint, work_busy_of_ne (Ne.symm hrr), hfilter]
  | @posted r' isStopping hpoint =>
    have hwork : (s.life r).work = s.point.work r := rfl
    by_cases hrr : r = r'
    · subst hrr
      rw [hpoint, work_busy] at hwork
      refine .inr ?_
      have hm := Moves.posted (r := r) hwork
      cases isStopping <;> simpa [CurlHttpClient.life, CurlHttpClient.set, CurlPoint.work] using hm
    · refine .inl ?_
      rw [life_set_of_ne hrr]
      cases isStopping <;> simp [CurlHttpClient.life, hpoint, CurlPoint.work, Ne.symm hrr]
  | @completed r' hpoint =>
    have hwork : (s.life r).work = s.point.work r := rfl
    by_cases hrr : r = r'
    · subst hrr
      rw [hpoint, work_busy] at hwork
      refine .inr ?_
      have hm := Moves.completed (r := r) hwork
      simpa [CurlHttpClient.life, CurlHttpClient.set, CurlPoint.work] using hm
    · refine .inl ?_
      rw [life_set_of_ne hrr]
      simp [CurlHttpClient.life, hpoint, CurlPoint.work, Ne.symm hrr]

end HueStream.Curl
