import HueStream.Threading.ExecutorSteps

/-! # Calls of an executor in its queue

What a call that waits in the queue for a ticket finds when the queue returns, where the calls of a thread
are, and what becomes of a ticket in a step of the queue. -/

namespace HueStream.Threading

open HueStream.Lib

variable {Θ : Type} {θ θ' : Θ} {ticket : ℕ} {frame : Frame} {frames rest below : List Frame}

/-! ### Waiting in the queue -/

/-- The ticket that a function of the queue is called with. -/
def Frame.serves : Frame → Option ℕ
  | .signal ticket | .lookup ticket | .askThread ticket | .sleep ticket | .askStack ticket
  | .loop (some ticket) _ => some ticket
  | _ => none

/-- Above `below` the thread is in a function of the queue that was called with the ticket. -/
def InQueueWith (frames below : List Frame) (ticket : ℕ) : Prop :=
  ∃ above frame, frames = above ++ frame :: below ∧ frame.serves = some ticket

/-- The ticket will not start any more. -/
def Tickets.Done (k : Tickets) (ticket : ℕ) : Prop :=
  k.stopProcessingRequested = true ∨ k.Spent ticket

/-- What a thread that was in `below` knows of a ticket when the queue has returned: it does not start any
more, and where the thread came from outside the queue does not have it any more. -/
def Tickets.Served (k : Tickets) (below : List Frame) (ticket : ℕ) : Prop :=
  k.Done ticket ∧ (below = [] → k.registered ticket = false)

section Queue

variable [DecidableEq Θ] {q q' : OperationalQueue Θ} {o : Owner Θ} {l : QueueLabel Θ}

theorem created_of_step (h : Step q l q') : q.created ≤ q'.created := by
  cases h with
  | register => exact Nat.le_succ _
  | _ => exact le_rfl

theorem unregistered_of_step (h : Step q l q') (hlt : ticket < q.created)
    (hregistered : q.registered ticket = false) : q'.registered ticket = false := by
  by_contra hnot
  rw [Bool.not_eq_false] at hnot
  rw [registered_of_step h hnot hlt] at hregistered
  cases hregistered

theorem Tickets.Done.of_step (h : q.Done ticket) (hstep : Step q l q') : q'.Done ticket := by
  rcases h with hstop | hspent
  · rcases stop_of_step hstep with heq | ⟨-, -, hnot⟩
    · exact .inl (heq.trans hstop)
    · rw [hstop] at hnot
      cases hnot
  · exact .inr (spent_of_step hspent hstep)

theorem Tickets.Served.of_step (h : q.Served below ticket) (hstep : Step q l q')
    (hlt : ticket < q.created) : q'.Served below ticket :=
  ⟨h.1.of_step hstep, fun hbelow => unregistered_of_step hstep hlt (h.2 hbelow)⟩

omit [DecidableEq Θ] in
/-- A ticket the queue does not have is spent. -/
theorem Tracked.spent_of_unregistered (h : Tracked q) (hregistered : q.registered ticket = false)
    (hlt : ticket < q.created) : q.Spent ticket := by
  refine ⟨fun hqueue => ?_, .inr hregistered, hlt⟩
  rw [h.tickets.queued ticket hqueue] at hregistered
  cases hregistered

omit [DecidableEq Θ] in
theorem Tracked.served_of_unregistered (h : Tracked q) (hregistered : q.registered ticket = false)
    (hlt : ticket < q.created) : q.Served below ticket :=
  ⟨.inr (h.spent_of_unregistered hregistered hlt), fun _ => hregistered⟩

omit [DecidableEq Θ] in
/-- A ticket that somebody sets or has set is not registered. -/
theorem Tracked.unregistered (h : Tracked q) (hset : q.sets θ = some ticket ∨ q.signals ticket ≠ 0) :
    q.registered ticket = false := by
  obtain ⟨p, hp⟩ := h.phases ticket
  rw [← Bool.not_eq_true, hp.registered]
  rintro rfl
  rcases hset with hset | hset
  · simpa using (hp.setting θ).mp hset
  · exact hset (hp.unset (by simp))

omit [DecidableEq Θ] in
/-- A thread with nothing else below is not in a loop, nor at its stack. -/
theorem Owned.alone (h : Owned q o) (hframes : q.threads θ = [frame])
    (hserves : frame.serves = some ticket) : frame.outer = true := by
  rcases h.frame_cases hframes with ⟨-, -, houtside⟩ | ⟨-, hinside⟩
  · cases houtside with
    | post => cases hserves
    | call _ hframe => exact hframe
  · generalize q.processingThread = thread at hinside
    generalize q.currentTicketStack = stack at hinside
    cases hinside with
    | begin => cases hserves
    | ended => cases hserves
    | loops hchain => cases hchain

omit [DecidableEq Θ] in
/-- A function of the queue returns: its ticket is served. -/
theorem Tracked.served_of_returns (h : Tracked q) (hlt : ticket < q.created)
    (hframes : q.threads θ = frame :: below) (hserves : frame.serves = some ticket)
    (hreturns : Returns q frame) : q.Served below ticket := by
  obtain ⟨o, howned⟩ := h.owned
  cases hreturns with
  | lookup hregistered =>
    obtain rfl := Option.some.inj hserves
    exact h.served_of_unregistered hregistered hlt
  | sleep hsignals =>
    obtain rfl := Option.some.inj hserves
    exact h.served_of_unregistered (h.unregistered (θ := θ) (.inr hsignals)) hlt
  | askStack hstack =>
    obtain rfl := Option.some.inj hserves
    obtain ⟨hscheduled, hqueue⟩ := h.tickets.spent (h.tickets.mem_started hstack)
    refine ⟨.inr ⟨hqueue, .inl hscheduled, hlt⟩, ?_⟩
    rintro rfl
    simpa [Frame.outer] using howned.alone hframes hserves
  | stopWait => cases hserves
  | @breaks wait hbreaks =>
    cases wait with
    | none => cases hserves
    | some ticket' =>
      obtain rfl := Option.some.inj hserves
      have hregistered : q.registered ticket' = false := by
        simpa [OperationalQueue.breaks] using hbreaks
      exact h.served_of_unregistered hregistered hlt
  | @stopped wait hstop =>
    refine ⟨.inl hstop, ?_⟩
    rintro rfl
    simpa [Frame.outer] using howned.alone hframes hserves

theorem serves_loop {wait : Option ℕ} (point point' : LoopPoint) :
    (Frame.loop wait point).serves = (Frame.loop wait point').serves := by
  cases wait <;> rfl

/-- The innermost function of the thread goes on, or its ticket is served. -/
theorem Tracked.top_of_step (h : Tracked q) (hstep : Step q l q') (hlt : ticket < q.created)
    (hframes : q.threads l.thread = frame :: below) (hserves : frame.serves = some ticket) :
    InQueueWith (q'.threads l.thread) below ticket ∨ q'.Served below ticket := by
  have hserved (hq : q.Served below ticket) : q'.Served below ticket := hq.of_step hstep hlt
  have hreframes := hstep.reframes
  cases hstep with
  | nothing | register | enqueue => exact .inl ⟨[], frame, hframes, hserves⟩
  | enqueuePost | discardRunning | remove | wait | stop =>
    exact .inl ⟨[_], frame, (OperationalQueue.setFrames_self _).trans (congrArg (List.cons _) hframes),
      hserves⟩
  | finish hframes' | take hframes' | pop hframes' | done hframes' =>
    obtain ⟨rfl, rfl⟩ := List.cons.inj (hframes.symm.trans hframes')
    exact .inl ⟨[], _, OperationalQueue.setFrames_self _, (serves_loop _ _).trans hserves⟩
  | begin hframes' => cases hframes.symm.trans hframes'
  | post hframes' | mainBegin hframes' | mainDone hframes' | mainAgain hframes' =>
    obtain ⟨rfl, -⟩ := List.cons.inj (hframes.symm.trans hframes')
    cases hserves
  | signal hframes' =>
    obtain ⟨rfl, -⟩ := List.cons.inj (hframes.symm.trans hframes')
    have hset := (sets_of_frames hframes).trans hserves
    exact .inr (hserved (h.served_of_unregistered (h.unregistered (.inl hset)) hlt))
  | returns hframes' hreturns =>
    obtain ⟨rfl, rfl⟩ := List.cons.inj (hframes.symm.trans hframes')
    exact .inr (hserved (h.served_of_returns hlt hframes hserves hreturns))
  | @continues θ _ next _ hframes' hnext =>
    obtain ⟨rfl, rfl⟩ := List.cons.inj (hframes.symm.trans hframes')
    refine .inl ⟨[], next, OperationalQueue.setFrames_self _, ?_⟩
    cases hnext with
    | lookup | inside | outside | nest => exact hserves
    | test => exact (serves_loop _ _).trans hserves

/-- **A call of the queue goes on, or its ticket is served.** -/
theorem Tracked.inQueueWith_of_step (h : Tracked q) (hstep : Step q l q') (hlt : ticket < q.created)
    (hin : InQueueWith (q.threads θ) below ticket) :
    InQueueWith (q'.threads θ) below ticket ∨ q'.Served below ticket := by
  obtain ⟨above, frame, hframes, hserves⟩ := hin
  rcases eq_or_ne θ l.thread with rfl | hθ
  · cases above with
    | nil => exact h.top_of_step hstep hlt hframes hserves
    | cons x above =>
      left
      have hreframes := hstep.reframes
      rw [hframes] at hreframes
      generalize q'.threads l.thread = frames' at hreframes
      cases hreframes with
      | stays => exact ⟨x :: above, frame, rfl, hserves⟩
      | push y => exact ⟨y :: x :: above, frame, rfl, hserves⟩
      | replace new heq =>
        obtain ⟨-, rfl⟩ := List.cons.inj heq
        exact ⟨new ++ above, frame, by simp, hserves⟩
  · left
    rw [hstep.threads_of_ne hθ]
    exact ⟨above, frame, hframes, hserves⟩

end Queue

/-! ### The calls of a thread -/

namespace ExecutorPoint

/-- The queue may be running other functions above the call. -/
def awaits : ExecutorPoint → Bool
  | .discarded _ | .back .. => true
  | _ => false

/-- The call holds the mutex. -/
def locks : ExecutorPoint → Bool
  | .posted _ | .sweep .. => true
  | _ => false

/-- The ticket that is created and not listed yet. -/
def fresh : ExecutorPoint → Option ℕ
  | .post ticket | .discardTicket ticket => ticket
  | _ => none

end ExecutorPoint

/-- Where the innermost call of a thread is: it may wait for the queue, or is in its own code, or the queue
is giving the loop to the pool. -/
def ExecutorCall.IsAt (c : ExecutorCall) (frames : List Frame) : Prop :=
  c.point.awaits = true ∨ frames = c.below ∨
    (∃ ticket, c.point = .posted ticket) ∧ frames = .post :: c.below

/-- **The calls of a thread fit its frames**; it holds the mutex where its innermost call does. -/
inductive Formed (frames : List Frame) (holds : Prop) : List ExecutorCall → Prop
  | none : Formed frames holds []
  | call {c : ExecutorCall} {calls : List ExecutorCall} (hat : c.IsAt frames)
      (hlocks : c.point.locks = true → holds) (hcalls : ∀ c' ∈ calls, c'.point.awaits = true) :
      Formed frames holds (c :: calls)

section Calls

variable [DecidableEq Θ] {s s' : QueueExecutor Θ} {l : ExecutorLabel Θ} {c : ExecutorCall}
  {calls : List ExecutorCall} {holds holds' : Prop}

theorem not_locks_of_awaits {point : ExecutorPoint} (h : point.awaits = true) :
    ¬ point.locks = true := by
  cases point <;> simp [ExecutorPoint.locks, ExecutorPoint.awaits] at h ⊢

omit [DecidableEq Θ] in
theorem Formed.mono (h : Formed frames holds calls)
    (himp : (∃ c ∈ calls, c.point.locks = true) → holds → holds') : Formed frames holds' calls := by
  cases h with
  | none => exact .none
  | call hat hlocks hcalls =>
    exact .call hat (fun hc => himp ⟨_, List.mem_cons_self, hc⟩ (hlocks hc)) hcalls

/-- All calls but the innermost one wait for the queue. -/
theorem Formed.of_mem (h : Formed frames holds calls) {c' : ExecutorCall} (hc : c' ∈ calls) :
    c'.point.awaits = true ∨ calls.head? = some c' := by
  cases h with
  | none => cases hc
  | call _ _ hcalls =>
    rcases List.mem_cons.mp hc with rfl | hc
    · exact .inr rfl
    · exact .inl (hcalls c' hc)

theorem Formed.locks_of_mem (h : Formed frames holds calls) {c' : ExecutorCall} (hc : c' ∈ calls)
    (hlocks : c'.point.locks = true) : holds := by
  cases h with
  | none => cases hc
  | call _ hholds hcalls =>
    rcases List.mem_cons.mp hc with rfl | hc
    · exact hholds hlocks
    · exact absurd hlocks (not_locks_of_awaits (hcalls c' hc))

omit [DecidableEq Θ] in
/-- The innermost call goes on or returns: what is below it waits for the queue. -/
theorem Formed.continue (h : Formed frames holds (c :: calls)) {frames' : List Frame}
    {next : Option ExecutorPoint}
    (hat : ∀ point, next = some point → ({ c with point } : ExecutorCall).IsAt frames')
    (hlocks : ∀ point, next = some point → point.locks = true → holds') :
    Formed frames' holds' (c.continue calls next) := by
  cases h with
  | call _ _ hcalls =>
    cases next with
    | some point => exact .call (hat point rfl) (hlocks point rfl) hcalls
    | none =>
      cases calls with
      | nil => exact .none
      | cons c' calls =>
        have hawaits := hcalls c' List.mem_cons_self
        refine .call (.inl hawaits) (fun hlocks => ?_) fun c'' hc => hcalls c'' (List.mem_cons_of_mem _ hc)
        exact absurd hlocks (not_locks_of_awaits hawaits)

theorem post_of_step {q q' : OperationalQueue Θ} {label : QueueLabel Θ} (h : Step q label q')
    (hframes : q.threads label.thread = .post :: below) :
    q'.threads label.thread = .post :: below ∨ q'.threads label.thread = below := by
  have huser : q.atUser label.thread = false := by simp [OperationalQueue.atUser, hframes]
  cases h with
  | nothing | register | enqueue => exact .inl hframes
  | enqueuePost huser' | discardRunning huser' | remove huser' | wait huser' | stop huser' =>
    cases huser.symm.trans huser'
  | begin hframes' => cases hframes.symm.trans hframes'
  | returns hframes' hreturns =>
    obtain ⟨rfl, -⟩ := List.cons.inj (hframes.symm.trans hframes')
    cases hreturns
  | continues hframes' hnext =>
    obtain ⟨rfl, -⟩ := List.cons.inj (hframes.symm.trans hframes')
    cases hnext
  | post hframes' =>
    obtain ⟨-, rfl⟩ := List.cons.inj (hframes.symm.trans hframes')
    exact .inr (OperationalQueue.setFrames_self _)
  | finish hframes' | take hframes' | pop hframes' | done hframes' | mainBegin hframes'
  | mainDone hframes' | mainAgain hframes' | signal hframes' =>
    obtain ⟨hframe, -⟩ := List.cons.inj (hframes.symm.trans hframes')
    cases hframe

/-- The queue or the code above it takes a step: where it is a step of the thread, the thread is not in the
code of the executor. -/
theorem Formed.of_queue {label : QueueLabel Θ} {q : OperationalQueue Θ}
    (h : Formed (s.queue.threads θ) holds (s.calls θ)) (hstep : Step s.queue label q)
    (hidle : s.isActive label.thread = false) : Formed (q.threads θ) holds (s.calls θ) := by
  rcases eq_or_ne θ label.thread with rfl | hθ
  · generalize hcalls : s.calls label.thread = calls at h
    cases h with
    | none => exact .none
    | @call c calls hat hlocks hcalls' =>
      refine .call ?_ hlocks hcalls'
      have hne : s.queue.threads label.thread ≠ c.below := by
        rintro heq
        simp [QueueExecutor.isActive, hcalls, heq] at hidle
      rcases hat with hawaits | heq | ⟨hposted, hframes⟩
      · exact .inl hawaits
      · exact absurd heq hne
      · rcases post_of_step hstep hframes with hframes | hframes
        · exact .inr (.inr ⟨hposted, hframes⟩)
        · exact .inr (.inl hframes)
  · rw [hstep.threads_of_ne hθ]
    exact h

end Calls

/-! ### What becomes of a ticket in a step of the queue -/

section Queue

variable [DecidableEq Θ] {q q' : OperationalQueue Θ} {l : QueueLabel Θ}

/-- A ticket is scheduled before the step, or it is one that exists. -/
theorem scheduled_of_step (h : Step q l q') (hscheduled : q'.wasScheduled ticket = true) :
    q.wasScheduled ticket = true ∨ ticket < q.created := by
  cases h with
  | @enqueue θ ticket' _ hlt | @enqueuePost θ ticket' _ hlt =>
    rcases eq_or_ne ticket ticket' with rfl | hne
    · exact .inr hlt
    · exact .inl (by simpa [Tickets.enqueue, hne] using hscheduled)
  | _ => exact .inl hscheduled

theorem wasScheduled_of_step (h : Step q l q') (hnot : ∀ θ, l ≠ .scheduleTicket θ ticket)
    (hscheduled : q'.wasScheduled ticket = true) : q.wasScheduled ticket = true := by
  cases h with
  | @enqueue θ ticket' | @enqueuePost θ ticket' =>
    have hne : ticket ≠ ticket' := by
      rintro rfl
      exact hnot θ rfl
    simpa [Tickets.enqueue, hne] using hscheduled
  | _ => exact hscheduled

/-- To schedule a ticket makes none registered, started or created. -/
theorem schedule_same (h : Step q (.scheduleTicket θ ticket) q') :
    q'.registered = q.registered ∧ q'.started = q.started ∧ q'.created = q.created := by
  cases h with
  | nothing | enqueue | enqueuePost => exact ⟨rfl, rfl, rfl⟩

/-- It leaves the thread where it is, or with the loop to give to the pool. -/
theorem schedule_threads (h : Step q (.scheduleTicket θ ticket) q') :
    q'.threads θ = q.threads θ ∨ q'.threads θ = .post :: q.threads θ := by
  cases h with
  | nothing | enqueue => exact .inl rfl
  | enqueuePost => exact .inr (OperationalQueue.setFrames_self _)

/-- Only what is scheduled comes into the queue. -/
theorem queued_of_step (h : Step q l q') (hqueue : ticket ∈ q'.processingQueue) :
    ticket ∈ q.processingQueue ∨ ∃ θ, l = .scheduleTicket θ ticket := by
  cases h with
  | @enqueue θ | @enqueuePost θ =>
    rcases List.mem_append.mp hqueue with hqueue | hqueue
    · exact .inl hqueue
    · obtain rfl := List.mem_singleton.mp hqueue
      exact .inr ⟨θ, rfl⟩
  | remove => exact .inl (List.mem_of_mem_filter hqueue)
  | take _ _ hhead =>
    rw [hhead]
    exact .inl (List.mem_cons_of_mem _ hqueue)
  | _ => exact .inl hqueue

/-- A ticket that is not registered any more has started or was discarded. -/
theorem Tracked.registered_of_step (h : Tracked q) (hstep : Step q l q')
    (hregistered : q.registered ticket = true) :
    q'.registered ticket = true ∨ ticket ∈ q.started ∨ ∃ θ, l = .discardTicket θ ticket := by
  cases hstep with
  | register =>
    left
    rcases eq_or_ne ticket q.created with rfl | hne
    · simp [Tickets.register]
    · simpa [Tickets.register, hne] using hregistered
  | @remove θ ticket' =>
    rcases eq_or_ne ticket ticket' with rfl | hne
    · exact .inr (.inr ⟨θ, rfl⟩)
    · exact .inl (by simpa [Tickets.remove, hne] using hregistered)
  | @pop θ wait ticket' rest hframes =>
    rcases eq_or_ne ticket ticket' with rfl | hne
    · obtain ⟨o, howned⟩ := h.owned
      obtain ⟨below, hstack⟩ := howned.stack_of_loop hframes
      have hmem : ticket ∈ q.currentTicketStack := by simp [hstack, LoopPoint.tickets]
      exact .inr (.inl (h.tickets.mem_started hmem))
    · exact .inl (by simpa [Tickets.pop, hne] using hregistered)
  | _ => exact .inl hregistered

theorem mem_started_of_step (h : Step q l q') (hstarted : ticket ∈ q.started) :
    ticket ∈ q'.started := by
  rcases started_of_step h with heq | ⟨ticket', queue, -, heq⟩
  · rwa [heq]
  · rw [heq]
    exact List.mem_append_left _ hstarted

/-- A ticket that runs goes on, until its function is over. -/
theorem runs_of_step (h : Step q l q') (hruns : q.Runs θ ticket) :
    q'.Runs θ ticket ∨ l = .finish θ ∧ q.running θ = some ticket := by
  obtain ⟨wait, hmem⟩ := hruns
  rcases eq_or_ne θ l.thread with rfl | hθ
  · have hreframes := h.reframes
    cases h with
    | nothing | register | enqueue => exact .inl ⟨wait, hmem⟩
    | enqueuePost | discardRunning | remove | wait | stop =>
      exact .inl ⟨wait, by simpa [QueueLabel.thread] using hmem⟩
    | begin hframes =>
      rw [show q.threads (QueueLabel.begin _).thread = [] from hframes] at hmem
      cases hmem
    | finish hframes =>
      rw [show q.threads (QueueLabel.finish _).thread = _ from hframes] at hmem
      rcases List.mem_cons.mp hmem with heq | hmem
      · cases heq
        exact .inr ⟨rfl, running_iff.mpr ⟨_, _, hframes⟩⟩
      · exact .inl ⟨wait, by simp [QueueLabel.thread, hmem]⟩
    | post hframes | signal hframes | mainDone hframes | mainBegin hframes | mainAgain hframes
    | take hframes | pop hframes | done hframes =>
      rw [show q.threads (QueueLabel.go _).thread = _ from hframes] at hmem
      have hrest := (List.mem_cons.mp hmem).resolve_left (by simp)
      exact .inl ⟨wait, by simp [QueueLabel.thread, hrest]⟩
    | returns hframes hreturns =>
      rw [show q.threads (QueueLabel.go _).thread = _ from hframes] at hmem
      rcases List.mem_cons.mp hmem with rfl | hmem
      · cases hreturns
      · exact .inl ⟨wait, by simpa [QueueLabel.thread] using hmem⟩
    | continues hframes hnext =>
      rw [show q.threads (QueueLabel.go _).thread = _ from hframes] at hmem
      rcases List.mem_cons.mp hmem with rfl | hmem
      · cases hnext
      · exact .inl ⟨wait, by simp [QueueLabel.thread, hmem]⟩
  · left
    exact ⟨wait, by rwa [h.threads_of_ne hθ]⟩

/-- A ticket that starts runs. -/
theorem runs_of_started (h : Step q l q') (hnew : ticket ∉ q.started) (hstarted : ticket ∈ q'.started) :
    ∃ θ, q'.Runs θ ticket := by
  cases h with
  | @take θ wait ticket' queue rest hframes =>
    obtain rfl : ticket = ticket' := by simpa [Tickets.take, hnew] using hstarted
    exact ⟨θ, wait, by simp⟩
  | _ => exact absurd hstarted hnew

/-- A ticket that starts was queued, and no stop was requested. -/
theorem queued_of_started (h : Step q l q') (hnew : ticket ∉ q.started) (hstarted : ticket ∈ q'.started) :
    ticket ∈ q.processingQueue ∧ q.stopProcessingRequested = false := by
  cases h with
  | @take θ wait ticket' queue rest hframes hstop hqueue =>
    obtain rfl : ticket = ticket' := by simpa [Tickets.take, hnew] using hstarted
    exact ⟨by simp [hqueue], hstop⟩
  | _ => exact absurd hstarted hnew

omit [DecidableEq Θ] in
/-- A ticket that runs is on the stack. -/
theorem Tracked.mem_stack_of_runs (h : Tracked q) (hruns : q.Runs θ ticket) :
    ticket ∈ q.currentTicketStack := by
  obtain ⟨o, howned⟩ := h.owned
  exact (howned.chain_of_runs hruns).2.1

end Queue

end HueStream.Threading
