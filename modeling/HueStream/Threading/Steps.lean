import HueStream.Threading.OperationalQueue

/-! # The steps of the operational queue

What a step can do, said once: every case with what it requires and the state it leads to. -/

namespace HueStream.Threading

variable {Θ : Type} {s s' : OperationalQueue Θ} {θ θ' : Θ} {l : QueueLabel Θ}

/-! ### Parts of a state -/

namespace OperationalQueue

@[simp] theorem setTickets_toTickets (k : Tickets) : (s.setTickets k).toTickets = k := rfl

@[simp] theorem setTickets_threads (k : Tickets) : (s.setTickets k).threads = s.threads := rfl

@[simp] theorem setTickets_isScheduled (k : Tickets) :
    (s.setTickets k).isScheduled = s.isScheduled := rfl

@[simp] theorem setTickets_processingThread (k : Tickets) :
    (s.setTickets k).processingThread = s.processingThread := rfl

@[simp] theorem setTickets_tasks (k : Tickets) : (s.setTickets k).tasks = s.tasks := rfl

variable [DecidableEq Θ]

@[simp] theorem setFrames_self (frames : List Frame) :
    (s.setFrames θ frames).threads θ = frames := by simp [setFrames]

@[simp] theorem setFrames_of_ne (frames : List Frame) (h : θ' ≠ θ) :
    (s.setFrames θ frames).threads θ' = s.threads θ' := by simp [setFrames, h]

@[simp] theorem setFrames_toTickets (frames : List Frame) :
    (s.setFrames θ frames).toTickets = s.toTickets := rfl

@[simp] theorem setFrames_isScheduled (frames : List Frame) :
    (s.setFrames θ frames).isScheduled = s.isScheduled := rfl

@[simp] theorem setFrames_processingThread (frames : List Frame) :
    (s.setFrames θ frames).processingThread = s.processingThread := rfl

@[simp] theorem setFrames_tasks (frames : List Frame) : (s.setFrames θ frames).tasks = s.tasks := rfl

end OperationalQueue

/-! ### The cases -/

variable [DecidableEq Θ]

/-- A function of the queue returns to what is below it. -/
inductive Returns (s : OperationalQueue Θ) : Frame → Prop
  | lookup {ticket : ℕ} (h : s.registered ticket = false) : Returns s (.lookup ticket)
  | sleep {ticket : ℕ} (h : s.signals ticket ≠ 0) : Returns s (.sleep ticket)
  | askStack {ticket : ℕ} (h : ticket ∈ s.currentTicketStack) : Returns s (.askStack ticket)
  | stopWait (h : s.isScheduled = false) : Returns s .stopWait
  | breaks {wait : Option ℕ} (h : s.breaks wait = true) : Returns s (.loop wait .test)
  | stopped {wait : Option ℕ} (h : s.stopProcessingRequested = true) : Returns s (.loop wait .take)

/-- A function of the queue goes on to its next point. -/
inductive Continues (s : OperationalQueue Θ) (θ : Θ) : Frame → Frame → Prop
  | lookup {ticket : ℕ} (h : s.registered ticket = true) :
      Continues s θ (.lookup ticket) (.askThread ticket)
  | inside {ticket : ℕ} (h : s.processingThread = some θ) :
      Continues s θ (.askThread ticket) (.askStack ticket)
  | outside {ticket : ℕ} (h : s.processingThread ≠ some θ) :
      Continues s θ (.askThread ticket) (.sleep ticket)
  | nest {ticket : ℕ} (h : ticket ∉ s.currentTicketStack) :
      Continues s θ (.askStack ticket) (.loop (some ticket) .test)
  | test {wait : Option ℕ} (h : s.breaks wait = false) :
      Continues s θ (.loop wait .test) (.loop wait .take)

/-- What a step can do. -/
inductive Step (s : OperationalQueue Θ) : QueueLabel Θ → OperationalQueue Θ → Prop
  | nothing {l : QueueLabel Θ}
      (hdiscard : ∀ θ ticket, l = .discardTicket θ ticket →
        s.registered ticket = false ∧ ticket < s.created) : Step s l s
  | register {θ : Θ} (huser : s.atUser θ = true) (hstop : s.stopProcessingRequested = false) :
      Step s (.createTicket θ) (s.setTickets s.register)
  | enqueue {θ : Θ} {ticket : ℕ} (huser : s.atUser θ = true) (hlt : ticket < s.created)
      (hstop : s.stopProcessingRequested = false) (hregistered : s.registered ticket = true)
      (hnew : s.wasScheduled ticket = false) (hscheduled : s.isScheduled = true) :
      Step s (.scheduleTicket θ ticket) (s.setTickets (s.enqueue ticket))
  | enqueuePost {θ : Θ} {ticket : ℕ} (huser : s.atUser θ = true) (hlt : ticket < s.created)
      (hstop : s.stopProcessingRequested = false) (hregistered : s.registered ticket = true)
      (hnew : s.wasScheduled ticket = false) (hscheduled : s.isScheduled = false) :
      Step s (.scheduleTicket θ ticket)
        ({ s.setTickets (s.enqueue ticket) with isScheduled := true }.setFrames θ
          (.post :: s.threads θ))
  | discardRunning {θ : Θ} {ticket : ℕ} (huser : s.atUser θ = true)
      (hrunning : ticket ∈ s.currentTicketStack) :
      Step s (.discardTicket θ ticket) (s.setFrames θ (.lookup ticket :: s.threads θ))
  | remove {θ : Θ} {ticket : ℕ} (huser : s.atUser θ = true) (hregistered : s.registered ticket = true)
      (hrunning : ticket ∉ s.currentTicketStack) :
      Step s (.discardTicket θ ticket)
        ((s.setTickets (s.remove ticket)).setFrames θ (.signal ticket :: s.threads θ))
  | wait {θ : Θ} {ticket : ℕ} (huser : s.atUser θ = true) (hlt : ticket < s.created) :
      Step s (.waitTicket θ ticket) (s.setFrames θ (.lookup ticket :: s.threads θ))
  | stop {θ : Θ} (huser : s.atUser θ = true) (hstop : s.stopProcessingRequested = false) :
      Step s (.stopProcessing θ)
        ((s.setTickets s.requestStop).setFrames θ (.stopWait :: s.threads θ))
  | finish {θ : Θ} {wait : Option ℕ} {ticket : ℕ} {rest : List Frame}
      (h : s.threads θ = .loop wait (.run ticket) :: rest) :
      Step s (.finish θ) (s.setFrames θ (.loop wait (.pop ticket) :: rest))
  | begin {θ : Θ} (h : s.threads θ = []) (htasks : 0 < s.tasks) :
      Step s (.begin θ) ({ s with tasks := s.tasks - 1 }.setFrames θ [.mainBegin])
  | post {θ : Θ} {rest : List Frame} (h : s.threads θ = .post :: rest) :
      Step s (.go θ) ({ s with tasks := s.tasks + 1 }.setFrames θ rest)
  | signal {θ : Θ} {ticket : ℕ} {rest : List Frame} (h : s.threads θ = .signal ticket :: rest) :
      Step s (.go θ) ((s.setTickets (s.setValue ticket)).setFrames θ rest)
  | returns {θ : Θ} {frame : Frame} {rest : List Frame} (h : s.threads θ = frame :: rest)
      (hreturns : Returns s frame) : Step s (.go θ) (s.setFrames θ rest)
  | continues {θ : Θ} {frame next : Frame} {rest : List Frame} (h : s.threads θ = frame :: rest)
      (hnext : Continues s θ frame next) : Step s (.go θ) (s.setFrames θ (next :: rest))
  | mainBegin {θ : Θ} {rest : List Frame} (h : s.threads θ = .mainBegin :: rest) :
      Step s (.go θ) ({ s with processingThread := some θ }.setFrames θ
        (.loop none .test :: .mainEnd :: rest))
  | mainDone {θ : Θ} {rest : List Frame} (h : s.threads θ = .mainEnd :: rest)
      (hdone : s.isDone = true) :
      Step s (.go θ) ({ s with isScheduled := false, processingThread := none }.setFrames θ rest)
  | mainAgain {θ : Θ} {rest : List Frame} (h : s.threads θ = .mainEnd :: rest)
      (hdone : s.isDone = false) :
      Step s (.go θ) (s.setFrames θ (.loop none .test :: .mainEnd :: rest))
  | take {θ : Θ} {wait : Option ℕ} {ticket : ℕ} {queue : List ℕ} {rest : List Frame}
      (h : s.threads θ = .loop wait .take :: rest) (hstop : s.stopProcessingRequested = false)
      (hqueue : s.processingQueue = ticket :: queue) :
      Step s (.go θ)
        ((s.setTickets (s.take ticket queue)).setFrames θ (.loop wait (.run ticket) :: rest))
  | pop {θ : Θ} {wait : Option ℕ} {ticket : ℕ} {rest : List Frame}
      (h : s.threads θ = .loop wait (.pop ticket) :: rest) :
      Step s (.go θ)
        ((s.setTickets (s.pop ticket)).setFrames θ (.loop wait (.done ticket) :: rest))
  | done {θ : Θ} {wait : Option ℕ} {ticket : ℕ} {rest : List Frame}
      (h : s.threads θ = .loop wait (.done ticket) :: rest) :
      Step s (.go θ) ((s.setTickets (s.setValue ticket)).setFrames θ (.loop wait .test :: rest))

theorem go_cases (h : s.go θ = some s') : Step s (.go θ) s' := by
  unfold OperationalQueue.go at h
  split at h
  · cases h
  · cases h
    exact .post ‹_›
  · cases h
    exact .signal ‹_›
  · cases h
    split_ifs with hregistered
    · exact .continues ‹_› (.lookup hregistered)
    · exact .returns ‹_› (.lookup (by simpa using hregistered))
  · cases h
    split_ifs with hthread
    · exact .continues ‹_› (.inside hthread)
    · exact .continues ‹_› (.outside hthread)
  · split_ifs at h with hsignals
    cases h
    exact .returns ‹_› (.sleep hsignals)
  · cases h
    split_ifs with hstack
    · exact .returns ‹_› (.askStack hstack)
    · exact .continues ‹_› (.nest hstack)
  · split_ifs at h with hscheduled
    cases h
    exact .returns ‹_› (.stopWait (by simpa using hscheduled))
  · cases h
    exact .mainBegin ‹_›
  · cases h
    split_ifs with hdone
    · exact .mainDone ‹_› hdone
    · exact .mainAgain ‹_› (by simpa using hdone)
  · rename_i wait point rest hframes
    cases point with
    | test =>
      cases h
      split_ifs with hbreaks
      · exact .returns hframes (.breaks hbreaks)
      · exact .continues hframes (.test (by simpa using hbreaks))
    | take =>
      simp only [OperationalQueue.goLoop] at h
      split_ifs at h with hstop
      · cases h
        exact .returns hframes (.stopped hstop)
      · split at h
        · cases h
        · cases h
          exact .take hframes (by simpa using hstop) ‹_›
    | run ticket => cases h
    | pop ticket =>
      cases h
      exact .pop hframes
    | done ticket =>
      cases h
      exact .done hframes

/-- **What a step can do.** -/
theorem step_cases (h : s.step l = some s') : Step s l s' := by
  cases l with
  | createTicket θ =>
    simp only [OperationalQueue.step] at h
    split_ifs at h with huser
    cases h
    unfold OperationalQueue.createTicket
    split_ifs with hstop
    · exact .nothing (by simp)
    · exact .register huser (by simpa using hstop)
  | scheduleTicket θ ticket =>
    simp only [OperationalQueue.step] at h
    split_ifs at h with huser
    cases h
    rw [Bool.and_eq_true, decide_eq_true_eq] at huser
    unfold OperationalQueue.scheduleTicket
    split_ifs with hnothing hscheduled
    · exact .nothing (by simp)
    · simp only [Bool.or_eq_true, Bool.not_eq_true', not_or, Bool.not_eq_true, Bool.not_eq_false]
        at hnothing
      exact .enqueue huser.1 huser.2 hnothing.1.1 hnothing.1.2 hnothing.2 hscheduled
    · simp only [Bool.or_eq_true, Bool.not_eq_true', not_or, Bool.not_eq_true, Bool.not_eq_false]
        at hnothing
      exact .enqueuePost huser.1 huser.2 hnothing.1.1 hnothing.1.2 hnothing.2 (by simpa using hscheduled)
  | discardTicket θ ticket =>
    simp only [OperationalQueue.step] at h
    split_ifs at h with huser
    cases h
    rw [Bool.and_eq_true, decide_eq_true_eq] at huser
    unfold OperationalQueue.discardTicket
    split_ifs with hregistered hrunning
    · refine .nothing fun θ' ticket' heq => ?_
      cases heq
      exact ⟨by simpa using hregistered, huser.2⟩
    · exact .discardRunning huser.1 hrunning
    · exact .remove huser.1 (by simpa using hregistered) hrunning
  | waitTicket θ ticket =>
    simp only [OperationalQueue.step] at h
    split_ifs at h with huser
    cases h
    rw [Bool.and_eq_true, decide_eq_true_eq] at huser
    exact .wait huser.1 huser.2
  | stopProcessing θ =>
    simp only [OperationalQueue.step] at h
    split_ifs at h with huser
    cases h
    unfold OperationalQueue.stopProcessing
    split_ifs with hstop
    · exact .nothing (by simp)
    · exact .stop huser (by simpa using hstop)
  | finish θ =>
    simp only [OperationalQueue.step, OperationalQueue.finish] at h
    split at h
    · cases h
      exact .finish ‹_›
    · cases h
  | begin θ =>
    simp only [OperationalQueue.step, OperationalQueue.begin] at h
    split_ifs at h with hbegin
    cases h
    exact .begin hbegin.1 hbegin.2
  | go θ => exact go_cases h

end HueStream.Threading
