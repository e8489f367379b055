import HueStream.Threading.QueueExecutor

/-! # The steps of the executor

What a step of the executor can do, said once, and how the stack of a thread changes in a step of the
queue. -/

namespace HueStream.Threading

open HueStream.Lib

variable {Θ : Type} {θ θ' : Θ} {ticket : ℕ} {frame : Frame} {frames rest below : List Frame}

/-! ### The frames of a thread -/

/-- How the frames of the acting thread change: a function is called, or the innermost one goes on or
returns. -/
inductive Reframes (frames : List Frame) : List Frame → Prop
  | stays : Reframes frames frames
  | push (frame : Frame) : Reframes frames (frame :: frames)
  | replace {frame : Frame} {rest : List Frame} (new : List Frame) (h : frames = frame :: rest) :
      Reframes frames (new ++ rest)

section Queue

variable [DecidableEq Θ] {q q' : OperationalQueue Θ} {l : QueueLabel Θ}

theorem Step.reframes (h : Step q l q') : Reframes (q.threads l.thread) (q'.threads l.thread) := by
  cases h with
  | nothing | register | enqueue => exact .stays
  | enqueuePost | discardRunning | remove | wait | stop =>
    simpa [QueueLabel.thread] using Reframes.push _
  | begin hframes =>
    rw [show q.threads (QueueLabel.begin _).thread = [] from hframes]
    simpa [QueueLabel.thread] using Reframes.push _
  | post hframes | signal hframes | returns hframes | mainDone hframes =>
    simpa [QueueLabel.thread] using Reframes.replace [] hframes
  | finish hframes | continues hframes | take hframes | pop hframes | done hframes =>
    simpa [QueueLabel.thread] using Reframes.replace [_] hframes
  | mainBegin hframes | mainAgain hframes =>
    simpa [QueueLabel.thread] using Reframes.replace [_, _] hframes

theorem Step.threads_of_ne (h : Step q l q') (hθ : θ ≠ l.thread) : q'.threads θ = q.threads θ := by
  cases h with
  | nothing | register | enqueue => rfl
  | _ => exact Function.update_of_ne hθ _ _

end Queue

/-! ### The cases -/

variable [DecidableEq Θ] {s s' : QueueExecutor Θ} {l : ExecutorLabel Θ} {c : ExecutorCall}
  {calls : List ExecutorCall}

/-- A call asks the queue for something, and goes on to a point where the queue is done with it. -/
inductive Asks (θ : Θ) : ExecutorPoint → (ℕ → QueueLabel Θ) → Option ℕ → ExecutorPoint → Prop
  | late (ticket : Option ℕ) :
      Asks θ (.discardTicket ticket) (.discardTicket θ) ticket (.discarded ticket)
  | discard (closed : List (Option ℕ)) (ticket : Option ℕ) (todo : List Cleanup) :
      Asks θ (.next closed (.discard ticket :: todo)) (.discardTicket θ) ticket
        (.back closed ticket todo)
  | wait (closed : List (Option ℕ)) (ticket : Option ℕ) (todo : List Cleanup) :
      Asks θ (.next closed (.wait ticket :: todo)) (.waitTicket θ) ticket (.back closed ticket todo)

/-- A call goes on by itself: what becomes of the mutex and of `closing`, and its next point; at none it
has returned. -/
inductive Moves (s : QueueExecutor Θ) (θ : Θ) :
    ExecutorPoint → Option Θ → Bool → Option ExecutorPoint → Prop
  | closed (hsync : s.sync = none) (h : s.closing = true) :
      Moves s θ .checkClosing s.sync s.closing none
  | accept (hsync : s.sync = none) (h : s.closing = false) :
      Moves s θ .checkClosing s.sync s.closing (some .createTicket)
  | noTicket (hstop : s.queue.stopProcessingRequested = true) :
      Moves s θ .createTicket s.sync s.closing (some (.post none))
  | refuse {ticket : Option ℕ} (hsync : s.sync = none) (h : s.closing = true) :
      Moves s θ (.post ticket) s.sync s.closing (some (.discardTicket ticket))
  | posted {ticket : Option ℕ} : Moves s θ (.posted ticket) none s.closing none
  | discarded {ticket : Option ℕ} : Moves s θ (.discarded ticket) s.sync s.closing none
  | close (hsync : s.sync = none) : Moves s θ .close s.sync true (some (.lock []))
  | lock {closed : List (Option ℕ)} (hsync : s.sync = none) :
      Moves s θ (.lock closed) (some θ) s.closing (some (.sweep closed [] s.tickets))
  | keep {closed : List (Option ℕ)} {kept infos : List TicketInfo} {info : TicketInfo}
      (h : s.queue.hasTicket info.ticket = true) :
      Moves s θ (.sweep closed kept (info :: infos)) s.sync s.closing
        (some (.sweep closed (kept ++ [info]) infos))
  | drop {closed : List (Option ℕ)} {kept infos : List TicketInfo} {info : TicketInfo}
      (h : s.queue.hasTicket info.ticket = false) :
      Moves s θ (.sweep closed kept (info :: infos)) s.sync s.closing (some (.sweep closed kept infos))
  | again {closed : List (Option ℕ)} :
      Moves s θ (.next closed []) s.sync s.closing (some (.lock closed))
  | back {closed : List (Option ℕ)} {ticket : Option ℕ} {todo : List Cleanup} :
      Moves s θ (.back closed ticket todo) s.sync s.closing
        (some (.next (closed ++ [ticket]) todo))

/-- The calls of a thread after its innermost one has gone on. -/
def ExecutorCall.continue (c : ExecutorCall) (calls : List ExecutorCall) :
    Option ExecutorPoint → List ExecutorCall
  | none => calls
  | some point => { c with point } :: calls

/-- The innermost call of the thread, which is in the code of the executor. -/
structure Innermost (s : QueueExecutor Θ) (θ : Θ) (c : ExecutorCall) (calls : List ExecutorCall) :
    Prop where
  calls : s.calls θ = c :: calls
  active : s.queue.threads θ = c.below

/-- What a step of the executor can do. -/
inductive ExecutorStep (s : QueueExecutor Θ) : ExecutorLabel Θ → QueueExecutor Θ → Prop
  | queue {label : QueueLabel Θ} {q : OperationalQueue Θ} {canceled : ℕ → Bool}
      (hidle : s.isActive label.thread = false) (h : Step s.queue label q)
      (hschedule : ∀ θ ticket, label = .scheduleTicket θ ticket → s.owned ticket = false)
      (hfinish : ∀ θ ticket, label = .finish θ → s.queue.running θ = some ticket →
        s.owned ticket = false)
      (hdiscard : ∀ θ ticket, label = .discardTicket θ ticket → canceled ticket = true)
      (hcanceled : ∀ ticket, s.canceled ticket = true → canceled ticket = true) :
      ExecutorStep s (.queue label) { s with queue := q, canceled }
  | finish {l : ExecutorLabel Θ} {θ : Θ} {ticket : ℕ} {q : OperationalQueue Θ}
      {tickets : List TicketInfo} (hidle : s.isActive θ = false) (h : Step s.queue (.finish θ) q)
      (hrunning : s.queue.running θ = some ticket)
      (htickets : tickets = s.tickets ∨ s.sync = none ∧
        tickets = s.tickets.filter fun info => info.ticket ≠ some ticket) :
      ExecutorStep s l { s.complete ticket with queue := q, tickets }
  | call {θ : Θ} {function : ExecutorFunction} (huser : s.queue.atUser θ = true)
      (hidle : s.isActive θ = false) :
      ExecutorStep s (.call θ function) (s.setCalls θ
        (⟨function, s.queue.threads θ, s.accepted, QueueExecutor.entry function⟩ :: s.calls θ))
  | move {θ : Θ} {c : ExecutorCall} {calls : List ExecutorCall} {sync : Option Θ} {closing : Bool}
      {point : ExecutorPoint} {next : Option ExecutorPoint} (hinner : Innermost s θ c calls)
      (hpoint : c.point = point) (h : Moves s θ point sync closing next) :
      ExecutorStep s (.go θ) ({ s with sync, closing }.setCalls θ (c.continue calls next))
  | swept {θ : Θ} {c : ExecutorCall} {calls : List ExecutorCall} {closed : List (Option ℕ)}
      {kept : List TicketInfo} (hinner : Innermost s θ c calls) (hpoint : c.point = .sweep closed kept []) :
      ExecutorStep s (.go θ) ({ s with tickets := kept, sync := none }.setCalls θ
        (c.continue calls (sweepEnd c.function.policy closed kept)))
  | create {θ : Θ} {c : ExecutorCall} {calls : List ExecutorCall} (hinner : Innermost s θ c calls)
      (hpoint : c.point = .createTicket)
      (h : Step s.queue (.createTicket θ) (s.queue.setTickets s.queue.register)) :
      ExecutorStep s (.go θ) ({ s with
        queue := s.queue.setTickets s.queue.register
        owned := Function.update s.owned s.queue.created true }.setCalls θ
          (c.continue calls (some (.post (some s.queue.created)))))
  | post {θ : Θ} {c : ExecutorCall} {calls : List ExecutorCall} {ticket : Option ℕ}
      {q : OperationalQueue Θ} (hinner : Innermost s θ c calls) (hpoint : c.point = .post ticket)
      (hsync : s.sync = none) (hopen : s.closing = false)
      (h : s.onTicket (.scheduleTicket θ) ticket = some q) :
      ExecutorStep s (.go θ) ({ s.list ⟨ticket, c.function.waitOnCleanup⟩ with
        queue := q, sync := some θ }.setCalls θ (c.continue calls (some (.posted ticket))))
  | ask {θ : Θ} {c : ExecutorCall} {calls : List ExecutorCall} {label : ℕ → QueueLabel Θ}
      {ticket : Option ℕ} {point next : ExecutorPoint} {q : OperationalQueue Θ}
      (hinner : Innermost s θ c calls) (hpoint : c.point = point) (hasks : Asks θ point label ticket next)
      (h : s.onTicket label ticket = some q) :
      ExecutorStep s (.go θ) ({ s with queue := q }.setCalls θ (c.continue calls (some next)))

omit [DecidableEq Θ] in
theorem running_iff {q : OperationalQueue Θ} :
    q.running θ = some ticket ↔ ∃ wait rest, q.threads θ = .loop wait (.run ticket) :: rest := by
  unfold OperationalQueue.running
  constructor
  · intro h
    split at h
    · rename_i wait ticket' rest hframes
      obtain rfl := Option.some.inj h
      exact ⟨wait, rest, hframes⟩
    · cases h
  · rintro ⟨wait, rest, hframes⟩
    rw [hframes]

theorem onTicket_cases {label : ℕ → QueueLabel Θ} {ticket : Option ℕ} {q : OperationalQueue Θ}
    (h : s.onTicket label ticket = some q) :
    (ticket = none ∧ q = s.queue) ∨ ∃ n, ticket = some n ∧ Step s.queue (label n) q := by
  cases ticket with
  | none => exact .inl ⟨rfl, (Option.some.inj h).symm⟩
  | some n => exact .inr ⟨n, rfl, step_cases h⟩

theorem queueStep_cases {label : QueueLabel Θ} (h : s.queueStep label = some s') :
    ExecutorStep s (.queue label) s' := by
  unfold QueueExecutor.queueStep at h
  by_cases hidle : s.isActive label.thread = true
  · rw [if_pos hidle] at h
    cases h
  rw [if_neg hidle] at h
  rw [Bool.not_eq_true] at hidle
  obtain ⟨q, hq, h⟩ := Option.bind_eq_some_iff.mp h
  have hstep := step_cases hq
  cases label with
  | scheduleTicket θ ticket =>
    dsimp only at h
    split_ifs at h with howned
    cases h
    rw [Bool.not_eq_true] at howned
    exact .queue hidle hstep (by rintro _ _ heq; cases heq; exact howned) (by simp) (by simp)
      fun _ h => h
  | discardTicket θ ticket =>
    cases h
    refine .queue hidle hstep (by simp) (by simp) (by rintro _ _ heq; cases heq; simp) fun n hn => ?_
    rcases eq_or_ne n ticket with rfl | hne
    · simp
    · simpa [hne] using hn
  | finish θ =>
    dsimp only at h
    split at h
    · rename_i hnone
      cases h
      refine .queue hidle hstep (by simp) (fun θ' ticket heq hrunning => ?_) (by simp) fun _ h => h
      cases heq
      simpa [hrunning] using hnone
    · rename_i ticket hsome
      split_ifs at h with hsync
      cases h
      have hrunning : s.queue.running θ = some ticket := by
        have := Option.mem_filter_iff.mp hsome
        exact this.1
      have hsync : s.sync = none := by simpa using hsync
      exact .finish hidle hstep hrunning (.inr ⟨hsync, rfl⟩)
  | createTicket | waitTicket | stopProcessing | begin | go =>
    cases h
    exact .queue hidle hstep (by simp) (by simp) (by simp) fun _ h => h

theorem throw_cases (h : s.throw θ = some s') : ExecutorStep s (.throw θ) s' := by
  unfold QueueExecutor.throw at h
  split_ifs at h with hidle
  rw [Bool.not_eq_true] at hidle
  obtain ⟨q, hq, rfl⟩ := Option.map_eq_some_iff.mp h
  have hstep := step_cases hq
  simp only [OperationalQueue.step, OperationalQueue.finish] at hq
  split at hq
  · rename_i hframes
    have hrunning := running_iff.mpr ⟨_, _, hframes⟩
    rw [hrunning]
    exact .finish hidle hstep hrunning (.inl rfl)
  · cases hq

theorem call_cases (hinner : Innermost s θ c calls) (h : s.advance θ c calls = some s') :
    ExecutorStep s (.go θ) s' := by
  unfold QueueExecutor.advance at h
  split at h
  · rename_i hpoint
    split_ifs at h with hsync hclosing
    · cases h
      exact .move hinner hpoint (.closed (by simpa using hsync) hclosing)
    · cases h
      exact .move hinner hpoint (.accept (by simpa using hsync) (by simpa using hclosing))
  · rename_i hpoint
    obtain ⟨q, hq, rfl⟩ := Option.map_eq_some_iff.mp h
    have hstep := step_cases hq
    simp only [OperationalQueue.step, OperationalQueue.createTicket] at hq
    split_ifs at hq with huser hstop
    · cases hq
      rw [if_pos hstop]
      exact .move hinner hpoint (.noTicket hstop)
    · cases hq
      rw [if_neg hstop]
      exact .create hinner hpoint hstep
  · rename_i ticket hpoint
    split_ifs at h with hsync hclosing
    · cases h
      exact .move hinner hpoint (.refuse (by simpa using hsync) hclosing)
    · obtain ⟨q, hq, rfl⟩ := Option.map_eq_some_iff.mp h
      exact .post hinner hpoint (by simpa using hsync) (by simpa using hclosing) hq
  · rename_i hpoint
    cases h
    exact .move hinner hpoint .posted
  · rename_i hpoint
    obtain ⟨q, hq, rfl⟩ := Option.map_eq_some_iff.mp h
    exact .ask hinner hpoint (.late _) hq
  · rename_i hpoint
    cases h
    exact .move hinner hpoint .discarded
  · rename_i hpoint
    split_ifs at h with hsync
    cases h
    exact .move hinner hpoint (.close (by simpa using hsync))
  · rename_i hpoint
    split_ifs at h with hsync
    cases h
    exact .move hinner hpoint (.lock (by simpa using hsync))
  · rename_i hpoint
    cases h
    split_ifs with hticket
    · exact .move hinner hpoint (.keep hticket)
    · exact .move hinner hpoint (.drop (by simpa using hticket))
  · rename_i closed kept hpoint
    cases h
    have hstep := ExecutorStep.swept hinner hpoint
    dsimp only [sweepEnd] at hstep
    split_ifs with hempty
    · rw [if_pos hempty] at hstep
      exact hstep
    · rw [if_neg hempty] at hstep
      exact hstep
  · rename_i hpoint
    cases h
    exact .move hinner hpoint .again
  · rename_i hpoint
    obtain ⟨q, hq, rfl⟩ := Option.map_eq_some_iff.mp h
    exact .ask hinner hpoint (.discard _ _ _) hq
  · rename_i hpoint
    obtain ⟨q, hq, rfl⟩ := Option.map_eq_some_iff.mp h
    exact .ask hinner hpoint (.wait _ _ _) hq
  · rename_i hpoint
    cases h
    exact .move hinner hpoint .back

/-- **What a step of the executor can do.** -/
theorem executor_cases (h : s.step l = some s') : ExecutorStep s l s' := by
  cases l with
  | queue label => exact queueStep_cases h
  | throw θ => exact throw_cases h
  | call θ function =>
    simp only [QueueExecutor.step, QueueExecutor.call] at h
    split_ifs at h with huser
    cases h
    rw [Bool.and_eq_true, Bool.not_eq_true'] at huser
    exact .call huser.1 huser.2
  | go θ =>
    simp only [QueueExecutor.step, QueueExecutor.go] at h
    split at h
    · cases h
    · rename_i c calls hcalls
      split_ifs at h with hactive
      refine call_cases ⟨hcalls, ?_⟩ h
      simpa [QueueExecutor.isActive, hcalls, eq_comm] using hactive

end HueStream.Threading
