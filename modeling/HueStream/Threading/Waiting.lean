import HueStream.Threading.Ordering

/-! # Waiting for tickets

A ticket is registered, then a thread is about to set its promise, then its promise is set; so it is set
at most once, and it is set for every ticket that has run or was discarded. A ticket that is left when
the queue stops stays registered, and a wait in a ticket sleeps until something is queued: what this
breaks, and exactly when. -/

namespace HueStream.Threading

open HueStream.Lib

variable {Θ : Type} {θ θ' : Θ} {ticket : ℕ} {frame : Frame} {frames rest : List Frame}

/-- The ticket whose promise is about to be set there. -/
def Frame.sets : Frame → Option ℕ
  | .signal ticket | .loop _ (.done ticket) => some ticket
  | _ => none

/-- The ticket whose promise the thread is about to set. -/
def OperationalQueue.sets (s : OperationalQueue Θ) (θ : Θ) : Option ℕ :=
  (s.threads θ).head?.bind Frame.sets

/-! ### The phases of a ticket -/

/-- Where a ticket is on its way. -/
inductive Phase (Θ : Type)
  | future
  | registered
  /-- The thread is about to set its promise. -/
  | setting (θ : Θ)
  | signalled

/-- **The ticket is in this phase**, and in no other. -/
structure AtPhase (s : OperationalQueue Θ) (ticket : ℕ) (p : Phase Θ) : Prop where
  created : ticket < s.created ↔ p ≠ .future
  registered : s.registered ticket = true ↔ p = .registered
  setting : ∀ θ, s.sets θ = some ticket ↔ p = .setting θ
  once : p = .signalled → s.signals ticket = 1
  unset : p ≠ .signalled → s.signals ticket = 0

theorem sets_of_frames {s : OperationalQueue Θ} (hframes : s.threads θ = frame :: rest) :
    s.sets θ = frame.sets := by simp [OperationalQueue.sets, hframes]

theorem sets_of_user {s : OperationalQueue Θ} (huser : s.atUser θ = true) : s.sets θ = none := by
  unfold OperationalQueue.atUser at huser
  unfold OperationalQueue.sets
  split at huser
  · rename_i hframes
    simp [hframes]
  · rename_i hframes
    simp [hframes, Frame.sets]
  · cases huser

section Steps

variable [DecidableEq Θ] {s s' : OperationalQueue Θ} {o : Owner Θ} {l : QueueLabel Θ} {p : Phase Θ}

omit [DecidableEq Θ] in
/-- Below the innermost function of a thread is nothing, the end of a round, or a ticket that runs. -/
theorem Owned.rest_cases (h : Owned s o) (hframes : s.threads θ = frame :: rest) :
    rest = [] ∨ rest = [.mainEnd] ∨ ∃ wait running below, rest = .loop wait (.run running) :: below := by
  rcases h.frame_cases hframes with ⟨-, rfl, -⟩ | ⟨-, hinside⟩
  · exact .inl rfl
  · generalize s.processingThread = thread at hinside
    generalize s.currentTicketStack = stack at hinside
    cases hinside with
    | begin => exact .inl rfl
    | ended => exact .inl rfl
    | loops hchain =>
      cases hchain with
      | main => exact .inr (.inl rfl)
      | nest => exact .inr (.inr ⟨_, _, _, rfl⟩)
    | call => exact .inr (.inr ⟨_, _, _, rfl⟩)

omit [DecidableEq Θ] in
theorem Owned.sets_rest (h : Owned s o) (hframes : s.threads θ = frame :: rest) :
    rest.head?.bind Frame.sets = none := by
  obtain rfl | rfl | ⟨wait, running, below, rfl⟩ := h.rest_cases hframes <;> rfl

/-- A step after which the ticket is where it was. -/
theorem AtPhase.of_same {f : List Frame} (h : AtPhase s ticket p)
    (hcreated : ticket < s'.created ↔ ticket < s.created)
    (hregistered : s'.registered ticket = s.registered ticket)
    (hsignals : s'.signals ticket = s.signals ticket)
    (hthreads : s'.threads = Function.update s.threads θ f)
    (hsets : f.head?.bind Frame.sets = some ticket ↔ s.sets θ = some ticket) :
    AtPhase s' ticket p := by
  refine ⟨hcreated.trans h.created, by rw [hregistered]; exact h.registered, fun θ' => ?_,
    by rw [hsignals]; exact h.once, by rw [hsignals]; exact h.unset⟩
  unfold OperationalQueue.sets
  rw [hthreads]
  rcases eq_or_ne θ' θ with rfl | hne
  · rw [Function.update_self, hsets]
    exact h.setting θ'
  · rw [Function.update_of_ne hne]
    exact h.setting θ'

/-- The thread takes the registered ticket off the registry. -/
theorem AtPhase.of_removed (h : AtPhase s ticket .registered)
    (hcreated : s'.created = s.created) (hregistered : s'.registered ticket = false)
    (hsignals : s'.signals ticket = s.signals ticket)
    (hthreads : s'.threads = Function.update s.threads θ frames)
    (hsets : frames.head?.bind Frame.sets = some ticket) :
    AtPhase s' ticket (.setting θ) := by
  refine ⟨by simpa [hcreated] using h.created, by simp [hregistered], fun θ' => ?_, by simp, ?_⟩
  · unfold OperationalQueue.sets
    rw [hthreads]
    rcases eq_or_ne θ' θ with rfl | hne
    · simp [hsets]
    · rw [Function.update_of_ne hne]
      have hnone := h.setting θ'
      unfold OperationalQueue.sets at hnone
      simp [hnone, hne.symm]
  · rw [hsignals]
    simpa using h.unset

/-- The thread sets the promise of the ticket. -/
theorem AtPhase.of_set (h : AtPhase s ticket (.setting θ)) (hcreated : s'.created = s.created)
    (hregistered : s'.registered ticket = s.registered ticket)
    (hsignals : s'.signals ticket = s.signals ticket + 1)
    (hthreads : s'.threads = Function.update s.threads θ frames)
    (hsets : frames.head?.bind Frame.sets = none) : AtPhase s' ticket .signalled := by
  refine ⟨by simpa [hcreated] using h.created, ?_, fun θ' => ?_, fun _ => ?_, by simp⟩
  · rw [hregistered]
    simpa using h.registered
  · unfold OperationalQueue.sets
    rw [hthreads]
    rcases eq_or_ne θ' θ with rfl | hne
    · simp [hsets]
    · rw [Function.update_of_ne hne]
      have hnone := h.setting θ'
      unfold OperationalQueue.sets at hnone
      simp [hnone, hne.symm]
  · rw [hsignals, h.unset (by simp)]

omit [DecidableEq Θ] in
theorem AtPhase.registered_eq (h : AtPhase s ticket p) (hregistered : s.registered ticket = true) :
    p = .registered := h.registered.mp hregistered

/-- **A ticket goes on from phase to phase.** -/
theorem AtPhase.of_step (howned : Owned s o) (hk : s.toTickets.Consistent) (h : AtPhase s ticket p)
    (hstep : Step s l s') : ∃ p, AtPhase s' ticket p := by
  cases hstep with
  | nothing => exact ⟨p, h⟩
  | register =>
    rcases eq_or_ne ticket s.created with rfl | hne
    · obtain rfl : p = .future := by simpa using h.created
      have hsetting (θ : Θ) : s.sets θ = some s.created ↔ Phase.registered = .setting θ := by
        simpa using h.setting θ
      exact ⟨.registered, by simp [Tickets.register], by simp [Tickets.register], hsetting,
        by simp, fun _ => h.unset (by simp)⟩
    · refine ⟨p, ?_, ?_, h.setting, h.once, h.unset⟩
      · have hiff : ticket < s.created + 1 ↔ ticket < s.created := by omega
        exact hiff.trans h.created
      · simpa [Tickets.register, hne] using h.registered
  | enqueue => exact ⟨p, h.created, h.registered, h.setting, h.once, h.unset⟩
  | enqueuePost huser | discardRunning huser | wait huser | stop huser =>
    refine ⟨p, h.of_same Iff.rfl rfl rfl rfl ?_⟩
    simp [sets_of_user huser, Frame.sets]
  | @remove θ ticket' huser hregistered hrunning =>
    rcases eq_or_ne ticket ticket' with rfl | hne
    · obtain rfl := h.registered_eq hregistered
      exact ⟨.setting θ, h.of_removed rfl (by simp [Tickets.remove]) rfl rfl rfl⟩
    · refine ⟨p, h.of_same Iff.rfl (by simp [Tickets.remove, hne]) rfl rfl ?_⟩
      simp [sets_of_user huser, Frame.sets, hne.symm]
  | finish hframes =>
    refine ⟨p, h.of_same Iff.rfl rfl rfl rfl ?_⟩
    simp [sets_of_frames hframes, Frame.sets]
  | @begin θ hframes =>
    refine ⟨p, h.of_same (θ := θ) (f := [.mainBegin]) Iff.rfl rfl rfl rfl ?_⟩
    simp [OperationalQueue.sets, hframes, Frame.sets]
  | post hframes | mainDone hframes =>
    refine ⟨p, h.of_same Iff.rfl rfl rfl rfl ?_⟩
    simp [sets_of_frames hframes, howned.sets_rest hframes, Frame.sets]
  | @signal θ ticket' rest hframes =>
    rcases eq_or_ne ticket ticket' with rfl | hne
    · obtain rfl := (h.setting θ).mp (sets_of_frames hframes)
      exact ⟨.signalled, h.of_set rfl rfl (by simp [Tickets.setValue]) rfl (howned.sets_rest hframes)⟩
    · refine ⟨p, h.of_same Iff.rfl rfl (by simp [Tickets.setValue, hne]) rfl ?_⟩
      simp [sets_of_frames hframes, howned.sets_rest hframes, Frame.sets, hne.symm]
  | returns hframes hreturns =>
    refine ⟨p, h.of_same Iff.rfl rfl rfl rfl ?_⟩
    rw [sets_of_frames hframes, howned.sets_rest hframes]
    cases hreturns <;> rfl
  | continues hframes hnext =>
    refine ⟨p, h.of_same Iff.rfl rfl rfl rfl ?_⟩
    rw [sets_of_frames hframes]
    cases hnext <;> rfl
  | mainBegin hframes | mainAgain hframes | take hframes =>
    refine ⟨p, h.of_same Iff.rfl rfl rfl rfl ?_⟩
    simp [sets_of_frames hframes, Frame.sets]
  | @pop θ wait ticket' rest hframes =>
    obtain ⟨below, hstack⟩ := howned.stack_of_loop hframes
    have hregistered : s.registered ticket' = true :=
      hk.running ticket' (by simp [hstack, LoopPoint.tickets])
    rcases eq_or_ne ticket ticket' with rfl | hne
    · obtain rfl := h.registered_eq hregistered
      exact ⟨.setting θ, h.of_removed rfl (by simp [Tickets.pop]) rfl rfl rfl⟩
    · refine ⟨p, h.of_same Iff.rfl (by simp [Tickets.pop, hne]) rfl rfl ?_⟩
      simp [sets_of_frames hframes, Frame.sets, hne.symm]
  | @done θ wait ticket' rest hframes =>
    rcases eq_or_ne ticket ticket' with rfl | hne
    · obtain rfl := (h.setting θ).mp (sets_of_frames hframes)
      exact ⟨.signalled, h.of_set rfl rfl (by simp [Tickets.setValue]) rfl rfl⟩
    · refine ⟨p, h.of_same Iff.rfl rfl (by simp [Tickets.setValue, hne]) rfl ?_⟩
      simp [sets_of_frames hframes, Frame.sets, hne.symm]

/-! ### Threads that wait -/

/-- A point of a wait: for a ticket, or in a loop for the next one. -/
def Frame.waits : Frame → Bool
  | .askThread _ | .sleep _ | .loop _ .take => true
  | _ => false

omit [DecidableEq Θ] in
theorem waits_of_user (huser : s.atUser θ = true) (hframes : s.threads θ = frame :: rest) :
    frame.waits = false := by
  unfold OperationalQueue.atUser at huser
  rw [hframes] at huser
  split at huser
  · rename_i heq
    cases heq
  · rename_i heq
    cases heq
    rfl
  · cases huser

/-- A thread that is in a wait was there before the step, or has gone on to it. -/
theorem Owned.waits_of_step (h : Owned s o) (hstep : Step s l s')
    (hframes : s'.threads θ = frame :: rest) (hwaits : frame.waits = true) :
    s.threads θ = frame :: rest ∨ ∃ before, l = .go θ ∧ s.threads θ = before :: rest ∧
      Continues s θ before frame := by
  have hold {θ₀ : Θ} {frames : List Frame} (hthreads : s'.threads = Function.update s.threads θ₀ frames)
      (hframes₀ : ∀ rest, frames = frame :: rest → frame.waits = false) :
      s.threads θ = frame :: rest := by
    rw [hthreads] at hframes
    rcases eq_or_ne θ θ₀ with rfl | hne
    · rw [Function.update_self] at hframes
      rw [hframes₀ rest hframes] at hwaits
      cases hwaits
    · rwa [Function.update_of_ne hne] at hframes
  have hreturn {θ₀ : Θ} {before : Frame} {below : List Frame} (hthreads : s.threads θ₀ = before :: below)
      (rest : List Frame) (heq : below = frame :: rest) : frame.waits = false := by
    obtain rfl | rfl | ⟨wait, running, below, rfl⟩ := h.rest_cases hthreads <;> cases heq <;> rfl
  cases hstep with
  | nothing | register | enqueue => exact .inl hframes
  | enqueuePost | discardRunning | remove | wait | stop | finish | begin | mainBegin | mainAgain
  | take | pop | done =>
    exact .inl (hold rfl (by rintro _ ⟨⟩; rfl))
  | post hthreads | signal hthreads | returns hthreads | mainDone hthreads =>
    exact .inl (hold rfl (hreturn hthreads))
  | @continues θ₀ before next below hthreads hnext =>
    rcases eq_or_ne θ θ₀ with rfl | hne
    · rw [OperationalQueue.setFrames_self] at hframes
      cases hframes
      exact .inr ⟨before, rfl, hthreads, hnext⟩
    · rw [OperationalQueue.setFrames_of_ne _ hne] at hframes
      exact .inl hframes

/-- A ticket becomes registered only when it is created. -/
theorem registered_of_step (hstep : Step s l s') (hregistered : s'.registered ticket = true)
    (hlt : ticket < s.created) : s.registered ticket = true := by
  cases hstep with
  | register => simpa [Tickets.register, hlt.ne] using hregistered
  | @remove θ ticket' =>
    rcases eq_or_ne ticket ticket' with rfl | hne
    · simp [Tickets.remove] at hregistered
    · simpa [Tickets.remove, hne] using hregistered
  | @pop θ wait ticket' =>
    rcases eq_or_ne ticket ticket' with rfl | hne
    · simp [Tickets.pop] at hregistered
    · simpa [Tickets.pop, hne] using hregistered
  | _ => exact hregistered

/-- A running ticket runs until it is not registered any more. -/
theorem Owned.running_of_step (h : Owned s o) (hstep : Step s l s')
    (hregistered : s'.registered ticket = true) (hrunning : ticket ∈ s.currentTicketStack) :
    ticket ∈ s'.currentTicketStack := by
  cases hstep with
  | take => exact List.mem_cons_of_mem _ hrunning
  | @pop θ wait ticket' rest hframes =>
    obtain ⟨below, hstack⟩ := h.stack_of_loop hframes
    have hne : ticket ≠ ticket' := by
      rintro rfl
      simp [Tickets.pop] at hregistered
    simpa [Tickets.pop, hstack, LoopPoint.tickets, hne] using hrunning
  | _ => exact hrunning

/-- A stop is requested by `stop_processing`. -/
theorem stop_of_step (hstep : Step s l s') :
    s'.stopProcessingRequested = s.stopProcessingRequested ∨
      ∃ θ, l = .stopProcessing θ ∧ s.stopProcessingRequested = false := by
  cases hstep with
  | @stop θ _ hstop => exact .inr ⟨θ, rfl, hstop⟩
  | _ => exact .inl rfl

end Steps

/-! ### What is promised, and when it is kept -/

/-- The ticket runs, or is still to be run. -/
def Tickets.ToRun (k : Tickets) (ticket : ℕ) : Prop :=
  ticket ∈ k.currentTicketStack ∨ (k.registered ticket = true ∧ k.stopProcessingRequested = false)

/-- **What is promised of the tickets and the waits for them.** -/
structure Completes (s : OperationalQueue Θ) : Prop where
  /-- No ticket is signalled twice. -/
  once : ∀ ticket, s.signals ticket ≤ 1
  /-- A ticket that has run is signalled, by the thread that is about to set its promise at the latest. -/
  run : ∀ ticket ∈ s.started, ticket ∈ s.currentTicketStack ∨ (∃ θ, s.sets θ = some ticket) ∨
    s.signals ticket = 1
  /-- So is every other that is not registered any more, as one that was discarded. -/
  gone : ∀ ticket < s.created, s.registered ticket = true ∨ (∃ θ, s.sets θ = some ticket) ∨
    s.signals ticket = 1
  /-- When the queue has stopped none is left. -/
  stopped : s.stopProcessingRequested = true → s.isScheduled = false →
    ∀ ticket, s.registered ticket = false
  /-- A caller that sleeps on a ticket is woken by it, or the ticket runs or is still to be run. -/
  asleep : ∀ θ ticket rest, s.threads θ = .sleep ticket :: rest → s.signals ticket ≠ 0 ∨
    (∃ θ, s.sets θ = some ticket) ∨ s.ToRun ticket
  /-- A wait in a ticket has an end, a next ticket to take, or waits for a ticket that runs or is still
  to be run. -/
  nested : ∀ θ ticket rest, s.threads θ = .loop (some ticket) .take :: rest →
    s.stopProcessingRequested = true ∨ s.processingQueue ≠ [] ∨ s.ToRun ticket

namespace OperationalQueue

/-- When the step keeps what is promised. A stop is requested where no ticket is left, or while the loop
is scheduled, and nobody sleeps on a ticket that does not run; the loop ends after the request where no
ticket is left, and nobody begins to sleep on one that does not run; a ticket is not discarded where a
wait in a ticket, with nothing else queued, waits for it or for one that is gone. -/
def completes (s : OperationalQueue Θ) : QueueLabel Θ → Prop
  | .stopProcessing _ => s.stopProcessingRequested = false →
      (s.isScheduled = false → ∀ ticket, s.registered ticket = false) ∧
      ∀ θ ticket rest, s.threads θ = .sleep ticket :: rest → s.registered ticket = true →
        ticket ∈ s.currentTicketStack
  | .go θ => s.stopProcessingRequested = true →
      (∀ rest, s.threads θ = .mainEnd :: rest → ∀ ticket, s.registered ticket = false) ∧
      ∀ ticket rest, s.threads θ = .askThread ticket :: rest → s.processingThread ≠ some θ →
        s.registered ticket = true → ticket ∈ s.currentTicketStack
  | .discardTicket _ ticket => s.registered ticket = true → ticket ∉ s.currentTicketStack →
      s.stopProcessingRequested = false →
      ∀ θ awaited rest, s.threads θ = .loop (some awaited) .take :: rest →
        (s.registered awaited = true ∧ awaited ≠ ticket) ∨ ∃ other ∈ s.processingQueue, other ≠ ticket
  | _ => True

end OperationalQueue

/-- What holds in every state, of the tickets and of those that wait for them. -/
structure Tracked (s : OperationalQueue Θ) : Prop extends Orderly s where
  phases : ∀ ticket, ∃ p, AtPhase s ticket p
  begun : ∀ ticket ∈ s.started, ticket < s.created ∧
    (s.registered ticket = true → ticket ∈ s.currentTicketStack)
  awaited : ∀ θ ticket rest,
    s.threads θ = .askThread ticket :: rest ∨ s.threads θ = .sleep ticket :: rest →
      ticket < s.created

/-- What holds as long as every step keeps what is promised. -/
structure Attended (s : OperationalQueue Θ) : Prop extends Tracked s where
  stopped : s.stopProcessingRequested = true → s.isScheduled = false →
    ∀ ticket, s.registered ticket = false
  asleep : ∀ θ ticket rest, s.threads θ = .sleep ticket :: rest → s.registered ticket = true →
    s.ToRun ticket
  nested : ∀ θ ticket rest, s.threads θ = .loop (some ticket) .take :: rest →
    s.stopProcessingRequested = true ∨ s.processingQueue ≠ [] ∨ s.registered ticket = true

section Invariant

variable [DecidableEq Θ] {s s' : OperationalQueue Θ} {l : QueueLabel Θ}

theorem Tracked.begun_of_step (h : Tracked s) (hstep : Step s l s') (hticket : ticket ∈ s'.started) :
    ticket < s'.created ∧ (s'.registered ticket = true → ticket ∈ s'.currentTicketStack) := by
  obtain ⟨o, howned⟩ := h.owned
  have hcreated : s.created ≤ s'.created := by
    cases hstep with
    | register => exact Nat.le_succ _
    | _ => exact le_rfl
  by_cases hold : ticket ∈ s.started
  · obtain ⟨hlt, hrunning⟩ := h.begun ticket hold
    refine ⟨hlt.trans_le hcreated, fun hregistered => ?_⟩
    exact howned.running_of_step hstep hregistered
      (hrunning (registered_of_step hstep hregistered hlt))
  · cases hstep with
    | @take θ wait ticket' queue rest hframes hstop hqueue =>
      obtain rfl : ticket = ticket' := by simpa [Tickets.take, hold] using hticket
      have hregistered := h.tickets.queued ticket (hqueue ▸ List.mem_cons_self)
      exact ⟨h.tickets.known ticket hregistered, fun _ => List.mem_cons_self⟩
    | _ => exact absurd hticket hold

theorem Tracked.awaited_of_step (h : Tracked s) (hstep : Step s l s')
    (hframes : s'.threads θ = .askThread ticket :: rest ∨ s'.threads θ = .sleep ticket :: rest) :
    ticket < s'.created := by
  obtain ⟨o, howned⟩ := h.owned
  have hcreated : s.created ≤ s'.created := by
    cases hstep with
    | register => exact Nat.le_succ _
    | _ => exact le_rfl
  refine lt_of_lt_of_le ?_ hcreated
  rcases hframes with hframes | hframes
  · obtain hold | ⟨before, -, hbefore, hnext⟩ := howned.waits_of_step hstep hframes rfl
    · exact h.awaited θ ticket rest (.inl hold)
    · cases hnext with
      | lookup hregistered => exact h.tickets.known ticket hregistered
  · obtain hold | ⟨before, -, hbefore, hnext⟩ := howned.waits_of_step hstep hframes rfl
    · exact h.awaited θ ticket rest (.inr hold)
    · cases hnext with
      | outside => exact h.awaited θ ticket rest (.inl hbefore)

theorem Tracked.of_step (h : Tracked s) (hstep : Step s l s') : Tracked s' := by
  obtain ⟨o, howned⟩ := h.owned
  refine ⟨h.toOrderly.of_step hstep, fun ticket => ?_, fun ticket => h.begun_of_step hstep,
    fun θ ticket rest => h.awaited_of_step hstep⟩
  obtain ⟨p, hp⟩ := h.phases ticket
  exact hp.of_step howned h.tickets hstep

omit [DecidableEq Θ] in
theorem Tracked.init : Tracked ({} : OperationalQueue Θ) where
  toOrderly := .init
  phases ticket := ⟨.future, by simp, by simp, by simp [OperationalQueue.sets], by simp, by simp⟩
  begun := by simp
  awaited := by simp

/-! ### The condition is enough -/

theorem Attended.stopped_of_step (h : Attended s) (hstep : Step s l s') (hC : s.completes l)
    (hstop : s'.stopProcessingRequested = true) (hidle : s'.isScheduled = false) :
    s'.registered ticket = false := by
  cases hstep with
  | register _ hnot => simp [Tickets.register, hnot] at hstop
  | enqueue _ _ hnot => simp [Tickets.enqueue, hnot] at hstop
  | enqueuePost => simp at hidle
  | @remove θ ticket' =>
    rcases eq_or_ne ticket ticket' with rfl | hne
    · simp [Tickets.remove]
    · simpa [Tickets.remove, hne] using h.stopped hstop hidle ticket
  | stop _ hnot => exact (hC hnot).1 hidle ticket
  | @mainDone θ rest hframes => exact (hC hstop).1 rest hframes ticket
  | take _ hnot => simp [Tickets.take, hnot] at hstop
  | @pop θ wait ticket' =>
    rcases eq_or_ne ticket ticket' with rfl | hne
    · simp [Tickets.pop]
    · simpa [Tickets.pop, hne] using h.stopped hstop hidle ticket
  | _ => exact h.stopped hstop hidle ticket

/-- What a caller sleeps on runs, or is still to be run, after the step. -/
theorem Attended.asleep_of_step (h : Attended s) (hstep : Step s l s') (hC : s.completes l)
    (hframes : s'.threads θ = .sleep ticket :: rest) (hregistered : s'.registered ticket = true) :
    s'.ToRun ticket := by
  obtain ⟨o, howned⟩ := h.owned
  by_cases hstop : s'.stopProcessingRequested = false
  · exact .inr ⟨hregistered, hstop⟩
  · left
    rw [Bool.not_eq_false] at hstop
    have hrunning (hlt : ticket < s.created) (h : s.registered ticket = true →
        ticket ∈ s.currentTicketStack) : ticket ∈ s'.currentTicketStack :=
      howned.running_of_step hstep hregistered (h (registered_of_step hstep hregistered hlt))
    obtain hold | ⟨before, rfl, hbefore, hnext⟩ := howned.waits_of_step hstep hframes rfl
    · refine hrunning (h.awaited θ ticket rest (.inr hold)) fun hregistered => ?_
      obtain heq | ⟨θ', rfl, hnot⟩ := stop_of_step hstep
      · rcases h.asleep θ ticket rest hold hregistered with hrunning | ⟨-, hnot⟩
        · exact hrunning
        · rw [← heq, hstop] at hnot
          cases hnot
      · exact (hC hnot).2 θ ticket rest hold hregistered
    · obtain heq | ⟨θ', hl, -⟩ := stop_of_step hstep
      · rw [heq] at hstop
        cases hnext with
        | outside hθ =>
          exact hrunning (h.awaited θ ticket rest (.inl hbefore))
            fun hregistered => (hC hstop).2 ticket rest hbefore hθ hregistered
      · cases hl

/-- A wait in a ticket that finds nothing queued waits for a ticket that is there. -/
theorem Attended.nested_of_step (h : Attended s) (hstep : Step s l s') (hC : s.completes l)
    (hframes : s'.threads θ = .loop (some ticket) .take :: rest) :
    s'.stopProcessingRequested = true ∨ s'.processingQueue ≠ [] ∨ s'.registered ticket = true := by
  obtain ⟨o, howned⟩ := h.owned
  obtain hold | ⟨before, rfl, hbefore, hnext⟩ := howned.waits_of_step hstep hframes rfl
  · obtain ⟨rfl, -, -⟩ := howned.loop_cases hold
    have hnested := h.nested θ ticket rest hold
    cases hstep with
    | register =>
      rcases hnested with hstop | hqueue | hregistered
      · exact .inl hstop
      · exact .inr (.inl hqueue)
      · have hne : ticket ≠ s.created := (h.tickets.known ticket hregistered).ne
        exact .inr (.inr (by simpa [Tickets.register, hne] using hregistered))
    | enqueue | enqueuePost => exact .inr (.inl (by simp [Tickets.enqueue]))
    | @remove θ' ticket' huser hregistered hrunning =>
      by_cases hstop : s.stopProcessingRequested = true
      · exact .inl hstop
      · rw [Bool.not_eq_true] at hstop
        rcases hC hregistered hrunning hstop θ ticket rest hold with ⟨hticket, hne⟩ | ⟨other, hmem, hne⟩
        · exact .inr (.inr (by simpa [Tickets.remove, hne] using hticket))
        · have hother : other ∈ (s.remove ticket').processingQueue :=
            List.mem_filter.mpr ⟨hmem, decide_eq_true hne⟩
          exact .inr (.inl (List.ne_nil_of_mem hother))
    | stop => exact .inl rfl
    | take hframes' =>
      -- the loop that takes a ticket is this one, and it is not at this point any more
      obtain ⟨ho, -, -⟩ := howned.loop_cases hframes'
      cases ho
      rw [OperationalQueue.setFrames_self] at hframes
      cases hframes
    | pop hframes' =>
      obtain ⟨ho, -, -⟩ := howned.loop_cases hframes'
      cases ho
      rw [hold] at hframes'
      cases hframes'
    | _ => exact hnested
  · cases hnext with
    | test hbreaks =>
      have hregistered : s.registered ticket = true := by
        simpa [OperationalQueue.breaks] using hbreaks
      cases hstep with
      | pop hframes' =>
        rw [hbefore] at hframes'
        cases hframes'
      | _ => exact .inr (.inr hregistered)

theorem Attended.of_step (h : Attended s) (hstep : Step s l s') (hC : s.completes l) :
    Attended s' :=
  ⟨h.toTracked.of_step hstep, fun hstop hidle _ => h.stopped_of_step hstep hC hstop hidle,
    fun _ _ _ => h.asleep_of_step hstep hC, fun _ _ _ => h.nested_of_step hstep hC⟩

omit [DecidableEq Θ] in
theorem Attended.init : Attended ({} : OperationalQueue Θ) where
  toTracked := .init
  stopped := by simp
  asleep := by simp
  nested := by simp

omit [DecidableEq Θ] in
theorem Tracked.phase_cases (h : Tracked s) (hlt : ticket < s.created) :
    s.registered ticket = true ∨ (∃ θ, s.sets θ = some ticket) ∨ s.signals ticket = 1 := by
  obtain ⟨p, hp⟩ := h.phases ticket
  cases p with
  | future => exact absurd rfl (hp.created.mp hlt)
  | registered => exact .inl (hp.registered.mpr rfl)
  | setting θ => exact .inr (.inl ⟨θ, (hp.setting θ).mpr rfl⟩)
  | signalled => exact .inr (.inr (hp.once rfl))

omit [DecidableEq Θ] in
theorem Attended.completes (h : Attended s) : Completes s where
  once ticket := by
    obtain ⟨p, hp⟩ := h.phases ticket
    by_cases hsignalled : p = .signalled
    · rw [hp.once hsignalled]
    · rw [hp.unset hsignalled]
      exact Nat.zero_le 1
  run ticket hticket := by
    obtain ⟨hlt, hrunning⟩ := h.begun ticket hticket
    exact (h.phase_cases hlt).imp_left hrunning
  gone ticket hlt := h.phase_cases hlt
  stopped := h.stopped
  asleep θ ticket rest hframes := by
    rcases h.phase_cases (h.awaited θ ticket rest (.inr hframes)) with
      hregistered | hsetting | hsignalled
    · exact .inr (.inr (h.asleep θ ticket rest hframes hregistered))
    · exact .inr (.inl hsetting)
    · exact .inl (by rw [hsignalled]; decide)
  nested θ ticket rest hframes := by
    by_cases hstop : s.stopProcessingRequested = true
    · exact .inl hstop
    · rw [Bool.not_eq_true] at hstop
      rcases h.nested θ ticket rest hframes with hstop' | hqueue | hregistered
      · exact .inl hstop'
      · exact .inr (.inl hqueue)
      · exact .inr (.inr (.inr ⟨hregistered, hstop⟩))

/-! ### The condition is needed -/

omit [DecidableEq Θ] in
/-- Nobody is about to signal a registered ticket, and it is not signalled. -/
theorem Tracked.unsignalled (h : Tracked s) (hregistered : s.registered ticket = true) :
    s.signals ticket = 0 ∧ ∀ θ, s.sets θ ≠ some ticket := by
  obtain ⟨p, hp⟩ := h.phases ticket
  obtain rfl := hp.registered_eq hregistered
  refine ⟨hp.unset (by simp), fun θ hsets => ?_⟩
  simpa using (hp.setting θ).mp hsets

omit [DecidableEq Θ] in
/-- A caller sleeps for good on a ticket that was left. -/
theorem Tracked.not_completes_of_asleep (h : Tracked s)
    (hframes : s.threads θ = .sleep ticket :: rest) (hregistered : s.registered ticket = true)
    (hrunning : ticket ∉ s.currentTicketStack) (hstop : s.stopProcessingRequested = true) :
    ¬ Completes s := by
  intro hs
  obtain ⟨hsignals, hsets⟩ := h.unsignalled hregistered
  rcases hs.asleep θ ticket rest hframes with hne | ⟨θ', hθ'⟩ | hrun | ⟨-, hnot⟩
  · exact hne hsignals
  · exact hsets θ' hθ'
  · exact hrunning hrun
  · rw [hstop] at hnot
    cases hnot

omit [DecidableEq Θ] in
theorem ne_of_waits (huser : s.atUser θ = true) (hframes : s.threads θ' = frame :: rest)
    (hwaits : frame.waits = true) : θ' ≠ θ := by
  rintro rfl
  rw [waits_of_user huser hframes] at hwaits
  cases hwaits

theorem Tracked.stop_completes (h : Tracked s) (hstep : s.step (.stopProcessing θ) = some s')
    (hs' : Completes s') : s.completes (.stopProcessing θ) := by
  intro hnot
  have htracked := h.of_step (step_cases hstep)
  simp only [OperationalQueue.step, OperationalQueue.stopProcessing, hnot, Bool.false_eq_true,
    if_false] at hstep
  split_ifs at hstep with huser
  cases hstep
  refine ⟨hs'.stopped rfl, fun θ' ticket rest hframes hregistered => ?_⟩
  by_contra hrunning
  have hframes' : ((s.setTickets s.requestStop).push θ .stopWait).threads θ' =
      .sleep ticket :: rest := by
    rw [← hframes]
    exact OperationalQueue.setFrames_of_ne _ (ne_of_waits huser hframes rfl)
  exact htracked.not_completes_of_asleep hframes' hregistered hrunning rfl hs'

theorem Tracked.go_completes (h : Tracked s) (hstep : s.step (.go θ) = some s')
    (hs' : Completes s') : s.completes (.go θ) := by
  intro hstop
  have htracked := h.of_step (step_cases hstep)
  refine ⟨fun rest hframes ticket => ?_, fun ticket rest hframes hθ hregistered => ?_⟩
  · have hdone : s.isDone = true := by simp [OperationalQueue.isDone, hstop]
    simp only [OperationalQueue.step, OperationalQueue.go, hframes, hdone, if_true] at hstep
    cases hstep
    exact hs'.stopped hstop rfl ticket
  · by_contra hrunning
    simp only [OperationalQueue.step, OperationalQueue.go, hframes, hθ, if_false] at hstep
    cases hstep
    exact htracked.not_completes_of_asleep (OperationalQueue.setFrames_self _) hregistered hrunning
      hstop hs'

theorem Tracked.discard_completes (h : Tracked s)
    (hstep : s.step (.discardTicket θ ticket) = some s') (hs' : Completes s') :
    s.completes (.discardTicket θ ticket) := by
  intro hregistered hrunning hstop θ' awaited rest hframes
  simp only [OperationalQueue.step, OperationalQueue.discardTicket, hregistered, hrunning,
    Bool.not_true, Bool.false_eq_true, if_false] at hstep
  split_ifs at hstep with huser
  cases hstep
  rw [Bool.and_eq_true] at huser
  have hframes' : ((s.setTickets (s.remove ticket)).push θ (.signal ticket)).threads θ' =
      .loop (some awaited) .take :: rest := by
    rw [← hframes]
    exact OperationalQueue.setFrames_of_ne _ (ne_of_waits huser.1 hframes rfl)
  rcases hs'.nested θ' awaited rest hframes' with hnot | hqueue | hrun
  · have hnot : s.stopProcessingRequested = true := hnot
    rw [hstop] at hnot
    cases hnot
  · right
    obtain ⟨other, hother⟩ := List.exists_mem_of_ne_nil _ hqueue
    obtain ⟨hmem, hne⟩ := List.mem_filter.mp hother
    exact ⟨other, hmem, of_decide_eq_true hne⟩
  · left
    rcases hrun with hawaited | ⟨hawaited, -⟩
    · refine ⟨h.tickets.running awaited hawaited, ?_⟩
      rintro rfl
      exact hrunning hawaited
    · have hawaited : (s.remove ticket).registered awaited = true := hawaited
      have hne : awaited ≠ ticket := by
        rintro rfl
        simp [Tickets.remove] at hawaited
      exact ⟨by simpa [Tickets.remove, hne] using hawaited, hne⟩

/-! ### Every run -/

/-- **When all tickets are completed.** In a run every state keeps what is promised of the tickets and
the waits for them exactly when every step of it meets the condition. -/
theorem completes_iff {ts : List (Transition (OperationalQueue Θ) (QueueLabel Θ))}
    (h : (operationalQueue Θ).Run ts s) :
    (∀ t ∈ ts, Completes t.after) ↔ ∀ t ∈ ts, t.before.completes t.label := by
  refine h.forall_after_iff (I := Attended) ?_ (fun s hs => hs.completes) ?_ ?_
  · rintro s rfl
    exact .init
  · intro s l s' hstep hC hs
    exact hs.of_step (step_cases hstep) hC
  · intro s l s' hstep hC hs hs'
    refine hC ?_
    cases l with
    | stopProcessing θ => exact hs.stop_completes hstep hs'
    | go θ => exact hs.go_completes hstep hs'
    | discardTicket θ ticket => exact hs.discard_completes hstep hs'
    | createTicket | scheduleTicket | waitTicket | finish | begin => trivial

end Invariant

/-- A ticket that runs waits for another one, which runs in this wait: every state keeps what is
promised. -/
theorem completes_iff_nested : ∃ ts s, (operationalQueue Bool).Run ts s ∧ s.signals 1 = 1 ∧
    ∀ t ∈ ts, Completes t.after := by
  obtain ⟨ts, s, hrun, hlabels, h⟩ := Machine.exists_run_along (M := operationalQueue Bool) (s := {})
    [.createTicket false, .createTicket false, .scheduleTicket false 0, .go false, .begin true,
      .go true, .go true, .go true, .scheduleTicket true 1, .waitTicket true 1, .go true, .go true,
      .go true, .go true, .go true, .finish true, .go true, .go true]
    (fun ts s => decide (s.signals 1 = 1) &&
      ts.all fun t => decide (t.before.stopProcessingRequested = false)) rfl (by decide +kernel)
  simp only [Bool.and_eq_true, decide_eq_true_eq, List.all_eq_true] at h
  refine ⟨ts, s, hrun, h.1, (completes_iff hrun).mpr fun t ht => ?_⟩
  have hstop := h.2 t ht
  have hlabel : t.label ∈ ts.map Transition.label := List.mem_map_of_mem ht
  rw [hlabels] at hlabel
  generalize t.label = l at hlabel
  cases l with
  | stopProcessing | discardTicket => simp at hlabel
  | go =>
    intro hstop'
    rw [hstop] at hstop'
    cases hstop'
  | createTicket | scheduleTicket | waitTicket | finish | begin => trivial

/-- A caller sleeps on a ticket that is still queued when the queue stops: the queue has stopped, and the
ticket is not signalled. And a ticket waits for another one, which a second thread discards: it waits for
the next ticket, though the one it waits for is gone and signalled. -/
theorem exists_wait_without_end :
    (∃ ts s, (operationalQueue (Fin 4)).Run ts s ∧ s.stopProcessingRequested = true ∧
      s.isScheduled = false ∧ s.signals 0 = 0 ∧ s.threads 1 = [.sleep 0] ∧
      (∀ θ, s.go θ = none) ∧ ¬ Completes s) ∧
    ∃ ts s, (operationalQueue (Fin 4)).Run ts s ∧ s.stopProcessingRequested = false ∧
      s.processingQueue = [] ∧ s.registered 1 = false ∧ s.signals 1 = 1 ∧
      (∃ rest, s.threads 1 = .loop (some 1) .take :: rest) ∧ (∀ θ, s.go θ = none) ∧ ¬ Completes s := by
  constructor
  · obtain ⟨ts, s, hrun, h⟩ := Machine.exists_run (M := operationalQueue (Fin 4)) (s := {})
      [.createTicket 0, .scheduleTicket 0 0, .go 0, .waitTicket 1 0, .go 1, .go 1, .stopProcessing 2,
        .begin 3, .go 3, .go 3, .go 3, .go 2]
      (fun _ s => decide (s.stopProcessingRequested = true ∧ s.isScheduled = false ∧ s.signals 0 = 0 ∧
        s.registered 0 = true ∧ s.threads 1 = [.sleep 0] ∧ ∀ θ, (s.go θ).isNone)) rfl (by decide +kernel)
    obtain ⟨hstop, hidle, hsignals, hregistered, hframes, hgo⟩ := of_decide_eq_true h
    refine ⟨ts, s, hrun, hstop, hidle, hsignals, hframes, fun θ => by simpa using hgo θ, fun hs => ?_⟩
    rw [hs.stopped hstop hidle 0] at hregistered
    cases hregistered
  · obtain ⟨ts, s, hrun, h⟩ := Machine.exists_run (M := operationalQueue (Fin 4)) (s := {})
      [.createTicket 0, .createTicket 0, .scheduleTicket 0 0, .go 0, .begin 1, .go 1, .go 1, .go 1,
        .waitTicket 1 1, .go 1, .go 1, .go 1, .go 1, .discardTicket 2 1, .go 2]
      (fun _ s => decide (s.stopProcessingRequested = false ∧ s.processingQueue = [] ∧
        s.registered 1 = false ∧ s.signals 1 = 1 ∧ 1 ∉ s.currentTicketStack ∧
        s.threads 1 = .loop (some 1) .take :: (s.threads 1).tail ∧ ∀ θ, (s.go θ).isNone)) rfl
      (by decide +kernel)
    obtain ⟨hstop, hqueue, hregistered, hsignals, hrunning, hframes, hgo⟩ := of_decide_eq_true h
    refine ⟨ts, s, hrun, hstop, hqueue, hregistered, hsignals, ⟨_, hframes⟩,
      fun θ => by simpa using hgo θ, fun hs => ?_⟩
    rcases hs.nested 1 1 _ hframes with hstop' | hne | hrun | ⟨hregistered', -⟩
    · rw [hstop] at hstop'
      cases hstop'
    · exact hne hqueue
    · exact hrunning hrun
    · rw [hregistered] at hregistered'
      cases hregistered'

end HueStream.Threading
