import HueStream.Threading.Processing
import HueStream.Lib.Lists

/-! # The order of the tickets

What the queue knows of its tickets fits together in every state; from this and the one owner of the
loop follow the order in which tickets start, what can run at the same time, that a discarded ticket
never starts, and that the queue is never left with a ticket and without a loop. -/

namespace HueStream.Threading

open HueStream.Lib

variable {Θ : Type} {θ θ' : Θ} {ticket other later earlier : ℕ} {frames rest : List Frame}
  {queue stack below : List ℕ}

/-! ### What is known of the tickets -/

/-- **What the queue knows of its tickets fits together.** -/
structure Tickets.Consistent (k : Tickets) : Prop where
  known : ∀ ticket, k.registered ticket = true → ticket < k.created
  queued : ∀ ticket ∈ k.processingQueue, k.registered ticket = true
  running : ∀ ticket ∈ k.currentTicketStack, k.registered ticket = true
  scheduled : ∀ ticket, k.wasScheduled ticket = true ↔ ticket ∈ k.scheduled
  order : (k.started ++ k.processingQueue).Sublist k.scheduled
  once : k.scheduled.Nodup
  nested : k.currentTicketStack.reverse.Sublist k.started

namespace Tickets.Consistent

variable {k : Tickets}

theorem nodup (h : k.Consistent) : (k.started ++ k.processingQueue).Nodup := h.order.nodup h.once

theorem mem_started (h : k.Consistent) (hticket : ticket ∈ k.currentTicketStack) :
    ticket ∈ k.started := h.nested.subset (List.mem_reverse.mpr hticket)

/-- A ticket that has started is not queued. -/
theorem not_queued (h : k.Consistent) (hticket : ticket ∈ k.started) :
    ticket ∉ k.processingQueue :=
  fun hqueue => (List.nodup_append.mp h.nodup).2.2 ticket hticket ticket hqueue rfl

theorem stack_nodup (h : k.Consistent) : k.currentTicketStack.Nodup :=
  List.nodup_reverse.mp (h.nested.nodup (List.nodup_append.mp h.nodup).1)

theorem empty : ({} : Tickets).Consistent := by
  constructor <;> simp

theorem register (h : k.Consistent) : k.register.Consistent where
  known ticket hticket := by
    rcases eq_or_ne ticket k.created with rfl | hne
    · exact Nat.lt_succ_self _
    · have hlt := h.known ticket (by simpa [Tickets.register, hne] using hticket)
      exact Nat.lt_succ_of_lt hlt
  queued ticket hticket := by
    have hne : ticket ≠ k.created := (h.known ticket (h.queued ticket hticket)).ne
    simpa [Tickets.register, hne] using h.queued ticket hticket
  running ticket hticket := by
    have hne : ticket ≠ k.created := (h.known ticket (h.running ticket hticket)).ne
    simpa [Tickets.register, hne] using h.running ticket hticket
  scheduled := h.scheduled
  order := h.order
  once := h.once
  nested := h.nested

theorem enqueue (h : k.Consistent) (hregistered : k.registered ticket = true)
    (hnew : k.wasScheduled ticket = false) : (k.enqueue ticket).Consistent where
  known := h.known
  queued ticket' hticket' := by
    rcases List.mem_append.mp hticket' with hqueue | hlast
    · exact h.queued ticket' hqueue
    · rw [List.mem_singleton.mp hlast]
      exact hregistered
  running := h.running
  scheduled ticket' := by
    rcases eq_or_ne ticket' ticket with rfl | hne
    · simp [Tickets.enqueue]
    · simpa [Tickets.enqueue, hne] using h.scheduled ticket'
  order := by
    show (k.started ++ (k.processingQueue ++ [ticket])).Sublist (k.scheduled ++ [ticket])
    rw [← List.append_assoc]
    exact h.order.append (.refl _)
  once := by
    have hticket : ticket ∉ k.scheduled := by
      rw [← h.scheduled ticket, hnew]
      simp
    exact List.nodup_append_comm.mp (List.nodup_cons.mpr ⟨hticket, h.once⟩)
  nested := h.nested

theorem remove (h : k.Consistent) (hrunning : ticket ∉ k.currentTicketStack) :
    (k.remove ticket).Consistent where
  known ticket' hticket' := by
    rcases eq_or_ne ticket' ticket with rfl | hne
    · simp [Tickets.remove] at hticket'
    · exact h.known ticket' (by simpa [Tickets.remove, hne] using hticket')
  queued ticket' hticket' := by
    obtain ⟨hqueue, hne⟩ := List.mem_filter.mp hticket'
    rw [decide_eq_true_eq] at hne
    simpa [Tickets.remove, hne] using h.queued ticket' hqueue
  running ticket' hticket' := by
    have hne : ticket' ≠ ticket := by
      rintro rfl
      exact hrunning hticket'
    simpa [Tickets.remove, hne] using h.running ticket' hticket'
  scheduled := h.scheduled
  order := ((List.Sublist.refl _).append List.filter_sublist).trans h.order
  once := h.once
  nested := h.nested

theorem requestStop (h : k.Consistent) : k.requestStop.Consistent :=
  ⟨h.known, h.queued, h.running, h.scheduled, h.order, h.once, h.nested⟩

theorem setValue (h : k.Consistent) : (k.setValue ticket).Consistent :=
  ⟨h.known, h.queued, h.running, h.scheduled, h.order, h.once, h.nested⟩

theorem take (h : k.Consistent) (hqueue : k.processingQueue = ticket :: queue) :
    (k.take ticket queue).Consistent where
  known := h.known
  queued ticket' hticket' := h.queued ticket' (hqueue ▸ List.mem_cons_of_mem _ hticket')
  running ticket' hticket' := by
    rcases List.mem_cons.mp hticket' with rfl | hstack
    · exact h.queued ticket' (hqueue ▸ List.mem_cons_self)
    · exact h.running ticket' hstack
  scheduled := h.scheduled
  order := by
    have horder := h.order
    rw [hqueue] at horder
    simpa [Tickets.take] using horder
  once := h.once
  nested := by
    show (ticket :: k.currentTicketStack).reverse.Sublist (k.started ++ [ticket])
    rw [List.reverse_cons]
    exact h.nested.append (.refl _)

theorem pop (h : k.Consistent) (hstack : k.currentTicketStack = ticket :: below) :
    (k.pop ticket).Consistent where
  known ticket' hticket' := by
    rcases eq_or_ne ticket' ticket with rfl | hne
    · simp [Tickets.pop] at hticket'
    · exact h.known ticket' (by simpa [Tickets.pop, hne] using hticket')
  queued ticket' hticket' := by
    have hstarted := h.mem_started (hstack ▸ List.mem_cons_self)
    have hne : ticket' ≠ ticket := by
      rintro rfl
      exact h.not_queued hstarted hticket'
    simpa [Tickets.pop, hne] using h.queued ticket' hticket'
  running ticket' hticket' := by
    have hnodup := h.stack_nodup
    have hbelow : ticket' ∈ below := by simpa [Tickets.pop, hstack] using hticket'
    rw [hstack, List.nodup_cons] at hnodup
    have hne : ticket' ≠ ticket := by
      rintro rfl
      exact hnodup.1 hbelow
    simpa [Tickets.pop, hne] using h.running ticket' (hstack ▸ List.mem_cons_of_mem _ hbelow)
  scheduled := h.scheduled
  order := h.order
  once := h.once
  nested := by
    have hnested := h.nested
    rw [hstack, List.reverse_cons] at hnested
    show k.currentTicketStack.tail.reverse.Sublist k.started
    rw [hstack]
    exact (List.sublist_append_left _ _).trans hnested

end Tickets.Consistent

/-! ### What holds in every state -/

/-- Who the loop belongs to, what is known of the tickets, and that nothing is queued where no loop is
scheduled. -/
structure Orderly (s : OperationalQueue Θ) : Prop where
  owned : ∃ o, Owned s o
  tickets : s.toTickets.Consistent
  idle : s.isScheduled = false → s.isDone = true
  stopping : ∀ θ, .stopWait ∈ s.threads θ → s.stopProcessingRequested = true

section Steps

variable [DecidableEq Θ] {s s' : OperationalQueue Θ} {l : QueueLabel Θ}

omit [DecidableEq Θ] in
/-- The ticket that a loop runs, or takes off, is on top of the stack. -/
theorem Owned.stack_of_loop {o : Owner Θ} (h : Owned s o) {wait : Option ℕ} {point : LoopPoint}
    (hframes : s.threads θ = .loop wait point :: rest) :
    ∃ below, s.currentTicketStack = point.tickets ++ below := by
  obtain ⟨-, -, hchain⟩ := h.loop_cases hframes
  obtain ⟨below, hstack, -⟩ := hchain.at_point
  exact ⟨below, hstack⟩

theorem Orderly.consistent_of_step (h : Orderly s) (hstep : Step s l s') :
    s'.toTickets.Consistent := by
  obtain ⟨o, howned⟩ := h.owned
  cases hstep with
  | register => exact h.tickets.register
  | enqueue _ _ _ hregistered hnew => exact h.tickets.enqueue hregistered hnew
  | enqueuePost _ _ _ hregistered hnew => exact h.tickets.enqueue hregistered hnew
  | remove _ _ hrunning => exact h.tickets.remove hrunning
  | stop => exact h.tickets.requestStop
  | signal => exact h.tickets.setValue
  | take _ _ hqueue => exact h.tickets.take hqueue
  | pop hframes =>
    obtain ⟨below, hstack⟩ := howned.stack_of_loop hframes
    exact h.tickets.pop hstack
  | done => exact h.tickets.setValue
  | nothing | discardRunning | wait | finish | begin | post | returns | continues | mainBegin
  | mainDone | mainAgain => exact h.tickets

theorem Orderly.idle_of_step (h : Orderly s) (hstep : Step s l s') (hidle : s'.isScheduled = false) :
    s'.isDone = true := by
  have hdone := h.idle
  simp only [OperationalQueue.isDone, Bool.or_eq_true, List.isEmpty_iff] at hdone ⊢
  cases hstep with
  | enqueue _ _ _ _ _ hscheduled => simp [hscheduled] at hidle
  | enqueuePost => simp at hidle
  | remove =>
    rcases hdone hidle with hqueue | hstop
    · exact .inl (by simp [Tickets.remove, hqueue])
    · exact .inr hstop
  | stop => exact .inr rfl
  | mainDone _ hisDone => simpa [OperationalQueue.isDone] using hisDone
  | take _ hstop hqueue =>
    rcases hdone hidle with hempty | hstop'
    · rw [hqueue] at hempty
      cases hempty
    · exact .inr hstop'
  | nothing | register | discardRunning | wait | finish | begin | post | signal | returns | continues
  | mainBegin | mainAgain | pop | done => exact hdone hidle

/-- The wait for the end of the loop is entered by a request to stop. -/
theorem Orderly.stopping_of_frames {f : List Frame} (h : Orderly s)
    (hthreads : s'.threads = Function.update s.threads θ f)
    (hstop : s'.stopProcessingRequested = s.stopProcessingRequested)
    (hframes : .stopWait ∈ f → .stopWait ∈ s.threads θ) (hwait : .stopWait ∈ s'.threads θ') :
    s'.stopProcessingRequested = true := by
  rw [hstop]
  rw [hthreads] at hwait
  rcases eq_or_ne θ' θ with rfl | hne
  · rw [Function.update_self] at hwait
    exact h.stopping θ' (hframes hwait)
  · rw [Function.update_of_ne hne] at hwait
    exact h.stopping θ' hwait

theorem Orderly.stopping_of_step (h : Orderly s) (hstep : Step s l s')
    (hwait : .stopWait ∈ s'.threads θ') : s'.stopProcessingRequested = true := by
  cases hstep with
  | nothing | register | enqueue => exact h.stopping θ' hwait
  | stop => rfl
  | begin => exact h.stopping_of_frames (f := [.mainBegin]) rfl rfl (by simp) hwait
  | continues hframes hnext =>
    exact h.stopping_of_frames rfl rfl (by rw [hframes]; cases hnext <;> simp) hwait
  | enqueuePost | discardRunning | remove | wait =>
    exact h.stopping_of_frames rfl rfl (by simp) hwait
  | post hframes | signal hframes | returns hframes | mainDone hframes =>
    exact h.stopping_of_frames rfl rfl (fun hmem => hframes ▸ List.mem_cons_of_mem _ hmem) hwait
  | finish hframes | mainBegin hframes | mainAgain hframes | take hframes | pop hframes
  | done hframes =>
    refine h.stopping_of_frames rfl rfl ?_ hwait
    rw [hframes]
    intro hmem
    simpa using hmem

theorem Orderly.of_step (h : Orderly s) (hstep : Step s l s') : Orderly s' := by
  obtain ⟨o, howned⟩ := h.owned
  exact ⟨howned.step hstep, h.consistent_of_step hstep, h.idle_of_step hstep,
    fun _ => h.stopping_of_step hstep⟩

omit [DecidableEq Θ] in
theorem Orderly.init : Orderly ({} : OperationalQueue Θ) where
  owned := ⟨.none, by simp, by simp, by simp, fun θ _ => .user (by simp), by simp, by simp⟩
  tickets := .empty
  idle := by simp [OperationalQueue.isDone]
  stopping := by simp

theorem Orderly.of_run {ts : List (Transition (OperationalQueue Θ) (QueueLabel Θ))}
    (h : (operationalQueue Θ).Run ts s) : Orderly s :=
  h.invariant (by rintro s rfl; exact .init) fun _ _ _ hstep hs => hs.of_step (step_cases hstep)

end Steps

/-! ### Running at the same time -/

namespace OperationalQueue

/-- The ticket runs in this thread. -/
def Runs (s : OperationalQueue Θ) (θ : Θ) (ticket : ℕ) : Prop :=
  ∃ wait, .loop wait (.run ticket) ∈ s.threads θ

end OperationalQueue

/-- The later ticket runs in a loop that a wait of the earlier one has entered. -/
def RunsInWait (frames : List Frame) (later earlier : ℕ) : Prop :=
  ∃ above awaited point wait below,
    frames = above ++ .loop (some awaited) point :: .loop wait (.run earlier) :: below ∧
    ∃ wait, .loop wait (.run later) ∈ above ++ [.loop (some awaited) point]

theorem RunsInWait.cons (h : RunsInWait frames later earlier) (frame : Frame) :
    RunsInWait (frame :: frames) later earlier := by
  obtain ⟨above, awaited, point, wait, below, rfl, wait', hlater⟩ := h
  exact ⟨frame :: above, awaited, point, wait, below, rfl, wait', List.mem_cons_of_mem _ hlater⟩

theorem Chain.mem_stack {wait : Option ℕ} (h : Chain frames stack)
    (hticket : .loop wait (.run ticket) ∈ frames) : ticket ∈ stack := by
  induction h with
  | main point =>
    simp only [List.mem_cons, Frame.loop.injEq, reduceCtorEq, List.not_mem_nil, or_self,
      or_false] at hticket
    rw [← hticket.2]
    exact List.mem_singleton_self _
  | nest _ awaited point ih =>
    rcases List.mem_cons.mp hticket with heq | hmem
    · cases heq
      exact List.mem_append_left _ (List.mem_singleton_self _)
    · exact List.mem_append_right _ (ih hmem)

/-- A loop above the loop that runs a ticket is above, or is, the one that a wait of a ticket that runs
has entered. -/
theorem Chain.above_of_mem (h : Chain frames stack) {wait : Option ℕ} {running : ℕ}
    (hframes : frames = .loop wait (.run running) :: rest) (hearlier : earlier ∈ stack)
    (awaited : ℕ) (point : LoopPoint) :
    ∃ above awaited' point' wait' below,
      .loop (some awaited) point :: frames =
        above ++ .loop (some awaited') point' :: .loop wait' (.run earlier) :: below ∧
      .loop (some awaited) point ∈ above ++ [.loop (some awaited') point'] := by
  induction h generalizing wait running rest awaited point with
  | main point' =>
    cases hframes
    obtain rfl := List.mem_singleton.mp hearlier
    exact ⟨[], awaited, point, none, [.mainEnd], rfl, by simp⟩
  | @nest wait' ticket rest' stack' h awaited' point' ih =>
    cases hframes
    rcases List.mem_append.mp hearlier with hrunning | hbelow
    · obtain rfl := List.mem_singleton.mp hrunning
      exact ⟨[], awaited, point, some awaited', _, rfl, by simp⟩
    · obtain ⟨above, awaited'', point'', wait'', below, heq, -⟩ :=
        ih rfl hbelow awaited' (.run running)
      refine ⟨.loop (some awaited) point :: above, awaited'', point'', wait'', below, ?_, by simp⟩
      rw [heq, List.cons_append]

/-- Of two tickets of the chain the one that is further up runs in a wait of the other. -/
theorem Chain.runsInWait (h : Chain frames stack) {wait : Option ℕ}
    (hlater : .loop wait (.run later) ∈ frames) (horder : [later, earlier].Sublist stack)
    (hnodup : stack.Nodup) : RunsInWait frames later earlier := by
  induction h with
  | main point =>
    have hlength := horder.length_le
    cases point <;> simp [LoopPoint.tickets] at hlength
  | @nest wait' ticket rest' stack' h awaited point ih =>
    have hearlier : earlier ∈ stack' := by
      cases point with
      | test | take | done => exact horder.subset (by simp)
      | run top | pop top =>
        cases horder with
        | cons _ h => exact h.subset (by simp)
        | cons_cons _ h => exact h.subset (by simp)
    rcases List.mem_cons.mp hlater with heq | hmem
    · cases heq
      obtain ⟨above, awaited', point', wait', below, heq, hmem⟩ :=
        h.above_of_mem rfl hearlier awaited (.run later)
      exact ⟨above, awaited', point', wait', below, heq, _, hmem⟩
    · have hmem' : later ∈ stack' := h.mem_stack hmem
      have horder' : [later, earlier].Sublist stack' := by
        cases point with
        | test | take | done => exact horder
        | run top | pop top =>
          cases horder with
          | cons _ h => exact h
          | cons_cons => exact absurd hmem' (List.nodup_cons.mp hnodup).1
      exact (ih hmem horder' (List.nodup_append.mp hnodup).2.1).cons _

/-- A ticket runs in the thread that has the loop, in the chain of its loops. -/
theorem Owned.chain_of_runs {s : OperationalQueue Θ} {o : Owner Θ} (h : Owned s o)
    (hruns : s.Runs θ ticket) :
    o = .loop θ ∧ ticket ∈ s.currentTicketStack ∧ ∃ above frames wait,
      s.threads θ = above ++ frames ∧ Chain frames s.currentTicketStack ∧
        .loop wait (.run ticket) ∈ frames := by
  obtain ⟨wait, hmem⟩ := hruns
  by_cases ho : o = .loop θ
  · have hinside := h.inside θ ho
    generalize s.threads θ = frames at hinside hmem
    generalize s.processingThread = thread at hinside
    generalize s.currentTicketStack = stack at hinside ⊢
    cases hinside with
    | begin => simp at hmem
    | ended => simp at hmem
    | loops hchain => exact ⟨ho, hchain.mem_stack hmem, [], _, wait, rfl, hchain, hmem⟩
    | @call frame _ _ _ _ hchain hframe =>
      rcases List.mem_cons.mp hmem with rfl | hmem
      · simp [Frame.inner] at hframe
      · exact ⟨ho, hchain.mem_stack hmem, [frame], _, wait, rfl, hchain, hmem⟩
  · have houtside := h.outside θ ho
    generalize s.threads θ = frames at houtside hmem
    cases houtside with
    | user | post => simp at hmem
    | call _ hframe =>
      obtain rfl := List.mem_singleton.mp hmem
      simp [Frame.outer] at hframe

theorem RunsInWait.append (h : RunsInWait frames later earlier) (above : List Frame) :
    RunsInWait (above ++ frames) later earlier := by
  induction above with
  | nil => exact h
  | cons frame above ih => exact ih.cons frame

/-- Of two tickets that run at the same time the one that has started later runs in a wait of the
other. -/
theorem Orderly.runsInWait_of_order {s : OperationalQueue Θ} (h : Orderly s)
    (hearlier : s.Runs θ earlier) (hlater : s.Runs θ' later)
    (horder : [earlier, later].Sublist s.started) :
    θ' = θ ∧ RunsInWait (s.threads θ) later earlier := by
  obtain ⟨o, howned⟩ := h.owned
  obtain ⟨rfl, hmem, -⟩ := howned.chain_of_runs hearlier
  obtain ⟨hθ, hmem', above, frames, wait, hframes, hchain, hloop⟩ := howned.chain_of_runs hlater
  obtain rfl : θ = θ' := by simpa using hθ
  refine ⟨rfl, ?_⟩
  rw [hframes]
  refine (hchain.runsInWait hloop ?_ h.tickets.stack_nodup).append above
  have hnodup : s.started.Nodup := (List.nodup_append.mp h.tickets.nodup).1
  have hpair := pair_sublist_part h.tickets.nested hnodup horder (List.mem_reverse.mpr hmem)
    (List.mem_reverse.mpr hmem')
  simpa using hpair.reverse

/-- **Two tickets run at the same time only if the later one runs in a wait of the earlier one.** -/
theorem Orderly.runsInWait {s : OperationalQueue Θ} (h : Orderly s) (hticket : s.Runs θ ticket)
    (hother : s.Runs θ' other) (hne : ticket ≠ other) :
    θ' = θ ∧ ([ticket, other].Sublist s.started ∧ RunsInWait (s.threads θ) other ticket ∨
      [other, ticket].Sublist s.started ∧ RunsInWait (s.threads θ) ticket other) := by
  obtain ⟨o, howned⟩ := h.owned
  obtain ⟨-, hmem, -⟩ := howned.chain_of_runs hticket
  obtain ⟨-, hmem', -⟩ := howned.chain_of_runs hother
  rcases pair_sublist_or hne (h.tickets.mem_started hmem) (h.tickets.mem_started hmem')
    with horder | horder
  · obtain ⟨hθ, hwait⟩ := h.runsInWait_of_order hticket hother horder
    exact ⟨hθ, .inl ⟨horder, hwait⟩⟩
  · obtain ⟨rfl, hwait⟩ := h.runsInWait_of_order hother hticket horder
    exact ⟨rfl, .inr ⟨horder, hwait⟩⟩

/-! ### Discarded tickets -/

/-- A ticket that is not queued and cannot be queued any more. -/
def Tickets.Spent (k : Tickets) (ticket : ℕ) : Prop :=
  ticket ∉ k.processingQueue ∧ (k.wasScheduled ticket = true ∨ k.registered ticket = false) ∧
    ticket < k.created

section Steps

variable [DecidableEq Θ] {s s' : OperationalQueue Θ} {l : QueueLabel Θ}

omit [DecidableEq Θ] in
/-- A ticket that has started is spent. -/
theorem Tickets.Consistent.spent {k : Tickets} (h : k.Consistent) (hstarted : ticket ∈ k.started) :
    k.wasScheduled ticket = true ∧ ticket ∉ k.processingQueue :=
  ⟨(h.scheduled ticket).mpr (h.order.subset (List.mem_append_left _ hstarted)),
    h.not_queued hstarted⟩

theorem spent_of_step (h : s.Spent ticket) (hstep : Step s l s') : s'.Spent ticket := by
  obtain ⟨hqueue, hclosed, hlt⟩ := h
  cases hstep with
  | register =>
    refine ⟨hqueue, ?_, Nat.lt_succ_of_lt hlt⟩
    simpa [Tickets.register, hlt.ne] using hclosed
  | @enqueue θ ticket' _ _ _ hregistered hnew | @enqueuePost θ ticket' _ _ _ hregistered hnew =>
    have hne : ticket ≠ ticket' := by
      rintro rfl
      simp [hregistered, hnew] at hclosed
    refine ⟨?_, ?_, hlt⟩
    · simp [Tickets.enqueue, hqueue, hne]
    · simpa [Tickets.enqueue, hne] using hclosed
  | @remove θ ticket' =>
    refine ⟨fun hmem => hqueue (List.mem_of_mem_filter hmem), ?_, hlt⟩
    rcases eq_or_ne ticket ticket' with rfl | hne
    · exact .inr (by simp [Tickets.remove])
    · simpa [Tickets.remove, hne] using hclosed
  | take _ _ hhead =>
    rw [hhead] at hqueue
    exact ⟨fun hmem => hqueue (List.mem_cons_of_mem _ hmem), hclosed, hlt⟩
  | @pop θ _ ticket' =>
    refine ⟨hqueue, ?_, hlt⟩
    rcases eq_or_ne ticket ticket' with rfl | hne
    · exact .inr (by simp [Tickets.pop])
    · simpa [Tickets.pop, hne] using hclosed
  | nothing | discardRunning | wait | stop | finish | begin | post | signal | returns | continues
  | mainBegin | mainDone | mainAgain | done => exact ⟨hqueue, hclosed, hlt⟩

/-- A step starts the first ticket of the queue or none. -/
theorem started_of_step (hstep : Step s l s') : s'.started = s.started ∨
    ∃ ticket queue, s.processingQueue = ticket :: queue ∧ s'.started = s.started ++ [ticket] := by
  cases hstep with
  | take _ _ hqueue => exact .inr ⟨_, _, hqueue, rfl⟩
  | _ => exact .inl rfl

/-- After a call of `discard_ticket` has looked at the ticket it is spent. -/
theorem Orderly.spent_of_discard (h : Orderly s)
    (hstep : s.step (.discardTicket θ ticket) = some s') : s'.Spent ticket := by
  cases step_cases hstep with
  | nothing hdiscard =>
    obtain ⟨hregistered, hlt⟩ := hdiscard θ ticket rfl
    refine ⟨fun hqueue => ?_, .inr hregistered, hlt⟩
    rw [h.tickets.queued ticket hqueue] at hregistered
    cases hregistered
  | discardRunning huser hrunning =>
    obtain ⟨hscheduled, hqueue⟩ := h.tickets.spent (h.tickets.mem_started hrunning)
    exact ⟨hqueue, .inl hscheduled, h.tickets.known ticket (h.tickets.running ticket hrunning)⟩
  | remove huser hregistered hrunning =>
    refine ⟨?_, .inr ?_, h.tickets.known ticket hregistered⟩
    · simp [Tickets.remove]
    · simp [Tickets.remove]

theorem Tickets.Spent.not_started (h : s.Spent ticket) (hstep : Step s l s') :
    s'.started ≠ s.started ++ [ticket] := by
  intro hstarted
  rcases started_of_step hstep with heq | ⟨ticket', queue, hqueue, heq⟩
  · rw [heq] at hstarted
    simpa using congrArg List.length hstarted
  · obtain rfl : ticket' = ticket := by simpa using heq.symm.trans hstarted
    exact h.1 (hqueue ▸ List.mem_cons_self)

end Steps

/-! ### The next ticket is taken -/

/-- The ticket is the first of the queue, and no stop was requested. -/
def Tickets.Next (k : Tickets) (ticket : ℕ) : Prop :=
  k.stopProcessingRequested = false ∧ ∃ queue, k.processingQueue = ticket :: queue

section Progress

variable [DecidableEq Θ]

/-- **The thread takes the ticket** by steps of its own alone, where the functions of the tickets that it
runs return. -/
inductive TakesNext (θ : Θ) (ticket : ℕ) : OperationalQueue Θ → Prop
  | take {s t : OperationalQueue Θ} (h : s.step (.go θ) = some t)
      (hstarted : t.started = s.started ++ [ticket]) : TakesNext θ ticket s
  | go {s t : OperationalQueue Θ} (h : s.step (.go θ) = some t) (hnext : TakesNext θ ticket t) :
      TakesNext θ ticket s
  | finish {s t : OperationalQueue Θ} (h : s.step (.finish θ) = some t)
      (hnext : TakesNext θ ticket t) : TakesNext θ ticket s
  | begin {s t : OperationalQueue Θ} (h : s.step (.begin θ) = some t)
      (hnext : TakesNext θ ticket t) : TakesNext θ ticket s

/-- With these frames the thread takes the next ticket. -/
def TakesWith (θ : Θ) (ticket : ℕ) (frames : List Frame) : Prop :=
  ∀ s : OperationalQueue Θ, s.threads θ = frames → s.Next ticket → TakesNext θ ticket s

theorem TakesWith.take (wait : Option ℕ) (rest : List Frame) :
    TakesWith θ ticket (.loop wait .take :: rest) := by
  rintro s hframes ⟨hstop, queue, hqueue⟩
  refine .take (t := (s.setTickets (s.take ticket queue)).setFrames θ
    (.loop wait (.run ticket) :: rest)) ?_ rfl
  simp [OperationalQueue.step, OperationalQueue.go, OperationalQueue.goLoop, hframes, hstop, hqueue]

/-- A loop takes the next ticket, or it returns to something that does. -/
theorem TakesWith.loop (hrest : TakesWith θ ticket rest) (wait : Option ℕ) (point : LoopPoint) :
    TakesWith θ ticket (.loop wait point :: rest) := by
  have htest : TakesWith θ ticket (.loop wait .test :: rest) := by
    intro s hframes hnext
    by_cases hbreaks : s.breaks wait
    · refine .go (t := s.setFrames θ rest) ?_ (hrest _ (by simp) hnext)
      simp [OperationalQueue.step, OperationalQueue.go, OperationalQueue.goLoop, hframes, hbreaks]
    · refine .go (t := s.setFrames θ (.loop wait .take :: rest)) ?_
        (TakesWith.take wait rest _ (by simp) hnext)
      simp [OperationalQueue.step, OperationalQueue.go, OperationalQueue.goLoop, hframes, hbreaks]
  have hdone (ticket' : ℕ) : TakesWith θ ticket (.loop wait (.done ticket') :: rest) := by
    intro s hframes hnext
    refine .go (t := (s.setTickets (s.setValue ticket')).setFrames θ (.loop wait .test :: rest)) ?_
      (htest _ (by simp) hnext)
    simp [OperationalQueue.step, OperationalQueue.go, OperationalQueue.goLoop, hframes]
  have hpop (ticket' : ℕ) : TakesWith θ ticket (.loop wait (.pop ticket') :: rest) := by
    intro s hframes hnext
    refine .go (t := (s.setTickets (s.pop ticket')).setFrames θ
      (.loop wait (.done ticket') :: rest)) ?_ (hdone ticket' _ (by simp) hnext)
    simp [OperationalQueue.step, OperationalQueue.go, OperationalQueue.goLoop, hframes]
  cases point with
  | test => exact htest
  | take => exact .take wait rest
  | run ticket' =>
    intro s hframes hnext
    refine .finish (t := s.setFrames θ (.loop wait (.pop ticket') :: rest)) ?_
      (hpop ticket' _ (by simp) hnext)
    simp [OperationalQueue.step, OperationalQueue.finish, hframes]
  | pop ticket' => exact hpop ticket'
  | done ticket' => exact hdone ticket'

omit [DecidableEq Θ] in
theorem Tickets.Next.isDone {s : OperationalQueue Θ} (h : s.Next ticket) : s.isDone = false := by
  obtain ⟨hstop, queue, hqueue⟩ := h
  simp [OperationalQueue.isDone, hstop, hqueue]

/-- The task does not end while there is a next ticket. -/
theorem TakesWith.mainEnd : TakesWith θ ticket [.mainEnd] := by
  have htest : TakesWith θ ticket [.loop none .test, .mainEnd] := by
    intro s hframes hnext
    refine .go (t := s.setFrames θ [.loop none .take, .mainEnd]) ?_
      (TakesWith.take none [.mainEnd] _ (by simp) hnext)
    simp [OperationalQueue.step, OperationalQueue.go, OperationalQueue.goLoop,
      OperationalQueue.breaks, hframes, hnext.isDone]
  intro s hframes hnext
  refine .go (t := s.setFrames θ [.loop none .test, .mainEnd]) ?_ (htest _ (by simp) hnext)
  simp [OperationalQueue.step, OperationalQueue.go, hframes, hnext.isDone]

theorem TakesWith.chain (h : Chain frames stack) : TakesWith θ ticket frames := by
  induction h with
  | main point => exact TakesWith.mainEnd.loop none point
  | nest _ awaited point ih => exact ih.loop (some awaited) point

theorem TakesWith.mainBegin : TakesWith θ ticket [.mainBegin] := by
  intro s hframes hnext
  refine .go (t := { s with processingThread := some θ }.setFrames θ
    [.loop none .test, .mainEnd]) ?_ (TakesWith.mainEnd.loop none .test _ (by simp) hnext)
  simp [OperationalQueue.step, OperationalQueue.go, hframes]

/-- A call of the processing thread returns, or enters a loop. -/
theorem TakesNext.of_call (hrest : TakesWith θ ticket rest) {s : OperationalQueue Θ} {frame : Frame}
    (hframe : frame.inner = true) (hne : frame ≠ .stopWait) (hframes : s.threads θ = frame :: rest)
    (hθ : s.processingThread = some θ) (hnext : s.Next ticket) : TakesNext θ ticket s := by
  have hreturn (s : OperationalQueue Θ) (hnext : s.Next ticket) :
      TakesNext θ ticket (s.setFrames θ rest) := hrest _ (by simp) hnext
  have haskStack (s : OperationalQueue Θ) (awaited : ℕ)
      (hframes : s.threads θ = .askStack awaited :: rest) (hnext : s.Next ticket) :
      TakesNext θ ticket s := by
    by_cases hstack : awaited ∈ s.currentTicketStack
    · refine .go (t := s.setFrames θ rest) ?_ (hreturn s hnext)
      simp [OperationalQueue.step, OperationalQueue.go, hframes, hstack]
    · refine .go (t := s.setFrames θ (.loop (some awaited) .test :: rest)) ?_
        (hrest.loop (some awaited) .test _ (by simp) hnext)
      simp [OperationalQueue.step, OperationalQueue.go, hframes, hstack]
  have haskThread (s : OperationalQueue Θ) (awaited : ℕ) (hθ : s.processingThread = some θ)
      (hframes : s.threads θ = .askThread awaited :: rest) (hnext : s.Next ticket) :
      TakesNext θ ticket s := by
    refine .go (t := s.setFrames θ (.askStack awaited :: rest)) ?_
      (haskStack _ awaited (by simp) hnext)
    simp [OperationalQueue.step, OperationalQueue.go, hframes, hθ]
  cases frame with
  | signal ticket' =>
    refine .go (t := (s.setTickets (s.setValue ticket')).setFrames θ rest) ?_ (hreturn _ hnext)
    simp [OperationalQueue.step, OperationalQueue.go, hframes]
  | lookup awaited =>
    by_cases hregistered : s.registered awaited
    · refine .go (t := s.setFrames θ (.askThread awaited :: rest)) ?_
        (haskThread _ awaited hθ (by simp) hnext)
      simp [OperationalQueue.step, OperationalQueue.go, hframes, hregistered]
    · refine .go (t := s.setFrames θ rest) ?_ (hreturn s hnext)
      simp [OperationalQueue.step, OperationalQueue.go, hframes, hregistered]
  | askThread awaited => exact haskThread s awaited hθ hframes hnext
  | askStack awaited => exact haskStack s awaited hframes hnext
  | stopWait => exact absurd rfl hne
  | post | sleep | mainBegin | mainEnd | loop => simp [Frame.inner] at hframe

/-- **No wake-up is lost**: with a next ticket the loop is scheduled, and the thread that has it, or is
about to give it to the pool, or any thread of the pool that begins it, takes this ticket. -/
theorem Orderly.takesNext {s : OperationalQueue Θ} (h : Orderly s) (hnext : s.Next ticket) :
    s.isScheduled = true ∧ ((∃ θ, TakesNext θ ticket s) ∨
      0 < s.tasks ∧ ∀ θ, s.threads θ = [] → TakesNext θ ticket s) := by
  have hscheduled : s.isScheduled = true := by
    by_contra hidle
    have hdone := h.idle (by simpa using hidle)
    rw [hnext.isDone] at hdone
    cases hdone
  have hpool : ∀ (s : OperationalQueue Θ) θ, 0 < s.tasks → s.threads θ = [] → s.Next ticket →
      TakesNext θ ticket s := by
    intro s θ htasks hframes hnext
    refine .begin (t := { s with tasks := s.tasks - 1 }.setFrames θ [.mainBegin]) ?_
      (TakesWith.mainBegin _ (by simp) hnext)
    simp [OperationalQueue.step, OperationalQueue.begin, hframes, htasks]
  refine ⟨hscheduled, ?_⟩
  obtain ⟨o, howned⟩ := h.owned
  cases o with
  | none => simpa using howned.scheduled.mp hscheduled
  | posting θ =>
    left
    refine ⟨θ, ?_⟩
    have houtside := howned.outside θ (by simp)
    generalize hframes : s.threads θ = frames at houtside
    cases houtside with
    | user hposting | call hposting => exact absurd rfl hposting
    | post =>
      refine .go (t := { s with tasks := s.tasks + 1 }.setFrames θ []) ?_
        (hpool _ θ (Nat.succ_pos _) (by simp) hnext)
      simp [OperationalQueue.step, OperationalQueue.go, hframes]
  | pool =>
    right
    have htasks : 0 < s.tasks := by simp [howned.pool rfl]
    exact ⟨htasks, fun θ hframes => hpool s θ htasks hframes hnext⟩
  | loop θ =>
    left
    refine ⟨θ, ?_⟩
    have hinside := howned.inside θ rfl
    generalize hframes : s.threads θ = frames at hinside
    generalize hthread : s.processingThread = thread at hinside
    generalize s.currentTicketStack = stack at hinside
    cases hinside with
    | begin => exact TakesWith.mainBegin s hframes hnext
    | ended => exact TakesWith.mainEnd s hframes hnext
    | loops hchain => exact TakesWith.chain hchain s hframes hnext
    | @call frame _ _ _ _ hchain hframe =>
      have hne : frame ≠ .stopWait := by
        rintro rfl
        have hstop := h.stopping θ (by simp [hframes])
        rw [hnext.1] at hstop
        cases hstop
      exact TakesNext.of_call (.chain hchain) hframe hne hframes hthread hnext

end Progress

/-! ### Every run -/

variable [DecidableEq Θ]

/-- **The queue runs its tickets in order.** In every run: tickets start in the order in which they were
scheduled, each at most once, and those still queued follow them; of two that run at the same time the
later runs in a wait of the earlier; after a call of `discard_ticket` the ticket does not start; and
where a ticket is queued and no stop was requested, the loop is scheduled and its thread, or any thread
of the pool that begins it, takes the next ticket. -/
theorem runs_in_order {ts : List (Transition (OperationalQueue Θ) (QueueLabel Θ))}
    {s : OperationalQueue Θ} (h : (operationalQueue Θ).Run ts s) :
    ((s.started ++ s.processingQueue).Sublist s.scheduled ∧ s.scheduled.Nodup) ∧
    (∀ θ θ' ticket other, s.Runs θ ticket → s.Runs θ' other → ticket ≠ other → θ' = θ ∧
      ([ticket, other].Sublist s.started ∧ RunsInWait (s.threads θ) other ticket ∨
        [other, ticket].Sublist s.started ∧ RunsInWait (s.threads θ) ticket other)) ∧
    (∀ us d vs θ ticket, ts = us ++ d :: vs → d.label = .discardTicket θ ticket →
      ∀ v ∈ vs, v.after.started ≠ v.before.started ++ [ticket]) ∧
    ∀ ticket queue, s.processingQueue = ticket :: queue → s.stopProcessingRequested = false →
      s.isScheduled = true ∧ ((∃ θ, TakesNext θ ticket s) ∨
        0 < s.tasks ∧ ∀ θ, s.threads θ = [] → TakesNext θ ticket s) := by
  have horderly := Orderly.of_run h
  refine ⟨⟨horderly.tickets.order, horderly.tickets.once⟩,
    fun θ θ' ticket other hticket hother hne => horderly.runsInWait hticket hother hne,
    fun us d vs θ ticket hts hlabel v hv => ?_,
    fun ticket queue hqueue hstop => horderly.takesNext ⟨hstop, queue, hqueue⟩⟩
  have hd : d.after.Spent ticket := by
    obtain ⟨hstep, us', -, hrun⟩ := h.reaches_before (t := d) (by simp [hts])
    rw [hlabel] at hstep
    exact (Orderly.of_run hrun).spent_of_discard hstep
  have hspent := h.before_of_mem_rest hts (P := fun s => s.Spent ticket) hd
    (fun s l s' hstep hs => spent_of_step hs (step_cases hstep)) hv
  exact hspent.not_started (step_cases (h.step_of_mem (t := v) (by simp [hts, hv])))

/-- The first of two tickets schedules the second and waits for it: the second runs in this wait. -/
theorem runs_in_order_nested : ∃ ts s, (operationalQueue Bool).Run ts s ∧ s.started = [0, 1] ∧
    RunsInWait (s.threads true) 1 0 := by
  obtain ⟨ts, s, hrun, h⟩ := Machine.exists_run (M := operationalQueue Bool) (s := {})
    [.createTicket false, .createTicket false, .scheduleTicket false 0, .go false, .begin true,
      .go true, .go true, .go true, .scheduleTicket true 1, .waitTicket true 1, .go true, .go true,
      .go true, .go true, .go true]
    (fun _ s => decide (s.started = [0, 1] ∧ Frame.loop none (.run 0) ∈ s.threads true ∧
      Frame.loop (some 1) (.run 1) ∈ s.threads true)) rfl (by decide +kernel)
  obtain ⟨hstarted, hfirst, hsecond⟩ := of_decide_eq_true h
  refine ⟨ts, s, hrun, hstarted, ?_⟩
  rcases ((runs_in_order hrun).2.1 true true 0 1 ⟨_, hfirst⟩ ⟨_, hsecond⟩ (by simp)).2 with
    ⟨-, hwait⟩ | ⟨horder, -⟩
  · exact hwait
  · rw [hstarted] at horder
    exact absurd horder (by decide)

end HueStream.Threading
