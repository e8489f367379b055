import HueStream.Threading.Steps

/-! # Processing tickets

There is one processing loop, carried by at most one thread or by the pool, and the tickets it has begun
are the waits of one thread inside each other. -/

namespace HueStream.Threading

open HueStream.Lib

variable {Θ : Type} {θ θ' : Θ} {wait : Option ℕ} {point : LoopPoint} {ticket : ℕ}
  {frames rest : List Frame} {below stack : List ℕ}

/-! ### What the threads are in -/

/-- The ticket that is on the stack at this point of the loop. -/
def LoopPoint.tickets : LoopPoint → List ℕ
  | .run ticket | .pop ticket => [ticket]
  | .test | .take | .done _ => []

/-- **The loops of the processing thread** and the tickets they are at: the one of the task at the bottom,
and above it one for each wait of a ticket that runs. -/
inductive Chain : List Frame → List ℕ → Prop
  | main (point : LoopPoint) : Chain [.loop none point, .mainEnd] point.tickets
  | nest {wait : Option ℕ} {ticket : ℕ} {rest : List Frame} {stack : List ℕ}
      (h : Chain (.loop wait (.run ticket) :: rest) stack) (awaited : ℕ) (point : LoopPoint) :
      Chain (.loop (some awaited) point :: .loop wait (.run ticket) :: rest) (point.tickets ++ stack)

/-- A function that the processing thread can be in above its loops. -/
def Frame.inner : Frame → Bool
  | .signal _ | .lookup _ | .askThread _ | .askStack _ | .stopWait => true
  | _ => false

/-- A function that another thread can be in. -/
def Frame.outer : Frame → Bool
  | .signal _ | .lookup _ | .askThread _ | .sleep _ | .stopWait => true
  | _ => false

/-- The thread that carries the loop, with the processing thread and the stack of tickets. -/
inductive Inside (θ : Θ) : Option Θ → List Frame → List ℕ → Prop
  | begin : Inside θ none [.mainBegin] []
  | ended : Inside θ (some θ) [.mainEnd] []
  | loops {frames : List Frame} {stack : List ℕ} (h : Chain frames stack) :
      Inside θ (some θ) frames stack
  | call {frame : Frame} {wait : Option ℕ} {ticket : ℕ} {rest : List Frame} {stack : List ℕ}
      (h : Chain (.loop wait (.run ticket) :: rest) stack) (hframe : frame.inner = true) :
      Inside θ (some θ) (frame :: .loop wait (.run ticket) :: rest) stack

/-- Another thread; it is about to give the loop to the pool or not. -/
inductive Outside : Prop → List Frame → Prop
  | user {posting : Prop} (h : ¬ posting) : Outside posting []
  | post {posting : Prop} (h : posting) : Outside posting [.post]
  | call {posting : Prop} {frame : Frame} (h : ¬ posting) (hframe : frame.outer = true) :
      Outside posting [frame]

/-- Who has the loop. -/
inductive Owner (Θ : Type)
  | none
  | posting (θ : Θ)
  | pool
  | loop (θ : Θ)

/-- **The loop is with its owner**, and with nobody else. -/
structure Owned (s : OperationalQueue Θ) (o : Owner Θ) : Prop where
  scheduled : s.isScheduled = true ↔ o ≠ .none
  pool : o = .pool → s.tasks = 1
  tasks : o ≠ .pool → s.tasks = 0
  outside : ∀ θ, o ≠ .loop θ → Outside (o = .posting θ) (s.threads θ)
  inside : ∀ θ, o = .loop θ → Inside θ s.processingThread (s.threads θ) s.currentTicketStack
  free : (∀ θ, o ≠ .loop θ) → s.currentTicketStack = [] ∧ s.processingThread = none

theorem Chain.at_point (h : Chain (.loop wait point :: rest) stack) :
    ∃ below, stack = point.tickets ++ below ∧
      ∀ point : LoopPoint, Chain (.loop wait point :: rest) (point.tickets ++ below) := by
  cases h with
  | main => exact ⟨[], by simp, fun point => by simpa using Chain.main point⟩
  | nest h awaited => exact ⟨_, rfl, fun point => .nest h awaited point⟩

/-- Below a loop without a ticket is the end of the round or the ticket that waits. -/
theorem Chain.below_loop (h : Chain (.loop wait point :: rest) stack) (hpoint : point.tickets = []) :
    (wait = none ∧ rest = [.mainEnd] ∧ stack = []) ∨
      (wait.isSome ∧ Chain rest stack ∧
        ∃ wait ticket rest', rest = .loop wait (.run ticket) :: rest') := by
  cases h with
  | main => exact .inl ⟨rfl, rfl, hpoint⟩
  | nest h awaited =>
    rw [hpoint]
    exact .inr ⟨rfl, h, _, _, _, rfl⟩

theorem Chain.eq_loop (h : Chain frames stack) :
    ∃ wait point rest, frames = .loop wait point :: rest := by
  cases h with
  | main => exact ⟨_, _, _, rfl⟩
  | nest => exact ⟨_, _, _, rfl⟩

/-- At the end of a round there is no ticket. -/
theorem Inside.at_end {thread : Option Θ} (h : Inside θ thread (.mainEnd :: rest) stack) :
    rest = [] ∧ stack = [] := by
  cases h with
  | ended => exact ⟨rfl, rfl⟩
  | loops hchain =>
    obtain ⟨_, _, _, heq⟩ := hchain.eq_loop
    cases heq
  | call _ hframe => simp [Frame.inner] at hframe

/-! ### The owner is kept -/

section Owner

variable [DecidableEq Θ] {s s' : OperationalQueue Θ} {o : Owner Θ} {l : QueueLabel Θ}

/-- Another thread than the one with the loop goes on. -/
theorem Owned.of_outside (h : Owned s o) (hθ : o ≠ .loop θ)
    (hframes : Outside (o = .posting θ) frames)
    (hthreads : s'.threads = Function.update s.threads θ frames)
    (hscheduled : s'.isScheduled = s.isScheduled) (htasks : s'.tasks = s.tasks)
    (hstack : s'.currentTicketStack = s.currentTicketStack)
    (hthread : s'.processingThread = s.processingThread) : Owned s' o := by
  refine ⟨by rw [hscheduled]; exact h.scheduled, by rw [htasks]; exact h.pool,
    by rw [htasks]; exact h.tasks, fun θ' hθ' => ?_,
    fun θ' hθ' => ?_, by rw [hstack, hthread]; exact h.free⟩
  · rw [hthreads]
    by_cases heq : θ' = θ
    · subst heq
      simpa using hframes
    · simpa [heq] using h.outside θ' hθ'
  · have hne : θ' ≠ θ := by
      rintro rfl
      exact hθ hθ'
    rw [hthreads, hstack, hthread, Function.update_of_ne hne]
    exact h.inside θ' hθ'

/-- The thread with the loop goes on. -/
theorem Owned.of_inside {f : List Frame} (h : Owned s (.loop θ))
    (hframes : Inside θ s'.processingThread f s'.currentTicketStack)
    (hthreads : s'.threads = Function.update s.threads θ f)
    (hscheduled : s'.isScheduled = s.isScheduled) (htasks : s'.tasks = s.tasks) :
    Owned s' (.loop θ) := by
  refine ⟨by rw [hscheduled]; exact h.scheduled, by rw [htasks]; exact h.pool,
    by rw [htasks]; exact h.tasks, fun θ' hθ' => ?_,
    fun θ' hθ' => ?_, fun hfree => absurd rfl (hfree θ)⟩
  · have hne : θ' ≠ θ := by
      rintro rfl
      exact hθ' rfl
    rw [hthreads, Function.update_of_ne hne]
    simpa using h.outside θ' hθ'
  · obtain rfl : θ = θ' := by simpa using hθ'
    rw [hthreads]
    simpa using hframes

omit [DecidableEq Θ] in
/-- A thread in code that can call the queue is outside of it, or runs a ticket. -/
theorem Owned.user_cases (h : Owned s o) (huser : s.atUser θ = true) :
    (o ≠ .loop θ ∧ o ≠ .posting θ ∧ s.threads θ = []) ∨
      (o = .loop θ ∧ s.processingThread = some θ ∧
        ∃ wait ticket rest, s.threads θ = .loop wait (.run ticket) :: rest ∧
          Chain (s.threads θ) s.currentTicketStack) := by
  unfold OperationalQueue.atUser at huser
  by_cases ho : o = .loop θ
  · right
    refine ⟨ho, ?_⟩
    have hinside := h.inside θ ho
    generalize s.threads θ = frames at huser hinside ⊢
    generalize s.processingThread = thread at hinside ⊢
    generalize s.currentTicketStack = stack at hinside ⊢
    cases hinside with
    | begin => simp at huser
    | ended => simp at huser
    | loops hchain =>
      obtain ⟨wait, point, rest, rfl⟩ := hchain.eq_loop
      cases point with
      | run ticket => exact ⟨rfl, _, _, _, rfl, hchain⟩
      | _ => simp at huser
    | @call frame _ _ _ _ hchain hframe => cases frame <;> simp [Frame.inner] at huser hframe
  · left
    have houtside := h.outside θ ho
    generalize s.threads θ = frames at huser houtside ⊢
    cases houtside with
    | user hposting => exact ⟨ho, hposting, rfl⟩
    | post hposting => simp at huser
    | @call frame hposting hframe => cases frame <;> simp [Frame.outer] at huser hframe

/-- A call of the queue from code that can call it. -/
theorem Owned.call (h : Owned s o) (huser : s.atUser θ = true) {frame : Frame}
    (hinner : frame.inner = true) (houter : frame.outer = true)
    (hthreads : s'.threads = Function.update s.threads θ (frame :: s.threads θ))
    (hscheduled : s'.isScheduled = s.isScheduled) (htasks : s'.tasks = s.tasks)
    (hstack : s'.currentTicketStack = s.currentTicketStack)
    (hthread : s'.processingThread = s.processingThread) : Owned s' o := by
  rcases h.user_cases huser with ⟨hloop, hposting, hframes⟩ | ⟨rfl, hθ, wait, ticket, rest, hframes, hchain⟩
  · rw [hframes] at hthreads
    exact h.of_outside hloop (.call hposting houter) hthreads hscheduled htasks hstack hthread
  · rw [hframes] at hthreads hchain
    refine h.of_inside ?_ hthreads hscheduled htasks
    rw [hthread, hθ, hstack]
    exact .call hchain hinner

omit [DecidableEq Θ] in
theorem Outside.congr {p q : Prop} (h : Outside p frames) (hiff : p ↔ q) : Outside q frames := by
  rwa [← propext hiff]

omit [DecidableEq Θ] in
/-- A thread in a function of the queue is outside of the loop, with nothing below, or has it. -/
theorem Owned.frame_cases (h : Owned s o) {frame : Frame} (hframes : s.threads θ = frame :: rest) :
    (o ≠ .loop θ ∧ rest = [] ∧ Outside (o = .posting θ) [frame]) ∨
      (o = .loop θ ∧ Inside θ s.processingThread (frame :: rest) s.currentTicketStack) := by
  by_cases ho : o = .loop θ
  · right
    rw [← hframes]
    exact ⟨ho, h.inside θ ho⟩
  · left
    have houtside := h.outside θ ho
    rw [hframes] at houtside
    have hrest : rest = [] := by cases houtside <;> rfl
    subst hrest
    exact ⟨ho, rfl, houtside⟩

omit [DecidableEq Θ] in
/-- A thread at a loop has it. -/
theorem Owned.loop_cases (h : Owned s o) (hframes : s.threads θ = .loop wait point :: rest) :
    o = .loop θ ∧ s.processingThread = some θ ∧
      Chain (.loop wait point :: rest) s.currentTicketStack := by
  rcases h.frame_cases hframes with ⟨-, -, houtside⟩ | ⟨ho, hinside⟩
  · cases houtside with
    | call _ hframe => simp [Frame.outer] at hframe
  · generalize s.processingThread = thread at hinside
    generalize s.currentTicketStack = stack at hinside
    cases hinside with
    | loops hchain => exact ⟨ho, rfl, hchain⟩
    | call _ hframe => simp [Frame.inner] at hframe

omit [DecidableEq Θ] in
/-- Only the thread with the loop is the processing thread. -/
theorem Owned.of_processingThread (h : Owned s o) (hθ : s.processingThread = some θ) :
    o = .loop θ := by
  by_cases hloop : ∃ θ', o = .loop θ'
  · obtain ⟨θ', rfl⟩ := hloop
    have hinside := h.inside θ' rfl
    rw [hθ] at hinside
    generalize s.threads θ' = frames at hinside
    generalize s.currentTicketStack = stack at hinside
    cases hinside <;> rfl
  · have hnone := (h.free fun θ' heq => hloop ⟨θ', heq⟩).2
    rw [hθ] at hnone
    cases hnone

omit [DecidableEq Θ] in
/-- The threads are left alone. -/
theorem Owned.of_eq (h : Owned s o) (hthreads : s'.threads = s.threads)
    (hscheduled : s'.isScheduled = s.isScheduled) (htasks : s'.tasks = s.tasks)
    (hstack : s'.currentTicketStack = s.currentTicketStack)
    (hthread : s'.processingThread = s.processingThread) : Owned s' o := by
  refine ⟨by rw [hscheduled]; exact h.scheduled, by rw [htasks]; exact h.pool,
    by rw [htasks]; exact h.tasks, by rw [hthreads]; exact h.outside,
    by rw [hthreads, hthread, hstack]; exact h.inside, by rw [hthread, hstack]; exact h.free⟩

/-- A thread that returns from a function of the queue. -/
theorem Owned.returns (h : Owned s o) {frame : Frame} (hframes : s.threads θ = frame :: rest)
    (hreturns : Returns s frame) : Owned (s.setFrames θ rest) o := by
  rcases h.frame_cases hframes with ⟨ho, rfl, houtside⟩ | ⟨rfl, hinside⟩
  · refine h.of_outside ho ?_ rfl rfl rfl rfl rfl
    cases houtside with
    | post hposting => cases hreturns
    | call hposting hframe => exact .user hposting
  · refine h.of_inside (f := rest) ?_ rfl rfl rfl
    rw [OperationalQueue.setFrames_processingThread, OperationalQueue.setFrames_toTickets]
    generalize s.processingThread = thread at hinside ⊢
    generalize s.currentTicketStack = stack at hinside ⊢
    cases hinside with
    | begin => cases hreturns
    | ended => cases hreturns
    | loops hchain =>
      obtain ⟨wait, point, rest', heq⟩ := hchain.eq_loop
      cases heq
      have hpoint : point.tickets = [] := by cases hreturns <;> rfl
      rcases hchain.below_loop hpoint with ⟨-, rfl, rfl⟩ | ⟨-, hchain, -⟩
      · exact .ended
      · exact .loops hchain
    | call hchain hframe => exact .loops hchain

/-- A thread that goes on in a function of the queue. -/
theorem Owned.continues (h : Owned s o) {frame next : Frame} (hframes : s.threads θ = frame :: rest)
    (hnext : Continues s θ frame next) : Owned (s.setFrames θ (next :: rest)) o := by
  rcases h.frame_cases hframes with ⟨ho, rfl, houtside⟩ | ⟨rfl, hinside⟩
  · refine h.of_outside ho ?_ rfl rfl rfl rfl rfl
    cases houtside with
    | post hposting => cases hnext
    | call hposting hframe =>
      cases hnext with
      | lookup => exact .call hposting rfl
      | inside hθ => exact absurd (h.of_processingThread hθ) ho
      | outside => exact .call hposting rfl
      | nest => simp [Frame.outer] at hframe
      | test => simp [Frame.outer] at hframe
  · refine h.of_inside (f := next :: rest) ?_ rfl rfl rfl
    rw [OperationalQueue.setFrames_processingThread, OperationalQueue.setFrames_toTickets]
    generalize hthread : s.processingThread = thread at hinside ⊢
    generalize s.currentTicketStack = stack at hinside ⊢
    cases hinside with
    | begin => cases hnext
    | ended => cases hnext
    | loops hchain =>
      obtain ⟨wait, point, rest', heq⟩ := hchain.eq_loop
      cases heq
      obtain ⟨below, rfl, hpoint⟩ := hchain.at_point
      cases hnext with
      | test => exact .loops (hpoint .take)
    | call hchain hframe =>
      cases hnext with
      | lookup => exact .call hchain rfl
      | inside => exact .call hchain rfl
      | outside hθ => exact absurd hthread hθ
      | nest => exact .loops (.nest hchain _ .test)
      | test => simp [Frame.inner] at hframe

/-- **The loop stays with one owner.** -/
theorem Owned.step (h : Owned s o) (hstep : Step s l s') : ∃ o, Owned s' o := by
  cases hstep with
  | nothing => exact ⟨o, h⟩
  | register => exact ⟨o, h.of_eq rfl rfl rfl rfl rfl⟩
  | enqueue => exact ⟨o, h.of_eq rfl rfl rfl rfl rfl⟩
  | @enqueuePost θ ticket huser hlt hstop hregistered hnew hscheduled =>
    obtain rfl : o = .none := by
      by_contra ho
      rw [h.scheduled.mpr ho] at hscheduled
      cases hscheduled
    obtain ⟨-, -, hframes⟩ | ⟨ho, -⟩ := h.user_cases huser
    · refine ⟨.posting θ, by simp, fun ho => (by cases ho), fun _ => h.tasks (by simp), fun θ' _ => ?_,
        fun θ' ho => (by cases ho), fun _ => h.free (by simp)⟩
      by_cases heq : θ' = θ
      · subst heq
        simpa [hframes] using Outside.post trivial
      · have hne : ¬ Owner.posting θ = Owner.posting θ' := by simpa using fun h => heq h.symm
        rw [OperationalQueue.setFrames_of_ne _ heq]
        exact (h.outside θ' (by simp)).congr (by simp [hne])
    · cases ho
  | discardRunning huser => exact ⟨o, h.call huser rfl rfl rfl rfl rfl rfl rfl⟩
  | remove huser => exact ⟨o, h.call huser rfl rfl rfl rfl rfl rfl rfl⟩
  | wait huser => exact ⟨o, h.call huser rfl rfl rfl rfl rfl rfl rfl⟩
  | stop huser => exact ⟨o, h.call huser rfl rfl rfl rfl rfl rfl rfl⟩
  | @finish θ wait ticket rest hframes =>
    obtain ⟨rfl, hθ, hchain⟩ := h.loop_cases hframes
    obtain ⟨below, hstack, hpoint⟩ := hchain.at_point
    refine ⟨_, h.of_inside (f := .loop wait (.pop ticket) :: rest) ?_ rfl rfl rfl⟩
    rw [OperationalQueue.setFrames_processingThread, OperationalQueue.setFrames_toTickets, hθ, hstack]
    exact .loops (hpoint (.pop ticket))
  | @begin θ hframes htasks =>
    obtain rfl : o = .pool := by
      by_contra ho
      rw [h.tasks ho] at htasks
      cases htasks
    obtain ⟨hstack, hthread⟩ := h.free (by simp)
    refine ⟨.loop θ, ⟨fun _ => (by simp), fun _ => h.scheduled.mpr (by simp)⟩, fun ho => (by cases ho),
      fun _ => ?_, fun θ' hθ' => ?_, fun θ' hθ' => ?_, fun hfree => absurd rfl (hfree θ)⟩
    · show s.tasks - 1 = 0
      rw [h.pool rfl]
    · have hne : θ' ≠ θ := by
        rintro rfl
        exact hθ' rfl
      rw [OperationalQueue.setFrames_of_ne _ hne]
      exact (h.outside θ' (by simp)).congr (by simp)
    · obtain rfl : θ = θ' := by simpa using hθ'
      rw [OperationalQueue.setFrames_self, OperationalQueue.setFrames_processingThread,
        OperationalQueue.setFrames_toTickets]
      show Inside θ s.processingThread _ s.currentTicketStack
      rw [hstack, hthread]
      exact .begin
  | @post θ rest hframes =>
    rcases h.frame_cases hframes with ⟨-, rfl, houtside⟩ | ⟨-, hinside⟩
    · obtain rfl : o = .posting θ := by
        cases houtside with
        | post hposting => exact hposting
        | call _ hframe => simp [Frame.outer] at hframe
      refine ⟨.pool, ⟨fun _ => (by simp), fun _ => h.scheduled.mpr (by simp)⟩, fun _ => ?_,
        fun ho => absurd rfl ho, fun θ' _ => ?_, fun θ' ho => (by cases ho), fun _ => h.free (by simp)⟩
      · show s.tasks + 1 = 1
        rw [h.tasks (by simp)]
      · by_cases heq : θ' = θ
        · subst heq
          rw [OperationalQueue.setFrames_self]
          exact .user (by simp)
        · have hne : ¬ Owner.posting θ = Owner.posting θ' := by simpa using fun h => heq h.symm
          rw [OperationalQueue.setFrames_of_ne _ heq]
          exact (h.outside θ' (by simp)).congr (by simp [hne])
    · generalize s.processingThread = thread at hinside
      generalize s.currentTicketStack = stack at hinside
      cases hinside with
      | loops hchain =>
        obtain ⟨_, _, _, heq⟩ := hchain.eq_loop
        cases heq
      | call _ hframe => simp [Frame.inner] at hframe
  | @signal θ ticket rest hframes =>
    rcases h.frame_cases hframes with ⟨ho, rfl, houtside⟩ | ⟨rfl, hinside⟩
    · refine ⟨o, h.of_outside ho ?_ rfl rfl rfl rfl rfl⟩
      cases houtside with
      | call hposting hframe => exact .user hposting
    · refine ⟨_, h.of_inside (f := rest) ?_ rfl rfl rfl⟩
      show Inside θ s.processingThread rest s.currentTicketStack
      generalize s.processingThread = thread at hinside ⊢
      generalize s.currentTicketStack = stack at hinside ⊢
      cases hinside with
      | loops hchain =>
        obtain ⟨_, _, _, heq⟩ := hchain.eq_loop
        cases heq
      | call hchain hframe => exact .loops hchain
  | returns hframes hreturns => exact ⟨o, h.returns hframes hreturns⟩
  | continues hframes hnext => exact ⟨o, h.continues hframes hnext⟩
  | @mainBegin θ rest hframes =>
    rcases h.frame_cases hframes with ⟨-, -, houtside⟩ | ⟨rfl, hinside⟩
    · cases houtside with
      | call _ hframe => simp [Frame.outer] at hframe
    · refine ⟨_, h.of_inside (f := .loop none .test :: .mainEnd :: rest) ?_ rfl rfl rfl⟩
      show Inside θ (some θ) _ s.currentTicketStack
      generalize s.processingThread = thread at hinside
      generalize s.currentTicketStack = stack at hinside ⊢
      cases hinside with
      | begin => exact .loops (.main .test)
      | loops hchain =>
        obtain ⟨_, _, _, heq⟩ := hchain.eq_loop
        cases heq
      | call _ hframe => simp [Frame.inner] at hframe
  | @mainDone θ rest hframes hdone =>
    rcases h.frame_cases hframes with ⟨-, -, houtside⟩ | ⟨rfl, hinside⟩
    · cases houtside with
      | call _ hframe => simp [Frame.outer] at hframe
    · obtain ⟨rfl, hstack⟩ := hinside.at_end
      refine ⟨.none, by simp, fun ho => (by cases ho), fun _ => h.tasks (by simp), fun θ' _ => ?_,
        fun θ' ho => (by cases ho), fun _ => ⟨hstack, rfl⟩⟩
      by_cases heq : θ' = θ
      · subst heq
        rw [OperationalQueue.setFrames_self]
        exact .user (by simp)
      · rw [OperationalQueue.setFrames_of_ne _ heq]
        exact (h.outside θ' (by simpa using fun h => heq h.symm)).congr (by simp)
  | @mainAgain θ rest hframes hdone =>
    rcases h.frame_cases hframes with ⟨-, -, houtside⟩ | ⟨rfl, hinside⟩
    · cases houtside with
      | call _ hframe => simp [Frame.outer] at hframe
    · refine ⟨_, h.of_inside (f := .loop none .test :: .mainEnd :: rest) ?_ rfl rfl rfl⟩
      obtain ⟨rfl, hstack⟩ := hinside.at_end
      show Inside θ s.processingThread _ s.currentTicketStack
      generalize s.processingThread = thread at hinside ⊢
      rw [hstack] at hinside ⊢
      cases hinside with
      | ended => exact .loops (.main .test)
      | loops hchain =>
        obtain ⟨_, _, _, heq⟩ := hchain.eq_loop
        cases heq
  | @take θ wait ticket queue rest hframes hstop hqueue =>
    obtain ⟨rfl, hθ, hchain⟩ := h.loop_cases hframes
    obtain ⟨below, hstack, hpoint⟩ := hchain.at_point
    refine ⟨_, h.of_inside (f := .loop wait (.run ticket) :: rest) ?_ rfl rfl rfl⟩
    show Inside θ s.processingThread _ (ticket :: s.currentTicketStack)
    rw [hθ, hstack]
    exact .loops (hpoint (.run ticket))
  | @pop θ wait ticket rest hframes =>
    obtain ⟨rfl, hθ, hchain⟩ := h.loop_cases hframes
    obtain ⟨below, hstack, hpoint⟩ := hchain.at_point
    refine ⟨_, h.of_inside (f := .loop wait (.done ticket) :: rest) ?_ rfl rfl rfl⟩
    show Inside θ s.processingThread _ s.currentTicketStack.tail
    rw [hθ, hstack]
    exact .loops (hpoint (.done ticket))
  | @done θ wait ticket rest hframes =>
    obtain ⟨rfl, hθ, hchain⟩ := h.loop_cases hframes
    obtain ⟨below, hstack, hpoint⟩ := hchain.at_point
    refine ⟨_, h.of_inside (f := .loop wait .test :: rest) ?_ rfl rfl rfl⟩
    show Inside θ s.processingThread _ s.currentTicketStack
    rw [hθ, hstack]
    exact .loops (hpoint .test)

end Owner

end HueStream.Threading
