import HueStream.Lib.Run
import Mathlib.Logic.Function.Basic
import Mathlib.Data.List.Sublists

/-! # The operational queue

Threads call an `OperationalQueue`, and a thread of the pool runs its processing loop, which a ticket
enters again where it waits for another one. A step is one critical section, one signal of a ticket, one
call or the end of a ticket's function. What a thread is doing is the stack of the functions it is in;
between its calls it is in code of its own or in that of a ticket. A wait on a condition is over when its
predicate holds: whatever makes it hold notifies. The queue keeps what has happened: which tickets were
scheduled, started and signalled. -/

namespace HueStream.Threading

open HueStream.Lib

/-- Where a processing loop is. -/
inductive LoopPoint
  /-- The break condition. -/
  | test
  /-- The next ticket is waited for and taken. -/
  | take
  /-- Its function is called, and the tick of the pool after it. -/
  | run (ticket : ℕ)
  /-- The ticket is taken off the stack and the registry. -/
  | pop (ticket : ℕ)
  /-- Its promise is about to be set. -/
  | done (ticket : ℕ)
deriving DecidableEq

/-- A function of the queue that a thread is in. -/
inductive Frame
  /-- The end of `schedule_ticket`, where the loop is given to the pool. -/
  | post
  /-- The end of `discard_ticket`, where the promise of a removed ticket is set. -/
  | signal (ticket : ℕ)
  /-- `wait_ticket`: `get_descriptor`. -/
  | lookup (ticket : ℕ)
  /-- `wait_ticket`: `this_thread_is_processing_thread`. -/
  | askThread (ticket : ℕ)
  /-- `wait_ticket`: `completed_future.wait()`. -/
  | sleep (ticket : ℕ)
  /-- `wait_ticket`: `is_in_current_ticket_stack`. -/
  | askStack (ticket : ℕ)
  /-- `stop_processing`: the wait for the end of the loop. -/
  | stopWait
  /-- The task of the pool begins. -/
  | mainBegin
  /-- The end of the round of the task, to which the processing loop returns. -/
  | mainEnd
  /-- `processing_loop`, of the task, or in a wait for a ticket. -/
  | loop (wait : Option ℕ) (point : LoopPoint)
deriving DecidableEq

/-- What the queue knows of its tickets; a ticket is named by the number of its creation. -/
structure Tickets where
  created : ℕ := 0
  registered : ℕ → Bool := fun _ => false
  wasScheduled : ℕ → Bool := fun _ => false
  processingQueue : List ℕ := []
  /-- The running ticket first, below it those it has suspended. -/
  currentTicketStack : List ℕ := []
  stopProcessingRequested : Bool := false
  /-- The tickets in the order in which they were scheduled. -/
  scheduled : List ℕ := []
  /-- The tickets in the order in which they have started. -/
  started : List ℕ := []
  /-- How often the promise of a ticket was set. -/
  signals : ℕ → ℕ := fun _ => 0

namespace Tickets

variable (k : Tickets) (ticket : ℕ)

def register : Tickets :=
  { k with created := k.created + 1, registered := Function.update k.registered k.created true }

def enqueue : Tickets :=
  { k with
    wasScheduled := Function.update k.wasScheduled ticket true
    processingQueue := k.processingQueue ++ [ticket]
    scheduled := k.scheduled ++ [ticket] }

/-- A ticket that is not running is removed. -/
def remove : Tickets :=
  { k with
    processingQueue := k.processingQueue.filter (· ≠ ticket)
    registered := Function.update k.registered ticket false }

def requestStop : Tickets := { k with stopProcessingRequested := true }

/-- The first ticket of the queue, with the others behind it, starts. -/
def take (queue : List ℕ) : Tickets :=
  { k with
    processingQueue := queue
    currentTicketStack := ticket :: k.currentTicketStack
    started := k.started ++ [ticket] }

/-- The running ticket has run. -/
def pop : Tickets :=
  { k with
    currentTicketStack := k.currentTicketStack.tail
    registered := Function.update k.registered ticket false }

/-- `completed_promise.set_value()`. -/
def setValue : Tickets :=
  { k with signals := Function.update k.signals ticket (k.signals ticket + 1) }

end Tickets

/-- `OperationalQueue`. -/
structure OperationalQueue (Θ : Type) extends Tickets where
  isScheduled : Bool := false
  processingThread : Option Θ := none
  /-- The loops the pool was given and has not begun. -/
  tasks : ℕ := 0
  /-- What the threads are doing, the innermost function first. -/
  threads : Θ → List Frame := fun _ => []

/-- A call, the end of a ticket's function, the beginning of a task of the pool, or the next step in what
the thread is doing. -/
inductive QueueLabel (Θ : Type)
  | createTicket (θ : Θ)
  | scheduleTicket (θ : Θ) (ticket : ℕ)
  | discardTicket (θ : Θ) (ticket : ℕ)
  | waitTicket (θ : Θ) (ticket : ℕ)
  | stopProcessing (θ : Θ)
  | finish (θ : Θ)
  | begin (θ : Θ)
  | go (θ : Θ)

namespace OperationalQueue

variable {Θ : Type} [DecidableEq Θ] (s : OperationalQueue Θ) (θ : Θ)

/-- The thread goes on with other frames. -/
def setFrames (frames : List Frame) : OperationalQueue Θ :=
  { s with threads := Function.update s.threads θ frames }

/-- The thread calls a function. -/
def push (frame : Frame) : OperationalQueue Θ := s.setFrames θ (frame :: s.threads θ)

def setTickets (k : Tickets) : OperationalQueue Θ := { s with toTickets := k }

/-- The thread is in code that can call the queue: its own or that of a ticket. -/
def atUser : Bool :=
  match s.threads θ with
  | [] => true
  | .loop _ (.run _) :: _ => true
  | _ => false

/-! ### Calls -/

def createTicket : OperationalQueue Θ :=
  if s.stopProcessingRequested then s else s.setTickets s.register

def scheduleTicket (ticket : ℕ) : OperationalQueue Θ :=
  if s.stopProcessingRequested || !s.registered ticket || s.wasScheduled ticket then s
  else if s.isScheduled then s.setTickets (s.enqueue ticket)
  else { s.setTickets (s.enqueue ticket) with isScheduled := true }.push θ .post

def discardTicket (ticket : ℕ) : OperationalQueue Θ :=
  if !s.registered ticket then s
  else if ticket ∈ s.currentTicketStack then s.push θ (.lookup ticket)
  else (s.setTickets (s.remove ticket)).push θ (.signal ticket)

def stopProcessing : OperationalQueue Θ :=
  if s.stopProcessingRequested then s
  else (s.setTickets s.requestStop).push θ .stopWait

/-! ### Steps -/

/-- What ends the loop of the task. -/
def isDone : Bool := s.processingQueue.isEmpty || s.stopProcessingRequested

/-- The break condition of a loop. -/
def breaks : Option ℕ → Bool
  | none => s.isDone
  | some ticket => !s.registered ticket

/-- The next step of `processing_loop`, where `rest` is below it. -/
def goLoop (wait : Option ℕ) (rest : List Frame) : LoopPoint → Option (OperationalQueue Θ)
  | .test =>
    some (if s.breaks wait then s.setFrames θ rest else s.setFrames θ (.loop wait .take :: rest))
  | .take =>
    if s.stopProcessingRequested then some (s.setFrames θ rest)
    else match s.processingQueue with
      | [] => none
      | ticket :: queue =>
        some ((s.setTickets (s.take ticket queue)).setFrames θ (.loop wait (.run ticket) :: rest))
  | .run _ => none
  | .pop ticket =>
    some ((s.setTickets (s.pop ticket)).setFrames θ (.loop wait (.done ticket) :: rest))
  | .done ticket => some ((s.setTickets (s.setValue ticket)).setFrames θ (.loop wait .test :: rest))

/-- The next step of the thread; `none` when it waits or is in code of its own or of a ticket. -/
def go : Option (OperationalQueue Θ) :=
  match s.threads θ with
  | [] => none
  | .post :: rest => some ({ s with tasks := s.tasks + 1 }.setFrames θ rest)
  | .signal ticket :: rest => some ((s.setTickets (s.setValue ticket)).setFrames θ rest)
  | .lookup ticket :: rest =>
    some (s.setFrames θ (if s.registered ticket then .askThread ticket :: rest else rest))
  | .askThread ticket :: rest =>
    some (s.setFrames θ
      ((if s.processingThread = some θ then .askStack ticket else .sleep ticket) :: rest))
  | .sleep ticket :: rest => if s.signals ticket = 0 then none else some (s.setFrames θ rest)
  | .askStack ticket :: rest =>
    some (s.setFrames θ
      (if ticket ∈ s.currentTicketStack then rest else .loop (some ticket) .test :: rest))
  | .stopWait :: rest => if s.isScheduled then none else some (s.setFrames θ rest)
  | .mainBegin :: rest =>
    some ({ s with processingThread := some θ }.setFrames θ (.loop none .test :: .mainEnd :: rest))
  | .mainEnd :: rest =>
    some (if s.isDone then
        { s with isScheduled := false, processingThread := none }.setFrames θ rest
      else s.setFrames θ (.loop none .test :: .mainEnd :: rest))
  | .loop wait point :: rest => s.goLoop θ wait rest point

/-- The function of the running ticket returns. -/
def finish : Option (OperationalQueue Θ) :=
  match s.threads θ with
  | .loop wait (.run ticket) :: rest => some (s.setFrames θ (.loop wait (.pop ticket) :: rest))
  | _ => none

/-- A thread of the pool begins a task. -/
def begin : Option (OperationalQueue Θ) :=
  if s.threads θ = [] ∧ 0 < s.tasks then
    some ({ s with tasks := s.tasks - 1 }.setFrames θ [.mainBegin])
  else none

/-- A thread calls the queue where it can, with a ticket that exists. -/
def step : QueueLabel Θ → Option (OperationalQueue Θ)
  | .createTicket θ => if s.atUser θ then some s.createTicket else none
  | .scheduleTicket θ ticket =>
    if s.atUser θ && ticket < s.created then some (s.scheduleTicket θ ticket) else none
  | .discardTicket θ ticket =>
    if s.atUser θ && ticket < s.created then some (s.discardTicket θ ticket) else none
  | .waitTicket θ ticket =>
    if s.atUser θ && ticket < s.created then some (s.push θ (.lookup ticket)) else none
  | .stopProcessing θ => if s.atUser θ then some (s.stopProcessing θ) else none
  | .finish θ => s.finish θ
  | .begin θ => s.begin θ
  | .go θ => s.go θ

end OperationalQueue

/-- The queue, its callers and its loop. -/
def operationalQueue (Θ : Type) [DecidableEq Θ] : Machine (OperationalQueue Θ) (QueueLabel Θ) where
  Init s := s = {}
  step := OperationalQueue.step

end HueStream.Threading
