import HueStream.Threading.Waiting

/-! # The executor on a queue

A `QueueExecutor` turns functions into tickets of an `OperationalQueue`, keeps a list of them, and clears
the list when it is asked to wait, to cancel or to shut down. Any thread may call it, also from a ticket
that runs. A call remembers what its thread was in when it was made: as long as the thread is in a
function of the queue above that, the call waits for the function to return.

The mutex `sync` is held where the source holds it; a critical section that calls no other function is one
step. The executor keeps what has happened: which tickets it has created and accepted, which functions
are over, and which tickets were discarded through their `Operation`. -/

namespace HueStream.Threading

open HueStream.Lib

/-- `QueueExecutor::OperationType`. -/
inductive OperationType
  | cancelable
  | nonCancelable
deriving DecidableEq

/-- `Impl::TicketInfo`; a queue that was stopped gives no ticket. -/
structure TicketInfo where
  ticket : Option ℕ
  waitOnCleanup : Bool
deriving DecidableEq

/-- The functions of the executor. -/
inductive ExecutorFunction
  | execute (operationType : OperationType)
  | shutdown
  | waitAll
  | cancelAll
deriving DecidableEq

namespace ExecutorFunction

/-- The policy a function clears the list with. -/
def policy : ExecutorFunction → OperationType
  | .waitAll => .nonCancelable
  | _ => .cancelable

def waitOnCleanup : ExecutorFunction → Bool
  | .execute .nonCancelable => true
  | _ => false

end ExecutorFunction

/-- What `clear` does with a ticket of its copy of the list. -/
inductive Cleanup
  | discard (ticket : Option ℕ)
  | wait (ticket : Option ℕ)
deriving DecidableEq

def Cleanup.ticket : Cleanup → Option ℕ
  | .discard ticket | .wait ticket => ticket

/-- What a pass of `clear` does with its copy: the cancelable tickets from the last to the first, then the
others from the first to the last. -/
def cleanups (policy : OperationType) (tickets : List TicketInfo) : List Cleanup :=
  (tickets.reverse.filter fun info => !info.waitOnCleanup && policy = .cancelable).map
    (fun info => .discard info.ticket) ++
  (tickets.filter fun info => info.waitOnCleanup || policy = .nonCancelable).map
    fun info => .wait info.ticket

/-- Where a call is; `closed` are the `closed_tickets` of `clear`. -/
inductive ExecutorPoint
  /-- `execute` looks whether the executor is closing. -/
  | checkClosing
  | createTicket
  /-- The ticket is listed and scheduled. -/
  | post (ticket : Option ℕ)
  /-- The ticket is scheduled; the mutex is released and the operation returned. -/
  | posted (ticket : Option ℕ)
  /-- The ticket could not be listed any more. -/
  | discardTicket (ticket : Option ℕ)
  /-- It is discarded; the operation is returned. -/
  | discarded (ticket : Option ℕ)
  /-- `shutdown` sets `closing`. -/
  | close
  /-- A pass of `clear` begins. -/
  | lock (closed : List (Option ℕ))
  /-- The tickets the queue does not have any more are taken off the list. -/
  | sweep (closed : List (Option ℕ)) (kept rest : List TicketInfo)
  /-- The next ticket of the copy. -/
  | next (closed : List (Option ℕ)) (todo : List Cleanup)
  /-- The queue is done with the ticket. -/
  | back (closed : List (Option ℕ)) (ticket : Option ℕ) (todo : List Cleanup)
deriving DecidableEq

/-- A pass over the list has ended: the call goes on with what it has not closed yet, or has returned. -/
def sweepEnd (policy : OperationType) (closed : List (Option ℕ)) (kept : List TicketInfo) :
    Option ExecutorPoint :=
  let copy := kept.filter fun info => info.ticket ∉ closed
  if copy.isEmpty then none else some (.next closed (cleanups policy copy))

/-- A call: what its thread was in when it was made, and what the executor had accepted then. -/
structure ExecutorCall where
  function : ExecutorFunction
  below : List Frame
  before : List TicketInfo
  point : ExecutorPoint
deriving DecidableEq

/-- `QueueExecutor::Impl`, with its queue and the calls that are under way, the innermost first. -/
structure QueueExecutor (Θ : Type) where
  queue : OperationalQueue Θ := {}
  tickets : List TicketInfo := []
  closing : Bool := false
  sync : Option Θ := none
  calls : Θ → List ExecutorCall := fun _ => []
  /-- The tickets it has created. -/
  owned : ℕ → Bool := fun _ => false
  /-- What was listed, in this order. -/
  accepted : List TicketInfo := []
  /-- The function of the ticket is over. -/
  completed : ℕ → Bool := fun _ => false
  /-- The ticket was discarded through an `Operation`. -/
  canceled : ℕ → Bool := fun _ => false

/-- A step of the queue or of the code that runs above it, an exception that leaves the function of a
ticket, a call of the executor, or the next step of the innermost call of a thread. -/
inductive ExecutorLabel (Θ : Type)
  | queue (label : QueueLabel Θ)
  | throw (θ : Θ)
  | call (θ : Θ) (function : ExecutorFunction)
  | go (θ : Θ)

def QueueLabel.thread {Θ : Type} : QueueLabel Θ → Θ
  | .createTicket θ | .scheduleTicket θ _ | .discardTicket θ _ | .waitTicket θ _ | .stopProcessing θ
  | .finish θ | .begin θ | .go θ => θ

/-- The ticket whose function the thread is in. -/
def OperationalQueue.running {Θ : Type} (q : OperationalQueue Θ) (θ : Θ) : Option ℕ :=
  match q.threads θ with
  | .loop _ (.run ticket) :: _ => some ticket
  | _ => none

/-- `has_ticket`. -/
def Tickets.hasTicket (k : Tickets) (ticket : Option ℕ) : Bool := ticket.any k.registered

namespace QueueExecutor

variable {Θ : Type} [DecidableEq Θ] (s : QueueExecutor Θ) (θ : Θ)

def setCalls (calls : List ExecutorCall) : QueueExecutor Θ :=
  { s with calls := Function.update s.calls θ calls }

/-- The innermost call of the thread goes on. -/
def goTo (c : ExecutorCall) (rest : List ExecutorCall) (point : ExecutorPoint) : QueueExecutor Θ :=
  s.setCalls θ ({ c with point } :: rest)

/-- The thread is in the code of the executor. -/
def isActive : Bool := (s.calls θ).head?.any fun c => c.below = s.queue.threads θ

/-- A function of the queue is called with a ticket; without one it does nothing. -/
def onTicket (label : ℕ → QueueLabel Θ) : Option ℕ → Option (OperationalQueue Θ)
  | none => some s.queue
  | some ticket => s.queue.step (label ticket)

def entry : ExecutorFunction → ExecutorPoint
  | .execute _ => .checkClosing
  | .shutdown => .close
  | .waitAll | .cancelAll => .lock []

/-! ### Steps -/

/-- The function of a ticket of the executor is over. -/
def complete (ticket : ℕ) : QueueExecutor Θ :=
  { s with completed := Function.update s.completed ticket true }

/-- Its ticket is taken off the list. -/
def unlist (ticket : ℕ) : QueueExecutor Θ :=
  { s with tickets := s.tickets.filter fun info => info.ticket ≠ some ticket }

/-- The queue, or the code that runs above it, takes a step. The tickets of the executor are scheduled by
the executor only; they are discarded through their `Operation`. -/
def queueStep (label : QueueLabel Θ) : Option (QueueExecutor Θ) :=
  if s.isActive label.thread then none
  else (s.queue.step label).bind fun queue =>
    match label with
    | .scheduleTicket _ ticket => if s.owned ticket then none else some { s with queue }
    | .discardTicket _ ticket =>
      some { s with queue, canceled := Function.update s.canceled ticket true }
    | .finish θ =>
      match (s.queue.running θ).filter s.owned with
      | none => some { s with queue }
      | some ticket =>
        if s.sync.isSome then none else some { (s.complete ticket).unlist ticket with queue }
    | _ => some { s with queue }

/-- An exception leaves the function of a ticket; the loop ignores it, and the ticket stays listed. -/
def throw : Option (QueueExecutor Θ) :=
  if s.isActive θ then none
  else (s.queue.step (.finish θ)).map fun queue =>
    match s.queue.running θ with
    | none => { s with queue }
    | some ticket => { s.complete ticket with queue }

/-- A thread calls a function of the executor. -/
def call (function : ExecutorFunction) : Option (QueueExecutor Θ) :=
  if s.queue.atUser θ && !s.isActive θ then
    some (s.setCalls θ
      (⟨function, s.queue.threads θ, s.accepted, entry function⟩ :: s.calls θ))
  else none

/-- The ticket is listed. -/
def list (info : TicketInfo) : QueueExecutor Θ :=
  { s with tickets := s.tickets ++ [info], accepted := s.accepted ++ [info] }

/-- The next step of the innermost call of the thread. -/
def advance (c : ExecutorCall) (rest : List ExecutorCall) : Option (QueueExecutor Θ) :=
  match c.point with
  | .checkClosing =>
    if s.sync.isSome then none
    else some (if s.closing then s.setCalls θ rest else s.goTo θ c rest .createTicket)
  | .createTicket =>
    (s.queue.step (.createTicket θ)).map fun queue =>
      if s.queue.stopProcessingRequested then { s with queue }.goTo θ c rest (.post none)
      else { s with queue, owned := Function.update s.owned s.queue.created true }.goTo θ c rest
        (.post (some s.queue.created))
  | .post ticket =>
    if s.sync.isSome then none
    else if s.closing then some (s.goTo θ c rest (.discardTicket ticket))
    else (s.onTicket (.scheduleTicket θ) ticket).map fun queue =>
      { s.list ⟨ticket, c.function.waitOnCleanup⟩ with queue, sync := some θ }.goTo θ c rest
        (.posted ticket)
  | .posted _ => some ({ s with sync := none }.setCalls θ rest)
  | .discardTicket ticket =>
    (s.onTicket (.discardTicket θ) ticket).map fun queue =>
      { s with queue }.goTo θ c rest (.discarded ticket)
  | .discarded _ => some (s.setCalls θ rest)
  | .close =>
    if s.sync.isSome then none
    else some ({ s with closing := true }.goTo θ c rest (.lock []))
  | .lock closed =>
    if s.sync.isSome then none
    else some ({ s with sync := some θ }.goTo θ c rest (.sweep closed [] s.tickets))
  | .sweep closed kept (info :: infos) =>
    some (s.goTo θ c rest
      (.sweep closed (if s.queue.hasTicket info.ticket then kept ++ [info] else kept) infos))
  | .sweep closed kept [] =>
    let copy := kept.filter fun info => info.ticket ∉ closed
    let s := { s with tickets := kept, sync := none }
    some (if copy.isEmpty then s.setCalls θ rest
      else s.goTo θ c rest (.next closed (cleanups c.function.policy copy)))
  | .next closed [] => some (s.goTo θ c rest (.lock closed))
  | .next closed (.discard ticket :: todo) =>
    (s.onTicket (.discardTicket θ) ticket).map fun queue =>
      { s with queue }.goTo θ c rest (.back closed ticket todo)
  | .next closed (.wait ticket :: todo) =>
    (s.onTicket (.waitTicket θ) ticket).map fun queue =>
      { s with queue }.goTo θ c rest (.back closed ticket todo)
  | .back closed ticket todo => some (s.goTo θ c rest (.next (closed ++ [ticket]) todo))

/-- The innermost call of the thread goes on, when the queue has returned to it. -/
def go : Option (QueueExecutor Θ) :=
  match s.calls θ with
  | [] => none
  | c :: rest => if s.isActive θ then s.advance θ c rest else none

def step : ExecutorLabel Θ → Option (QueueExecutor Θ)
  | .queue label => s.queueStep label
  | .throw θ => s.throw θ
  | .call θ function => s.call θ function
  | .go θ => s.go θ

end QueueExecutor

/-- The executor, made on a queue in any state it can be in, and its callers. -/
def queueExecutor (Θ : Type) [DecidableEq Θ] : Machine (QueueExecutor Θ) (ExecutorLabel Θ) where
  Init s := (operationalQueue Θ).Reachable s.queue ∧ s = { queue := s.queue }
  step := QueueExecutor.step

end HueStream.Threading
