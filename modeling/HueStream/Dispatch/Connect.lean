import HueStream.Flow.Alternation

/-! # Calls, the dispatcher and the flow

A call of `Connect` marks the library as busy and queues the request on the message dispatcher, which
runs one function after another: the requests, the monitor events, the completions and the pushlinks
that are due. What the flow says on the way reaches `Connect::NewMessage`, which decides whether the
library is idle again.

`Connect::_mutex` makes the mark and the queueing one step, and each message another one; a call that
comes while a function is running has the same effect as one that comes before it. -/

namespace HueStream.Dispatch

open HueStream.Data HueStream.Flow HueStream.Lib

/-- The calls of `Connect` that queue a function. -/
inductive Call
  | connectToBridge
  | connectToBridgeBackground
  | connectToBridgeWithIp (ipAddress : String)
  | connectToNewBridge
  | setManual (bridge : BridgePtr)
  | connectoToBridgeWithIdKey (id user clientKey : String)
  | resetBridge
  | resetAllData
  | selectGroup (id : String)
  | load
  | abort
  | startStream
  | stopStream
deriving DecidableEq

namespace Call

/-- The request the call queues. -/
def request : Call → Flow.Input
  | .connectToBridge => .connectToBridge
  | .connectToBridgeBackground => .connectToBridgeBackground
  | .connectToBridgeWithIp ipAddress => .connectToBridgeWithIp ipAddress
  | .connectToNewBridge => .connectToNewBridge
  | .setManual bridge => .setManual bridge
  | .connectoToBridgeWithIdKey id user clientKey => .connectoToBridgeWithIdKey id user clientKey
  | .resetBridge => .reset true
  | .resetAllData => .reset false
  | .selectGroup id => .selectGroup id
  | .load => .load
  | .abort => .abort
  | .startStream => .startStream
  | .stopStream => .stopStream

/-- The calls that set `_isIdle` to `false`. -/
def marksBusy : Call → Bool
  | .abort | .startStream | .stopStream => false
  | _ => true

end Call

/-- A function in the queue of the dispatcher. -/
inductive Work
  | request (call : Call)
  | monitorEvent (message : FeedbackMessage)
  | completion (c : Completion) (reply : Reply)

/-- A request of a call that marked the library as busy. -/
def Work.isAwaited : Work → Bool
  | .request call => call.marksBusy
  | _ => false

/-- `Connect`, the queue of its dispatcher (the next function first) and its flow. -/
structure Connect where
  isIdle : Bool := true
  queue : List Work := []
  flow : ConnectionFlow := .init

/-- What can happen next. -/
inductive Input
  | call (c : Call)
  /-- `OnBridgeMonitorEvent`. -/
  | monitorEvent (message : FeedbackMessage)
  /-- An operation answers, and queues its completion. -/
  | answer (c : Completion) (reply : Reply) (keep : Bool)
  /-- The scheduler queues a pushlink. -/
  | timer (task : SchedulerTask)
  | newBridge (bridge : Bridge)
  | mutate (p : BridgePtr) (bridge : Bridge)
  /-- The dispatcher runs the next function. -/
  | dispatch (ω : Answers)

/-- `UpdateConnectionStatus`, as far as it tells idle from busy. -/
def updateConnectionStatus (isIdle : Bool) (x : Sent) : Bool :=
  match x.message.id with
  | .userProcedureStarted => false
  | .userProcedureFinished => true
  | _ => isIdle

namespace Connect

variable (σ : Settings) (s : Connect)

/-- A function is queued. -/
def enqueue (w : Work) : Connect := { s with queue := s.queue ++ [w] }

/-- A call of `Connect`. -/
def call (c : Call) : Connect :=
  { s with isIdle := s.isIdle && !c.marksBusy }.enqueue (.request c)

/-- What a queued function does to the flow. -/
def run (ω : Answers) (flow : ConnectionFlow) : Work → ConnectionFlow
  | .request call => flow.handle σ ω call.request
  | .monitorEvent message => flow.handle σ ω (.monitorEvent message)
  | .completion c reply => flow.complete σ ω c reply

/-- The dispatcher runs a function, and `NewMessage` takes every message the flow sends in it. -/
def dispatch (ω : Answers) (w : Work) (queue : List Work) : Connect :=
  let flow := run σ ω s.flow w
  { isIdle := ((sent flow.log).drop (sent s.flow.log).length).foldl updateConnectionStatus s.isIdle
    queue
    flow }

/-- One step. -/
def step : Input → Option Connect
  | .call c => if s.flow.enabled c.request then some (s.call c) else none
  | .monitorEvent message =>
    if s.flow.enabled (.monitorEvent message) then some (s.enqueue (.monitorEvent message)) else none
  | .answer c reply keep =>
    if s.flow.enabled (.deliver c reply keep) then
      some ({ s with flow := s.flow.take c keep }.enqueue (.completion c reply))
    else none
  | .timer task =>
    if s.flow.enabled (.timer task) then
      some ({ s with flow := { s.flow with tasks := s.flow.tasks.erase task } }.enqueue
        (.completion ⟨.pushLink task.bridge, task.procedure⟩ {}))
    else none
  | .newBridge bridge => some { s with flow := s.flow.alloc bridge }
  | .mutate p bridge =>
    if s.flow.enabled (.mutate p bridge) then some { s with flow := s.flow.write p bridge } else none
  | .dispatch ω =>
    match s.queue with
    | [] => none
    | w :: queue => some (s.dispatch σ ω w queue)

end Connect

/-- `Connect` under given settings. -/
def machine (σ : Settings) : Machine Connect Input where
  Init s := s = {}
  step s input := s.step σ input

end HueStream.Dispatch
