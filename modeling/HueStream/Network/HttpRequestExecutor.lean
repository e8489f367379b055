import HueStream.Lib.Run
import Mathlib.Algebra.Group.Nat.Defs
import Mathlib.Data.Int.Basic
import Mathlib.Data.List.Basic
import Mathlib.Logic.Function.Basic

/-! # The HTTP request executor

`HttpRequestExecutor` keeps a request in its map while it is performed, asks its error delegate what to
do with each response, and calls the callback with the last one. A step is one critical section, one call
to the outside or the next part of the handler of a response. Every call of `add` that returned true is
followed by itself: the task of the pool, the request, the handler of its response. A request info is an
object that several of them may share, and it is alive while something refers to it; only the entry of
the map and what runs do, so a weak reference is looked up where the code looks it up. -/

namespace HueStream.Network

open HueStream.Lib

/-- `HttpErrorPostActionType`. -/
inductive HttpErrorPostActionType
  | none | retry | discard
deriving DecidableEq

/-- `HttpErrorPostAction`; how long a retry waits does not matter here. -/
structure HttpErrorPostAction where
  type : HttpErrorPostActionType
  minRetries : ℕ := 0
deriving DecidableEq

/-- `RequestInfo`, with what has happened to it. -/
structure RequestInfo where
  request : ℕ
  retryCountdown : ℤ
  hasCallback : Bool
  numActiveInstances : ℕ := 1
  retriesCount : ℕ → ℕ := fun _ => 0
  idleStateCounter : ℕ := 0
  postActionType : HttpErrorPostActionType := .none
  /-- The number of retries it was created with. -/
  maxRetries : ℤ := retryCountdown
  /-- How often the request was performed. -/
  attempts : ℕ := 0
  /-- How often it was added again. -/
  readds : ℕ := 0
  /-- The loop of a discarded response has gone on to a share that is not its own. -/
  taken : Bool := false

namespace RequestInfo

variable (info : RequestInfo)

/-- The first time an error occurs its minimum of retries counts. -/
def overrideRetries (statusCode minRetries : ℕ) : RequestInfo :=
  if info.retriesCount statusCode = 0 ∧ info.retryCountdown < Int.bmod minRetries (2 ^ 32) then
    { info with retryCountdown := Int.bmod minRetries (2 ^ 32) }
  else info

/-- `retry_performed_for_error`. -/
def retryPerformedForError (statusCode : ℕ) : RequestInfo :=
  { info with
    retriesCount := Function.update info.retriesCount statusCode (info.retriesCount statusCode + 1)
    retryCountdown := info.retryCountdown - 1 }

/-- The countdown of an info that is added again. -/
def addedAgain : RequestInfo :=
  { info with retryCountdown := max 0 (info.retryCountdown - 1), readds := info.readds + 1 }

/-- `do_request` is called. -/
def performed : RequestInfo :=
  { info with idleStateCounter := info.idleStateCounter + 1, attempts := info.attempts + 1 }

end RequestInfo

/-- Where an accepted call of `add` is. -/
inductive Stage
  /-- `execute` is with the pool, with a weak reference to the info or with a strong one. -/
  | queued (strong : Bool)
  /-- The request is performed, and its completion has a weak reference to the info. -/
  | requested
  /-- The handler of the response is about to call the callback. -/
  | responded (action : HttpErrorPostActionType)
  /-- In the callback. -/
  | calling (action : HttpErrorPostActionType)
  /-- In `remove`, where `remove_request` is called for the first time or again. -/
  | removing (again : Bool)
  /-- At the condition of the loop of `remove`. -/
  | testing
  | ended
deriving DecidableEq

/-- The callback was not called. -/
def Stage.unanswered : Stage → Bool
  | .queued _ | .requested | .responded _ => true
  | _ => false

/-- What runs there refers to the info. -/
def Stage.refers : Stage → Bool
  | .queued strong => strong
  | .requested | .ended => false
  | .responded _ | .calling _ | .removing _ | .testing => true

/-- A call of `add` that returned true. -/
structure Added where
  info : ℕ
  stage : Stage
  callbacks : ℕ := 0

/-- `HttpRequestExecutor`; requests and infos are named by numbers. -/
structure HttpRequestExecutor where
  maxRetries : ℤ
  stopped : Bool := false
  infos : ℕ → RequestInfo := fun _ => { request := 0, retryCountdown := 0, hasCallback := false }
  created : ℕ := 0
  requestMap : ℕ → Option ℕ := fun _ => none
  adds : List Added := []
  /-- An expired info was dereferenced. -/
  fault : Bool := false

/-- A call, or the next step of an accepted call of `add`. Where a weak reference is locked, the label says
whether a caller still holds the info. -/
inductive ExecutorLabel
  | setMaxRetries (maxRetries : ℤ)
  | stop
  | add (request : ℕ) (hasCallback : Bool)
  /-- In the callback of this call its info is added again. -/
  | addAgain (n : ℕ)
  | execute (n : ℕ) (held : Bool)
  /-- `do_request` returns, to an `execute` with this info. -/
  | doRequestReturns (info : ℕ)
  | handleResponse (n : ℕ) (statusCode : ℕ) (action : HttpErrorPostAction) (held : Bool)
  | callback (n : ℕ)
  | callbackReturns (n : ℕ)
  | removeRequest (n : ℕ)
  | test (n : ℕ)

namespace HttpRequestExecutor

variable (s : HttpRequestExecutor)

def setInfo (i : ℕ) (info : RequestInfo) : HttpRequestExecutor :=
  { s with infos := Function.update s.infos i info }

def setAdded (n : ℕ) (a : Added) : HttpRequestExecutor := { s with adds := s.adds.set n a }

def append (a : Added) : HttpRequestExecutor := { s with adds := s.adds ++ [a] }

def setEntry (request : ℕ) (entry : Option ℕ) : HttpRequestExecutor :=
  { s with requestMap := Function.update s.requestMap request entry }

/-- The request of an accepted call. -/
def requestOf (a : Added) : ℕ := (s.infos a.info).request

/-- Something of the executor refers to the info. -/
def owned (i : ℕ) : Bool :=
  s.requestMap (s.infos i).request == some i || 0 < (s.infos i).idleStateCounter ||
    s.adds.any fun a => a.info == i && a.stage.refers

/-- `add_request`. -/
def addRequest (request i : ℕ) : HttpRequestExecutor :=
  match s.requestMap request with
  | none => s.setEntry request (some i)
  | some j =>
    s.setInfo j { s.infos j with numActiveInstances := (s.infos j).numActiveInstances + 1 }

/-- `remove_request`. -/
def removeRequest (request : ℕ) : HttpRequestExecutor :=
  match s.requestMap request with
  | none => s
  | some j =>
    if (s.infos j).numActiveInstances = 1 then s.setEntry request none
    else s.setInfo j { s.infos j with numActiveInstances := (s.infos j).numActiveInstances - 1 }

/-- `add` of a request. -/
def add (request : ℕ) (hasCallback : Bool) : HttpRequestExecutor :=
  if s.stopped then s
  else
    let info : RequestInfo :=
      { request, retryCountdown := s.maxRetries, hasCallback, maxRetries := s.maxRetries }
    ({ s.setInfo s.created info with created := s.created + 1 }.addRequest request s.created).append
      ⟨s.created, .queued false, 0⟩

/-- `add` of a request info. -/
def addInfo (i : ℕ) : HttpRequestExecutor :=
  if s.stopped then s
  else ((s.setInfo i (s.infos i).addedAgain).addRequest (s.infos i).request i).append
    ⟨i, .queued true, 0⟩

/-- `execute`. -/
def execute (n : ℕ) (a : Added) : HttpRequestExecutor :=
  match s.requestMap (s.requestOf a) with
  | none => s.setAdded n { a with stage := .ended }
  | some _ =>
    (s.setInfo a.info (s.infos a.info).performed).setAdded n { a with stage := .requested }

/-- `handle_response`, up to the callback. -/
def handleResponse (n : ℕ) (a : Added) (statusCode : ℕ) (action : HttpErrorPostAction) :
    HttpRequestExecutor :=
  let action := if s.stopped then ⟨.discard, 0⟩ else action
  let info := (s.infos a.info).overrideRetries statusCode action.minRetries
  if action.type = .retry ∧ 0 < info.retryCountdown then
    (s.setInfo a.info (info.retryPerformedForError statusCode)).setAdded n
      { a with stage := .queued true }
  else (s.setInfo a.info info).setAdded n { a with stage := .responded action.type }

/-- After the callback, or without one: the type of the action is stored and the info is removed. -/
def beginRemove (n : ℕ) (a : Added) (action : HttpErrorPostActionType) : HttpRequestExecutor :=
  (s.setInfo a.info { s.infos a.info with postActionType := action }).setAdded n
    { a with stage := .removing false }

/-- The callback is called when no `do_request` with the info is under way. -/
def callback (n : ℕ) (a : Added) (action : HttpErrorPostActionType) : Option HttpRequestExecutor :=
  if !(s.infos a.info).hasCallback then some (s.beginRemove n a action)
  else if (s.infos a.info).idleStateCounter = 0 then
    some (s.setAdded n { a with stage := .calling action, callbacks := a.callbacks + 1 })
  else none

/-- The condition of the loop of `remove`. -/
def test (n : ℕ) (a : Added) : HttpRequestExecutor :=
  match s.requestMap (s.requestOf a) with
  | none => s.setAdded n { a with stage := .ended }
  | some j =>
    if (s.infos a.info).postActionType = .discard then
      (s.setInfo j { s.infos j with taken := true }).setAdded n { a with stage := .removing true }
    else s.setAdded n { a with stage := .ended }

def stepOf (n : ℕ) (a : Added) : ExecutorLabel → Option HttpRequestExecutor
  | .addAgain _ =>
    match a.stage with
    | .calling _ => some (s.addInfo a.info)
    | _ => none
  | .execute _ held =>
    match a.stage with
    | .queued strong =>
      some (if strong || held || s.owned a.info then s.execute n a else { s with fault := true })
    | _ => none
  | .handleResponse _ statusCode action held =>
    match a.stage with
    | .requested =>
      some (if held || s.owned a.info then s.handleResponse n a statusCode action
        else { s with fault := true })
    | _ => none
  | .callback _ =>
    match a.stage with
    | .responded action => s.callback n a action
    | _ => none
  | .callbackReturns _ =>
    match a.stage with
    | .calling action => some (s.beginRemove n a action)
    | _ => none
  | .removeRequest _ =>
    match a.stage with
    | .removing _ =>
      some ((s.removeRequest (s.requestOf a)).setAdded n { a with stage := .testing })
    | _ => none
  | .test _ =>
    match a.stage with
    | .testing => some (s.test n a)
    | _ => none
  | _ => none

/-- The call of `add` that a label is about. -/
def added : ExecutorLabel → Option ℕ
  | .addAgain n | .execute n _ | .handleResponse n _ _ _ | .callback n | .callbackReturns n
  | .removeRequest n | .test n => some n
  | _ => none

/-- After a fault nothing is said. -/
def step (l : ExecutorLabel) : Option HttpRequestExecutor :=
  if s.fault then none
  else match l with
    | .setMaxRetries maxRetries => some { s with maxRetries }
    | .stop => some { s with stopped := true }
    | .add request hasCallback => some (s.add request hasCallback)
    | .doRequestReturns i =>
      if 0 < (s.infos i).idleStateCounter then
        some (s.setInfo i
          { s.infos i with idleStateCounter := (s.infos i).idleStateCounter - 1 })
      else none
    | l => (added l).bind fun n => (s.adds[n]?).bind fun a => s.stepOf n a l

/-- What `stop` and `wait_for_pending_requests` wait for. -/
def idle : Prop := ∀ request, s.requestMap request = none

end HttpRequestExecutor

/-- The executor, its callers and what its requests come to. -/
def httpRequestExecutor : Machine HttpRequestExecutor ExecutorLabel where
  Init s := ∃ maxRetries, s = { maxRetries }
  step := HttpRequestExecutor.step

end HueStream.Network
