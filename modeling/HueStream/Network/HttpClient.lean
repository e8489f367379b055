import HueStream.Lib.Run
import Mathlib.Data.List.Count
import Mathlib.Logic.Function.Basic

/-! # The HTTP client

`HttpClient` allocates a request for every call of `ExecuteAsync` that starts one, and frees it where it
is taken off the list of active requests: when its final completion has been handled, when it is
cancelled, or when the client is destroyed. A step is one critical section, one delivery of the network,
or the next part of the handler of a completion; the completions of a request are handled one after
another. `cancel` of a request returns when its final completion has been handled, or from within its
callback. -/

namespace HueStream.Network

open HueStream.Lib

/-- How the network completes a request. -/
inductive Completion
  | success | error | canceled
deriving DecidableEq

/-- Where the handler of a completion is. -/
inductive HandlerPoint
  | idle
  /-- The client is looked up, and whether it is shut down. -/
  | test (completion : Completion)
  /-- The callback is about to be called. -/
  | callback (completion : Completion)
  /-- In the callback. -/
  | calling (completion : Completion)
  /-- `FinishRequest`. -/
  | finish (completion : Completion)
  /-- The request is taken off the list. -/
  | remove
deriving DecidableEq

/-- The callback was not called yet by this handler. -/
def HandlerPoint.early : HandlerPoint → Bool
  | .test _ | .callback _ => true
  | _ => false

/-- A request that `ExecuteAsync` has allocated, with what happens to it. -/
structure Request where
  /-- The `HttpRequestInfo` it is made for. -/
  info : ℕ
  isEventingRequest : Bool
  hasCallback : Bool
  /-- Its final completion was delivered. -/
  completed : Bool := false
  handler : HandlerPoint := .idle
  callbacks : ℕ := 0
  frees : ℕ := 0
  /-- A completion has found the client shut down. -/
  sawShutdown : Bool := false
  /-- The callback was called after such a completion. -/
  late : Bool := false

/-- What may still finish the info of the request: the final completion is not handled. -/
def Request.outstanding (q : Request) : Bool :=
  !q.completed || match q.handler with
    | .idle | .remove => false
    | .test _ | .callback _ | .calling _ | .finish _ => true

/-- `HttpClient`, with the infos and those that wait for them; requests and infos are numbered. -/
structure HttpClient where
  isShutdown : Bool := false
  created : ℕ := 0
  requests : ℕ → Request := fun _ => { info := 0, isEventingRequest := false, hasCallback := false }
  /-- The request of the call of `ExecuteAsync` that holds the mutex. -/
  storing : Option ℕ := none
  activeRequests : List ℕ := []
  /-- The requests taken off the list to be cancelled and deleted. -/
  canceling : List ℕ := []
  isReady : ℕ → Bool := fun _ => false
  isRunning : ℕ → Bool := fun _ => false
  /-- The infos on which callers of `Execute`, or of a synchronous `ExecuteHttpRequest`, wait. -/
  waiters : List ℕ := []

/-- A call, a delivery of the network or a step. -/
inductive ClientLabel
  /-- `ExecuteAsync`; `waits` when the caller waits for the info afterwards. -/
  | executeAsync (info : ℕ) (hasCallback isEventingRequest hasThreadPool waits : Bool)
  | store
  | cancelAsyncRequest (n : ℕ)
  | destroy
  /-- `cancel` has returned. -/
  | delete (n : ℕ)
  /-- A part of an event stream. -/
  | body (n : ℕ)
  | complete (n : ℕ) (completion : Completion)
  | test (n : ℕ)
  | callback (n : ℕ)
  | callbackReturns (n : ℕ)
  | finishRequest (n : ℕ)
  | remove (n : ℕ)
  /-- A caller that waits finds the info ready. -/
  | wake (info : ℕ)

namespace HttpClient

variable (s : HttpClient)

def setRequest (n : ℕ) (q : Request) : HttpClient :=
  { s with requests := Function.update s.requests n q }

/-- The call starts a request. -/
def starts (info : ℕ) (hasThreadPool : Bool) : Bool :=
  hasThreadPool && !s.isShutdown && !s.isRunning info

/-- `ExecuteAsync` up to `do_request`. -/
def executeAsync (info : ℕ) (hasCallback isEventingRequest hasThreadPool : Bool) : HttpClient :=
  if s.starts info hasThreadPool then
    { s with
      isRunning := Function.update s.isRunning info true
      isReady := Function.update s.isReady info false
      requests := Function.update s.requests s.created { info, isEventingRequest, hasCallback }
      storing := some s.created
      created := s.created + 1 }
  else s

/-- The part of the handler after the callback. -/
def callbackReturns (n : ℕ) (q : Request) (completion : Completion) : HttpClient :=
  if completion = .canceled || !q.isEventingRequest || completion ≠ .success then
    s.setRequest n { q with handler := .finish completion }
  else s.setRequest n { q with handler := .idle }

/-- `FinishRequest`. -/
def finishRequest (n : ℕ) (q : Request) (completion : Completion) : HttpClient :=
  { s.setRequest n { q with handler := if completion = .canceled then .idle else .remove } with
    isReady := Function.update s.isReady q.info true
    isRunning := Function.update s.isRunning q.info false }

/-- The request is taken off the list, if it is there, and freed. -/
def remove (n : ℕ) (q : Request) : HttpClient :=
  if n ∈ s.activeRequests then
    { s.setRequest n { q with handler := .idle, frees := q.frees + 1 } with
      activeRequests := s.activeRequests.erase n }
  else s.setRequest n { q with handler := .idle }

/-- The next part of the handler of a request. -/
def handle (n : ℕ) (q : Request) : ClientLabel → Option HttpClient
  | .test _ =>
    match q.handler with
    | .test completion =>
      some (if s.isShutdown then s.setRequest n { q with handler := .idle, sawShutdown := true }
        else s.setRequest n { q with handler := .callback completion })
    | _ => none
  | .callback _ =>
    match q.handler with
    | .callback completion =>
      some (if q.hasCallback then
          s.setRequest n { q with
            handler := .calling completion
            callbacks := q.callbacks + 1
            late := q.late || q.sawShutdown }
        else s.setRequest n { q with handler := .calling completion })
    | _ => none
  | .callbackReturns _ =>
    match q.handler with
    | .calling completion => some (s.callbackReturns n q completion)
    | _ => none
  | .finishRequest _ =>
    match q.handler with
    | .finish completion => some (s.finishRequest n q completion)
    | _ => none
  | .remove _ => if q.handler = .remove ∧ s.storing = none then some (s.remove n q) else none
  | _ => none

/-- `cancel` of the request has returned. -/
def isCanceled (q : Request) : Bool :=
  q.completed && match q.handler with
    | .idle | .calling _ => true
    | .test _ | .callback _ | .finish _ | .remove => false

def step : ClientLabel → Option HttpClient
  | .executeAsync info hasCallback isEventingRequest hasThreadPool waits =>
    if hasThreadPool && s.storing.isSome then none
    else some { s.executeAsync info hasCallback isEventingRequest hasThreadPool with
      waiters := if waits then info :: s.waiters else s.waiters }
  | .store => s.storing.map fun n =>
    { s with storing := none, activeRequests := s.activeRequests ++ [n] }
  | .cancelAsyncRequest n =>
    if s.storing.isSome then none
    else if n ∈ s.activeRequests then
      some { s with activeRequests := s.activeRequests.erase n, canceling := n :: s.canceling }
    else some s
  | .destroy =>
    if s.storing.isSome then none
    else some { s with
      isShutdown := true, activeRequests := [], canceling := s.activeRequests ++ s.canceling }
  | .delete n =>
    if n ∈ s.canceling ∧ isCanceled (s.requests n) then
      some { s.setRequest n { s.requests n with frees := (s.requests n).frees + 1 } with
        canceling := s.canceling.erase n }
    else none
  | .body n =>
    if n < s.created ∧ (s.requests n).isEventingRequest ∧ (s.requests n).completed = false ∧
        (s.requests n).handler = .idle then
      some (s.setRequest n { s.requests n with handler := .test .success })
    else none
  | .complete n completion =>
    if n < s.created ∧ (s.requests n).completed = false ∧ (s.requests n).handler = .idle then
      some (s.setRequest n { s.requests n with completed := true, handler := .test completion })
    else none
  | .wake info =>
    if info ∈ s.waiters ∧ s.isReady info then some { s with waiters := s.waiters.erase info } else none
  | .test n => if n < s.created then s.handle n (s.requests n) (.test n) else none
  | .callback n => if n < s.created then s.handle n (s.requests n) (.callback n) else none
  | .callbackReturns n =>
    if n < s.created then s.handle n (s.requests n) (.callbackReturns n) else none
  | .finishRequest n => if n < s.created then s.handle n (s.requests n) (.finishRequest n) else none
  | .remove n => if n < s.created then s.handle n (s.requests n) (.remove n) else none

/-- A request of the info is still to finish it. -/
def outstanding (info : ℕ) : Prop :=
  ∃ n < s.created, (s.requests n).info = info ∧ (s.requests n).outstanding = true

instance (info : ℕ) : Decidable (s.outstanding info) :=
  inferInstanceAs (Decidable (∃ n < s.created, _))

end HttpClient

/-- The client, its callers and the network. -/
def httpClient : Machine HttpClient ClientLabel where
  Init s := s = {}
  step := HttpClient.step

end HueStream.Network
