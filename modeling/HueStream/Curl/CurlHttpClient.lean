import HueStream.Curl.CurlRequest
import HueStream.Lib.Run
import Mathlib.Logic.Function.Basic

/-! # The curl client

Callers send messages to the thread of `CurlHttpClient`, which drives curl and posts callbacks to the queue of
the dispatchers. That queue is one for all requests, and one thread runs what is posted, one function at a
time; only when a function that runs there waits for the dispatcher of a request it stops, it runs what else is
in the queue meanwhile. What a thread does under a mutex is one step. A caller stops a request at most once,
as `IHttpClient` says, and a function that runs in the queue ends at some time, but not while it waits. -/

namespace HueStream.Curl

open HueStream.Lib

/-- `CurlHttpClient::Message`. The client outlives its requests, and `STOP_EXECUTOR` is left out. -/
inductive Message
  | start (request : ℕ)
  | stop (request : ℕ)
deriving DecidableEq

/-- What is left to do for the request that the thread is busy with. -/
inductive Work
  /-- `send_response` posts the callback. It was called for a message of `stop_request`, or not. -/
  | post (isStopping : Bool)
  /-- It sets `_callback_posted`. -/
  | posted (isStopping : Bool)
  /-- `set_as_complete`. -/
  | complete
deriving DecidableEq

/-- Where `thread_method` is. -/
inductive CurlPoint
  /-- It waits for data when nothing is active. -/
  | top
  | popping
  /-- In `curl_multi_perform`. -/
  | performing
  /-- In the loop with `curl_multi_info_read`. -/
  | reading
  | busy (request : ℕ) (work : Work)
deriving DecidableEq

/-- A function in the queue of the dispatchers. -/
inductive Job
  | data (request : ℕ) (body : String)
  | final (request : ℕ)
  /-- Somebody else has posted it. -/
  | other
deriving DecidableEq

def Job.request : Job → Option ℕ
  | .data r _ | .final r => some r
  | .other => none

/-- A function that runs, and the request it is stopping. -/
structure Frame where
  job : Job
  stopping : Option ℕ := none
deriving DecidableEq

/-- `CurlHttpClient` with curl, its callers and the queue of the dispatchers. A function that runs in another
one stands before it in the stack. -/
structure CurlHttpClient where
  started : ℕ := 0
  requests : ℕ → CurlRequest := fun _ => {}
  messages : List Message := []
  point : CurlPoint := .top
  numActive : ℕ := 0
  jobs : List Job := []
  stack : List Frame := []

namespace CurlHttpClient

variable (s : CurlHttpClient) (r : ℕ)

def set (q : CurlRequest) : CurlHttpClient := { s with requests := Function.update s.requests r q }

/-- `start_request`. -/
def start (expectEventStream hasFile : Bool) : CurlHttpClient :=
  { s with
    started := s.started + 1
    requests := Function.update s.requests s.started { buffers := { expectEventStream, hasFile } }
    messages := s.messages ++ [.start s.started] }

/-- A function runs and is not waiting. -/
def isFree : Bool := s.stack.head?.any (·.stopping = none)

/-- `stop_request` sends its message. -/
def stop (isInside : Bool) : Option CurlHttpClient :=
  if r < s.started ∧ (s.requests r).stop = .idle ∧ (isInside = true → s.isFree = true) then
    some { s with
      requests := Function.update s.requests r { s.requests r with
        stop := .complete
        isInside
        isWithin := isInside && s.stack.any (·.job.request = some r) }
      messages := s.messages ++ [.stop r]
      stack := if isInside then s.stack.modifyHead fun f => { f with stopping := some r } else s.stack }
  else none

/-- The thread that stops the request is not in a function that runs meanwhile. -/
def isAt : Bool := !(s.requests r).isInside || s.stack.head?.any (·.stopping = some r)

/-- `clear` has nothing to wait for. A thread does not wait for what it is in. -/
def isCleared : Bool :=
  s.jobs.all (·.request ≠ some r) && ((s.requests r).isInside || s.stack.all (·.job.request ≠ some r))

/-- The next step of `stop_request`. -/
def advance : Option CurlHttpClient :=
  let q := s.requests r
  if r < s.started ∧ s.isAt r = true then
    match q.stop with
    | .complete => if q.isComplete then some (s.set r { q with stop := .posted }) else none
    | .posted => if q.callbackPosted then some (s.set r { q with stop := .shutdown }) else none
    | .shutdown => some (s.set r { q with closing := true, stop := .clear })
    | .clear => if s.isCleared r then some (s.set r { q with stop := .delete }) else none
    | .delete =>
      some { s.set r { q with stop := .returned } with
        stack := if q.isInside then s.stack.modifyHead fun f => { f with stopping := none } else s.stack }
    | .idle | .returned => none
  else none

/-- The queue runs its next function: when nothing runs, or what runs waits for one in the queue. -/
def mayRun : Bool :=
  s.stack.head?.all fun f => f.stopping.any fun r => (s.requests r).stop = .clear && s.jobs.any (·.request = some r)

/-- What a posted function does to its request. -/
def call : Job → CurlHttpClient
  | .data r body => s.set r { s.requests r with called := (s.requests r).called ++ [.data body] }
  | .final r => s.set r { s.requests r with called := (s.requests r).called ++ [(s.requests r).finalCallback] }
  | .other => s

def run : Option CurlHttpClient :=
  match s.jobs with
  | [] => none
  | job :: jobs => if s.mayRun then some ({ s with jobs, stack := { job } :: s.stack }.call job) else none

/-- A function ends. -/
def finish : Option CurlHttpClient :=
  match s.stack with
  | [] => none
  | f :: stack => if f.stopping = none then some { s with stack } else none

/-- `execute` of a dispatcher: nothing is added when it is closing. -/
def post (job : Job) : CurlHttpClient :=
  if (s.requests r).closing then s else { s with jobs := s.jobs ++ [job] }

/-- The thread goes on to the messages. -/
def wake : Option CurlHttpClient :=
  if s.point = .top ∧ (s.numActive ≠ 0 ∨ s.messages ≠ []) then some { s with point := .popping } else none

/-- The thread takes a message. -/
def pop : Option CurlHttpClient :=
  if s.point = .popping then
    match s.messages with
    | [] => some { s with point := .performing }
    | .start r :: messages =>
      let q := s.requests r
      some ({ s with messages }.set r { q with transfer := .running, handed := q.handed + 1 })
    | .stop r :: messages =>
      let q := s.requests r
      if q.handle then
        some ({ s with messages, point := .busy r (.post true) }.set r (q.sendResponse .abortedByCallback 0))
      else some { s with messages, point := .busy r .complete }
  else none

/-- What curl has received is in the buffers, or posted. -/
def written (w : Write) : CurlHttpClient :=
  let q := s.requests r
  let s := s.set r { q with buffers := (q.buffers.write w).1 }
  (q.buffers.write w).2.elim s fun body => s.post r (.data r body)

/-- Curl has received something. -/
def write (w : Write) : Option CurlHttpClient :=
  if s.point = .performing ∧ r < s.started ∧ (s.requests r).transfer = .running then some (s.written r w) else none

/-- Curl is done with a request. -/
def complete (code : CurlCode) (status : ℕ) : Option CurlHttpClient :=
  let q := s.requests r
  if s.point = .performing ∧ r < s.started ∧ q.transfer = .running then
    some (s.set r { q with transfer := .finished code status, completion := some (code, status) })
  else none

/-- `curl_multi_perform` returns. -/
def performed (numActive : ℕ) : Option CurlHttpClient :=
  if s.point = .performing then some { s with point := .reading, numActive } else none

/-- `curl_multi_info_read` gives a message about a request. -/
def read : Option CurlHttpClient :=
  let q := s.requests r
  match q.transfer with
  | .finished code status =>
    if s.point = .reading ∧ r < s.started then
      some ({ s with point := .busy r (.post false) }.set r (q.sendResponse code status))
    else none
  | _ => none

/-- There are no more messages of curl. -/
def readNone : Option CurlHttpClient :=
  if s.point = .reading ∧ ∀ r < s.started, (s.requests r).transfer.isFinished = false then
    some { s with point := .top }
  else none

/-- The thread goes on with the request it is busy with. -/
def send : Option CurlHttpClient :=
  match s.point with
  | .busy r (.post isStopping) => some { s.post r (.final r) with point := .busy r (.posted isStopping) }
  | .busy r (.posted isStopping) =>
    some ({ s with point := if isStopping then .busy r .complete else .reading }.set r
      { s.requests r with callbackPosted := true })
  | .busy r .complete => some ({ s with point := .popping }.set r { s.requests r with isComplete := true })
  | _ => none

end CurlHttpClient

/-- The steps: of the callers, of the queue, of the thread, and of curl. -/
inductive CurlLabel
  | start (expectEventStream hasFile : Bool)
  | stop (r : ℕ) (isInside : Bool)
  | advance (r : ℕ)
  | postOther
  | run
  | finish
  | wake
  | pop
  | write (r : ℕ) (w : Write)
  | complete (r : ℕ) (code : CurlCode) (status : ℕ)
  | performed (numActive : ℕ)
  | read (r : ℕ)
  | readNone
  | send
deriving DecidableEq

/-- Nobody asks for anything new, and curl has no news. -/
def CurlLabel.isInternal : CurlLabel → Bool
  | .start _ _ | .stop _ _ | .postOther | .write _ _ | .complete _ _ _ => false
  | _ => true

/-- The client with its callers. -/
def curlHttpClient : Machine CurlHttpClient CurlLabel where
  Init s := s = {}
  step s
    | .start expectEventStream hasFile => some (s.start expectEventStream hasFile)
    | .stop r isInside => s.stop r isInside
    | .advance r => s.advance r
    | .postOther => some { s with jobs := s.jobs ++ [.other] }
    | .run => s.run
    | .finish => s.finish
    | .wake => s.wake
    | .pop => s.pop
    | .write r w => s.write r w
    | .complete r code status => s.complete r code status
    | .performed numActive => s.performed numActive
    | .read r => s.read r
    | .readNone => s.readNone
    | .send => s.send

end HueStream.Curl
