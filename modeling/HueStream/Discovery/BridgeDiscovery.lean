import HueStream.Lib.Keyed
import HueStream.Lib.Run
import HueStream.Threading.Job

/-! # Bridge discovery

`BridgeDiscovery` runs each search as the job of a `BridgeDiscoveryTask`, one discovery method after
another. The tickets of the jobs run on the thread of their queue, in any order; callbacks of users run on
the dispatcher's thread, and `search` and `stop` are called from any thread, the one of the jobs' queue
included. `_mutex` is held during a call; the calls that let others go on meanwhile are those that cancel
a job: `stop`, and `search` where it replaces a job that has not ended. -/

namespace HueStream.Discovery

open HueStream.Lib HueStream.Threading

/-- `BridgeDiscovery::Option`. -/
inductive DiscoveryOption
  | upnp | ipscan | nupnp | mdns
deriving DecidableEq

inductive ReturnCode
  | success | busy | nullParameter | stopped | missingDiscoveryMethods
deriving DecidableEq

structure BridgeDiscoveryResult where
  uniqueId : String
  ip : String
deriving DecidableEq

structure BridgeDiscoveryTask where
  currentDiscoveryMethods : List DiscoveryOption := []
  /-- With different addresses. -/
  results : List BridgeDiscoveryResult := []
  /-- The first method searches. -/
  searching : Bool := false
  /-- What methods have posted to the executor. -/
  posted : List (List BridgeDiscoveryResult) := []
  /-- The methods whose results were processed. -/
  completed : List DiscoveryOption := []
  /-- All that the methods have reported. -/
  reported : List BridgeDiscoveryResult := []

/-- A call of `search` with a callback, with its job. -/
structure Search where
  /-- The methods the factory has provided. -/
  methods : List DiscoveryOption := []
  /-- Another search was in progress at the call. -/
  wasSearching : Bool := false
  job : Job := {}
  task : BridgeDiscoveryTask := {}

namespace Search

variable (q : Search)

def startNextSearchMethod : Search :=
  if q.task.currentDiscoveryMethods.isEmpty then { q with job := q.job.complete 0 }
  else { q with task := { q.task with searching := true } }

/-- The ticket of the task begins. -/
def execute : Search := { q with job := q.job.execute 0 }.startNextSearchMethod

/-- The first method calls back. -/
def methodCompletes (results : List BridgeDiscoveryResult) : Search :=
  { q with task := { q.task with
      searching := false
      posted := q.task.posted ++ [results]
      reported := q.task.reported ++ results } }

def processResultsAndContinue (results : List BridgeDiscoveryResult) : Search :=
  match q.task.currentDiscoveryMethods with
  | [] => q
  | method :: methods =>
    { q with task := { q.task with
        results := results.foldl (moveToEnd BridgeDiscoveryResult.ip) q.task.results
        currentDiscoveryMethods := methods
        completed := q.task.completed ++ [method] } }.startNextSearchMethod

/-- The ticket that stops the task. -/
def stopTasks : Search :=
  if q.job.toStop 0 then
    { q with job := q.job.stopTasks, task := { q.task with currentDiscoveryMethods := [] } }
  else { q with job := q.job.stopTasks }

end Search

/-- A function posted to the dispatcher: the callback of a search with its arguments. -/
structure Answer where
  search : ℕ
  results : List BridgeDiscoveryResult
  returnCode : ReturnCode

/-- A call that cancels a job, and holds the mutex. -/
structure Holder where
  /-- The call is made on the thread of the jobs' queue. -/
  onQueue : Bool
  /-- The search whose job is cancelled. -/
  canceling : ℕ
  /-- The tickets of the job that run below a call on the queue's thread. -/
  belowExecution : Bool
  belowDone : Bool
  /-- The search that replaces the job; none for `stop`. -/
  replacedBy : Option ℕ
  /-- Whether the job was cancelled, after the first `cancel_all`. -/
  canceled : Option Bool := none

/-- `BridgeDiscovery`; the calls of `search` with a callback are numbered. -/
structure BridgeDiscovery where
  count : ℕ := 0
  searches : ℕ → Search := fun _ => {}
  discoveryJob : Option ℕ := none
  callback : Option ℕ := none
  /-- The last call first: those below are made on the queue's thread, and so are those above. -/
  holders : List Holder := []
  /-- A call on the queue's thread waits for the mutex. -/
  queueBlocked : Bool := false
  /-- What was posted to the dispatcher, and how much of it has run. -/
  posts : List Answer := []
  invoked : ℕ := 0
  /-- A job was destroyed while it was being cancelled. -/
  fault : Bool := false

/-- A call, or a step of a call, a ticket, a method or the dispatcher. -/
inductive DiscoveryLabel
  /-- `available` are the methods the factory can provide. -/
  | search (options available : List DiscoveryOption) (onQueue : Bool)
  | stop (onQueue : Bool)
  /-- A call on the queue's thread finds the mutex taken. -/
  | blocks
  /-- The last call goes on after `cancel_all`. -/
  | drained
  | returns
  | execute (n : ℕ)
  | executeReturns (n : ℕ)
  | discard (n : ℕ)
  | methodCompletes (n : ℕ) (results : List BridgeDiscoveryResult)
  | processResults (n : ℕ)
  | notifyDone (n : ℕ)
  | callback (n : ℕ)
  | setTaskDone (n : ℕ)
  | stopTasks (n : ℕ)
  | emptyTask (n : ℕ)
  /-- The dispatcher runs the next function. -/
  | invoke

def getDiscoveryMethods (options available : List DiscoveryOption) : List DiscoveryOption :=
  [.mdns, .ipscan, .upnp, .nupnp].filter fun option => option ∈ options ∧ option ∈ available

namespace BridgeDiscovery

variable (s : BridgeDiscovery)

def setSearch (n : ℕ) (q : Search) : BridgeDiscovery :=
  { s with searches := Function.update s.searches n q }

/-- `is_searching`. -/
def isSearching : Bool :=
  match s.discoveryJob with
  | none => false
  | some n => (s.searches n).job.state = .running

/-- A search has been started and has not ended. -/
def inProgress : Bool :=
  match s.discoveryJob with
  | none => false
  | some n => (s.searches n).job.isActive

/-- A call gets the mutex: it is free, or the queue's thread has it. -/
def canLock (onQueue : Bool) : Bool :=
  s.holders.isEmpty || (onQueue && s.holders.all Holder.onQueue)

/-- `cancel` of the job of a search, up to `cancel_all`. -/
def beginCancel (n : ℕ) (onQueue : Bool) (replacedBy : Option ℕ) : BridgeDiscovery :=
  { s.setSearch n { s.searches n with job := (s.searches n).job.requestCancel } with
    holders :=
      { onQueue, canceling := n, replacedBy
        belowExecution := onQueue && ((s.searches n).job.task 0).execution = .running
        belowDone := onQueue && ((s.searches n).job.task 0).finish.runs } :: s.holders }

/-- `search` after the job was created: `run`, if that is still its job. -/
def runJob (n : ℕ) : BridgeDiscovery :=
  if s.discoveryJob = some n then
    { s.setSearch n { s.searches n with job := (s.searches n).job.run } with callback := some n }
  else { s with callback := some n }

/-- A new job takes the place of the one there is, which is destroyed. -/
def replaceJob (methods : List DiscoveryOption) (onQueue : Bool) : BridgeDiscovery :=
  let s' : BridgeDiscovery := { s.setSearch s.count
      { methods, wasSearching := s.inProgress, task := { currentDiscoveryMethods := methods } } with
    count := s.count + 1
    discoveryJob := some s.count }
  match s.discoveryJob with
  | none => s'.runJob s.count
  | some n =>
    if s.holders.any fun h => h.canceling = n then { s' with fault := true }
    else if (s.searches n).job.isActive then s'.beginCancel n onQueue (some s.count)
    else s'.runJob s.count

/-- A search that is answered at once. -/
def answer (methods : List DiscoveryOption) (returnCode : ReturnCode) : BridgeDiscovery :=
  { s.setSearch s.count { methods, wasSearching := s.inProgress } with
    count := s.count + 1
    posts := s.posts ++ [{ search := s.count, results := [], returnCode }] }

def search (methods : List DiscoveryOption) (onQueue : Bool) : BridgeDiscovery :=
  if s.isSearching then s.answer methods .busy
  else if methods.isEmpty then s.answer methods .missingDiscoveryMethods
  else s.replaceJob methods onQueue

def stop (onQueue : Bool) : BridgeDiscovery :=
  match s.discoveryJob with
  | none => s
  | some n => if (s.searches n).job.isActive then s.beginCancel n onQueue none else s

/-- `cancel_all` has returned: no ticket of the job waits, and only those below the call run. -/
def isDrained (h : Holder) : Bool :=
  !(s.searches h.canceling).job.hasPending &&
    (((s.searches h.canceling).job.task 0).execution ≠ .running || h.belowExecution) &&
    (!((s.searches h.canceling).job.task 0).finish.runs || h.belowDone)

/-- `cancel` after the first `cancel_all`. -/
def drained (h : Holder) (hs : List Holder) : BridgeDiscovery :=
  { s.setSearch h.canceling { s.searches h.canceling with
      job := (s.searches h.canceling).job.confirmCancel } with
    holders := { h with canceled := some ((s.searches h.canceling).job.state = .canceling) } :: hs }

/-- `stop` after `cancel`. -/
def stopReturns (canceled : Bool) : BridgeDiscovery :=
  match canceled, s.discoveryJob, s.callback with
  | true, some n, some m => { s with
      posts := s.posts ++ [{ search := m, results := (s.searches n).task.results, returnCode := .stopped }] }
  | _, _, _ => s

/-- The call goes on after the second `cancel_all`, and returns. -/
def returns (h : Holder) (canceled : Bool) : BridgeDiscovery :=
  match h.replacedBy with
  | some n => s.runJob n
  | none => s.stopReturns canceled

/-- The step of a ticket of a search, where it is at it. -/
def ticket (n : ℕ) (isAt : Search → Bool) (f : Search → Search) : Option BridgeDiscovery :=
  if n < s.count ∧ isAt (s.searches n) then some (s.setSearch n (f (s.searches n))) else none

/-- The callback of a job: the results are posted to the dispatcher. -/
def postSuccess (n : ℕ) : BridgeDiscovery :=
  { s with posts := s.posts ++
      [{ search := n, results := (s.searches n).task.results, returnCode := .success }] }

def step (l : DiscoveryLabel) : Option BridgeDiscovery :=
  if s.fault then none
  else match l with
  | .search options available onQueue =>
    if s.canLock onQueue then
      some ({ s with queueBlocked := s.queueBlocked && !onQueue }.search
        (getDiscoveryMethods options available) onQueue)
    else none
  | .stop onQueue =>
    if s.canLock onQueue then
      some ({ s with queueBlocked := s.queueBlocked && !onQueue }.stop onQueue)
    else none
  | .blocks => if s.queueBlocked || s.canLock true then none else some { s with queueBlocked := true }
  | .drained =>
    match s.holders with
    | [] => none
    | h :: hs => if h.canceled.isNone && s.isDrained h then some (s.drained h hs) else none
  | .returns =>
    match s.holders with
    | [] => none
    | h :: hs =>
      match h.canceled with
      | none => none
      | some canceled =>
        if s.isDrained h then some ({ s with holders := hs }.returns h canceled) else none
  | .execute n =>
    if s.queueBlocked then none
    else s.ticket n (fun q => (q.job.task 0).execution = .pending) Search.execute
  | .executeReturns n =>
    if s.queueBlocked then none
    else s.ticket n (fun q => (q.job.task 0).execution = .running)
      fun q => { q with job := q.job.executeReturns 0 }
  | .discard n =>
    if s.holders.any fun h => h.canceling = n then
      s.ticket n (fun q => (q.job.task 0).execution = .pending)
        fun q => { q with job := q.job.discard 0 }
    else none
  | .methodCompletes n results => s.ticket n (fun q => q.task.searching) (·.methodCompletes results)
  | .processResults n =>
    if s.queueBlocked then none
    else match (s.searches n).task.posted with
    | [] => none
    | results :: posted => s.ticket n (fun _ => true) fun q =>
        { q with task := { q.task with posted } }.processResultsAndContinue results
  | .notifyDone n =>
    if s.queueBlocked then none
    else s.ticket n (fun q => (q.job.task 0).finish = .pending)
      fun q => { q with job := q.job.notifyDone 0 }
  | .callback n =>
    if s.queueBlocked then none
    else (s.ticket n (fun q => (q.job.task 0).finish = .begun)
      fun q => { q with job := q.job.callback 0 }).map (·.postSuccess n)
  | .setTaskDone n =>
    if s.queueBlocked then none
    else s.ticket n (fun q => (q.job.task 0).finish = .calling)
      fun q => { q with job := q.job.setTaskDone 0 }
  | .stopTasks n =>
    if s.queueBlocked then none else s.ticket n (fun q => q.job.stopTicket) Search.stopTasks
  | .emptyTask n =>
    if s.queueBlocked then none
    else s.ticket n (fun q => q.job.emptyTicket) fun q => { q with job := q.job.emptyTask }
  | .invoke => if s.invoked < s.posts.length then some { s with invoked := s.invoked + 1 } else none

end BridgeDiscovery

/-- Bridge discovery with its callers, the queue of the jobs, the methods and the dispatcher. -/
def bridgeDiscovery : Machine BridgeDiscovery DiscoveryLabel where
  Init s := s = {}
  step := BridgeDiscovery.step

end HueStream.Discovery
