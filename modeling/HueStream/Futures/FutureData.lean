import HueStream.Lib.Run

/-! # One future

A `FutureData` with all that happens to it: attempts to complete it, calls of `then` and `get`, and the
destruction of its promise. An attempt stores its outcome and claims the completion in two critical sections,
and only the second looks whether the future is set already; a reader looks at the exception and then at the
value, each without the mutex.

* `SharedFuture.advance`: what the thread of an attempt does next;
* `SharedFuture.read`: what a thread in `get` does next, or the executor with a continuation;
* `AssignedOnce`: what an assignment that happens once keeps at a step. -/

namespace HueStream.Futures

open HueStream.Lib

variable {ε α : Type*}

/-- The exceptions the code makes itself. -/
structure FutureExceptions (ε : Type*) where
  futureCanceled : ε
  promiseAlreadySet : ε

/-- What a future is about: values of a type, or `void`. -/
inductive ValueType (α : Type*)
  | value
  | void (unit : α) (unique : ∀ v, v = unit)

/-- What a new `ValueHolder` holds. The one of `void` has nothing to hold, and its value is always there. -/
def ValueType.empty : ValueType α → Option α
  | .value => none
  | .void unit _ => some unit

/-- The data of a future; `value` is that of its holder. The continuations are told by their numbers. -/
structure FutureData (ε α : Type*) where
  exception : Option ε := none
  isSet : Bool := false
  isPromiseDestroyed : Bool := false
  continuations : List ℕ := []
  value : Option α

namespace FutureData

/-- The first critical section of `set_future_data_value` and `set_future_data_exception`. Setting a `void`
promise has no such section: then nothing changes. -/
def store (type : ValueType α) (data : FutureData ε α) : Except ε α → FutureData ε α
  | .ok value => { data with value := some value }
  | .error exception => { data with exception := some exception, value := type.empty }

/-- The critical section of `set_future_as_done`; the continuations have been swapped out. -/
def setAsDone (data : FutureData ε α) : FutureData ε α := { data with isSet := true, continuations := [] }

/-- The outcome is stored: a reader finds its exception, or no exception and its value. -/
def Holds (data : FutureData ε α) : Except ε α → Prop
  | .ok value => data.exception = none ∧ data.value = some value
  | .error exception => data.exception = some exception

instance [DecidableEq ε] [DecidableEq α] (data : FutureData ε α) : DecidablePred data.Holds
  | .ok value => inferInstanceAs (Decidable (data.exception = none ∧ data.value = some value))
  | .error exception => inferInstanceAs (Decidable (data.exception = some exception))

end FutureData

/-- Where the thread of an attempt is: the task of `async` or `then` has been scheduled, with what its
function is to give; `failing`, it is to cancel the manager and to set the exception (`cancel` starts
here); it is to store its outcome; it has stored it and is to claim the completion; it has won and
calls the continuations; it has failed. `caught`: the task takes a failure for an exception of its function. -/
inductive Attempt (ε α : Type*)
  | task (result : Except ε α)
  | failing (exception : ε)
  | storing (outcome : Except ε α) (caught : Bool)
  | claiming (outcome : Except ε α) (caught : Bool)
  | won (outcome : Except ε α) (continuations : List ℕ)
  | lost

namespace Attempt

def outcome : Attempt ε α → Option (Except ε α)
  | .won outcome _ => some outcome
  | _ => none

def owed : Attempt ε α → List ℕ
  | .won _ continuations => continuations
  | _ => []

end Attempt

/-- Where a reader is: a continuation is queued or has been given to the executor; a call of `get` waits, is
to look at the exception, to read the value, and has an outcome, an exception of its own, or has read a
value that was not there. -/
inductive ReaderPoint (ε α : Type*)
  | queued
  | posted
  | waiting
  | checking
  | reading
  | saw (outcome : Except ε α)
  | broken
  | canceled
  | crashed
  deriving DecidableEq

/-- Where the executor starts a continuation: in `get`, but the function of a `Future<void>` is called at
once. -/
def ValueType.start : ValueType α → ReaderPoint ε α
  | .value => .waiting
  | .void unit _ => .saw (.ok unit)

/-- A call of `get`, or a continuation. `checks`: its function returns no future, so that its task looks
whether the manager has been canceled. -/
structure Reader (ε α : Type*) where
  isContinuation : Bool := false
  checks : Bool := false
  point : ReaderPoint ε α := .waiting
  deriving DecidableEq

/-- The future, the exception its manager was canceled with, the attempts, the readers and the continuations
that have been run, in this order. -/
structure SharedFuture (ε α : Type*) where
  data : FutureData ε α
  canceled : Option ε := none
  attempts : List (Attempt ε α) := []
  readers : List (Reader ε α) := []
  ran : List ℕ := []

/-- What happens: calls of the functions, the end of the promise, a cancellation by another future with the
same manager, and the next step of an attempt or of a reader. -/
inductive Action (ε α : Type*)
  | setValue (value : α)
  | setException (exception : ε)
  | cancel
  | schedule (result : Except ε α)
  | destroyPromise
  | cancelManager (exception : ε)
  | thenCall (checks : Bool)
  | get
  | proceed (attempt : ℕ)
  | read (reader : ℕ)

namespace SharedFuture

/-- The outcomes of the attempts that have won. -/
def won (s : SharedFuture ε α) : List (Except ε α) := s.attempts.filterMap Attempt.outcome

/-- The continuations the winner has still to call. -/
def owed (s : SharedFuture ε α) : List ℕ := s.attempts.flatMap Attempt.owed

def isContinuation (s : SharedFuture ε α) (i : ℕ) : Bool := s.readers[i]?.any Reader.isContinuation

/-- `CancellationManager::cancel`: only the first call counts. -/
def cancelWith (s : SharedFuture ε α) (exception : ε) : SharedFuture ε α :=
  { s with canceled := s.canceled <|> some exception }

def setAttempt (s : SharedFuture ε α) (i : ℕ) (attempt : Attempt ε α) : SharedFuture ε α :=
  { s with attempts := s.attempts.set i attempt }

def moveReader (s : SharedFuture ε α) (i : ℕ) (point : ReaderPoint ε α) : SharedFuture ε α :=
  { s with readers := s.readers.modify i fun reader => { reader with point } }

def advance (exceptions : FutureExceptions ε) (type : ValueType α) (s : SharedFuture ε α) (i : ℕ) :
    Attempt ε α → Option (SharedFuture ε α)
  | .task result => some (match s.canceled, result with
    | some exception, _ => s.setAttempt i (.storing (.error exception) false)
    | none, .ok value => s.setAttempt i (.storing (.ok value) true)
    | none, .error exception => s.setAttempt i (.failing exception))
  | .failing exception => some ((s.cancelWith exception).setAttempt i (.storing (.error exception) false))
  | .storing outcome caught =>
    some ({ s with data := s.data.store type outcome }.setAttempt i (.claiming outcome caught))
  | .claiming outcome caught =>
    some ({ s with data := s.data.setAsDone }.setAttempt i (
      if !s.data.isSet then .won outcome s.data.continuations
      else if caught then .failing exceptions.promiseAlreadySet else .lost))
  | .won outcome (continuation :: continuations) =>
    some { (s.setAttempt i (.won outcome continuations)).moveReader continuation .posted with
      ran := s.ran ++ [continuation] }
  | .won _ [] => none
  | .lost => none

def read (type : ValueType α) (s : SharedFuture ε α) (i : ℕ) (reader : Reader ε α) : Option (SharedFuture ε α) :=
  match reader.point with
  | .posted => some (s.moveReader i (if reader.checks ∧ s.canceled.isSome then .canceled else type.start))
  | .waiting =>
    if s.data.isSet then some (s.moveReader i .checking)
    else if s.data.isPromiseDestroyed then some (s.moveReader i .broken) else none
  | .checking => some (s.moveReader i (match s.data.exception with
    | some exception => .saw (.error exception)
    | none => .reading))
  | .reading => some (s.moveReader i (match s.data.value with
    | some value => .saw (.ok value)
    | none => .crashed))
  | _ => none

/-- `then`, under the mutex. On an exception the future of the continuation gets it at once. -/
def thenCall (s : SharedFuture ε α) (checks : Bool) : SharedFuture ε α :=
  let continuation := s.readers.length
  if s.data.isSet then
    { s with
      ran := s.ran ++ [continuation]
      readers := s.readers ++ [{ isContinuation := true, checks, point := match s.data.exception with
        | some exception => .saw (.error exception)
        | none => .posted }] }
  else
    { s with
      data := { s.data with continuations := s.data.continuations ++ [continuation] }
      readers := s.readers ++ [{ isContinuation := true, checks, point := .queued }] }

def step (exceptions : FutureExceptions ε) (type : ValueType α) (s : SharedFuture ε α) :
    Action ε α → Option (SharedFuture ε α)
  | .setValue value => some { s with attempts := s.attempts ++ [.storing (.ok value) false] }
  | .setException exception => some { s with attempts := s.attempts ++ [.storing (.error exception) false] }
  | .cancel => some { s with attempts := s.attempts ++ [.failing exceptions.futureCanceled] }
  | .schedule result => some { s with attempts := s.attempts ++ [.task result] }
  | .destroyPromise => some { s with data := { s.data with isPromiseDestroyed := true } }
  | .cancelManager exception => some (s.cancelWith exception)
  | .thenCall checks => some (s.thenCall checks)
  | .get => some { s with readers := s.readers ++ [{}] }
  | .proceed i => s.attempts[i]?.bind (s.advance exceptions type i)
  | .read i => s.readers[i]?.bind (s.read type i)

/-- An attempt stores nothing new once the future is set, and the first one to claim the completion finds its
own outcome stored. -/
def AttemptKeeps (type : ValueType α) (s : SharedFuture ε α) : Attempt ε α → Prop
  | .storing outcome _ => s.data.isSet = true →
    (s.data.store type outcome).exception = s.data.exception ∧
      (s.data.store type outcome).value = s.data.value
  | .claiming outcome _ => s.data.isSet = false → s.data.Holds outcome
  | _ => True

/-- The function of a continuation of a `Future<void>` is not called when there is an exception. -/
def ReaderKeeps (type : ValueType α) (s : SharedFuture ε α) (reader : Reader ε α) : Prop :=
  reader.point = .posted → type.empty.isSome = true → ¬ (reader.checks = true ∧ s.canceled.isSome = true) →
    s.data.exception = none

def Keeps (type : ValueType α) (s : SharedFuture ε α) : Action ε α → Prop
  | .proceed i => ∀ attempt ∈ s.attempts[i]?, s.AttemptKeeps type attempt
  | .read i => ∀ reader ∈ s.readers[i]?, s.ReaderKeeps type reader
  | _ => True

variable [DecidableEq ε] [DecidableEq α]

instance (type : ValueType α) (s : SharedFuture ε α) : DecidablePred (s.AttemptKeeps type)
  | .storing outcome _ => inferInstanceAs (Decidable (s.data.isSet = true →
    (s.data.store type outcome).exception = s.data.exception ∧
      (s.data.store type outcome).value = s.data.value))
  | .claiming outcome _ => inferInstanceAs (Decidable (s.data.isSet = false → s.data.Holds outcome))
  | .task _ | .failing _ | .won _ _ | .lost => inferInstanceAs (Decidable True)

instance (type : ValueType α) (s : SharedFuture ε α) : DecidablePred (s.ReaderKeeps type) := fun reader =>
  inferInstanceAs (Decidable (reader.point = .posted → type.empty.isSome = true →
    ¬ (reader.checks = true ∧ s.canceled.isSome = true) → s.data.exception = none))

instance (type : ValueType α) (s : SharedFuture ε α) : DecidablePred (s.Keeps type)
  | .proceed i => inferInstanceAs (Decidable (∀ attempt ∈ s.attempts[i]?, s.AttemptKeeps type attempt))
  | .read i => inferInstanceAs (Decidable (∀ reader ∈ s.readers[i]?, s.ReaderKeeps type reader))
  | .setValue _ | .setException _ | .cancel | .schedule _ | .destroyPromise | .cancelManager _
  | .thenCall _ | .get => inferInstanceAs (Decidable True)

end SharedFuture

/-- The future of a promise as a machine, from its construction. -/
def sharedFuture (exceptions : FutureExceptions ε) (type : ValueType α) :
    Machine (SharedFuture ε α) (Action ε α) where
  Init s := s = { data := { value := type.empty } }
  step := SharedFuture.step exceptions type

/-- **Assigned once**: from the completion on nothing changes what is stored, the continuations or who has
won; at most one attempt has won, its outcome is stored, and what a reader has seen; no reader has read a
value that was not there; every continuation waits, is about to be run or has been run, once in all, and
none waits any more when the future is set. -/
structure AssignedOnce (t : Transition (SharedFuture ε α) (Action ε α)) : Prop where
  exception : t.before.data.isSet = true → t.after.data.exception = t.before.data.exception
  value : t.before.data.isSet = true → t.after.data.value = t.before.data.value
  won : t.before.data.isSet = true → t.after.won = t.before.won
  single : t.after.won.length ≤ 1
  stored : ∀ outcome ∈ t.after.won, t.after.data.Holds outcome
  seen : ∀ reader ∈ t.after.readers, ∀ outcome, reader.point = .saw outcome → t.after.won = [outcome]
  safe : ∀ reader ∈ t.after.readers, reader.point ≠ .crashed
  ran : ∀ i, t.after.data.continuations.count i + t.after.owed.count i + t.after.ran.count i =
    (t.after.isContinuation i).toNat
  continuations : t.after.data.isSet = true → t.after.data.continuations = []

end HueStream.Futures
