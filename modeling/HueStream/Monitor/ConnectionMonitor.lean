import HueStream.Data.HueStreamData
import HueStream.Lib.Run

/-! # The connection monitor

`ConnectionMonitor` has a thread that checks the bridge again and again, on the second version of the
interface before it waits and on the first one after that. `Start` and `Stop` are called one after
another; the thread goes on in between, and the version of a bridge can change at any time. -/

namespace HueStream.Monitor

open HueStream.Data HueStream.Lib

/-- Where a monitor thread is in `MonitorThread`. -/
inductive ThreadPoint
  | absent
  /-- At the head of the loop. -/
  | looping
  /-- The check before the wait. -/
  | checking (bridge : BridgePtr)
  /-- About to take the mutex. -/
  | locking
  | waiting
  /-- The wait has timed out, and the mutex is held until the next round. -/
  | timedOut
  /-- The check after the wait. -/
  | checkingLocked (bridge : BridgePtr)
  | finished
deriving DecidableEq

/-- The thread object has a thread that runs. -/
def ThreadPoint.Alive (p : ThreadPoint) : Prop := p ≠ .absent ∧ p ≠ .finished

/-- Where a call is. A `Stop` that `Start` makes has that start to go on with. -/
inductive Call
  | starting (bridge : BridgePtr) (intervalMsec : ℤ)
  | stopping (next : Option (BridgePtr × ℤ))
  | joining (thread : ℕ) (next : Option (BridgePtr × ℤ))
  | creating (bridge : BridgePtr) (intervalMsec : ℤ)
deriving DecidableEq

/-- `ConnectionMonitor`; the threads it creates are numbered. -/
structure ConnectionMonitor where
  /-- `IsSupportingClipV2` of the bridges. -/
  supportsClipV2 : BridgePtr → Bool := fun _ => false
  bridge : Option BridgePtr := none
  intervalMsec : ℤ := 0
  running : Bool := false
  /-- The monitor thread that holds the mutex; a call never holds it from one step to the next. -/
  mutex : Option ℕ := none
  monitorThread : Option ℕ := none
  count : ℕ := 0
  threads : ℕ → ThreadPoint := fun _ => .absent
  joined : List ℕ := []
  call : Option Call := none
  /-- The start that returned last, unless a stop has returned since. -/
  latest : Option (BridgePtr × ℤ) := none
  /-- A thread object was destroyed while it could be joined, or a thread was joined twice. -/
  fault : Bool := false

/-- A step of a call or of the thread with a number, or a change of a bridge. -/
inductive MonitorLabel
  | start (bridge : BridgePtr) (intervalMsec : ℤ)
  | stop
  /-- `Start` looks at the bridge and at `_running`. -/
  | decides
  /-- `Stop` in its critical section. -/
  | signals
  | joins
  /-- `Start` in its critical section. -/
  | creates
  /-- The thread begins a round. -/
  | loops (n : ℕ)
  | checked (n : ℕ)
  | waits (n : ℕ)
  /-- The wait ends, for the time or for the notification. -/
  | wakes (n : ℕ)
  | goesOn (n : ℕ)
  | update (bridge : BridgePtr) (supportsClipV2 : Bool)
deriving DecidableEq

namespace ConnectionMonitor

variable (s : ConnectionMonitor)

/-- The thread goes to a point, and the mutex to whom it says. -/
def moves (n : ℕ) (p : ThreadPoint) (mutex : Option ℕ) : ConnectionMonitor :=
  { s with threads := Function.update s.threads n p, mutex := mutex }

@[simp] theorem threads_moves (n : ℕ) (p : ThreadPoint) (mutex : Option ℕ) :
    (s.moves n p mutex).threads = Function.update s.threads n p := rfl

@[simp] theorem running_moves (n : ℕ) (p : ThreadPoint) (mutex : Option ℕ) :
    (s.moves n p mutex).running = s.running := rfl

/-- `Stop` returns, to the start that made it if there is one. -/
def stopReturns : Option (BridgePtr × ℤ) → ConnectionMonitor
  | some (bridge, intervalMsec) => { s with call := some (.creating bridge intervalMsec) }
  | none => { s with call := none, latest := none }

/-- The first part of `Start`. -/
def decides (bridge : BridgePtr) (intervalMsec : ℤ) : ConnectionMonitor :=
  if s.supportsClipV2 bridge then
    if s.running then { s with call := none, latest := some (bridge, intervalMsec) }
    else { s with call := some (.creating bridge intervalMsec) }
  else { s with call := some (.stopping (some (bridge, intervalMsec))) }

/-- The critical section of `Stop`. -/
def signals (next : Option (BridgePtr × ℤ)) : ConnectionMonitor :=
  if s.running then
    match s.monitorThread with
    | some n => { s with running := false, monitorThread := none, call := some (.joining n next) }
    | none => { s with running := false }.stopReturns next
  else s.stopReturns next

/-- The critical section of `Start`: the assignment destroys the thread object that was there. -/
def creates (bridge : BridgePtr) (intervalMsec : ℤ) : ConnectionMonitor :=
  { s with
    running := true
    bridge := some bridge
    intervalMsec := intervalMsec
    monitorThread := some s.count
    count := s.count + 1
    threads := Function.update s.threads s.count .looping
    call := none
    latest := some (bridge, intervalMsec)
    fault := s.fault || s.monitorThread.any fun n => n ∉ s.joined }

/-- The thread begins a round. -/
def loops (n : ℕ) : Option ConnectionMonitor :=
  s.bridge.map fun bridge =>
    if s.supportsClipV2 bridge then s.moves n (.checking bridge) s.mutex
    else s.moves n .locking s.mutex

/-- The predicate of the wait, under the mutex. -/
def finishes (n : ℕ) (p : ThreadPoint) (mutex : Option ℕ) : ConnectionMonitor :=
  if s.running then s.moves n p mutex else s.moves n .finished none

/-- The thread goes on after a wait that has timed out. -/
def goesOn (n : ℕ) : Option ConnectionMonitor :=
  s.bridge.map fun bridge =>
    if s.supportsClipV2 bridge then s.moves n .looping none
    else s.moves n (.checkingLocked bridge) (some n)

def step (s : ConnectionMonitor) : MonitorLabel → Option ConnectionMonitor
  | .start bridge intervalMsec =>
    if s.call = none then some { s with call := some (.starting bridge intervalMsec) } else none
  | .stop => if s.call = none then some { s with call := some (.stopping none) } else none
  | .decides =>
    match s.call with
    | some (.starting bridge intervalMsec) => some (s.decides bridge intervalMsec)
    | _ => none
  | .signals =>
    match s.call with
    | some (.stopping next) => if s.mutex = none then some (s.signals next) else none
    | _ => none
  | .joins =>
    match s.call with
    | some (.joining n next) =>
      if s.threads n = .finished then
        some ({ s with joined := n :: s.joined, fault := s.fault || n ∈ s.joined }.stopReturns next)
      else none
    | _ => none
  | .creates =>
    match s.call with
    | some (.creating bridge intervalMsec) =>
      if s.mutex = none then some (s.creates bridge intervalMsec) else none
    | _ => none
  | .loops n => if s.threads n = .looping then s.loops n else none
  | .checked n =>
    match s.threads n with
    | .checking _ => some (s.moves n .locking s.mutex)
    | .checkingLocked _ => some (s.moves n .looping none)
    | _ => none
  | .waits n =>
    if s.threads n = .locking ∧ s.mutex = none then some (s.finishes n .waiting none) else none
  | .wakes n =>
    if s.threads n = .waiting ∧ s.mutex = none then some (s.finishes n .timedOut (some n)) else none
  | .goesOn n => if s.threads n = .timedOut then s.goesOn n else none
  | .update bridge supportsClipV2 =>
    some { s with supportsClipV2 := Function.update s.supportsClipV2 bridge supportsClipV2 }

end ConnectionMonitor

/-- `Start` and `Stop` one after another, beside the monitor threads. -/
def monitor : Machine ConnectionMonitor MonitorLabel where
  Init s := ∃ supportsClipV2, s = { supportsClipV2 }
  step := ConnectionMonitor.step

end HueStream.Monitor
