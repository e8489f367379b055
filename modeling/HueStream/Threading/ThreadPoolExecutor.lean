import HueStream.Lib.Run

/-! # The executor of a thread pool

`ThreadPoolExecutor` hands operations to a thread pool, whose workers run each of them at some time, and waits
for them or cancels them. What a thread does under a mutex is one step. The invocable of an operation may make
calls itself and ends at some time, but not while it waits in one. The schedule of the executor, which only
executes operations later, is left out. -/

namespace HueStream.Threading

open HueStream.Lib

/-- `Operation::State`. -/
inductive OperationState
  | idle | running | canceled
deriving DecidableEq

/-- How far a worker has come with an operation. -/
inductive TaskState
  | queued
  /-- In the invocable. -/
  | running
  /-- The invocable has returned. -/
  | returned
  /-- The future is ready. The invocable has run, or the operation was canceled before. -/
  | ready (ran : Bool)
deriving DecidableEq

def TaskState.isReady : TaskState → Bool
  | .ready _ => true
  | _ => false

/-- The invocable has returned, or will never start. -/
def TaskState.isDone : TaskState → Bool
  | .returned | .ready _ => true
  | _ => false

/-- `ThreadPoolExecutor::Operation`. -/
structure PoolOperation where
  isCancelable : Bool
  state : OperationState := .idle
  task : TaskState := .queued
deriving DecidableEq

/-- `ShutdownPolicy`. -/
inductive ShutdownPolicy
  | cancelAll | waitAll | keepRunning
deriving DecidableEq

/-- The calls that may wait. -/
inductive CallKind
  | waitAll
  | cancelAll
  | shutdown (policy : ShutdownPolicy)
  /-- `Operation::cancel`. -/
  | cancel (operation : ℕ)
deriving DecidableEq

/-- The call waits for all operations. -/
def CallKind.waits : CallKind → Bool
  | .waitAll | .cancelAll | .shutdown .cancelAll | .shutdown .waitAll => true
  | .shutdown .keepRunning | .cancel _ => false

/-- The call cancels what it may cancel. -/
def CallKind.cancels : CallKind → Bool
  | .cancelAll | .shutdown .cancelAll => true
  | _ => false

/-- Where a call is. -/
inductive CallPoint
  /-- `shutdown` sets `_is_shutdown`. -/
  | close
  | increment
  | take
  /-- The loop over the operations that were taken. -/
  | each (operations : List ℕ)
  /-- It waits for one of them. -/
  | wait (operation : ℕ) (operations : List ℕ)
  | decrement
  /-- It waits for `_waiting_condition` to be zero. -/
  | zero
  /-- `Operation::cancel` sets the state, and waits. -/
  | mark (operation : ℕ)
  | single (operation : ℕ)
  | returned
deriving DecidableEq

/-- The operations the call has taken and not waited for. -/
def CallPoint.held : CallPoint → List ℕ
  | .each operations => operations
  | .wait operation operations => operation :: operations
  | _ => []

/-- Between the increment and the decrement. -/
def CallPoint.isActive : CallPoint → Bool
  | .take | .each _ | .wait _ _ | .decrement => true
  | _ => false

/-- A call, from an operation or from outside, with the number of operations accepted before. -/
structure PoolCall where
  caller : Option ℕ
  kind : CallKind
  accepted : ℕ
  point : CallPoint
deriving DecidableEq

def PoolCall.isPending (call : PoolCall) : Bool := call.point ≠ .returned

/-- The executor with all operations it has accepted, in their order, those in `_operations`, the counter
`_waiting_condition`, and the calls. -/
structure ThreadPoolExecutor where
  operations : List PoolOperation := []
  listed : List ℕ := []
  waiting : ℕ := 0
  isShutdown : Bool := false
  calls : List PoolCall := []
deriving DecidableEq

namespace ThreadPoolExecutor

variable (s : ThreadPoolExecutor)

/-- `execute`: after `shutdown` nothing happens. -/
def execute (isCancelable : Bool) : ThreadPoolExecutor :=
  if s.isShutdown then s
  else { s with
    operations := s.operations ++ [{ isCancelable }]
    listed := s.listed ++ [s.operations.length] }

/-- An operation is in a call. -/
def isBusy (operation : ℕ) : Bool := s.calls.any fun call => call.caller = some operation && call.isPending

/-- Where a call begins. -/
def entry : CallKind → CallPoint
  | .waitAll | .cancelAll => .increment
  | .shutdown _ => .close
  | .cancel operation => .mark operation

/-- A call that cancels an operation which is not cancelable throws instead. -/
def isPermitted : CallKind → Bool
  | .cancel operation => s.operations[operation]?.any (·.isCancelable)
  | _ => true

/-- A call begins. -/
def call (caller : Option ℕ) (kind : CallKind) : Option ThreadPoolExecutor :=
  if s.isPermitted kind && caller.all (fun o => s.operations[o]?.any (·.task = .running) && !s.isBusy o) then
    some { s with calls := s.calls ++ [⟨caller, kind, s.operations.length, entry kind⟩] }
  else none

/-- A worker takes the task of an operation. -/
def start (i : ℕ) : Option ThreadPoolExecutor :=
  match s.operations[i]? with
  | none => none
  | some op =>
    if op.task ≠ .queued then none
    else if op.state = .canceled then
      some { s with operations := s.operations.set i { op with task := .ready false } }
    else some { s with operations := s.operations.set i { op with state := .running, task := .running } }

/-- The invocable returns, and the operation leaves the list. -/
def leave (i : ℕ) : Option ThreadPoolExecutor :=
  match s.operations[i]? with
  | none => none
  | some op =>
    if op.task = .running ∧ s.isBusy i = false then
      some { s with
        operations := s.operations.set i { op with task := .returned }
        listed := s.listed.erase i }
    else none

/-- The future becomes ready. -/
def finish (i : ℕ) : Option ThreadPoolExecutor :=
  match s.operations[i]? with
  | none => none
  | some op =>
    if op.task = .returned then
      some { s with operations := s.operations.set i { op with task := .ready true } }
    else none

/-- `_state = State::Canceled`. -/
def setCanceled (i : ℕ) : ThreadPoolExecutor :=
  match s.operations[i]? with
  | none => s
  | some op => { s with operations := s.operations.set i { op with state := .canceled } }

def isReady (i : ℕ) : Bool := s.operations[i]?.any (·.task.isReady)

def isCancelable (i : ℕ) : Bool := s.operations[i]?.any (·.isCancelable)

/-- A call goes to another point. -/
def goTo (k : ℕ) (call : PoolCall) (point : CallPoint) : ThreadPoolExecutor :=
  { s with calls := s.calls.set k { call with point } }

@[simp] theorem goTo_operations (k : ℕ) (call : PoolCall) (point : CallPoint) :
    (s.goTo k call point).operations = s.operations := rfl

@[simp] theorem goTo_listed (k : ℕ) (call : PoolCall) (point : CallPoint) :
    (s.goTo k call point).listed = s.listed := rfl

@[simp] theorem goTo_waiting (k : ℕ) (call : PoolCall) (point : CallPoint) :
    (s.goTo k call point).waiting = s.waiting := rfl

@[simp] theorem goTo_calls (k : ℕ) (call : PoolCall) (point : CallPoint) :
    (s.goTo k call point).calls = s.calls.set k { call with point } := rfl

@[simp] theorem goTo_isShutdown (k : ℕ) (call : PoolCall) (point : CallPoint) :
    (s.goTo k call point).isShutdown = s.isShutdown := rfl

@[simp] theorem length_setCanceled (i : ℕ) : (s.setCanceled i).operations.length = s.operations.length := by
  unfold setCanceled
  split
  · rfl
  · exact List.length_set ..

@[simp] theorem setCanceled_isShutdown (i : ℕ) : (s.setCanceled i).isShutdown = s.isShutdown := by
  unfold setCanceled
  split <;> rfl

@[simp] theorem setCanceled_listed (i : ℕ) : (s.setCanceled i).listed = s.listed := by
  unfold setCanceled
  split <;> rfl

@[simp] theorem setCanceled_waiting (i : ℕ) : (s.setCanceled i).waiting = s.waiting := by
  unfold setCanceled
  split <;> rfl

@[simp] theorem setCanceled_calls (i : ℕ) : (s.setCanceled i).calls = s.calls := by
  unfold setCanceled
  split <;> rfl

/-- The next step of a call. -/
def advance (k : ℕ) : Option ThreadPoolExecutor :=
  match s.calls[k]? with
  | none => none
  | some call =>
    match call.point with
    | .close =>
      let s := { s with isShutdown := true }
      some (s.goTo k call (if call.kind.waits then .increment else .returned))
    | .increment => some ({ s with waiting := s.waiting + 1 }.goTo k call .take)
    | .take =>
      if s.listed = [] then some (s.goTo k call .decrement)
      else some ({ s with listed := [] }.goTo k call (.each s.listed))
    | .each [] => some (s.goTo k call .take)
    | .each (i :: operations) =>
      let s := if call.kind.cancels && s.isCancelable i then s.setCanceled i else s
      some (s.goTo k call (.wait i operations))
    | .wait i operations => if s.isReady i then some (s.goTo k call (.each operations)) else none
    | .decrement => some ({ s with waiting := s.waiting - 1 }.goTo k call .zero)
    | .zero => if s.waiting = 0 then some (s.goTo k call .returned) else none
    | .mark i => some ((s.setCanceled i).goTo k call (.single i))
    | .single i => if s.isReady i then some (s.goTo k call .returned) else none
    | .returned => none

end ThreadPoolExecutor

/-- The steps: of the callers, of the workers and of the calls. -/
inductive PoolLabel
  | execute (isCancelable : Bool)
  | call (caller : Option ℕ) (kind : CallKind)
  | start (i : ℕ)
  | leave (i : ℕ)
  | finish (i : ℕ)
  | advance (k : ℕ)
deriving DecidableEq

/-- Nobody asks for anything new. -/
def PoolLabel.isInternal : PoolLabel → Bool
  | .execute _ | .call _ _ => false
  | _ => true

/-- The executor with its callers and the workers of the pool. -/
def threadPool : Machine ThreadPoolExecutor PoolLabel where
  Init s := s = {}
  step s
    | .execute isCancelable => some (s.execute isCancelable)
    | .call caller kind => s.call caller kind
    | .start i => s.start i
    | .leave i => s.leave i
    | .finish i => s.finish i
    | .advance k => s.advance k


variable {s s' s₁ : ThreadPoolExecutor} {i k : ℕ} {call : PoolCall} {point : CallPoint}

/-! ### What a worker does -/

theorem start_cases (h : s.start i = some s') : ∃ op, s.operations[i]? = some op ∧ op.task = .queued ∧
    (op.state = .canceled ∧ s' = { s with operations := s.operations.set i { op with task := .ready false } } ∨
      s' = { s with operations := s.operations.set i { op with state := .running, task := .running } }) := by
  unfold ThreadPoolExecutor.start at h
  cases hop : s.operations[i]? with
  | none =>
    rw [hop] at h
    cases h
  | some op =>
    simp only [hop] at h
    split_ifs at h with hqueued hcanceled
    · exact ⟨op, rfl, not_not.mp hqueued, .inl ⟨hcanceled, (Option.some.inj h).symm⟩⟩
    · exact ⟨op, rfl, not_not.mp hqueued, .inr (Option.some.inj h).symm⟩

theorem leave_cases (h : s.leave i = some s') : ∃ op, s.operations[i]? = some op ∧ op.task = .running ∧
    s.isBusy i = false ∧ s' = { s with
      operations := s.operations.set i { op with task := .returned }
      listed := s.listed.erase i } := by
  unfold ThreadPoolExecutor.leave at h
  cases hop : s.operations[i]? with
  | none =>
    rw [hop] at h
    cases h
  | some op =>
    simp only [hop] at h
    split_ifs at h with hrunning
    exact ⟨op, rfl, hrunning.1, hrunning.2, (Option.some.inj h).symm⟩

theorem finish_cases (h : s.finish i = some s') : ∃ op, s.operations[i]? = some op ∧ op.task = .returned ∧
    s' = { s with operations := s.operations.set i { op with task := .ready true } } := by
  unfold ThreadPoolExecutor.finish at h
  cases hop : s.operations[i]? with
  | none =>
    rw [hop] at h
    cases h
  | some op =>
    simp only [hop] at h
    split_ifs at h with hreturned
    exact ⟨op, rfl, hreturned, (Option.some.inj h).symm⟩

/-! ### What a call does next -/

/-- The steps of a call: what it makes of the executor, and where it goes. -/
inductive Advances (s : ThreadPoolExecutor) (call : PoolCall) : ThreadPoolExecutor → CallPoint → Prop
  | close (h : call.point = .close) :
      Advances s call { s with isShutdown := true } (if call.kind.waits then .increment else .returned)
  | increment (h : call.point = .increment) : Advances s call { s with waiting := s.waiting + 1 } .take
  | drained (h : call.point = .take) (hnil : s.listed = []) : Advances s call s .decrement
  | taken (h : call.point = .take) (hne : s.listed ≠ []) :
      Advances s call { s with listed := [] } (.each s.listed)
  | again (h : call.point = .each []) : Advances s call s .take
  | next {i : ℕ} {operations : List ℕ} (h : call.point = .each (i :: operations)) :
      Advances s call (if call.kind.cancels && s.isCancelable i then s.setCanceled i else s) (.wait i operations)
  | waited {i : ℕ} {operations : List ℕ} (h : call.point = .wait i operations) (hready : s.isReady i = true) :
      Advances s call s (.each operations)
  | decrement (h : call.point = .decrement) : Advances s call { s with waiting := s.waiting - 1 } .zero
  | zero (h : call.point = .zero) (hzero : s.waiting = 0) : Advances s call s .returned
  | mark {i : ℕ} (h : call.point = .mark i) : Advances s call (s.setCanceled i) (.single i)
  | single {i : ℕ} (h : call.point = .single i) (hready : s.isReady i = true) : Advances s call s .returned

theorem advance_cases (h : s.advance k = some s') : ∃ (call : PoolCall) (s₁ : ThreadPoolExecutor) (point : CallPoint),
    s.calls[k]? = some call ∧ Advances s call s₁ point ∧ s' = s₁.goTo k call point := by
  unfold ThreadPoolExecutor.advance at h
  cases hk : s.calls[k]? with
  | none =>
    rw [hk] at h
    cases h
  | some call =>
    simp only [hk] at h
    cases hpoint : call.point with
    | close =>
      simp only [hpoint, Option.some.injEq] at h
      exact ⟨call, _, _, rfl, .close hpoint, h.symm⟩
    | increment =>
      simp only [hpoint, Option.some.injEq] at h
      exact ⟨call, _, _, rfl, .increment hpoint, h.symm⟩
    | take =>
      simp only [hpoint] at h
      split_ifs at h with hnil
      · exact ⟨call, _, _, rfl, .drained hpoint hnil, (Option.some.inj h).symm⟩
      · exact ⟨call, _, _, rfl, .taken hpoint hnil, (Option.some.inj h).symm⟩
    | each operations =>
      cases operations with
      | nil =>
        simp only [hpoint, Option.some.injEq] at h
        exact ⟨call, _, _, rfl, .again hpoint, h.symm⟩
      | cons i operations =>
        simp only [hpoint, Option.some.injEq] at h
        exact ⟨call, _, _, rfl, .next hpoint, h.symm⟩
    | wait i operations =>
      simp only [hpoint] at h
      split_ifs at h with hready
      exact ⟨call, _, _, rfl, .waited hpoint hready, (Option.some.inj h).symm⟩
    | decrement =>
      simp only [hpoint, Option.some.injEq] at h
      exact ⟨call, _, _, rfl, .decrement hpoint, h.symm⟩
    | zero =>
      simp only [hpoint] at h
      split_ifs at h with hzero
      exact ⟨call, _, _, rfl, .zero hpoint hzero, (Option.some.inj h).symm⟩
    | mark i =>
      simp only [hpoint, Option.some.injEq] at h
      exact ⟨call, _, _, rfl, .mark hpoint, h.symm⟩
    | single i =>
      simp only [hpoint] at h
      split_ifs at h with hready
      exact ⟨call, _, _, rfl, .single hpoint hready, (Option.some.inj h).symm⟩
    | returned =>
      simp only [hpoint] at h
      cases h

theorem Advances.advance (h : Advances s call s₁ point) (hk : s.calls[k]? = some call) :
    s.advance k = some (s₁.goTo k call point) := by
  cases h <;> simp [ThreadPoolExecutor.advance, *]

theorem Advances.isPending (h : Advances s call s₁ point) : call.isPending = true := by
  cases h <;> simp [PoolCall.isPending, *]

theorem Advances.calls (h : Advances s call s₁ point) : s₁.calls = s.calls := by
  cases h with
  | next h =>
    split_ifs
    · exact ThreadPoolExecutor.setCanceled_calls s _
    · rfl
  | mark h => exact ThreadPoolExecutor.setCanceled_calls s _
  | _ => rfl

theorem Advances.length (h : Advances s call s₁ point) : s₁.operations.length = s.operations.length := by
  cases h with
  | next h =>
    split_ifs
    · exact ThreadPoolExecutor.length_setCanceled s _
    · rfl
  | mark h => exact ThreadPoolExecutor.length_setCanceled s _
  | _ => rfl

end HueStream.Threading
