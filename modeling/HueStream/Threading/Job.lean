import Mathlib.Data.Nat.Basic
import Mathlib.Logic.Function.Basic

/-! # Jobs

A `Job` runs a main task and the tasks that its tasks start, each on a ticket of the job's executor; what
a completion handler posts is another ticket, which calls the callback. A function here is one critical
section of the state's mutex, or what a ticket does between two of them. -/

namespace HueStream.Threading

inductive JobState
  | readyToRun | running | dispatching | completed | canceling | canceled
deriving DecidableEq

/-- The ticket that executes a task. -/
inductive ExecutionTicket
  | notPosted | pending | running | over
deriving DecidableEq

/-- The ticket that a completion handler posts. -/
inductive DoneTicket
  | notPosted | pending
  /-- Before the callback. -/
  | begun
  /-- In the callback. -/
  | calling
  | over
deriving DecidableEq

/-- The ticket runs. -/
def DoneTicket.runs : DoneTicket → Bool
  | .begun | .calling => true
  | .notPosted | .pending | .over => false

/-- `TaskDetails`, with the tickets of the task. -/
structure TaskDetails where
  done : Bool := false
  executeFinished : Bool := false
  started : Bool := false
  execution : ExecutionTicket := .notPosted
  handlerCalled : Bool := false
  finish : DoneTicket := .notPosted
  callbacks : ℕ := 0

/-- `Job`: the tasks are numbered, the main task is 0. -/
structure Job where
  state : JobState := .readyToRun
  count : ℕ := 1
  task : ℕ → TaskDetails := fun _ => {}
  /-- The ticket that stops the tasks is in the queue. -/
  stopTicket : Bool := false
  /-- The ticket that wakes `wait` is in the queue. -/
  emptyTicket : Bool := false

namespace Job

variable (J : Job) (i : ℕ)

def setTask (d : TaskDetails) : Job := { J with task := Function.update J.task i d }

@[simp] theorem setTask_task_self (d : TaskDetails) : (J.setTask i d).task i = d := by simp [setTask]

@[simp] theorem setTask_state (d : TaskDetails) : (J.setTask i d).state = J.state := rfl

@[simp] theorem setTask_count (d : TaskDetails) : (J.setTask i d).count = J.count := rfl

@[simp] theorem setTask_stopTicket (d : TaskDetails) : (J.setTask i d).stopTicket = J.stopTicket := rfl

@[simp] theorem setTask_emptyTicket (d : TaskDetails) :
    (J.setTask i d).emptyTicket = J.emptyTicket := rfl

theorem setTask_task_of_ne {k : ℕ} (h : k ≠ i) (d : TaskDetails) :
    (J.setTask i d).task k = J.task k := by simp [setTask, h]

/-- `run` of the main task. -/
def run : Job :=
  if (J.state = .readyToRun ∨ J.state = .running) ∧ (J.task 0).started = false then
    { J.setTask 0 { J.task 0 with started := true, execution := .pending } with state := .running }
  else J

/-- `run` of a task that is new. -/
def runNested : Job :=
  if J.state = .readyToRun ∨ J.state = .running then
    { J.setTask J.count { started := true, execution := .pending } with
      count := J.count + 1, state := .running }
  else J

/-- The ticket of the task begins. -/
def execute : Job := J.setTask i { J.task i with execution := .running }

/-- `execute` of the task has returned: `set_task_execute_finished`. -/
def executeReturns : Job :=
  J.setTask i { J.task i with execution := .over, executeFinished := true }

/-- The ticket of the task is discarded. -/
def discard : Job := J.setTask i { J.task i with execution := .over }

/-- The completion handler: `repost_callback`. -/
def complete : Job :=
  if J.state = .running ∨ J.state = .dispatching then
    J.setTask i { J.task i with handlerCalled := true, finish := .pending }
  else J.setTask i { J.task i with handlerCalled := true }

/-- `notify_done` up to the callback. -/
def notifyDone : Job :=
  if i = 0 ∧ J.state ≠ .canceling then
    { J.setTask i { J.task i with finish := .begun } with state := .dispatching }
  else J.setTask i { J.task i with finish := .begun }

/-- The callback is called. -/
def callback : Job :=
  J.setTask i { J.task i with finish := .calling, callbacks := (J.task i).callbacks + 1 }

/-- The callback has returned: `set_task_done`. -/
def setTaskDone : Job :=
  if ∀ k < J.count, k ≠ i → (J.task k).done = true then
    { J.setTask i { J.task i with finish := .over, done := true } with state := .completed }
  else J.setTask i { J.task i with finish := .over, done := true }

/-- The tasks that are to be stopped. -/
def toStop : Bool := !(J.task i).done && (J.task i).executeFinished

def stopTasks : Job := { J with stopTicket := false }

def emptyTask : Job := { J with emptyTicket := false }

/-- The job can be cancelled, and is waited for. -/
def isActive : Bool :=
  J.state = .running || J.state = .canceling || J.state = .dispatching

/-- `cancel` up to the first `cancel_all`. -/
def requestCancel : Job :=
  if J.state = .canceling then J else { J with state := .canceling, stopTicket := true }

@[simp] theorem requestCancel_state : J.requestCancel.state = .canceling := by
  unfold requestCancel
  split_ifs with hcanceling
  · exact hcanceling
  · rfl

@[simp] theorem requestCancel_task : J.requestCancel.task = J.task := by
  unfold requestCancel
  split_ifs <;> rfl

@[simp] theorem requestCancel_count : J.requestCancel.count = J.count := by
  unfold requestCancel
  split_ifs <;> rfl

/-- `cancel` between the two `cancel_all`. -/
def confirmCancel : Job :=
  if J.state = .canceling then { J with state := .canceled, emptyTicket := true } else J

/-- A ticket of the executor waits in the queue. -/
def hasPending : Bool :=
  J.stopTicket || J.emptyTicket ||
    decide (∃ i < J.count, (J.task i).execution = .pending ∨ (J.task i).finish = .pending)

end Job

end HueStream.Threading
