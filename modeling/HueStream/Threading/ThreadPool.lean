import HueStream.Lib.Run
import Mathlib.Data.List.Perm.Basic

/-! # The thread pool

The workers of a `ThreadPool` take tasks from one queue. They hold `_tasks_mutex` from the condition of the
loop to `wait_for`, and from there until a task is taken, so each of these is one step, and so are `add_task`
and the beginning of `shutdown`. A worker may leave `wait_for` at any time, at the tick interval at the latest.

* `accounted`: every accepted task is at one place, and the workers take the tasks in their order;
* `nothing_after_shutdown`: what has become of the tasks when `shutdown` has returned;
* `taken_after_close`: a pool that does not finish its tasks takes at most one more for each worker;
* `workers_end`: after the closing the workers make a bounded number of steps, until all of them are over. -/

namespace HueStream.Threading

open HueStream.Lib

/-- Where a worker is in `event_loop`. -/
inductive WorkerPoint
  /-- It looks at the condition of the loop. -/
  | check
  /-- It is in `wait_for`. -/
  | wait
  /-- It has taken a task and released the mutex. -/
  | call (task : ℕ)
  /-- It is in the task. -/
  | run (task : ℕ)
  | processTick
  | finished
deriving DecidableEq

namespace WorkerPoint

def called : WorkerPoint → Option ℕ
  | .call task => some task
  | _ => none

def running : WorkerPoint → Option ℕ
  | .run task => some task
  | _ => none

def isWaiting (p : WorkerPoint) : Bool := p = .wait

/-- How many steps a worker can make after the closing without another task. -/
def steps : WorkerPoint → ℕ
  | .finished => 0
  | .check => 1
  | .processTick => 2
  | .run _ | .wait => 3
  | .call _ => 4

end WorkerPoint

/-- `ThreadPool`; the tasks are numbered in the order in which they were accepted. A call of `shutdown` is
made by a task of a worker, or by another thread, and joins the workers one after another. -/
structure ThreadPool where
  shouldFinishTasksOnClose : Bool
  workers : List WorkerPoint
  tasks : List ℕ := []
  close : Bool := false
  /-- Who has called `shutdown`, and the worker it joins next. -/
  closing : Option (Option ℕ × ℕ) := none
  accepted : ℕ := 0
  taken : List ℕ := []
  started : List ℕ := []
  ended : List ℕ := []

/-- What can happen: a task is added, a worker goes on, the task of a worker returns or throws, `shutdown` is
called, or it goes on. -/
inductive ThreadPoolLabel
  | addTask
  | go (worker : ℕ)
  | finish (worker : ℕ)
  | shutdown (caller : Option ℕ)
  | join
deriving DecidableEq

/-- A step of a worker. -/
def ThreadPoolLabel.isWork : ThreadPoolLabel → Bool
  | .go _ | .finish _ => true
  | _ => false

namespace ThreadPool

variable (s : ThreadPool)

def setWorker (i : ℕ) (p : WorkerPoint) : ThreadPool := { s with workers := s.workers.set i p }

/-- The tasks that were taken and are not called yet. -/
def called : List ℕ := s.workers.filterMap WorkerPoint.called

def running : List ℕ := s.workers.filterMap WorkerPoint.running

def addTask : ThreadPool :=
  if s.close then s else { s with tasks := s.tasks ++ [s.accepted], accepted := s.accepted + 1 }

/-- The worker leaves `wait_for`, with the next task if there is one. -/
def take (i : ℕ) : ThreadPool :=
  match s.tasks with
  | [] => s.setWorker i .processTick
  | task :: tasks => { s with tasks, taken := s.taken ++ [task] }.setWorker i (.call task)

/-- The condition of the loop. -/
def goesOn : Bool := !s.close || (!s.tasks.isEmpty && s.shouldFinishTasksOnClose)

/-- A step of `event_loop`. -/
def go (i : ℕ) : Option ThreadPool :=
  match s.workers[i]? with
  | some .check =>
    if s.goesOn then some (if !s.tasks.isEmpty || s.close then s.take i else s.setWorker i .wait)
    else some (s.setWorker i .finished)
  | some .wait => some (s.take i)
  | some (.call task) => some ({ s with started := s.started ++ [task] }.setWorker i (.run task))
  | some .processTick => some (s.setWorker i .check)
  | some (.run _) | some .finished | none => none

/-- The task is over; not while it is in `shutdown`. -/
def finish (i : ℕ) : Option ThreadPool :=
  match s.workers[i]? with
  | some (.run task) =>
    if s.closing.any (fun c => c.1 = some i) then none
    else some ({ s with ended := s.ended ++ [task] }.setWorker i .processTick)
  | _ => none

/-- One thread at a time may be in `shutdown`, which writes `_threads` without a mutex. -/
def shutdown (caller : Option ℕ) : Option ThreadPool :=
  if s.closing.isNone && caller.all (fun i => (s.workers[i]?.bind WorkerPoint.running).isSome) then
    some { s with close := true, closing := some (caller, 0) }
  else none

/-- The call joins the next worker, or returns. To join itself throws, which ends the call of a worker. -/
def join : Option ThreadPool :=
  s.closing.bind fun c =>
    match s.workers[c.2]? with
    | none => some { s with closing := none }
    | some p =>
      if p = .finished then some { s with closing := some (c.1, c.2 + 1) }
      else if c.1 = some c.2 then some { s with closing := none }
      else none

def step : ThreadPoolLabel → Option ThreadPool
  | .addTask => some s.addTask
  | .go i => s.go i
  | .finish i => s.finish i
  | .shutdown caller => s.shutdown caller
  | .join => s.join

end ThreadPool

/-- A pool with a number of workers. -/
def workerPool (workers : ℕ) (finishTasksOnClose : Bool) : Machine ThreadPool ThreadPoolLabel where
  Init s := s = { shouldFinishTasksOnClose := finishTasksOnClose, workers := .replicate workers .check }
  step := ThreadPool.step

/-! ### What a step can do -/

section Steps

variable {s s' : ThreadPool} {l : ThreadPoolLabel}

/-- A worker goes from one point to another, and what happens to the tasks on the way. -/
inductive WorkerStep (s : ThreadPool) : WorkerPoint → WorkerPoint → ThreadPool → Prop
  | finished (hclose : s.close = true) (htasks : s.shouldFinishTasksOnClose = true → s.tasks = []) :
      WorkerStep s .check .finished s
  | wait (hclose : s.close = false) : WorkerStep s .check .wait s
  | idle (hpoint : s.tasks = []) : WorkerStep s .wait .processTick s
  | take {task : ℕ} {tasks : List ℕ} {p : WorkerPoint} (htasks : s.tasks = task :: tasks)
      (hpoint : p = .wait ∨ p = .check ∧ s.goesOn = true) :
      WorkerStep s p (.call task) { s with tasks, taken := s.taken ++ [task] }
  | call {task : ℕ} : WorkerStep s (.call task) (.run task) { s with started := s.started ++ [task] }
  | finish {task : ℕ} : WorkerStep s (.run task) .processTick { s with ended := s.ended ++ [task] }
  | processTick : WorkerStep s .processTick .check s

/-- What a step can do. -/
inductive PoolStep (s : ThreadPool) : ThreadPoolLabel → ThreadPool → Prop
  | refuse (hclose : s.close = true) : PoolStep s .addTask s
  | accept (hclose : s.close = false) : PoolStep s .addTask
      { s with tasks := s.tasks ++ [s.accepted], accepted := s.accepted + 1 }
  | work {l : ThreadPoolLabel} {i : ℕ} {p p' : WorkerPoint} {s₁ : ThreadPool} (hl : l.isWork = true)
      (hworker : s.workers[i]? = some p) (h : WorkerStep s p p' s₁) : PoolStep s l (s₁.setWorker i p')
  | shutdown {caller : Option ℕ} (hclosing : s.closing = none) :
      PoolStep s (.shutdown caller) { s with close := true, closing := some (caller, 0) }
  | next {caller : Option ℕ} {i : ℕ} (hclosing : s.closing = some (caller, i))
      (hover : s.workers[i]? = some .finished) : PoolStep s .join { s with closing := some (caller, i + 1) }
  | throw {i : ℕ} (hclosing : s.closing = some (some i, i)) (hlt : i < s.workers.length) :
      PoolStep s .join { s with closing := none }
  | returned {caller : Option ℕ} {i : ℕ} (hclosing : s.closing = some (caller, i))
      (hlength : s.workers.length ≤ i) : PoolStep s .join { s with closing := none }

theorem take_work {i : ℕ} {p : WorkerPoint} (hl : l.isWork = true) (hworker : s.workers[i]? = some p)
    (hpoint : p = .wait ∨ p = .check ∧ s.goesOn = true ∧ s.tasks ≠ []) : PoolStep s l (s.take i) := by
  unfold ThreadPool.take
  split
  · rename_i htasks
    obtain rfl := hpoint.resolve_right fun h => h.2.2 htasks
    exact .work hl hworker (.idle htasks)
  · rename_i htasks
    exact .work hl hworker (.take htasks (hpoint.imp_right fun h => ⟨h.1, h.2.1⟩))

theorem worker_cases {i : ℕ} (h : s.go i = some s') : PoolStep s (.go i) s' := by
  unfold ThreadPool.go at h
  split at h
  · rename_i hworker
    split_ifs at h with hgoes htake
    · cases h
      refine take_work rfl hworker (.inr ⟨rfl, hgoes, fun htasks => ?_⟩)
      simp [ThreadPool.goesOn, htasks] at hgoes htake
      rw [hgoes] at htake
      cases htake
    · cases h
      have hclose : s.close = false := by simp at htake; exact htake.2
      exact .work rfl hworker (.wait hclose)
    · cases h
      have hends : s.close = true ∧ (s.shouldFinishTasksOnClose = true → s.tasks = []) := by
        simp [ThreadPool.goesOn] at hgoes
        refine ⟨hgoes.1, fun hfinish => ?_⟩
        by_contra htasks
        rw [hgoes.2 htasks] at hfinish
        cases hfinish
      exact .work rfl hworker (.finished hends.1 hends.2)
  · rename_i hworker
    cases h
    exact take_work rfl hworker (.inl rfl)
  · rename_i hworker
    cases h
    exact .work rfl hworker .call
  · rename_i hworker
    cases h
    exact .work rfl hworker .processTick
  all_goals cases h

theorem join_cases (h : s.join = some s') : PoolStep s .join s' := by
  obtain ⟨⟨caller, i⟩, hclosing, h⟩ := Option.bind_eq_some_iff.mp h
  dsimp only at h
  split at h
  · rename_i hworker
    cases h
    exact .returned hclosing (by simpa using hworker)
  · rename_i p hworker
    split_ifs at h with hover hcaller
    · cases h
      exact .next hclosing (hover ▸ hworker)
    · cases h
      have hlt : i < s.workers.length := by
        obtain ⟨hlt, -⟩ := List.getElem?_eq_some_iff.mp hworker
        exact hlt
      exact .throw (hcaller ▸ hclosing) hlt

theorem pool_cases (h : s.step l = some s') : PoolStep s l s' := by
  cases l with
  | addTask =>
    cases h
    unfold ThreadPool.addTask
    split_ifs with hclose
    · exact .refuse hclose
    · exact .accept (by simpa using hclose)
  | go i => exact worker_cases h
  | finish i =>
    simp only [ThreadPool.step, ThreadPool.finish] at h
    split at h
    · rename_i hworker
      split_ifs at h
      cases h
      exact .work rfl hworker .finish
    · cases h
  | shutdown caller =>
    simp only [ThreadPool.step, ThreadPool.shutdown] at h
    split_ifs at h with hallowed
    cases h
    simp only [Bool.and_eq_true, Option.isNone_iff_eq_none] at hallowed
    exact .shutdown hallowed.1
  | join => exact join_cases h

end Steps

/-! ### Where the tasks are -/

/-- Every accepted task is waiting, or it was taken by one worker and is called, run or over. -/
structure Accounted (s : ThreadPool) : Prop where
  order : s.taken ++ s.tasks = List.range s.accepted
  taken : s.taken.Perm (s.called ++ s.started)
  started : s.started.Perm (s.running ++ s.ended)

section Tasks

variable {s s' s₁ : ThreadPool} {l : ThreadPoolLabel} {i : ℕ} {p p' : WorkerPoint} {n : ℕ} {b : Bool}
  {ts us vs : List (Transition ThreadPool ThreadPoolLabel)} {t : Transition ThreadPool ThreadPoolLabel}

theorem called_setWorker (h : s.workers[i]? = some p) (p' : WorkerPoint) (task : ℕ) :
    p.called.toList.count task + (s.setWorker i p').called.count task =
      p'.called.toList.count task + s.called.count task := by
  have hperm := perm_filterMap_set WorkerPoint.called h p'
  have hcount := hperm.count_eq task
  rwa [List.count_append, List.count_append] at hcount

theorem running_setWorker (h : s.workers[i]? = some p) (p' : WorkerPoint) (task : ℕ) :
    p.running.toList.count task + (s.setWorker i p').running.count task =
      p'.running.toList.count task + s.running.count task := by
  have hperm := perm_filterMap_set WorkerPoint.running h p'
  have hcount := hperm.count_eq task
  rwa [List.count_append, List.count_append] at hcount

theorem WorkerStep.workers (h : WorkerStep s p p' s₁) : s₁.workers = s.workers := by
  cases h <;> rfl

theorem Accounted.of_work (h : Accounted s) (hworker : s.workers[i]? = some p)
    (hw : WorkerStep s p p' s₁) : Accounted (s₁.setWorker i p') := by
  have horder : s₁.taken ++ s₁.tasks = List.range s₁.accepted := by
    have horder := h.order
    cases hw with
    | take htasks =>
      rw [htasks] at horder
      simpa using horder
    | _ => exact horder
  have hworker₁ : s₁.workers[i]? = some p := hw.workers ▸ hworker
  refine ⟨horder, List.perm_iff_count.mpr fun task => ?_, List.perm_iff_count.mpr fun task => ?_⟩
  · have hcalled := called_setWorker hworker₁ p' task
    have htaken := List.perm_iff_count.mp h.taken task
    rw [List.count_append] at htaken ⊢
    have hsame : s₁.called = s.called := congrArg (List.filterMap _) hw.workers
    rw [hsame] at hcalled
    cases hw with
    | take _ hpoint =>
      have hp : p.called = none := by rcases hpoint with rfl | ⟨rfl, -⟩ <;> rfl
      rw [hp] at hcalled
      simp only [WorkerPoint.called, Option.toList_none, Option.toList_some, List.count_nil] at hcalled
      simp only [ThreadPool.setWorker, List.count_append] at hcalled htaken ⊢
      omega
    | _ =>
      simp only [WorkerPoint.called, Option.toList_none, Option.toList_some, List.count_nil] at hcalled
      simp only [ThreadPool.setWorker, List.count_append] at hcalled htaken ⊢
      omega
  · have hrunning := running_setWorker hworker₁ p' task
    have hstarted := List.perm_iff_count.mp h.started task
    rw [List.count_append] at hstarted ⊢
    have hsame : s₁.running = s.running := congrArg (List.filterMap _) hw.workers
    rw [hsame] at hrunning
    cases hw with
    | take _ hpoint =>
      have hp : p.running = none := by rcases hpoint with rfl | ⟨rfl, -⟩ <;> rfl
      rw [hp] at hrunning
      simp only [WorkerPoint.running, Option.toList_none, List.count_nil] at hrunning
      simp only [ThreadPool.setWorker] at hrunning hstarted ⊢
      omega
    | _ =>
      simp only [WorkerPoint.running, Option.toList_none, Option.toList_some, List.count_nil] at hrunning
      simp only [ThreadPool.setWorker, List.count_append] at hrunning hstarted ⊢
      omega

theorem Accounted.of_step (h : Accounted s) (hs : PoolStep s l s') : Accounted s' := by
  cases hs with
  | refuse => exact h
  | accept =>
    have horder : s.taken ++ (s.tasks ++ [s.accepted]) = List.range (s.accepted + 1) := by
      rw [List.range_succ, ← h.order, List.append_assoc]
    exact ⟨horder, h.taken, h.started⟩
  | work _ hworker hw => exact h.of_work hworker hw
  | shutdown | next | throw | returned => exact ⟨h.order, h.taken, h.started⟩

theorem Accounted.of_run (h : (workerPool n b).Reachable s) : Accounted s := by
  refine h.invariant ?_ fun s l s' hstep hs => hs.of_step (pool_cases hstep)
  rintro _ rfl
  refine ⟨rfl, ?_, ?_⟩
  · simp [ThreadPool.called, WorkerPoint.called]
  · simp [ThreadPool.running, WorkerPoint.running]

/-- **Every task at one place.** At all times the tasks have been taken in the order in which they were
accepted; each accepted task is either in the queue, or taken by one worker, or in its function, or over, and
no task has started twice. -/
theorem accounted (h : (workerPool n b).Reachable s) : s.taken ++ s.tasks = List.range s.accepted ∧
    (s.called ++ s.running ++ s.ended ++ s.tasks).Perm (List.range s.accepted) ∧
      s.started.Perm (s.running ++ s.ended) ∧ s.started.Nodup := by
  have hs := Accounted.of_run h
  have hall : (s.called ++ s.running ++ s.ended ++ s.tasks).Perm (List.range s.accepted) := by
    rw [← hs.order, List.append_assoc s.called]
    refine List.Perm.append_right _ (.symm (hs.taken.trans ?_))
    exact hs.started.append_left _
  refine ⟨hs.order, hall, hs.started, hs.started.nodup_iff.mpr ?_⟩
  have hnodup := hall.nodup_iff.mpr List.nodup_range
  rw [List.append_assoc s.called] at hnodup
  exact hnodup.of_append_left.of_append_right

/-- One worker has taken a task. -/
theorem accounted_example : ∃ ts s, (workerPool 1 false).Run ts s ∧ s.tasks = [1] ∧
    s.taken ++ s.tasks = List.range s.accepted ∧
      (s.called ++ s.running ++ s.ended ++ s.tasks).Perm (List.range s.accepted) ∧
        s.started.Perm (s.running ++ s.ended) ∧ s.started.Nodup := by
  obtain ⟨ts, s, hrun, h⟩ := Machine.exists_run (M := workerPool 1 false)
    (s := { shouldFinishTasksOnClose := false, workers := [.check] })
    [.addTask, .addTask, .go 0, .go 0] (fun _ s => decide (s.tasks = [1])) rfl (by decide)
  exact ⟨ts, s, hrun, of_decide_eq_true h, accounted ⟨ts, hrun⟩⟩

/-! ### After the closing -/

/-- What is over stays so, and `shutdown` has joined what it has passed. -/
structure Ending (s : ThreadPool) : Prop where
  finished : .finished ∈ s.workers → s.close = true ∧ (s.shouldFinishTasksOnClose = true → s.tasks = [])
  closing : ∀ c, s.closing = some c → s.close = true ∧ ∀ j < c.2, s.workers[j]? = some .finished

theorem WorkerStep.not_finished (h : WorkerStep s p p' s₁) : p ≠ .finished := by
  rintro rfl
  cases h with
  | take _ hpoint => rcases hpoint with h | ⟨h, -⟩ <;> cases h

theorem WorkerStep.frame (h : WorkerStep s p p' s₁) : s₁.close = s.close ∧ s₁.closing = s.closing ∧
    s₁.shouldFinishTasksOnClose = s.shouldFinishTasksOnClose ∧ s₁.accepted = s.accepted ∧
      (s.tasks = [] → s₁.tasks = []) := by
  cases h with
  | take htasks => exact ⟨rfl, rfl, rfl, rfl, fun h => by rw [h] at htasks; cases htasks⟩
  | _ => exact ⟨rfl, rfl, rfl, rfl, fun h => h⟩

theorem Ending.of_work (h : Ending s) (hworker : s.workers[i]? = some p)
    (hw : WorkerStep s p p' s₁) : Ending (s₁.setWorker i p') := by
  obtain ⟨hclose, hclosing, hfinish, -, htasks⟩ := hw.frame
  have hold (hover : .finished ∈ s.workers) : s₁.close = true ∧
      (s₁.shouldFinishTasksOnClose = true → s₁.tasks = []) := by
    obtain ⟨hs, hempty⟩ := h.finished hover
    exact ⟨hclose ▸ hs, fun hf => htasks (hempty (hfinish ▸ hf))⟩
  refine ⟨fun hover => ?_, fun c hc => ?_⟩
  · have hmem : WorkerPoint.finished ∈ s₁.workers.set i p' := hover
    rw [hw.workers] at hmem
    rcases List.mem_or_eq_of_mem_set hmem with hmem | rfl
    · exact hold hmem
    · cases hw with
      | finished hs hempty => exact ⟨hs, hempty⟩
  · obtain ⟨hs, hjoined⟩ := h.closing c (hclosing ▸ hc)
    refine ⟨hclose.trans hs, fun j hj => ?_⟩
    have hover := hjoined j hj
    have hne : i ≠ j := by
      rintro rfl
      rw [hworker] at hover
      exact hw.not_finished (Option.some.inj hover)
    have hset : (s₁.workers.set i p')[j]? = s₁.workers[j]? := List.getElem?_set_ne hne
    exact hset.trans (hw.workers ▸ hover)

theorem Ending.of_step (h : Ending s) (hs : PoolStep s l s') : Ending s' := by
  cases hs with
  | refuse => exact h
  | accept hopen =>
    refine ⟨fun hover => ?_, h.closing⟩
    rw [(h.finished hover).1] at hopen
    cases hopen
  | work _ hworker hw => exact h.of_work hworker hw
  | shutdown =>
    refine ⟨fun hover => ⟨rfl, (h.finished hover).2⟩, fun c hc => ?_⟩
    cases hc
    exact ⟨rfl, fun j hj => absurd hj (Nat.not_lt_zero j)⟩
  | @next caller k hclosing hover =>
    obtain ⟨hclose, hjoined⟩ := h.closing _ hclosing
    refine ⟨h.finished, fun c hc => ?_⟩
    cases hc
    refine ⟨hclose, fun j hj => ?_⟩
    rcases Nat.lt_succ_iff_lt_or_eq.mp hj with hj | rfl
    · exact hjoined j hj
    · exact hover
  | throw | returned => exact ⟨h.finished, fun c hc => by cases hc⟩

theorem Ending.of_run (h : (workerPool n b).Reachable s) : Ending s := by
  refine h.invariant ?_ fun s l s' hstep hs => hs.of_step (pool_cases hstep)
  rintro _ rfl
  refine ⟨fun hover => ?_, fun c hc => by cases hc⟩
  obtain ⟨-, heq⟩ := List.mem_replicate.mp hover
  cases heq

/-- What a pool is made with stays. -/
theorem constant_of_run (h : (workerPool n b).Reachable s) :
    s.workers.length = n ∧ s.shouldFinishTasksOnClose = b := by
  refine h.invariant (I := fun s => s.workers.length = n ∧ s.shouldFinishTasksOnClose = b) ?_ ?_
  · rintro _ rfl
    simp
  · intro s l s' hstep hs
    cases pool_cases hstep with
    | work _ _ hw =>
      refine ⟨?_, hw.frame.2.2.1.trans hs.2⟩
      rw [ThreadPool.setWorker, List.length_set, hw.workers]
      exact hs.1
    | _ => exact hs

/-- All workers are over, for good. -/
structure Down (s : ThreadPool) : Prop where
  close : s.close = true
  workers : ∀ p ∈ s.workers, p = .finished

theorem Down.of_step (h : Down s) (hs : PoolStep s l s') :
    Down s' ∧ s'.accepted = s.accepted ∧ s'.started = s.started := by
  cases hs with
  | accept hopen =>
    rw [h.close] at hopen
    cases hopen
  | work _ hworker hw => exact absurd (h.workers _ (List.mem_of_getElem? hworker)) hw.not_finished
  | refuse => exact ⟨h, rfl, rfl⟩
  | shutdown => exact ⟨⟨rfl, h.workers⟩, rfl, rfl⟩
  | next | throw | returned => exact ⟨⟨h.close, h.workers⟩, rfl, rfl⟩

/-- The call of `shutdown` has joined all workers, and returns. -/
def ThreadPool.Returns (t : Transition ThreadPool ThreadPoolLabel) : Prop :=
  t.label = .join ∧ ∃ caller, t.before.closing = some (caller, t.before.workers.length)

theorem down_of_returns (h : (workerPool n b).Run ts s) (hts : ts = us ++ t :: vs)
    (hreturns : ThreadPool.Returns t) : Down t.after ∧ Ending t.after ∧ Accounted t.after := by
  obtain ⟨hrun, hstep⟩ := h.of_split hts
  obtain ⟨-, caller, hclosing⟩ := hreturns
  have hclosed := Ending.of_run ⟨us, hrun⟩
  have hstep' := pool_cases hstep
  obtain ⟨hclose, hjoined⟩ := hclosed.closing _ hclosing
  have hdown : Down t.before := by
    refine ⟨hclose, fun p hp => ?_⟩
    obtain ⟨j, hj, rfl⟩ := List.getElem_of_mem hp
    have hover := hjoined j hj
    rw [List.getElem?_eq_getElem hj] at hover
    exact Option.some.inj hover
  exact ⟨(hdown.of_step hstep').1, hclosed.of_step hstep',
    (Accounted.of_run ⟨us, hrun⟩).of_step hstep'⟩

/-- Two tasks are added, and the pool is closed while one of its two workers waits and the other one is in the
first task: the second one is taken by the worker that waits. -/
def closedInTask : List ThreadPoolLabel :=
  [.go 0, .go 1, .addTask, .go 0, .go 0, .addTask, .shutdown none, .go 1, .addTask, .go 1, .finish 1, .go 1,
    .go 1, .finish 0, .go 0, .go 0, .join, .join, .join, .addTask]

/-- **After `shutdown` has returned.** No task that a worker had taken is left undone; where the pool
finishes its tasks and has a worker, every accepted task is over. And whatever happens then, no task is
accepted and none starts. -/
theorem nothing_after_shutdown (h : (workerPool n b).Run ts s) (hts : ts = us ++ t :: vs)
    (hreturns : ThreadPool.Returns t) : t.after.taken.Perm t.after.ended ∧
      (b = true → 0 < n → t.after.ended.Perm (List.range t.after.accepted)) ∧
        ∀ v ∈ vs, v.after.accepted = v.before.accepted ∧ v.after.started = v.before.started := by
  obtain ⟨hdown, hclosed, haccounted⟩ := down_of_returns h hts hreturns
  have hcalled : t.after.called = [] := by
    refine List.filterMap_eq_nil_iff.mpr fun p hp => ?_
    rw [hdown.workers p hp]
    rfl
  have hrunning : t.after.running = [] := by
    refine List.filterMap_eq_nil_iff.mpr fun p hp => ?_
    rw [hdown.workers p hp]
    rfl
  have hended : t.after.taken.Perm t.after.ended := by
    have htaken := haccounted.taken
    have hstarted := haccounted.started
    rw [hcalled, List.nil_append] at htaken
    rw [hrunning, List.nil_append] at hstarted
    exact htaken.trans hstarted
  refine ⟨hended, fun hb hn => ?_, fun v hv => ?_⟩
  · obtain ⟨hrun, hstep⟩ := h.of_split hts
    obtain ⟨hlength, hfinish⟩ := constant_of_run ⟨us ++ [t], hrun.step hstep⟩
    have hover : .finished ∈ t.after.workers := by
      obtain ⟨p, hp⟩ := List.exists_mem_of_length_pos (hlength.symm ▸ hn)
      exact hdown.workers p hp ▸ hp
    have htasks := (hclosed.finished hover).2 (hfinish.trans hb)
    have horder := haccounted.order
    rw [htasks, List.append_nil] at horder
    exact horder ▸ hended.symm
  · have hbefore := h.before_of_mem_rest hts hdown
      (fun s l s' hstep hs => (hs.of_step (pool_cases hstep)).1) hv
    exact (hbefore.of_step (pool_cases (h.step_of_mem (by simp [hts, hv])))).2

theorem nothing_after_shutdown_example : ∃ ts s us t vs, (workerPool 2 true).Run ts s ∧ s.ended = [1, 0] ∧
    ts = us ++ t :: vs ∧ t.after.taken.Perm t.after.ended ∧
      t.after.ended.Perm (List.range t.after.accepted) ∧
        ∀ v ∈ vs, v.after.accepted = v.before.accepted ∧ v.after.started = v.before.started := by
  obtain ⟨ts, s, hrun, h⟩ := Machine.exists_run (M := workerPool 2 true)
    (s := { shouldFinishTasksOnClose := true, workers := [.check, .check] }) closedInTask
    (fun ts s => decide (s.ended = [1, 0]) && ts[18]?.any fun t : Transition ThreadPool ThreadPoolLabel =>
      decide (t.label = .join ∧ t.before.closing = some (none, t.before.workers.length))) rfl (by decide)
  obtain ⟨hended, h⟩ := Bool.and_eq_true_iff.mp h
  obtain ⟨t, hts, h⟩ := split_of_any h
  obtain ⟨hlabel, hclosing⟩ := of_decide_eq_true h
  obtain ⟨htaken, hall, hrest⟩ := nothing_after_shutdown hrun hts ⟨hlabel, none, hclosing⟩
  exact ⟨ts, s, _, t, _, hrun, of_decide_eq_true hended, hts, htaken, hall rfl (by decide), hrest⟩

/-- How many steps the workers can still make after the closing. -/
def ThreadPool.stepsLeft (s : ThreadPool) : ℕ := 4 * s.tasks.length + (s.workers.map WorkerPoint.steps).sum

theorem stepsLeft_of_step (hclose : s.close = true) (hs : PoolStep s l s') :
    s'.close = true ∧ s'.stepsLeft + (if l.isWork then 1 else 0) ≤ s.stepsLeft := by
  cases hs with
  | accept hopen =>
    rw [hclose] at hopen
    cases hopen
  | @work _ i p p' s₁ hl hworker hw =>
    refine ⟨hw.frame.1.trans hclose, ?_⟩
    have hsum := sum_map_set_add WorkerPoint.steps hworker p'
    rw [if_pos hl]
    simp only [ThreadPool.stepsLeft, ThreadPool.setWorker, hw.workers]
    cases hw with
    | wait hopen =>
      rw [hclose] at hopen
      cases hopen
    | @take task _ _ htasks hpoint =>
      rw [htasks, List.length_cons]
      have hle : 1 ≤ p.steps := by rcases hpoint with rfl | ⟨rfl, -⟩ <;> decide
      dsimp only
      have hcall : (WorkerPoint.call task).steps = 4 := rfl
      rw [hcall] at hsum
      omega
    | call | finish =>
      simp only [WorkerPoint.steps] at hsum
      dsimp only
      omega
    | _ =>
      simp only [WorkerPoint.steps] at hsum
      omega
  | refuse => exact ⟨hclose, le_rfl⟩
  | shutdown => exact ⟨rfl, le_rfl⟩
  | next | throw | returned => exact ⟨hclose, le_rfl⟩

theorem steps_le (p : WorkerPoint) : p.steps ≤ 4 := by
  cases p <;> simp [WorkerPoint.steps]

theorem stepsLeft_le (s : ThreadPool) : s.stepsLeft ≤ 4 * (s.tasks.length + s.workers.length) := by
  have hsum (workers : List WorkerPoint) : (workers.map WorkerPoint.steps).sum ≤ 4 * workers.length := by
    induction workers with
    | nil => exact le_rfl
    | cons p workers ih =>
      have hp := steps_le p
      rw [List.map_cons, List.sum_cons, List.length_cons]
      omega
  have hworkers := hsum s.workers
  unfold ThreadPool.stepsLeft
  omega

theorem go_isSome (hworker : s.workers[i]? = some p) (hover : p ≠ .finished) (hrun : p.running = none) :
    (s.step (.go i)).isSome := by
  simp only [ThreadPool.step, ThreadPool.go, hworker]
  cases p with
  | run => cases hrun
  | finished => exact absurd rfl hover
  | check => split_ifs <;> rfl
  | wait | call | processTick => rfl

theorem finish_isSome {task : ℕ} (hworker : s.workers[i]? = some (.run task))
    (hcaller : ∀ k, s.closing ≠ some (some i, k)) : (s.step (.finish i)).isSome := by
  have hnot : s.closing.any (fun c => c.1 = some i) = false := by
    cases hclosing : s.closing with
    | none => rfl
    | some c =>
      refine decide_eq_false fun hc => hcaller c.2 ?_
      rw [hclosing, ← hc]
  simp [ThreadPool.step, ThreadPool.finish, hworker, hnot]

/-- As long as a worker is not over, a worker can go on, or a task can end, or the call of `shutdown` that is
waited for by its own task goes on. -/
theorem exists_work (hworker : s.workers[i]? = some p) (hover : p ≠ .finished) :
    ∃ l, (l.isWork = true ∨ l = .join) ∧ (s.step l).isSome := by
  by_cases hrun : p.running = none
  · exact ⟨.go i, .inl rfl, go_isSome hworker hover hrun⟩
  obtain ⟨task, rfl⟩ : ∃ task, p = .run task := by
    cases p with
    | run task => exact ⟨task, rfl⟩
    | _ => exact absurd rfl hrun
  by_cases hcaller : ∃ k, s.closing = some (some i, k)
  · obtain ⟨k, hclosing⟩ := hcaller
    cases hk : s.workers[k]? with
    | none => exact ⟨.join, .inr rfl, by simp [ThreadPool.step, ThreadPool.join, hclosing, hk]⟩
    | some q =>
      by_cases hjoin : q = .finished ∨ i = k
      · refine ⟨.join, .inr rfl, ?_⟩
        simp only [ThreadPool.step, ThreadPool.join, hclosing, Option.bind_some, hk, Option.some.injEq]
        rcases hjoin with hq | hik
        · rw [if_pos hq]
          rfl
        · rw [if_pos hik]
          split_ifs <;> rfl
      · -- the call waits for another worker, which goes on or whose task ends
        obtain ⟨hq, hik⟩ := not_or.mp hjoin
        by_cases hqrun : q.running = none
        · exact ⟨.go k, .inl rfl, go_isSome hk hq hqrun⟩
        · obtain ⟨task', rfl⟩ : ∃ task', q = .run task' := by
            cases q with
            | run task' => exact ⟨task', rfl⟩
            | _ => exact absurd rfl hqrun
          refine ⟨.finish k, .inl rfl, finish_isSome hk fun k' hk' => hik ?_⟩
          rw [hclosing] at hk'
          simpa using congrArg (fun c => c.bind fun c : Option ℕ × ℕ => c.1) hk'
  · exact ⟨.finish i, .inl rfl, finish_isSome hworker fun k hk => hcaller ⟨k, hk⟩⟩

/-- **The workers end.** Once a pool is closed, its workers make a bounded number of steps whatever else
happens; and until all of them are over some step is possible of a worker, of a task that ends, or of a call
of `shutdown`. -/
theorem workers_end (h : (workerPool n b).Run ts s) (hts : ts = us ++ t :: vs)
    (hclose : t.after.close = true) :
    vs.countP (fun v => v.label.isWork) ≤ 4 * (t.after.tasks.length + n) ∧
      ((∃ p ∈ s.workers, p ≠ .finished) → ∃ l, (l.isWork = true ∨ l = .join) ∧ (s.step l).isSome) := by
  refine ⟨?_, ?_⟩
  · have hle := h.countP_rest_le (I := fun s => s.close = true) ThreadPool.stepsLeft hts hclose
      fun s l s' hstep hs => stepsLeft_of_step hs (pool_cases hstep)
    obtain ⟨hrun, hstep⟩ := h.of_split hts
    have hlength := (constant_of_run ⟨us ++ [t], hrun.step hstep⟩).1
    have hbound := stepsLeft_le t.after
    rw [hlength] at hbound
    omega
  · rintro ⟨p, hp, hover⟩
    obtain ⟨j, hj, rfl⟩ := List.getElem_of_mem hp
    exact exists_work (List.getElem?_eq_getElem hj) hover

theorem workers_end_example : ∃ ts s us t vs, (workerPool 2 true).Run ts s ∧ ts = us ++ t :: vs ∧
    t.label = .shutdown none ∧ vs.countP (fun v => v.label.isWork) ≤ 4 * (t.after.tasks.length + 2) ∧
      ((∃ p ∈ s.workers, p ≠ .finished) → ∃ l, (l.isWork = true ∨ l = .join) ∧ (s.step l).isSome) := by
  obtain ⟨ts, s, hrun, h⟩ := Machine.exists_run (M := workerPool 2 true)
    (s := { shouldFinishTasksOnClose := true, workers := [.check, .check] }) closedInTask
    (fun ts _ => ts[6]?.any fun t : Transition ThreadPool ThreadPoolLabel =>
      decide (t.label = .shutdown none ∧ t.after.close = true)) rfl (by decide)
  obtain ⟨t, hts, h⟩ := split_of_any h
  obtain ⟨hlabel, hclose⟩ := of_decide_eq_true h
  exact ⟨ts, s, _, t, _, hrun, hts, hlabel, workers_end hrun hts hclose⟩

/-- What a pool that does not finish its tasks has taken, and what its workers can still take. -/
theorem taken_of_step (hclose : s.close = true) (hfinish : s.shouldFinishTasksOnClose = false)
    (hs : PoolStep s l s') : s'.taken.length + s'.workers.countP WorkerPoint.isWaiting ≤
      s.taken.length + s.workers.countP WorkerPoint.isWaiting := by
  cases hs with
  | @work _ i p p' s₁ hl hworker hw =>
    have hcount := countP_set_add WorkerPoint.isWaiting hworker p'
    simp only [ThreadPool.setWorker, hw.workers]
    cases hw with
    | wait hopen =>
      rw [hclose] at hopen
      cases hopen
    | take htasks hpoint =>
      have hwait : p = .wait := by
        refine hpoint.resolve_right fun hcheck => ?_
        simp [ThreadPool.goesOn, hclose, hfinish] at hcheck
      subst hwait
      simp [WorkerPoint.isWaiting] at hcount ⊢
      omega
    | _ =>
      simp [WorkerPoint.isWaiting] at hcount ⊢
      omega
  | refuse | accept => exact le_rfl
  | shutdown | next | throw | returned => exact le_rfl

end Tasks

end HueStream.Threading
