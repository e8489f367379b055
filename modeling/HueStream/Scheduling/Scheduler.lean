import HueStream.Lib.Run
import Mathlib.Data.Int.Order.Basic

/-! # The scheduler

Tasks are scheduled under their ids, each with the time of its next occurrence. A tick of the timer
goes through the list once: a task that is due is copied to be executed, and stays with a later time if
it is recurring. What a task does is left open. -/

namespace HueStream.Scheduling

open HueStream.Lib

variable {μ : Type*}

/-- `SchedulerTask`. -/
structure SchedulerTask (μ : Type*) where
  id : ℤ
  intervalMs : ℕ
  recurring : Bool := true
  method : μ
deriving DecidableEq

/-- `SchedulerEntry`: a task with the time of its next occurrence. -/
structure SchedulerEntry (μ : Type*) where
  task : SchedulerTask μ
  nextOccurenceMs : ℤ
deriving DecidableEq

/-- `SchedulerState`. -/
inductive SchedulerState
  | idle | running | stopping
deriving DecidableEq

/-- The members of a scheduler. -/
structure Scheduler (μ : Type*) where
  state : SchedulerState := .idle
  scheduledTasks : List (SchedulerEntry μ) := []

namespace Scheduler

/-- `remove_task_internal`. -/
def removeTaskInternal (s : Scheduler μ) (id : ℤ) : Scheduler μ :=
  { s with scheduledTasks := s.scheduledTasks.filter fun entry => entry.task.id ≠ id }

/-- `add_task` with the time of the next occurrence. -/
def addTask (s : Scheduler μ) (task : SchedulerTask μ) (nextOccurenceMs : ℤ) : Scheduler μ :=
  let s := s.removeTaskInternal task.id
  { s with scheduledTasks := s.scheduledTasks ++ [⟨task, nextOccurenceMs⟩] }

/-- `remove_task`. -/
def removeTask (s : Scheduler μ) (id : ℤ) : Scheduler μ := s.removeTaskInternal id

/-- `remove_all_tasks`. -/
def removeAllTasks (s : Scheduler μ) : Scheduler μ := { s with scheduledTasks := [] }

end Scheduler

/-- The calls that change what is scheduled; `add_task` without a time takes the time of the call. -/
inductive Call (μ : Type*)
  | addTask (task : SchedulerTask μ) (nextOccurenceMs : ℤ)
  | addTaskFromNow (task : SchedulerTask μ) (currentTimeMs : ℤ)
  | removeTask (id : ℤ)
  | removeAllTasks

namespace Call

def apply (s : Scheduler μ) : Call μ → Scheduler μ
  | .addTask task nextOccurenceMs => s.addTask task nextOccurenceMs
  | .addTaskFromNow task currentTimeMs => s.addTask task (currentTimeMs + task.intervalMs)
  | .removeTask id => s.removeTask id
  | .removeAllTasks => s.removeAllTasks

/-- The entry a call adds. -/
def added : Call μ → Option (SchedulerEntry μ)
  | .addTask task nextOccurenceMs => some ⟨task, nextOccurenceMs⟩
  | .addTaskFromNow task currentTimeMs => some ⟨task, currentTimeMs + task.intervalMs⟩
  | _ => none

/-- Whether a call removes or replaces what is scheduled under an id. -/
def touches (id : ℤ) : Call μ → Bool
  | .addTask task _ | .addTaskFromNow task _ => task.id = id
  | .removeTask other => other = id
  | .removeAllTasks => true

end Call

section Histories

variable {S L : Type*} (callOf : L → Option (Call μ))

/-- The entry that what happens adds, if it is a call that adds one. -/
def addedBy (l : L) : Option (SchedulerEntry μ) := (callOf l).bind Call.added

/-- Whether what happens is a call that removes or replaces what is scheduled under an id. -/
def isTouchedBy (id : ℤ) (l : L) : Bool := (callOf l).any fun call => call.touches id

/-- The task was added, and has not been removed or replaced since. -/
def IsCurrent (ts : List (Transition S L)) (task : SchedulerTask μ) : Prop :=
  ∃ us a vs entry, ts = us ++ a :: vs ∧ addedBy callOf a.label = some entry ∧ entry.task = task ∧
    ∀ v ∈ vs, isTouchedBy callOf task.id v.label = false

end Histories

/-! ### A tick -/

namespace SchedulerEntry

/-- Whether the entry is to be executed. -/
def isDue (currentTimeMs : ℤ) (entry : SchedulerEntry μ) : Bool :=
  entry.nextOccurenceMs ≤ currentTimeMs

/-- The entry as a tick copies it: a recurring one has got its next time already. -/
def reschedule (currentTimeMs : ℤ) (entry : SchedulerEntry μ) : SchedulerEntry μ :=
  if entry.task.recurring then
    { entry with nextOccurenceMs := currentTimeMs + entry.task.intervalMs }
  else entry

end SchedulerEntry

/-- The loop of `thread_timer_task`: what stays scheduled, and the entries to execute. -/
def collect (currentTimeMs : ℤ) :
    List (SchedulerEntry μ) → List (SchedulerEntry μ) × List (SchedulerEntry μ)
  | [] => ([], [])
  | entry :: rest =>
    let (scheduled, entriesToExecute) := collect currentTimeMs rest
    if entry.isDue currentTimeMs then
      if entry.task.recurring then
        (entry.reschedule currentTimeMs :: scheduled,
          entry.reschedule currentTimeMs :: entriesToExecute)
      else (scheduled, entry :: entriesToExecute)
    else (entry :: scheduled, entriesToExecute)

/-- The part of `thread_timer_task` under the lock. A scheduler that is stopping executes nothing. -/
def Scheduler.collect (s : Scheduler μ) (currentTimeMs : ℤ) :
    Scheduler μ × List (SchedulerEntry μ) :=
  if s.state = .stopping then (s, [])
  else
    let (scheduledTasks, entriesToExecute) := Scheduling.collect currentTimeMs s.scheduledTasks
    ({ s with scheduledTasks }, entriesToExecute)

/-- What `sort` may make of the entries: it orders them by their times, and leaves open how entries of
one time are ordered. -/
def IsSort (entries sorted : List (SchedulerEntry μ)) : Prop :=
  sorted.Perm entries ∧ sorted.Pairwise fun a b => a.nextOccurenceMs ≤ b.nextOccurenceMs

instance [DecidableEq μ] (entries sorted : List (SchedulerEntry μ)) :
    Decidable (IsSort entries sorted) :=
  inferInstanceAs (Decidable (_ ∧ _))

/-! ### What calls and ticks do -/

variable {s : Scheduler μ} {call : Call μ} {entry : SchedulerEntry μ} {id now : ℤ}

/-- The entries under an id. -/
def Scheduler.under (s : Scheduler μ) (id : ℤ) : List (SchedulerEntry μ) :=
  s.scheduledTasks.filter fun entry => entry.task.id = id

theorem added_apply : (call.apply s).scheduledTasks =
    s.scheduledTasks.filter (fun entry => !call.touches entry.task.id) ++ call.added.toList := by
  cases call with
  | addTask task next =>
    simp [Call.apply, Scheduler.addTask, Scheduler.removeTaskInternal, Call.touches, Call.added, eq_comm]
  | addTaskFromNow task now =>
    simp [Call.apply, Scheduler.addTask, Scheduler.removeTaskInternal, Call.touches, Call.added, eq_comm]
  | removeTask other =>
    simp [Call.apply, Scheduler.removeTask, Scheduler.removeTaskInternal, Call.touches, Call.added, eq_comm]
  | removeAllTasks => simp [Call.apply, Scheduler.removeAllTasks, Call.touches, Call.added]

theorem touches_added (h : call.added = some entry) : call.touches entry.task.id = true := by
  cases call <;> simp only [Call.added, Option.some.injEq, reduceCtorEq] at h <;> subst h <;>
    simp [Call.touches]

theorem collect_snd (now : ℤ) (l : List (SchedulerEntry μ)) :
    (collect now l).2 = (l.filter (·.isDue now)).map (·.reschedule now) := by
  induction l with
  | nil => rfl
  | cons entry l ih =>
    simp only [collect]
    split_ifs with hdue hrecurring
    · simp [hdue, ih]
    · simp [hdue, ih, SchedulerEntry.reschedule, hrecurring]
    · simp [hdue, ih]

theorem collect_fst (now : ℤ) (l : List (SchedulerEntry μ)) :
    (collect now l).1 = (l.filter fun entry => entry.task.recurring || !entry.isDue now).map
      fun entry => if entry.isDue now then entry.reschedule now else entry := by
  induction l with
  | nil => rfl
  | cons entry l ih =>
    simp only [collect]
    split_ifs with hdue hrecurring
    · simp [hdue, hrecurring, ih]
    · simp [hdue, hrecurring, ih]
    · simp [hdue, ih]

@[simp] theorem task_reschedule (entry : SchedulerEntry μ) :
    (entry.reschedule now).task = entry.task := by
  unfold SchedulerEntry.reschedule
  split_ifs <;> rfl

theorem under_apply_of_touches {call : Call μ} (h : call.touches id = true) :
    (call.apply s).under id = call.added.toList.filter fun entry => entry.task.id = id := by
  unfold Scheduler.under
  rw [added_apply, List.filter_append, List.filter_filter]
  have hnone : s.scheduledTasks.filter (fun entry =>
      decide (entry.task.id = id) && !call.touches entry.task.id) = [] := by
    rw [List.filter_eq_nil_iff]
    rintro entry -
    by_cases hid : entry.task.id = id
    · simp [hid, h]
    · simp [hid]
  rw [hnone, List.nil_append]

theorem under_apply {call : Call μ} (h : call.touches id = false) :
    (call.apply s).under id = s.under id := by
  unfold Scheduler.under
  rw [added_apply, List.filter_append, List.filter_filter]
  have hadded : call.added.toList.filter (fun entry => entry.task.id = id) = [] := by
    rw [List.filter_eq_nil_iff]
    intro entry hentry
    have htouches := touches_added (Option.mem_toList.mp hentry)
    intro hid
    rw [of_decide_eq_true hid, h] at htouches
    cases htouches
  rw [hadded, List.append_nil]
  refine List.filter_congr fun entry _ => ?_
  by_cases hid : entry.task.id = id
  · simp [hid, h]
  · simp [hid]

theorem map_id_collect (now : ℤ) (l : List (SchedulerEntry μ)) :
    ((collect now l).1.map fun entry => entry.task.id).Sublist (l.map fun entry => entry.task.id) := by
  rw [collect_fst, List.map_map]
  have hid : ((fun entry : SchedulerEntry μ => entry.task.id) ∘ fun entry : SchedulerEntry μ =>
      if entry.isDue now then entry.reschedule now else entry) = fun entry => entry.task.id := by
    funext entry
    simp only [Function.comp_apply]
    split_ifs
    · rw [task_reschedule]
    · rfl
  rw [hid]
  exact List.filter_sublist.map _

theorem exists_of_mem_collect (h : entry ∈ (collect now s.scheduledTasks).1) :
    ∃ e ∈ s.scheduledTasks, e.task = entry.task := by
  rw [collect_fst] at h
  obtain ⟨e, he, rfl⟩ := List.mem_map.mp h
  refine ⟨e, (List.mem_filter.mp he).1, ?_⟩
  split_ifs
  · rw [task_reschedule]
  · rfl

/-- What a tick leaves under an id. -/
theorem under_collect (s : Scheduler μ) (now id : ℤ) :
    ({ s with scheduledTasks := (collect now s.scheduledTasks).1 } : Scheduler μ).under id =
      ((s.under id).filter fun entry => entry.task.recurring || !entry.isDue now).map
        fun entry => if entry.isDue now then entry.reschedule now else entry := by
  unfold Scheduler.under
  rw [collect_fst, List.filter_map, List.filter_filter, List.filter_filter]
  congr 1
  refine List.filter_congr fun entry _ => ?_
  rw [Bool.and_comm, Function.comp_apply]
  split_ifs
  · rw [task_reschedule]
  · rfl

/-- What a tick collects under an id. -/
theorem under_toExecute (s : Scheduler μ) (now id : ℤ) :
    ((s.scheduledTasks.filter (·.isDue now)).map (·.reschedule now)).filter
        (fun entry => entry.task.id = id) =
      ((s.under id).filter (·.isDue now)).map (·.reschedule now) := by
  unfold Scheduler.under
  rw [List.filter_map, List.filter_filter, List.filter_filter]
  congr 1
  refine List.filter_congr fun entry _ => ?_
  rw [Bool.and_comm, Function.comp_apply, task_reschedule]

section Histories

variable {S L : Type*} {callOf : L → Option (Call μ)} {ts : List (Transition S L)}
  {t : Transition S L} {task : SchedulerTask μ}

theorem IsCurrent.concat (h : IsCurrent callOf ts task)
    (ht : isTouchedBy callOf task.id t.label = false) : IsCurrent callOf (ts ++ [t]) task := by
  obtain ⟨us, a, vs, entry, rfl, hadded, htask, hvs⟩ := h
  refine ⟨us, a, vs ++ [t], entry, by simp, hadded, htask, fun v hv => ?_⟩
  rcases List.mem_append.mp hv with hv | hv
  · exact hvs v hv
  · obtain rfl := List.mem_singleton.mp hv
    exact ht

/-- A call keeps what is scheduled current. -/
theorem current_apply {call : Call μ} (h : ∀ e ∈ s.scheduledTasks, IsCurrent callOf ts e.task)
    (ht : callOf t.label = some call) :
    ∀ e ∈ (call.apply s).scheduledTasks, IsCurrent callOf (ts ++ [t]) e.task := by
  intro e he
  rw [added_apply, List.mem_append] at he
  rcases he with he | he
  · obtain ⟨he, huntouched⟩ := List.mem_filter.mp he
    refine (h e he).concat ?_
    rw [isTouchedBy, ht]
    simpa using huntouched
  · refine ⟨ts, t, [], e, rfl, ?_, rfl, by simp⟩
    rw [addedBy, ht]
    exact Option.mem_toList.mp he

end Histories

end HueStream.Scheduling
