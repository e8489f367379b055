import HueStream.Scheduling.Scheduler

/-! # Calls during a tick

The timer thread collects the due tasks under the lock and executes the copies after it has released it, so
other threads and the tasks themselves can call the scheduler in between. A call is one critical section;
`stop` announces that the scheduler is stopping, waits for the timer and then ends. -/

namespace HueStream.Scheduling

open HueStream.Lib

variable {μ : Type*}

/-- Where the timer thread is: it waits for the next tick, it has collected these entries, or it is to
execute them. -/
inductive TimerPoint (μ : Type*)
  | waiting
  | collected (entriesToExecute : List (SchedulerEntry μ))
  | executing (entriesToExecute : List (SchedulerEntry μ))

/-- The scheduler with its timer thread. -/
structure TimedScheduler (μ : Type*) where
  scheduler : Scheduler μ := {}
  timer : TimerPoint μ := .waiting

/-- What the threads do. A call comes from another thread or from a task. `proceed` is the check of the
state, with the entries in the order `sort` gives them; `execute` starts the next one. -/
inductive Move (μ : Type*)
  | call (call : Call μ)
  | start
  | stop
  | stopped
  | collect (currentTimeMs : ℤ)
  | proceed (sorted : List (SchedulerEntry μ))
  | execute (entry : SchedulerEntry μ)
  | finish

namespace Move

def callOf : Move μ → Option (Call μ)
  | .call c => some c
  | _ => none

def isCollect : Move μ → Bool
  | .collect _ => true
  | _ => false

end Move

namespace TimedScheduler

variable [DecidableEq μ]

def step (s : TimedScheduler μ) : Move μ → Option (TimedScheduler μ)
  | .call c => some { s with scheduler := c.apply s.scheduler }
  | .start => some (if s.scheduler.state = .idle then
      { s with scheduler := { s.scheduler with state := .running } } else s)
  | .stop => some (if s.scheduler.state = .running then
      { s with scheduler := { s.scheduler with state := .stopping } } else s)
  | .stopped => match s.timer with
    | .waiting => some { s with scheduler := { s.scheduler with state := .idle } }
    | _ => none
  | .collect currentTimeMs => match s.timer with
    | .waiting =>
      let (scheduler, entriesToExecute) := s.scheduler.collect currentTimeMs
      some { scheduler, timer := .collected entriesToExecute }
    | _ => none
  | .proceed sorted => match s.timer with
    | .collected entriesToExecute =>
      if s.scheduler.state = .stopping then some { s with timer := .waiting }
      else if IsSort entriesToExecute sorted then some { s with timer := .executing sorted }
      else none
    | _ => none
  | .execute entry => match s.timer with
    | .executing (next :: rest) => if entry = next then some { s with timer := .executing rest } else none
    | _ => none
  | .finish => match s.timer with
    | .executing [] => some { s with timer := .waiting }
    | _ => none

/-- The copies that are still to be executed: none when the scheduler is stopping before its check. -/
def pending (s : TimedScheduler μ) : List (SchedulerEntry μ) :=
  match s.timer with
  | .waiting => []
  | .collected entriesToExecute => if s.scheduler.state = .stopping then [] else entriesToExecute
  | .executing entriesToExecute => entriesToExecute

/-- A call removes or replaces no task a copy of which is still to be executed. -/
def Spares (s : TimedScheduler μ) : Move μ → Prop
  | .call c => ∀ entry ∈ s.pending, c.touches entry.task.id = false
  | _ => True

instance (s : TimedScheduler μ) : DecidablePred s.Spares
  | .call c => inferInstanceAs (Decidable (∀ entry ∈ s.pending, c.touches entry.task.id = false))
  | .start | .stop | .stopped | .collect _ | .proceed _ | .execute _ | .finish =>
    inferInstanceAs (Decidable True)

end TimedScheduler

/-- The scheduler with its timer thread as a machine, from its construction. -/
def timedScheduler (μ : Type*) [DecidableEq μ] : Machine (TimedScheduler μ) (Move μ) where
  Init s := s = {}
  step := TimedScheduler.step

/-- The task was added, was collected by the tick that runs, and has not been removed or replaced since it
was added. -/
def IsCollected (ts : List (Transition (TimedScheduler μ) (Move μ))) (task : SchedulerTask μ) : Prop :=
  ∃ us c vs, ts = us ++ c :: vs ∧ c.label.isCollect = true ∧ IsCurrent Move.callOf us task ∧
    ∀ v ∈ vs, v.label.isCollect = false ∧ isTouchedBy Move.callOf task.id v.label = false

/-- No execution of a task starts once it has been removed or replaced. -/
def ExecutesCurrent (ts : List (Transition (TimedScheduler μ) (Move μ))) : Prop :=
  ∀ us t vs entry, ts = us ++ t :: vs → t.label = .execute entry → IsCollected us entry.task

/-! ### What a run keeps -/

variable {ts : List (Transition (TimedScheduler μ) (Move μ))} {t : Transition (TimedScheduler μ) (Move μ)}
  {s s' : TimedScheduler μ} {task : SchedulerTask μ}

theorem IsCollected.concat (h : IsCollected ts task) (hcollect : t.label.isCollect = false)
    (ht : isTouchedBy Move.callOf task.id t.label = false) : IsCollected (ts ++ [t]) task := by
  obtain ⟨us, c, vs, rfl, hc, hcurrent, hvs⟩ := h
  refine ⟨us, c, vs ++ [t], by simp, hc, hcurrent, fun v hv => ?_⟩
  rcases List.mem_append.mp hv with hv | hv
  · exact hvs v hv
  · obtain rfl := List.mem_singleton.mp hv
    exact ⟨hcollect, ht⟩

/-- What is scheduled is current, what is to be executed has been collected as such, and so has been what
was executed. -/
structure AllCurrent (ts : List (Transition (TimedScheduler μ) (Move μ))) (s : TimedScheduler μ) : Prop where
  scheduled : ∀ e ∈ s.scheduler.scheduledTasks, IsCurrent Move.callOf ts e.task
  pending : ∀ e ∈ s.pending, IsCollected ts e.task
  executed : ExecutesCurrent ts

theorem state_apply (s : Scheduler μ) (c : Call μ) : (c.apply s).state = s.state := by
  cases c <;> rfl

theorem executesCurrent_concat (h : ExecutesCurrent ts)
    (ht : ∀ entry, t.label = .execute entry → IsCollected ts entry.task) :
    ExecutesCurrent (ts ++ [t]) := by
  intro us u vs entry hts hlabel
  rcases split_concat hts with ⟨rfl, rfl, -⟩ | ⟨vs, -, hbefore⟩
  · exact ht entry hlabel
  · exact h us u vs entry hbefore hlabel

/-- A task is not collected any more when the last thing that happened was its removal. -/
theorem not_isCollected_concat (hcollect : t.label.isCollect = false)
    (ht : isTouchedBy Move.callOf task.id t.label = true) : ¬ IsCollected (ts ++ [t]) task := by
  rintro ⟨us, c, vs, hts, hc, -, hvs⟩
  rcases split_concat hts with ⟨-, rfl, -⟩ | ⟨vs, rfl, -⟩
  · rw [hcollect] at hc
    cases hc
  · have huntouched := (hvs t (by simp)).2
    rw [ht] at huntouched
    cases huntouched

variable [DecidableEq μ]

/-- What is neither a call nor a collection schedules nothing and gives nothing to execute. -/
theorem quiet_of_step {l : Move μ} (h : s.step l = some s') (hcall : l.callOf = none)
    (hcollect : l.isCollect = false) :
    s'.scheduler.scheduledTasks = s.scheduler.scheduledTasks ∧ ∀ e ∈ s'.pending, e ∈ s.pending := by
  obtain ⟨scheduler, timer⟩ := s
  cases l with
  | call c => cases hcall
  | start =>
    simp only [TimedScheduler.step] at h
    split_ifs at h with hidle
    · obtain rfl := Option.some.inj h
      refine ⟨rfl, fun e he => ?_⟩
      cases timer with
      | waiting => exact he
      | collected entries =>
        have he : e ∈ entries := by simpa [TimedScheduler.pending] using he
        simpa [TimedScheduler.pending, hidle] using he
      | executing entries => exact he
    · obtain rfl := Option.some.inj h
      exact ⟨rfl, fun e he => he⟩
  | stop =>
    simp only [TimedScheduler.step] at h
    split_ifs at h with hrunning
    · obtain rfl := Option.some.inj h
      refine ⟨rfl, fun e he => ?_⟩
      cases timer with
      | waiting => exact he
      | collected entries => simp [TimedScheduler.pending] at he
      | executing entries => exact he
    · obtain rfl := Option.some.inj h
      exact ⟨rfl, fun e he => he⟩
  | stopped =>
    cases timer <;> simp only [TimedScheduler.step, Option.some.injEq, reduceCtorEq] at h
    subst h
    exact ⟨rfl, fun e he => he⟩
  | collect now => cases hcollect
  | proceed sorted =>
    cases timer <;> simp only [TimedScheduler.step, reduceCtorEq] at h
    next entries =>
    split_ifs at h with hstopping hsort
    · obtain rfl := Option.some.inj h
      exact ⟨rfl, fun e he => absurd he List.not_mem_nil⟩
    · obtain rfl := Option.some.inj h
      refine ⟨rfl, fun e he => ?_⟩
      have he : e ∈ sorted := he
      simpa [TimedScheduler.pending, hstopping] using hsort.1.subset he
  | execute entry =>
    rcases timer with _ | _ | (_ | ⟨next, rest⟩) <;>
      simp only [TimedScheduler.step, reduceCtorEq] at h
    split_ifs at h
    obtain rfl := Option.some.inj h
    exact ⟨rfl, fun e he => List.mem_cons_of_mem _ he⟩
  | finish =>
    simp only [TimedScheduler.step] at h
    split at h
    · obtain rfl := Option.some.inj h
      exact ⟨rfl, fun e he => absurd he List.not_mem_nil⟩
    · cases h

/-- What a collection does: what stays scheduled was scheduled, and what it collects as well. -/
theorem collect_of_step {now : ℤ} (h : s.step (.collect now) = some s') :
    (∀ e ∈ s'.scheduler.scheduledTasks, ∃ e' ∈ s.scheduler.scheduledTasks, e'.task = e.task) ∧
      ∀ e ∈ s'.pending, ∃ e' ∈ s.scheduler.scheduledTasks, e'.task = e.task := by
  obtain ⟨scheduler, timer⟩ := s
  cases timer <;> simp only [TimedScheduler.step, Option.some.injEq, reduceCtorEq] at h
  subst h
  unfold Scheduler.collect TimedScheduler.pending
  split_ifs with hstopping
  · exact ⟨fun e he => ⟨e, he, rfl⟩, fun e he => absurd he List.not_mem_nil⟩
  · refine ⟨fun e he => exists_of_mem_collect he, fun e he => ?_⟩
    rw [collect_snd] at he
    obtain ⟨e', he', rfl⟩ := List.mem_map.mp he
    exact ⟨e', (List.mem_filter.mp he').1, (task_reschedule e').symm⟩

theorem mem_pending_of_execute {entry : SchedulerEntry μ} (h : s.step (.execute entry) = some s') :
    entry ∈ s.pending := by
  simp only [TimedScheduler.step] at h
  split at h
  · next next rest htimer =>
    split_ifs at h with heq
    subst heq
    rw [TimedScheduler.pending, htimer]
    exact List.mem_cons_self
  · cases h

theorem allCurrent_of_step {l : Move μ} (h : AllCurrent ts s) (hstep : s.step l = some s')
    (hspares : s.Spares l) : AllCurrent (ts ++ [⟨s, l, s'⟩]) s' := by
  have hexecuted : ExecutesCurrent (ts ++ [⟨s, l, s'⟩]) := by
    refine executesCurrent_concat h.executed fun entry hlabel => ?_
    obtain rfl : l = .execute entry := hlabel
    exact h.pending entry (mem_pending_of_execute hstep)
  by_cases hcollect : l.isCollect = true
  · cases l <;> simp only [Move.isCollect, Bool.false_eq_true] at hcollect
    next now =>
    obtain ⟨hscheduled, hpending⟩ := collect_of_step hstep
    refine ⟨fun e he => ?_, fun e he => ?_, hexecuted⟩
    · obtain ⟨e', he', htask⟩ := hscheduled e he
      rw [← htask]
      exact (h.scheduled e' he').concat rfl
    · obtain ⟨e', he', htask⟩ := hpending e he
      rw [← htask]
      exact ⟨ts, _, [], rfl, rfl, h.scheduled e' he', by simp⟩
  · have hcollect : l.isCollect = false := by simpa using hcollect
    cases hcall : l.callOf with
    | some c =>
      cases l <;> simp only [Move.callOf, Option.some.injEq, reduceCtorEq] at hcall
      subst hcall
      obtain rfl := Option.some.inj hstep
      refine ⟨current_apply h.scheduled rfl, fun e he => ?_, hexecuted⟩
      have he : e ∈ s.pending := by
        unfold TimedScheduler.pending at he ⊢
        simp only [state_apply] at he
        exact he
      exact (h.pending e he).concat rfl (hspares e he)
    | none =>
      obtain ⟨hscheduled, hpending⟩ := quiet_of_step hstep hcall hcollect
      have htouches : ∀ id, isTouchedBy Move.callOf id l = false := by
        intro id
        rw [isTouchedBy, hcall, Option.any_none]
      refine ⟨fun e he => ?_, fun e he => ?_, hexecuted⟩
      · rw [hscheduled] at he
        exact (h.scheduled e he).concat (htouches _)
      · exact (h.pending e (hpending e he)).concat hcollect (htouches _)

/-- **No execution of a task starts once it has been removed or replaced,** in a run whose calls spare the
copies that are still to be executed. -/
theorem executesCurrent_of_spares (hrun : (timedScheduler μ).Run ts s)
    (hspares : ∀ t ∈ ts, t.before.Spares t.label) : ExecutesCurrent ts := by
  have hall : AllCurrent ts s := by
    refine hrun.invariant_along (fun s hs => ?_)
      (fun ts s l s' hstep hspares h => allCurrent_of_step h hstep hspares) hspares
    obtain rfl : s = {} := hs
    refine ⟨fun e he => absurd he List.not_mem_nil, fun e he => absurd he List.not_mem_nil, ?_⟩
    intro us t vs entry hts
    simp at hts
  exact hall.executed

/-! ### A tick of two tasks -/

/-- Two tasks that are done once, at the same time, collected by one tick. -/
def twoCollected : List (Move ℕ) :=
  [.start, .call (.addTask ⟨1, 0, false, 0⟩ 10), .call (.addTask ⟨2, 0, false, 1⟩ 10), .collect 10,
    .proceed [⟨⟨1, 0, false, 0⟩, 10⟩, ⟨⟨2, 0, false, 1⟩, 10⟩], .execute ⟨⟨1, 0, false, 0⟩, 10⟩]

/-- While the second one is still to be executed, the first one is scheduled anew. -/
theorem executesCurrent_of_spares_example : ∃ ts s, (timedScheduler ℕ).Run ts s ∧ ExecutesCurrent ts ∧
    s.scheduler.scheduledTasks = [⟨⟨1, 0, false, 2⟩, 20⟩] := by
  obtain ⟨ts, s, hrun, h⟩ := Machine.exists_run (M := timedScheduler ℕ) (s := {})
    (twoCollected ++ [.call (.addTask ⟨1, 0, false, 2⟩ 20), .execute ⟨⟨2, 0, false, 1⟩, 10⟩, .finish,
      .stop, .stopped])
    (fun ts s => (ts.all fun t => decide (t.before.Spares t.label)) &&
      decide (s.scheduler.scheduledTasks = [⟨⟨1, 0, false, 2⟩, 20⟩])) rfl (by decide +kernel)
  rw [Bool.and_eq_true, List.all_eq_true, decide_eq_true_eq] at h
  obtain ⟨hspares, htasks⟩ := h
  exact ⟨ts, s, hrun, executesCurrent_of_spares hrun fun t ht => of_decide_eq_true (hspares t ht), htasks⟩

/-- The first task removes the second one, which is executed all the same. -/
theorem exists_not_executesCurrent : ∃ ts s, (timedScheduler ℕ).Run ts s ∧
    ts.map Transition.label = twoCollected ++
      [.call (.removeTask 2), .execute ⟨⟨2, 0, false, 1⟩, 10⟩] ∧ ¬ ExecutesCurrent ts := by
  obtain ⟨ts, s, hrun, hlabels, -⟩ := Machine.exists_run_along (M := timedScheduler ℕ) (s := {})
    (twoCollected ++ [.call (.removeTask 2), .execute ⟨⟨2, 0, false, 1⟩, 10⟩])
    (fun _ _ => true) rfl (by decide +kernel)
  refine ⟨ts, s, hrun, hlabels, fun hcurrent => ?_⟩
  obtain ⟨us, vs, rfl, -, hvs⟩ := List.map_eq_append_iff.mp hlabels
  obtain ⟨r, vs, rfl, hr, hvs⟩ := List.map_eq_cons_iff.mp hvs
  obtain ⟨t, vs, rfl, ht, -⟩ := List.map_eq_cons_iff.mp hvs
  have hcollected := hcurrent (us ++ [r]) t vs _ (by simp) ht
  refine not_isCollected_concat ?_ ?_ hcollected
  · rw [hr]
    rfl
  · rw [hr]
    rfl

end HueStream.Scheduling
