import HueStream.Lib.Run
import HueStream.Lib.StableInsert
import HueStream.Scheduling.Scheduler
import Mathlib.Data.List.Dedup

/-! # Calls and ticks of a running scheduler

Calls and ticks come in any order and at any times. What is scheduled under an id is what the last call
about that id has added, as far as it has not been executed. The order of a tick is that of the times the
entries get, not of the times at which they were due. -/

namespace HueStream.Scheduling

open HueStream.Lib

variable {μ : Type*}

/-- A call, or a tick at a time with the entries in the order `sort` has given them. -/
inductive Event (μ : Type*)
  | call (call : Call μ)
  | tick (currentTimeMs : ℤ) (executed : List (SchedulerEntry μ))

namespace Event

def callOf : Event μ → Option (Call μ)
  | .call c => some c
  | .tick _ _ => none

/-- Whether this is a tick at or after the time of an entry. -/
def isTickFor (entry : SchedulerEntry μ) : Event μ → Bool
  | .call _ => false
  | .tick currentTimeMs _ => entry.isDue currentTimeMs

end Event

def Scheduler.step [DecidableEq μ] (s : Scheduler μ) : Event μ → Option (Scheduler μ)
  | .call c => some (c.apply s)
  | .tick currentTimeMs executed =>
    let (s, entriesToExecute) := s.collect currentTimeMs
    if IsSort entriesToExecute executed then some s else none

/-- A scheduler that is running, from when it has no tasks. -/
def scheduler (μ : Type*) [DecidableEq μ] : Machine (Scheduler μ) (Event μ) where
  Init s := s = { state := .running }
  step := Scheduler.step

/-! ### What a tick is to execute -/

variable {ts us vs : List (Transition (Scheduler μ) (Event μ))} {s s' : Scheduler μ}
  {entry : SchedulerEntry μ} {executed : List (SchedulerEntry μ)} {now : ℤ}

/-- The ids of the tasks that were added, in the order of the calls. -/
def addedIds (ts : List (Transition (Scheduler μ) (Event μ))) : List ℤ :=
  ts.filterMap fun t => (addedBy Event.callOf t.label).map fun entry => entry.task.id

/-- What is executed under the id of a task that was added as non-recurring, and not removed or replaced
since: the task, at the first tick at or after its time, and otherwise nothing. -/
def RunsOnce (ts : List (Transition (Scheduler μ) (Event μ))) (now : ℤ)
    (executed : List (SchedulerEntry μ)) : Prop :=
  ∀ us a vs entry, ts = us ++ a :: vs → addedBy Event.callOf a.label = some entry → entry.task.recurring = false →
    (∀ v ∈ vs, isTouchedBy Event.callOf entry.task.id v.label = false) →
    executed.filter (fun e => e.task.id = entry.task.id) =
      if entry.isDue now && vs.all fun v => !v.label.isTickFor entry then [entry] else []

/-- The entries that are due, in the order of their times, and in the order they are scheduled in where
these are the same. -/
def Scheduler.dueInOrder (s : Scheduler μ) (now : ℤ) : List (SchedulerEntry μ) :=
  stableSort (·.nextOccurenceMs) (s.scheduledTasks.filter (·.isDue now))

/-- How the scheduler serves its callers after a run, with a tick at a time: there is one entry for an id,
the entries are in the order in which their tasks were added, and the tick executes current tasks only,
non-recurring ones once, in the order of the times at which they were due. -/
structure Serves [DecidableEq μ] (ts : List (Transition (Scheduler μ) (Event μ))) (s : Scheduler μ) (now : ℤ) : Prop where
  nodup : (s.scheduledTasks.map fun entry => entry.task.id).Nodup
  order : (s.scheduledTasks.map fun entry => entry.task.id).Sublist (addedIds ts).dedup
  current : ∀ executed s', s.step (.tick now executed) = some s' → ∀ e ∈ executed, IsCurrent Event.callOf ts e.task
  once : ∀ executed s', s.step (.tick now executed) = some s' → RunsOnce ts now executed
  inOrder : ∀ executed s', s.step (.tick now executed) = some s' →
    executed.map (·.task) = (s.dueInOrder now).map (·.task)

/-- In the order in which the tasks were due, the times by which a tick sorts them increase: for a
recurring task that is the time of the tick and the interval, for another one the time it was due. -/
def Scheduler.TimesIncrease (s : Scheduler μ) (now : ℤ) : Prop :=
  (s.dueInOrder now).Pairwise fun a b =>
    (a.reschedule now).nextOccurenceMs < (b.reschedule now).nextOccurenceMs

instance (s : Scheduler μ) (now : ℤ) : Decidable (s.TimesIncrease now) :=
  inferInstanceAs (Decidable (List.Pairwise _ _))

/-! ### The steps -/

/-- What a tick of a running scheduler can do. -/
theorem step_tick [DecidableEq μ] (hrunning : s.state = .running) :
    s.step (.tick now executed) = some s' ↔
      s' = { s with scheduledTasks := (collect now s.scheduledTasks).1 } ∧
        IsSort ((s.scheduledTasks.filter (·.isDue now)).map (·.reschedule now)) executed := by
  have hstate : s.state ≠ .stopping := by
    rw [hrunning]
    decide
  simp only [Scheduler.step, Scheduler.collect, hstate, if_false, collect_snd]
  split_ifs with hsort
  · simp only [Option.some.injEq, hsort, and_true]
    exact eq_comm
  · simp [hsort]

/-! ### What a run keeps -/

/-- What holds of a running scheduler and the transitions that have led to it. -/
structure Kept (ts : List (Transition (Scheduler μ) (Event μ))) (s : Scheduler μ) : Prop where
  running : s.state = .running
  nodup : (s.scheduledTasks.map fun entry => entry.task.id).Nodup
  order : (s.scheduledTasks.map fun entry => entry.task.id).Sublist (addedIds ts).dedup
  current : ∀ e ∈ s.scheduledTasks, IsCurrent Event.callOf ts e.task
  once : ∀ us a vs entry, ts = us ++ a :: vs → addedBy Event.callOf a.label = some entry →
    entry.task.recurring = false → (∀ v ∈ vs, isTouchedBy Event.callOf entry.task.id v.label = false) →
    s.under entry.task.id = if vs.all fun v => !v.label.isTickFor entry then [entry] else []

theorem kept_init : Kept [] ({ state := .running } : Scheduler μ) := by
  refine ⟨rfl, List.nodup_nil, List.nil_sublist _, fun e he => absurd he List.not_mem_nil, ?_⟩
  intro us a vs entry hts
  simp at hts

theorem Kept.call {c : Call μ} (h : Kept ts s) :
    Kept (ts ++ [⟨s, .call c, c.apply s⟩]) (c.apply s) := by
  have hids : ((c.apply s).scheduledTasks.map fun entry => entry.task.id) =
      (s.scheduledTasks.map fun entry => entry.task.id).filter (fun id => !c.touches id) ++
        (c.added.map fun entry => entry.task.id).toList := by
    rw [added_apply, List.map_append, List.filter_map]
    cases c.added <;> rfl
  refine ⟨?_, ?_, ?_, ?_, ?_⟩
  · cases c <;> exact h.running
  · rw [hids]
    refine List.nodup_append.mpr ⟨h.nodup.filter _, ?_, ?_⟩
    · cases c.added <;> simp
    · rintro x hx y hy rfl
      obtain ⟨entry, hentry, rfl⟩ := Option.map_eq_some_iff.mp (Option.mem_toList.mp hy)
      have htouches := touches_added hentry
      have huntouched := (List.mem_filter.mp hx).2
      rw [htouches] at huntouched
      cases huntouched
  · rw [hids]
    have hadded : addedIds (ts ++ [⟨s, .call c, c.apply s⟩]) =
        addedIds ts ++ (c.added.map fun entry => entry.task.id).toList := by
      rw [addedIds, List.filterMap_append]
      cases hc : c.added <;> simp [addedIds, addedBy, Event.callOf, hc]
    rw [hadded]
    cases hc : c.added with
    | none => simpa using List.filter_sublist.trans h.order
    | some entry =>
      have hfilter : (s.scheduledTasks.map fun entry => entry.task.id).filter (fun id => !c.touches id) =
          (s.scheduledTasks.map fun entry => entry.task.id).filter (· ≠ entry.task.id) := by
        refine List.filter_congr fun id _ => ?_
        cases c <;> simp only [Call.added, Option.some.injEq, reduceCtorEq] at hc <;> subst hc <;>
          simp [Call.touches, eq_comm]
      rw [Option.map_some, Option.toList_some, dedup_concat, hfilter]
      exact (h.order.filter _).append_right _
  · exact current_apply h.current rfl
  · intro us a vs entry hts hadded hrecurring hvs
    rcases split_concat hts with ⟨rfl, rfl, rfl⟩ | ⟨vs, rfl, hbefore⟩
    · have hc : c.added = some entry := hadded
      rw [under_apply_of_touches (touches_added hc), hc]
      simp
    · have huntouched : c.touches entry.task.id = false :=
        hvs ⟨s, .call c, c.apply s⟩ (by simp)
      have hunder := h.once us a vs entry hbefore hadded hrecurring fun v hv => hvs v (by simp [hv])
      rw [under_apply huntouched, hunder]
      simp [Event.isTickFor]

theorem Kept.tick (h : Kept ts s) :
    Kept (ts ++ [⟨s, .tick now executed, { s with scheduledTasks := (collect now s.scheduledTasks).1 }⟩])
      { s with scheduledTasks := (collect now s.scheduledTasks).1 } := by
  have hadded : addedIds (ts ++ [⟨s, .tick now executed,
      { s with scheduledTasks := (collect now s.scheduledTasks).1 }⟩]) = addedIds ts := by
    simp [addedIds, addedBy, Event.callOf]
  refine ⟨h.running, (map_id_collect now _).nodup h.nodup, ?_, ?_, ?_⟩
  · rw [hadded]
    exact (map_id_collect now _).trans h.order
  · intro e he
    obtain ⟨e', he', htask⟩ := exists_of_mem_collect he
    rw [← htask]
    exact (h.current e' he').concat rfl
  · intro us a vs entry hts hadded hrecurring hvs
    rcases split_concat hts with ⟨-, rfl, -⟩ | ⟨vs, rfl, hbefore⟩
    · cases hadded
    · have hunder := h.once us a vs entry hbefore hadded hrecurring fun v hv => hvs v (by simp [hv])
      rw [under_collect, hunder, List.all_append]
      cases hall : vs.all fun v => !v.label.isTickFor entry with
      | true => cases hdue : entry.isDue now <;> simp [hrecurring, hdue, Event.isTickFor]
      | false => simp

/-! ### The order of a tick -/

theorem dueInOrder_perm : (s.dueInOrder now).Perm (s.scheduledTasks.filter (·.isDue now)) :=
  stableSort_perm

theorem nodup_of_map_id {l : List (SchedulerEntry μ)}
    (h : (l.map fun entry => entry.task.id).Nodup) : (l.map (·.task)).Nodup := by
  have hmap : (l.map fun entry => entry.task.id) = (l.map (·.task)).map (·.id) := by
    rw [List.map_map]
    rfl
  rw [hmap] at h
  exact h.of_map

/-- Two orders of entries with different tasks are the same when their tasks come in the same order. -/
theorem eq_of_map_task {l l' : List (SchedulerEntry μ)} (hl : (l.map (·.task)).Nodup)
    (hperm : l'.Perm l) (h : l'.map (·.task) = l.map (·.task)) : l' = l := by
  refine List.ext_getElem hperm.length_eq fun i hi' hi => ?_
  have htask : l'[i].task = l[i].task := by
    have hmap := congrArg (·[i]?) h
    simpa [List.getElem?_eq_getElem hi', List.getElem?_eq_getElem hi] using hmap
  exact List.inj_on_of_nodup_map hl (hperm.subset (List.getElem_mem hi')) (List.getElem_mem hi) htask

variable [DecidableEq μ]

theorem kept_of_run (hrun : (scheduler μ).Run ts s) : Kept ts s := by
  refine hrun.invariant_along (C := fun _ _ => True) (fun s hs => ?_) (fun ts s l s' hstep _ h => ?_)
    fun _ _ => trivial
  · obtain rfl : s = _ := hs
    exact kept_init
  · cases l with
    | call c =>
      obtain rfl := Option.some.inj hstep
      exact h.call
    | tick now executed =>
      obtain ⟨rfl, -⟩ := (step_tick h.running).mp hstep
      exact h.tick

/-- **A tick executes the due tasks in their order**, however `sort` orders equal times, exactly when the
times it sorts them by increase in that order. -/
theorem inOrder_iff (h : Kept ts s) :
    (∀ executed s', s.step (.tick now executed) = some s' →
      executed.map (·.task) = (s.dueInOrder now).map (·.task)) ↔ s.TimesIncrease now := by
  set l := (s.dueInOrder now).map (·.reschedule now) with hl
  have hperm : ((s.scheduledTasks.filter (·.isDue now)).map (·.reschedule now)).Perm l :=
    (dueInOrder_perm.map _).symm
  have htasks : l.map (·.task) = (s.dueInOrder now).map (·.task) := by
    rw [hl, List.map_map]
    exact List.map_congr_left fun entry _ => task_reschedule entry
  have hnodup : (l.map (·.task)).Nodup := by
    rw [htasks]
    exact nodup_of_map_id
      ((dueInOrder_perm.map _).nodup_iff.mpr ((List.filter_sublist.map _).nodup h.nodup))
  have hstep : ∀ executed, (∃ s', s.step (.tick now executed) = some s') ↔
      executed.Perm l ∧ SortedBy (·.nextOccurenceMs) executed := by
    intro executed
    have hsort : (∃ s', s.step (.tick now executed) = some s') ↔
        IsSort ((s.scheduledTasks.filter (·.isDue now)).map (·.reschedule now)) executed := by
      simp only [step_tick h.running, exists_eq_left]
    rw [hsort, IsSort, hperm.congr_right]
    rfl
  have honly : (∀ l', l'.Perm l → SortedBy (·.nextOccurenceMs) l' → l' = l) ↔
      l.Pairwise fun a b => a.nextOccurenceMs < b.nextOccurenceMs :=
    sorts_only_to_iff (List.Nodup.of_map _ hnodup)
  have hincrease : (l.Pairwise fun a b => a.nextOccurenceMs < b.nextOccurenceMs) ↔
      s.TimesIncrease now := List.pairwise_map
  rw [← hincrease, ← honly, ← htasks]
  constructor
  · intro hexecuted executed hexecutedPerm hsorted
    obtain ⟨s', hs'⟩ := (hstep executed).mpr ⟨hexecutedPerm, hsorted⟩
    exact eq_of_map_task hnodup hexecutedPerm (hexecuted executed s' hs')
  · intro honly executed s' hs'
    obtain ⟨hexecutedPerm, hsorted⟩ := (hstep executed).mp ⟨s', hs'⟩
    rw [honly executed hexecutedPerm hsorted]

/-- The entries a tick executes belong to current tasks, and to non-recurring ones once. -/
theorem executes_of_step (h : Kept ts s) (hstep : s.step (.tick now executed) = some s') :
    (∀ e ∈ executed, IsCurrent Event.callOf ts e.task) ∧ RunsOnce ts now executed := by
  obtain ⟨-, hperm, -⟩ := (step_tick h.running).mp hstep
  constructor
  · intro e he
    obtain ⟨entry, hentry, rfl⟩ := List.mem_map.mp (hperm.subset he)
    rw [task_reschedule]
    exact h.current entry (List.mem_filter.mp hentry).1
  · intro us a vs entry hts hadded hrecurring hvs
    have hunder := h.once us a vs entry hts hadded hrecurring hvs
    have hfilter := hperm.filter fun e => e.task.id = entry.task.id
    rw [under_toExecute, hunder] at hfilter
    cases hall : vs.all fun v => !v.label.isTickFor entry with
    | true =>
      rw [hall, if_pos rfl] at hfilter
      cases hdue : entry.isDue now with
      | true => simpa [hdue, SchedulerEntry.reschedule, hrecurring] using hfilter
      | false => simpa [hdue] using hfilter
    | false => simpa [hall] using hfilter

/-- **How the scheduler serves its callers:** after every run, a tick at a time does what it should exactly
when the times by which it sorts the due tasks increase in the order in which they are to run. -/
theorem serves_iff (hrun : (scheduler μ).Run ts s) (now : ℤ) :
    Serves ts s now ↔ s.TimesIncrease now := by
  have h := kept_of_run hrun
  constructor
  · intro hserves
    exact (inOrder_iff h).mp hserves.inOrder
  · intro hincrease
    exact ⟨h.nodup, h.order, fun executed s' hstep => (executes_of_step h hstep).1,
      fun executed s' hstep => (executes_of_step h hstep).2, (inOrder_iff h).mpr hincrease⟩

/-- Two tasks that are done once, at their times, and one that comes back. -/
theorem serves_iff_example : ∃ ts s, (scheduler ℕ).Run ts s ∧ Serves ts s 20 := by
  obtain ⟨ts, s, hrun, h⟩ := Machine.exists_run (M := scheduler ℕ) (s := { state := .running })
    [.call (.addTask ⟨1, 5, false, 0⟩ 20), .call (.addTask ⟨2, 5, true, 1⟩ 20),
      .call (.addTask ⟨3, 0, false, 2⟩ 10), .tick 15 [⟨⟨3, 0, false, 2⟩, 10⟩]]
    (fun _ s => decide (s.TimesIncrease 20)) rfl (by decide +kernel)
  exact ⟨ts, s, hrun, (serves_iff hrun 20).mpr (of_decide_eq_true h)⟩

/-- Calls after which the scheduler does not serve its callers at a time. -/
theorem not_serves_of_trail {labels : List (Event ℕ)}
    (h : ((scheduler ℕ).trail { state := .running } labels).any
      (fun r => !decide (r.2.TimesIncrease now)) = true) :
    ∃ ts s, (scheduler ℕ).Run ts s ∧ ts.map Transition.label = labels ∧ ¬ Serves ts s now := by
  obtain ⟨ts, s, hrun, hlabels, h⟩ := Machine.exists_run_along (M := scheduler ℕ)
    (s := { state := .running }) labels (fun _ s => !decide (s.TimesIncrease now)) rfl h
  refine ⟨ts, s, hrun, hlabels, fun hserves => ?_⟩
  have hincrease := (inOrder_iff (kept_of_run hrun)).mp hserves.inOrder
  simp [hincrease] at h

/-- A recurring task that was due first runs after one that is done once, and two tasks that are done once
and due at the same time may run in either order. -/
theorem exists_not_serves :
    (∃ ts s, (scheduler ℕ).Run ts s ∧
      ts.map Transition.label =
        [.call (.addTask ⟨1, 100, true, 0⟩ 10), .call (.addTask ⟨2, 0, false, 1⟩ 20)] ∧
      ¬ Serves ts s 20) ∧
    ∃ ts s, (scheduler ℕ).Run ts s ∧
      ts.map Transition.label =
        [.call (.addTask ⟨1, 0, false, 0⟩ 20), .call (.addTask ⟨2, 0, false, 1⟩ 20)] ∧
      ¬ Serves ts s 20 :=
  ⟨not_serves_of_trail (by decide +kernel), not_serves_of_trail (by decide +kernel)⟩

end HueStream.Scheduling
