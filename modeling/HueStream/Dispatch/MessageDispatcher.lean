import HueStream.Lib.Run

/-! # The message dispatcher

`MessageDispatcher` runs the functions of its queue one after another on a thread of its own. What a thread
does under `_mutex` is one step, and an action ends at some time. `Execute` and `Stop` write `_thread` without
the mutex, so one thread at a time may be in them; it is none of the threads of the dispatcher, which would
join itself. `Execute` takes a new thread, as everywhere in the library.

* `dispatched_in_order`: the actions run one at a time, in the order in which they were queued, as long as
  `Execute` is not called while a loop goes on;
* `nothing_runs_after_stop`: what `Stop` leaves when it returns;
* `loop_ends_after_stop`: the loop ends after at most three more steps. -/

namespace HueStream.Dispatch

open HueStream.Lib

/-- Where a thread is in `Loop`. -/
inductive LoopPoint
  /-- It has not set `_isRunning` yet. -/
  | start
  /-- In the wait for an action. -/
  | head
  /-- It has taken an action and released the mutex. -/
  | took (action : ℕ)
  /-- It is in the action. -/
  | act (action : ℕ)
  | finished
deriving DecidableEq

namespace LoopPoint

/-- The action it has taken and not finished. -/
def action : LoopPoint → Option ℕ
  | .took action | .act action => some action
  | _ => none

def running : LoopPoint → Option ℕ
  | .act action => some action
  | _ => none

/-- How many steps a loop can make when the dispatcher does not run any more. -/
def steps : LoopPoint → ℕ
  | .finished => 0
  | .start | .head => 1
  | .act _ => 2
  | .took _ => 3

end LoopPoint

/-- Where a call of `Execute` or `Stop` is. -/
inductive DispatcherCall
  /-- `Execute` is about to create the thread. -/
  | creating
  /-- `Execute` has a new thread, and the old one is joined when its object goes. -/
  | replacing (loop : ℕ)
  /-- In `WaitUntilStarted`. -/
  | waiting
  /-- `Stop` joins the thread. -/
  | joining (loop : ℕ)
deriving DecidableEq

/-- `MessageDispatcher`; the actions are numbered in the order in which they are queued, and the loops in the
order of their threads. -/
structure MessageDispatcher where
  /-- `_queue`, the newest action first. -/
  queue : List ℕ := []
  isRunning : Bool := false
  loops : List LoopPoint := []
  /-- The loop of `_thread`. -/
  thread : Option ℕ := none
  call : Option DispatcherCall := none
  queued : ℕ := 0
  started : List ℕ := []
  ended : List ℕ := []

/-- What can happen: an action is queued, a loop goes on, the action of a loop ends, `Execute` or `Stop` is
called, or the call goes on. -/
inductive DispatcherLabel
  | queue
  | go (loop : ℕ)
  | finish (loop : ℕ)
  | execute
  | stop
  | proceed
deriving DecidableEq

/-- A step of a loop. -/
def DispatcherLabel.isWork : DispatcherLabel → Bool
  | .go _ | .finish _ => true
  | _ => false

namespace MessageDispatcher

variable (s : MessageDispatcher)

def setLoop (i : ℕ) (p : LoopPoint) : MessageDispatcher := { s with loops := s.loops.set i p }

/-- The actions that were taken and are not over. -/
def actions : List ℕ := s.loops.filterMap LoopPoint.action

def running : List ℕ := s.loops.filterMap LoopPoint.running

/-- `Queue`. -/
def enqueue : MessageDispatcher := { s with queue := s.queued :: s.queue, queued := s.queued + 1 }

/-- A step of `Loop`. -/
def go (i : ℕ) : Option MessageDispatcher :=
  match s.loops[i]? with
  | some .start => some ({ s with isRunning := true }.setLoop i .head)
  | some .head =>
    if s.isRunning then
      s.queue.getLast?.map fun action => { s with queue := s.queue.dropLast }.setLoop i (.took action)
    else some (s.setLoop i .finished)
  | some (.took action) => some ({ s with started := s.started ++ [action] }.setLoop i (.act action))
  | some (.act _) | some .finished | none => none

/-- The action is over. -/
def finish (i : ℕ) : Option MessageDispatcher :=
  match s.loops[i]? with
  | some (.act action) => some ({ s with ended := s.ended ++ [action] }.setLoop i .head)
  | _ => none

/-- The beginning of `Execute`. -/
def execute : Option MessageDispatcher :=
  if s.call.isNone then some { s with isRunning := false, call := some .creating } else none

/-- `Stop`, until it joins the thread if there is one. -/
def stop : Option MessageDispatcher :=
  if s.call.isNone then some { s with isRunning := false, call := s.thread.map .joining } else none

/-- A step of the call. -/
def proceed : Option MessageDispatcher :=
  s.call.bind fun
    | .creating => some { s with
        loops := s.loops ++ [.start]
        thread := some s.loops.length
        call := some (s.thread.elim .waiting .replacing) }
    | .replacing i => if s.loops[i]? = some .finished then some { s with call := some .waiting } else none
    | .waiting => if s.isRunning then some { s with call := none } else none
    | .joining i => if s.loops[i]? = some .finished then some { s with thread := none, call := none } else none

def step : DispatcherLabel → Option MessageDispatcher
  | .queue => some s.enqueue
  | .go i => s.go i
  | .finish i => s.finish i
  | .execute => s.execute
  | .stop => s.stop
  | .proceed => s.proceed

end MessageDispatcher

/-- A dispatcher that nothing was done with. -/
def messageDispatcher : Machine MessageDispatcher DispatcherLabel where
  Init s := s = {}
  step := MessageDispatcher.step

/-! ### What a step can do -/

section Steps

variable {s s' s₁ : MessageDispatcher} {l : DispatcherLabel} {p p' : LoopPoint} {i : ℕ}

/-- A loop goes from one point to another, and what happens to the actions on the way. -/
inductive LoopStep (s : MessageDispatcher) : LoopPoint → LoopPoint → MessageDispatcher → Prop
  | start : LoopStep s .start .head { s with isRunning := true }
  | take {queue : List ℕ} {action : ℕ} (hrunning : s.isRunning = true) (hqueue : s.queue = queue ++ [action]) :
      LoopStep s .head (.took action) { s with queue }
  | leave (hrunning : s.isRunning = false) : LoopStep s .head .finished s
  | call {action : ℕ} : LoopStep s (.took action) (.act action) { s with started := s.started ++ [action] }
  | finish {action : ℕ} : LoopStep s (.act action) .head { s with ended := s.ended ++ [action] }

/-- What a step can do. -/
inductive DispatcherStep (s : MessageDispatcher) : DispatcherLabel → MessageDispatcher → Prop
  | queue : DispatcherStep s .queue s.enqueue
  | work {l : DispatcherLabel} {i : ℕ} {p p' : LoopPoint} {s₁ : MessageDispatcher} (hl : l.isWork = true)
      (hloop : s.loops[i]? = some p) (h : LoopStep s p p' s₁) : DispatcherStep s l (s₁.setLoop i p')
  | execute (hcall : s.call = none) :
      DispatcherStep s .execute { s with isRunning := false, call := some .creating }
  | stop (hcall : s.call = none) :
      DispatcherStep s .stop { s with isRunning := false, call := s.thread.map .joining }
  | create (hcall : s.call = some .creating) : DispatcherStep s .proceed { s with
      loops := s.loops ++ [.start]
      thread := some s.loops.length
      call := some (s.thread.elim .waiting .replacing) }
  | replaced {j : ℕ} (hcall : s.call = some (.replacing j)) (hloop : s.loops[j]? = some .finished) :
      DispatcherStep s .proceed { s with call := some .waiting }
  | running (hcall : s.call = some .waiting) (hrunning : s.isRunning = true) :
      DispatcherStep s .proceed { s with call := none }
  | joined {j : ℕ} (hcall : s.call = some (.joining j)) (hloop : s.loops[j]? = some .finished) :
      DispatcherStep s .proceed { s with thread := none, call := none }

theorem loop_cases (h : s.go i = some s') : DispatcherStep s (.go i) s' := by
  unfold MessageDispatcher.go at h
  split at h
  · rename_i hloop
    cases h
    exact .work rfl hloop .start
  · rename_i hloop
    split_ifs at h with hrunning
    · obtain ⟨action, hlast, rfl⟩ := Option.map_eq_some_iff.mp h
      have hqueue := (List.dropLast_append_getLast? action hlast).symm
      exact .work rfl hloop (.take hrunning hqueue)
    · cases h
      exact .work rfl hloop (.leave (by simpa using hrunning))
  · rename_i hloop
    cases h
    exact .work rfl hloop .call
  all_goals cases h

theorem proceed_cases (h : s.proceed = some s') : DispatcherStep s .proceed s' := by
  obtain ⟨c, hcall, h⟩ := Option.bind_eq_some_iff.mp h
  cases c with
  | creating =>
    cases h
    exact .create hcall
  | replacing j =>
    dsimp only at h
    split_ifs at h with hloop
    cases h
    exact .replaced hcall hloop
  | waiting =>
    dsimp only at h
    split_ifs at h with hrunning
    cases h
    exact .running hcall hrunning
  | joining j =>
    dsimp only at h
    split_ifs at h with hloop
    cases h
    exact .joined hcall hloop

theorem dispatcher_cases (h : s.step l = some s') : DispatcherStep s l s' := by
  cases l with
  | queue =>
    cases h
    exact .queue
  | go i => exact loop_cases h
  | finish i =>
    simp only [MessageDispatcher.step, MessageDispatcher.finish] at h
    split at h
    · rename_i hloop
      cases h
      exact .work rfl hloop .finish
    · cases h
  | execute =>
    simp only [MessageDispatcher.step, MessageDispatcher.execute] at h
    split_ifs at h with hcall
    cases h
    exact .execute (by simpa using hcall)
  | stop =>
    simp only [MessageDispatcher.step, MessageDispatcher.stop] at h
    split_ifs at h with hcall
    cases h
    exact .stop (by simpa using hcall)
  | proceed => exact proceed_cases h

theorem LoopStep.frame (h : LoopStep s p p' s₁) : s₁.loops = s.loops ∧ s₁.thread = s.thread ∧
    s₁.call = s.call ∧ p ≠ .finished ∧ p' ≠ .start ∧ (p ≠ .start → s₁.isRunning = s.isRunning) := by
  cases h with
  | start => exact ⟨rfl, rfl, rfl, by simp, by simp, fun h => absurd rfl h⟩
  | _ => exact ⟨rfl, rfl, rfl, by simp, by simp, fun _ => rfl⟩

/-! ### Which loops there are -/

/-- A loop that is not finished is the one of `_thread`, or the one that `Execute` has just replaced; and no
call but `Execute` finds a loop at its start. -/
structure LoopsKnown (s : MessageDispatcher) : Prop where
  alive : ∀ i p, s.loops[i]? = some p → p ≠ .finished → s.thread = some i ∨ s.call = some (.replacing i)
  thread : ∀ i, s.thread = some i → i < s.loops.length
  start : ∀ i, s.loops[i]? = some .start → s.thread = some i ∧ s.isRunning = false ∧
    (s.call = some .waiting ∨ ∃ j, s.call = some (.replacing j))
  creating : s.call = some .creating → s.isRunning = false
  joining : ∀ j, s.call = some (.joining j) → s.thread = some j ∧ s.isRunning = false

theorem LoopsKnown.of_work (h : LoopsKnown s) (hloop : s.loops[i]? = some p) (hw : LoopStep s p p' s₁) :
    LoopsKnown (s₁.setLoop i p') := by
  obtain ⟨hloops, hthread, hcall, hp, hp', hsame⟩ := hw.frame
  have hat (j : ℕ) (q : LoopPoint) (hj : (s₁.setLoop i p').loops[j]? = some q) :
      j = i ∧ q = p' ∨ j ≠ i ∧ s.loops[j]? = some q := by
    have hset : (s₁.loops.set i p')[j]? = some q := hj
    rw [hloops] at hset
    by_cases hij : j = i
    · subst hij
      obtain ⟨hlt, -⟩ := List.getElem?_eq_some_iff.mp hloop
      rw [List.getElem?_set_self hlt] at hset
      exact .inl ⟨rfl, (Option.some.inj hset).symm⟩
    · rw [List.getElem?_set_ne (Ne.symm hij)] at hset
      exact .inr ⟨hij, hset⟩
  have hrunning (hc : s.call = some .creating ∨ ∃ j, s.call = some (.joining j)) :
      s₁.isRunning = s.isRunning := by
    refine hsame ?_
    rintro rfl
    obtain ⟨-, -, hstart⟩ := h.start i hloop
    rcases hc with hc | ⟨j, hc⟩ <;> rw [hc] at hstart <;> simp at hstart
  refine ⟨fun j q hj hq => ?_, fun j hj => ?_, fun j hj => ?_, fun hc => ?_, fun j hc => ?_⟩
  · change s₁.thread = some j ∨ s₁.call = some (.replacing j)
    rw [hthread, hcall]
    rcases hat j q hj with ⟨rfl, rfl⟩ | ⟨-, hj⟩
    · exact h.alive j p hloop hp
    · exact h.alive j q hj hq
  · change j < (s₁.loops.set i p').length
    rw [List.length_set, hloops]
    exact h.thread j (hthread.symm.trans hj)
  · rcases hat j _ hj with ⟨-, hq⟩ | ⟨hij, hj⟩
    · exact absurd hq.symm hp'
    · obtain ⟨hj', hfalse, hstart⟩ := h.start j hj
      have hne : p ≠ .start := by
        rintro rfl
        obtain ⟨hi, -⟩ := h.start i hloop
        exact hij (Option.some.inj (hj'.symm.trans hi))
      exact ⟨hthread.trans hj', (hsame hne).trans hfalse, hcall.symm ▸ hstart⟩
  · have hc' : s.call = some .creating := hcall.symm.trans hc
    exact (hrunning (.inl hc')).trans (h.creating hc')
  · have hc' : s.call = some (.joining j) := hcall.symm.trans hc
    obtain ⟨hj, hfalse⟩ := h.joining j hc'
    exact ⟨hthread.trans hj, (hrunning (.inr ⟨j, hc'⟩)).trans hfalse⟩

/-- No loop is at its start when no call is made. -/
theorem LoopsKnown.not_start (h : LoopsKnown s) (hcall : s.call = none) (i : ℕ) :
    s.loops[i]? ≠ some .start := by
  intro hi
  obtain ⟨-, -, hstart⟩ := h.start i hi
  simp [hcall] at hstart

/-- A call begins: the loops stay, and the only one that goes on is the one of `_thread`. -/
theorem LoopsKnown.begin (h : LoopsKnown s) (hcall : s.call = none) {c : Option DispatcherCall}
    (hc : ∀ j, c = some (.joining j) → s.thread = some j) :
    LoopsKnown { s with isRunning := false, call := c } := by
  refine ⟨fun j q hj hq => ?_, h.thread, fun j hj => absurd hj (h.not_start hcall j), fun _ => rfl,
    fun j hj => ⟨hc j hj, rfl⟩⟩
  have halive := h.alive j q hj hq
  rw [hcall] at halive
  exact .inl (halive.resolve_right (by simp))

theorem LoopsKnown.create (h : LoopsKnown s) (hcall : s.call = some .creating) : LoopsKnown { s with
    loops := s.loops ++ [.start]
    thread := some s.loops.length
    call := some (s.thread.elim .waiting .replacing) } := by
  have hold (j : ℕ) (q : LoopPoint) (hj : (s.loops ++ [LoopPoint.start])[j]? = some q) :
      j = s.loops.length ∧ q = .start ∨ s.loops[j]? = some q := by
    rcases lt_trichotomy j s.loops.length with hlt | rfl | hlt
    · rw [List.getElem?_append_left hlt] at hj
      exact .inr hj
    · simp at hj
      exact .inl ⟨rfl, hj.symm⟩
    · rw [List.getElem?_eq_none (by simp; omega)] at hj
      cases hj
  have hthread : s.thread.elim DispatcherCall.waiting .replacing = .waiting ∨
      ∃ j, s.thread.elim DispatcherCall.waiting .replacing = .replacing j := by
    cases s.thread with
    | none => exact .inl rfl
    | some j => exact .inr ⟨j, rfl⟩
  refine ⟨fun j q hj hq => ?_, fun j hj => ?_, fun j hj => ?_, fun hc => ?_, fun j hc => ?_⟩
  · rcases hold j q hj with ⟨rfl, -⟩ | hj
    · exact .inl rfl
    · have halive := h.alive j q hj hq
      rw [hcall] at halive
      have hi := halive.resolve_right (by simp)
      exact .inr (by simp [hi])
  · obtain rfl := Option.some.inj hj
    simp
  · rcases hold j _ hj with ⟨rfl, -⟩ | hj
    · refine ⟨rfl, h.creating hcall, ?_⟩
      simpa using hthread
    · obtain ⟨-, -, hstart⟩ := h.start j hj
      simp [hcall] at hstart
  · rcases hthread with heq | ⟨i, heq⟩ <;> simp [heq] at hc
  · rcases hthread with heq | ⟨i, heq⟩ <;> simp [heq] at hc

/-- All loops are finished when the one of `_thread` is and none is being replaced. -/
theorem LoopsKnown.all_finished (h : LoopsKnown s) (hcall : ∀ j, s.call ≠ some (.replacing j))
    (hthread : ∀ j, s.thread = some j → s.loops[j]? = some .finished) : ∀ p ∈ s.loops, p = .finished := by
  intro p hp
  obtain ⟨i, hi⟩ := List.getElem?_of_mem hp
  by_contra hne
  have hfinished := hthread i ((h.alive i p hi hne).resolve_right (hcall i))
  rw [hi] at hfinished
  exact hne (Option.some.inj hfinished)

/-- All loops are finished when `Stop` has joined the thread. -/
theorem LoopsKnown.finished_of_joined (h : LoopsKnown s) {j : ℕ} (hcall : s.call = some (.joining j))
    (hloop : s.loops[j]? = some .finished) : ∀ p ∈ s.loops, p = .finished := by
  refine h.all_finished (by simp [hcall]) fun i hi => ?_
  obtain rfl := Option.some.inj ((h.joining j hcall).1.symm.trans hi)
  exact hloop

theorem LoopsKnown.of_step (h : LoopsKnown s) (hs : DispatcherStep s l s') : LoopsKnown s' := by
  cases hs with
  | queue => exact ⟨h.alive, h.thread, h.start, h.creating, h.joining⟩
  | work _ hloop hw => exact h.of_work hloop hw
  | execute hcall => exact h.begin hcall (by simp)
  | stop hcall => exact h.begin hcall (by simp)
  | create hcall => exact h.create hcall
  | @replaced j hcall hloop =>
    refine ⟨fun i q hi hq => ?_, h.thread, fun i hi => ?_, by simp, by simp⟩
    · have halive := h.alive i q hi hq
      rw [hcall] at halive
      refine .inl (halive.resolve_right fun heq => ?_)
      obtain rfl : j = i := by simpa using heq
      rw [hloop] at hi
      exact hq (Option.some.inj hi).symm
    · obtain ⟨hi, hfalse, -⟩ := h.start i hi
      exact ⟨hi, hfalse, .inl rfl⟩
  | running hcall hrunning =>
    refine ⟨fun i q hi hq => ?_, h.thread, fun i hi => ?_, by simp, by simp⟩
    · have halive := h.alive i q hi hq
      rw [hcall] at halive
      exact .inl (halive.resolve_right (by simp))
    · obtain ⟨-, hfalse, -⟩ := h.start i hi
      rw [hrunning] at hfalse
      cases hfalse
  | @joined j hcall hloop =>
    have hall := h.finished_of_joined hcall hloop
    refine ⟨fun i q hi hq => absurd (hall q (List.mem_of_getElem? hi)) hq, by simp, fun i hi => ?_, by simp,
      by simp⟩
    cases hall _ (List.mem_of_getElem? hi)

theorem LoopsKnown.of_run (h : messageDispatcher.Reachable s) : LoopsKnown s := by
  refine h.invariant ?_ fun s l s' hstep hs => hs.of_step (dispatcher_cases hstep)
  rintro _ rfl
  exact ⟨by simp, by simp, by simp, by simp, by simp⟩

/-! ### One action at a time -/

/-- The actions are run in turn, by the loop of `_thread`. -/
structure InTurn (s : MessageDispatcher) : Prop where
  order : s.ended ++ s.actions ++ s.queue.reverse = List.range s.queued
  started : s.started = s.ended ++ s.running
  single : ∀ i p, s.loops[i]? = some p → p ≠ .finished → s.thread = some i
  creating : s.call = some .creating → ∀ p ∈ s.loops, p = .finished

theorem InTurn.of_work (h : InTurn s) (hloop : s.loops[i]? = some p) (hw : LoopStep s p p' s₁) :
    InTurn (s₁.setLoop i p') := by
  obtain ⟨hloops, hthread, hcall, hp, -, -⟩ := hw.frame
  have hi := h.single i p hloop hp
  obtain ⟨hlt, -⟩ := List.getElem?_eq_some_iff.mp hloop
  have hothers (j : ℕ) (q : LoopPoint) (hj : s.loops[j]? = some q) (hne : j ≠ i) : q = .finished := by
    by_contra hq
    exact hne (Option.some.inj ((h.single j q hj hq).symm.trans hi))
  have hbefore {f : LoopPoint → Option ℕ} (hf : f .finished = none) :
      s.loops.filterMap f = (f p).toList := by
    have heq := filterMap_eq_toList (f := f) fun j q hj hne => hothers j q hj hne ▸ hf
    rwa [hloop] at heq
  have hafter {f : LoopPoint → Option ℕ} (hf : f .finished = none) :
      (s.loops.set i p').filterMap f = (f p').toList := by
    have heq := filterMap_eq_toList (l := s.loops.set i p') (f := f) (i := i) fun j q hj hne => by
      rw [List.getElem?_set_ne (Ne.symm hne)] at hj
      exact hothers j q hj hne ▸ hf
    rwa [List.getElem?_set_self hlt] at heq
  have horder := h.order
  have hstarted := h.started
  rw [MessageDispatcher.actions, hbefore rfl] at horder
  rw [MessageDispatcher.running, hbefore rfl] at hstarted
  refine ⟨?_, ?_, fun j q hj hq => ?_, fun hc q hq => ?_⟩
  · change s₁.ended ++ (s₁.loops.set i p').filterMap LoopPoint.action ++ s₁.queue.reverse = List.range s₁.queued
    rw [hloops, hafter rfl]
    cases hw with
    | take _ hqueue =>
      rw [hqueue] at horder
      simpa [LoopPoint.action] using horder
    | _ => simpa [LoopPoint.action] using horder
  · change s₁.started = s₁.ended ++ (s₁.loops.set i p').filterMap LoopPoint.running
    rw [hloops, hafter rfl]
    cases hw with
    | _ => simpa [LoopPoint.running] using hstarted
  · change s₁.thread = some j
    have hset : (s₁.loops.set i p')[j]? = some q := hj
    rw [hloops] at hset
    rw [hthread]
    by_cases hij : j = i
    · exact hij ▸ hi
    · rw [List.getElem?_set_ne (Ne.symm hij)] at hset
      exact h.single j q hset hq
  · have hfinished := h.creating (hcall.symm.trans hc) p (List.mem_of_getElem? hloop)
    exact absurd hfinished hp

theorem InTurn.of_step (h : InTurn s) (hknown : LoopsKnown s) (hs : DispatcherStep s l s')
    (hexecute : l = .execute → ∀ p ∈ s.loops, p = .finished) : InTurn s' := by
  cases hs with
  | queue =>
    refine ⟨?_, h.started, h.single, h.creating⟩
    have horder := h.order
    simp only [MessageDispatcher.enqueue, MessageDispatcher.actions] at horder ⊢
    rw [List.reverse_cons, ← List.append_assoc, horder, List.range_succ]
  | work _ hloop hw => exact h.of_work hloop hw
  | execute => exact ⟨h.order, h.started, h.single, fun _ => hexecute rfl⟩
  | stop => exact ⟨h.order, h.started, h.single, fun hc => by simp at hc⟩
  | create hcall =>
    have hall := h.creating hcall
    refine ⟨?_, ?_, fun j q hj hq => ?_, fun hc => ?_⟩
    · have hactions : (s.loops ++ [LoopPoint.start]).filterMap LoopPoint.action = s.actions := by
        rw [List.filterMap_append]
        exact List.append_nil _
      change s.ended ++ (s.loops ++ [LoopPoint.start]).filterMap LoopPoint.action ++ s.queue.reverse =
        List.range s.queued
      rw [hactions]
      exact h.order
    · have hrunning : (s.loops ++ [LoopPoint.start]).filterMap LoopPoint.running = s.running := by
        rw [List.filterMap_append]
        exact List.append_nil _
      change s.started = s.ended ++ (s.loops ++ [LoopPoint.start]).filterMap LoopPoint.running
      rw [hrunning]
      exact h.started
    · rw [List.getElem?_append] at hj
      split_ifs at hj with hlt
      · exact absurd (hall q (List.mem_of_getElem? hj)) hq
      · obtain ⟨hj', -⟩ := List.getElem?_eq_some_iff.mp hj
        simp at hj'
        exact congrArg some (by omega)
    · cases hthread : s.thread <;> simp [hthread] at hc
  | replaced => exact ⟨h.order, h.started, h.single, by simp⟩
  | running => exact ⟨h.order, h.started, h.single, by simp⟩
  | @joined j hcall hloop =>
    have hall := hknown.finished_of_joined hcall hloop
    exact ⟨h.order, h.started, fun i q hi hq => absurd (hall q (List.mem_of_getElem? hi)) hq, by simp⟩

variable {ts us vs : List (Transition MessageDispatcher DispatcherLabel)}
  {t : Transition MessageDispatcher DispatcherLabel}

/-- `Execute`; two actions are queued, and `Stop` is called while the first one is run. -/
def stoppedInAction : List DispatcherLabel :=
  [.execute, .proceed, .go 0, .proceed, .queue, .queue, .go 0, .go 0, .stop, .finish 0, .go 0, .proceed, .queue]

/-- **One action at a time.** As long as `Execute` is called only when no loop goes on, the actions end in the
order in which they were queued, each once; at most one of them is taken and not over, and it is the next. -/
theorem dispatched_in_order (h : messageDispatcher.Run ts s)
    (hexecute : ∀ t ∈ ts, t.label = .execute → ∀ p ∈ t.before.loops, p = .finished) :
    s.ended ++ s.actions ++ s.queue.reverse = List.range s.queued ∧ s.started = s.ended ++ s.running ∧
      s.actions.length ≤ 1 := by
  have hs : LoopsKnown s ∧ InTurn s := by
    refine h.invariant_of (I := fun s => LoopsKnown s ∧ InTurn s)
      (C := fun s l => l = .execute → ∀ p ∈ s.loops, p = .finished) ?_ ?_ hexecute
    · rintro _ rfl
      refine ⟨LoopsKnown.of_run ⟨[], .init rfl⟩, ⟨rfl, rfl, by simp, by simp⟩⟩
    · rintro s l s' hstep hC ⟨hknown, hs⟩
      have hstep' := dispatcher_cases hstep
      exact ⟨hknown.of_step hstep', hs.of_step hknown hstep' hC⟩
  obtain ⟨hknown, hs⟩ := hs
  refine ⟨hs.order, hs.started, ?_⟩
  have hactions := filterMap_eq_toList (l := s.loops) (f := LoopPoint.action) (i := s.thread.getD 0)
    fun j q hj hne => by
      by_contra haction
      have hq : q ≠ .finished := by
        rintro rfl
        exact haction rfl
      exact hne (by rw [hs.single j q hj hq, Option.getD_some])
  rw [MessageDispatcher.actions, hactions]
  exact Option.length_toList_le

theorem dispatched_in_order_example : ∃ ts s, messageDispatcher.Run ts s ∧ s.running = [0] ∧ s.queue = [1] ∧
    s.ended ++ s.actions ++ s.queue.reverse = List.range s.queued ∧ s.started = s.ended ++ s.running ∧
      s.actions.length ≤ 1 := by
  obtain ⟨ts, s, hrun, h⟩ := Machine.exists_run (M := messageDispatcher) (s := {}) (stoppedInAction.take 8)
    (fun ts s => decide (s.running = [0] ∧ s.queue = [1]) &&
      decide (∀ t ∈ ts, t.label = .execute → ∀ p ∈ t.before.loops, p = .finished)) rfl (by decide)
  obtain ⟨hs, hexecute⟩ := Bool.and_eq_true_iff.mp h
  obtain ⟨hrunning, hqueue⟩ := of_decide_eq_true hs
  exact ⟨ts, s, hrun, hrunning, hqueue, dispatched_in_order hrun (of_decide_eq_true hexecute)⟩

/-! ### After `Stop` -/

/-- `Stop` returns: at once, or when it has joined the thread. -/
def MessageDispatcher.Stops (t : Transition MessageDispatcher DispatcherLabel) : Prop :=
  t.label = .stop ∧ t.before.thread = none ∨ t.label = .proceed ∧ ∃ j, t.before.call = some (.joining j)

/-- No loop goes on, and none is about to be created. -/
structure Rests (s : MessageDispatcher) : Prop where
  loops : ∀ p ∈ s.loops, p = .finished
  call : s.call ≠ some .creating

theorem Rests.of_step (h : Rests s) (hs : DispatcherStep s l s') (hexecute : l ≠ .execute) :
    Rests s' ∧ s'.started = s.started := by
  cases hs with
  | queue => exact ⟨⟨h.loops, h.call⟩, rfl⟩
  | work _ hloop hw =>
    have hfinished := h.loops _ (List.mem_of_getElem? hloop)
    exact absurd hfinished hw.frame.2.2.2.1
  | execute => exact absurd rfl hexecute
  | stop => exact ⟨⟨h.loops, by simp⟩, rfl⟩
  | create hcall => exact absurd hcall h.call
  | replaced | running | joined => exact ⟨⟨h.loops, by simp⟩, rfl⟩

theorem rests_of_stops (hknown : LoopsKnown s) (hs : DispatcherStep s l s')
    (hstops : MessageDispatcher.Stops ⟨s, l, s'⟩) : Rests s' := by
  rcases hstops with ⟨hl, hthread⟩ | ⟨hl, j, hj⟩
  · obtain rfl : l = .stop := hl
    have hthread : s.thread = none := hthread
    cases hs with
    | work hl => cases hl
    | stop hcall =>
      refine ⟨hknown.all_finished (by simp [hcall]) fun j hj => ?_, by simp⟩
      rw [hthread] at hj
      cases hj
  · obtain rfl : l = .proceed := hl
    have hj : s.call = some (.joining j) := hj
    cases hs with
    | work hl => cases hl
    | create hcall | replaced hcall | running hcall =>
      rw [hj] at hcall
      cases hcall
    | joined hcall hloop => exact ⟨hknown.finished_of_joined hcall hloop, by simp⟩

/-- **After `Stop` has returned** no action is under way, and until `Execute` is called none starts, whatever
is queued. -/
theorem nothing_runs_after_stop (h : messageDispatcher.Run ts s) (hts : ts = us ++ t :: vs)
    (hstops : MessageDispatcher.Stops t) (hexecute : ∀ v ∈ vs, v.label ≠ .execute) :
    t.after.actions = [] ∧ ∀ v ∈ vs, v.after.started = v.before.started := by
  obtain ⟨hrun, hstep⟩ := h.of_split hts
  have hrests : Rests t.after := rests_of_stops (LoopsKnown.of_run ⟨us, hrun⟩) (dispatcher_cases hstep) hstops
  refine ⟨List.filterMap_eq_nil_iff.mpr fun p hp => ?_, fun v hv => ?_⟩
  · rw [hrests.loops p hp]
    rfl
  · have hbefore := h.before_of_mem_rest_of (C := fun _ l => l ≠ .execute) hts hrests
      (fun s l s' hstep hl hs => (hs.of_step (dispatcher_cases hstep) hl).1) hexecute hv
    have hstep' := dispatcher_cases (h.step_of_mem (t := v) (by simp [hts, hv]))
    exact (hbefore.of_step hstep' (hexecute v hv)).2

theorem nothing_runs_after_stop_example : ∃ ts s us t vs, messageDispatcher.Run ts s ∧ ts = us ++ t :: vs ∧
    t.after.queue = [1] ∧ s.queue = [2, 1] ∧ t.after.actions = [] ∧
      ∀ v ∈ vs, v.after.started = v.before.started := by
  obtain ⟨ts, s, hrun, h⟩ := Machine.exists_run (M := messageDispatcher) (s := {}) stoppedInAction
    (fun ts s => decide (s.queue = [2, 1] ∧ ∀ v ∈ ts.drop 12, v.label ≠ .execute) &&
      ts[11]?.any fun t : Transition MessageDispatcher DispatcherLabel =>
        decide (t.after.queue = [1] ∧ t.label = .proceed ∧ t.before.call = some (.joining 0))) rfl (by decide)
  obtain ⟨hs, h⟩ := Bool.and_eq_true_iff.mp h
  obtain ⟨hqueue, hexecute⟩ := of_decide_eq_true hs
  obtain ⟨t, hts, h⟩ := split_of_any h
  obtain ⟨hbefore, hlabel, hcall⟩ := of_decide_eq_true h
  have hstops : MessageDispatcher.Stops t := .inr ⟨hlabel, 0, hcall⟩
  obtain ⟨hactions, hrest⟩ := nothing_runs_after_stop hrun hts hstops hexecute
  exact ⟨ts, s, _, t, _, hrun, hts, hbefore, hqueue, hactions, hrest⟩

/-- How many steps the loop of `_thread` can still make. -/
def MessageDispatcher.stepsLeft (s : MessageDispatcher) : ℕ :=
  ((s.thread.bind fun i => s.loops[i]?).map LoopPoint.steps).getD 0

theorem stepsLeft_le (s : MessageDispatcher) : s.stepsLeft ≤ 3 := by
  unfold MessageDispatcher.stepsLeft
  cases s.thread.bind fun i => s.loops[i]? with
  | none => exact Nat.zero_le _
  | some p => cases p <;> simp [LoopPoint.steps]

/-- The dispatcher has been stopped. -/
structure Stopped (s : MessageDispatcher) : Prop where
  known : LoopsKnown s
  isRunning : s.isRunning = false
  call : s.call = none ∨ ∃ j, s.call = some (.joining j)

theorem Stopped.not_start (h : Stopped s) (i : ℕ) : s.loops[i]? ≠ some .start := by
  intro hi
  obtain ⟨-, -, hstart⟩ := h.known.start i hi
  rcases h.call with hcall | ⟨j, hcall⟩ <;> simp [hcall] at hstart

theorem Stopped.of_work (h : Stopped s) (hloop : s.loops[i]? = some p) (hw : LoopStep s p p' s₁) :
    Stopped (s₁.setLoop i p') ∧ (s₁.setLoop i p').stepsLeft + 1 ≤ s.stepsLeft := by
  obtain ⟨hloops, hthread, hcall, hp, -, hsame⟩ := hw.frame
  have hne : p ≠ .start := by
    rintro rfl
    exact h.not_start i hloop
  have hi : s.thread = some i := by
    refine (h.known.alive i p hloop hp).resolve_right fun hreplacing => ?_
    rcases h.call with hnone | ⟨j, hjoining⟩
    · simp [hnone] at hreplacing
    · simp [hjoining] at hreplacing
  obtain ⟨hlt, -⟩ := List.getElem?_eq_some_iff.mp hloop
  have hbefore : s.stepsLeft = p.steps := by
    simp [MessageDispatcher.stepsLeft, hi, hloop]
  have hafter : (s₁.setLoop i p').stepsLeft = p'.steps := by
    simp [MessageDispatcher.stepsLeft, MessageDispatcher.setLoop, hthread, hi, hloops, hlt]
  refine ⟨⟨h.known.of_work hloop hw, (hsame hne).trans h.isRunning, ?_⟩, ?_⟩
  · change s₁.call = none ∨ ∃ j, s₁.call = some (.joining j)
    exact hcall ▸ h.call
  · rw [hbefore, hafter]
    cases hw with
    | start => exact absurd rfl hne
    | take hrunning =>
      rw [h.isRunning] at hrunning
      cases hrunning
    | leave | call | finish => simp [LoopPoint.steps]

theorem Stopped.of_step (h : Stopped s) (hs : DispatcherStep s l s') (hexecute : l ≠ .execute) :
    Stopped s' ∧ s'.stepsLeft + (if l.isWork then 1 else 0) ≤ s.stepsLeft := by
  have hknown := h.known.of_step hs
  cases hs with
  | queue => exact ⟨⟨hknown, h.isRunning, h.call⟩, le_rfl⟩
  | work hl hloop hw =>
    rw [if_pos hl]
    exact h.of_work hloop hw
  | execute => exact absurd rfl hexecute
  | stop =>
    refine ⟨⟨hknown, rfl, ?_⟩, le_rfl⟩
    cases s.thread with
    | none => exact .inl rfl
    | some j => exact .inr ⟨j, rfl⟩
  | create hcall | replaced hcall | running hcall =>
    have hcalls := h.call
    rw [hcall] at hcalls
    simp at hcalls
  | joined => exact ⟨⟨hknown, h.isRunning, .inl rfl⟩, Nat.zero_le _⟩

/-- **`Stop` returns.** Once it is called, the loops make at most three steps until `Execute` is called; and as
long as a call of `Stop` is made, a step of a loop, the end of an action or a step of the call is possible. -/
theorem loop_ends_after_stop (h : messageDispatcher.Run ts s) (hts : ts = us ++ t :: vs)
    (hstop : t.label = .stop) (hexecute : ∀ v ∈ vs, v.label ≠ .execute) : vs.countP (fun v => v.label.isWork) ≤ 3 ∧
      (s.call ≠ none → ∃ l, (l.isWork = true ∨ l = .proceed) ∧ (s.step l).isSome) := by
  obtain ⟨hrun, hstep⟩ := h.of_split hts
  have hstopped : Stopped t.after := by
    have hstep' := dispatcher_cases hstep
    have hknown := (LoopsKnown.of_run ⟨us, hrun⟩).of_step hstep'
    generalize t.after = s' at hstep' hknown
    rw [hstop] at hstep'
    cases hstep' with
    | work hl => cases hl
    | stop hcall =>
      refine ⟨hknown, rfl, ?_⟩
      cases t.before.thread with
      | none => exact .inl rfl
      | some j => exact .inr ⟨j, rfl⟩
  obtain ⟨hs, hle⟩ := h.rest_le_of (C := fun _ l => l ≠ .execute) MessageDispatcher.stepsLeft hts hstopped
    (fun s l s' hstep hl hs => hs.of_step (dispatcher_cases hstep) hl) hexecute
  refine ⟨?_, fun hcall => ?_⟩
  · have hbound := stepsLeft_le t.after
    omega
  · obtain ⟨j, hj⟩ := hs.call.resolve_left hcall
    have hlt := hs.known.thread j (hs.known.joining j hj).1
    obtain ⟨p, hp⟩ : ∃ p, s.loops[j]? = some p := ⟨_, List.getElem?_eq_getElem hlt⟩
    cases p with
    | start => exact absurd hp (hs.not_start j)
    | head =>
      exact ⟨.go j, .inl rfl, by simp [MessageDispatcher.step, MessageDispatcher.go, hp, hs.isRunning]⟩
    | took => exact ⟨.go j, .inl rfl, by simp [MessageDispatcher.step, MessageDispatcher.go, hp]⟩
    | act => exact ⟨.finish j, .inl rfl, by simp [MessageDispatcher.step, MessageDispatcher.finish, hp]⟩
    | finished =>
      exact ⟨.proceed, .inr rfl, by simp [MessageDispatcher.step, MessageDispatcher.proceed, hj, hp]⟩

theorem loop_ends_after_stop_example : ∃ ts s us t vs, messageDispatcher.Run ts s ∧ ts = us ++ t :: vs ∧
    t.label = .stop ∧ s.call = some (.joining 0) ∧ vs.countP (fun v => v.label.isWork) ≤ 3 ∧
      ∃ l, (l.isWork = true ∨ l = .proceed) ∧ (s.step l).isSome := by
  obtain ⟨ts, s, hrun, h⟩ := Machine.exists_run (M := messageDispatcher) (s := {}) (stoppedInAction.take 11)
    (fun ts s => decide (s.call = some (.joining 0) ∧ ∀ v ∈ ts.drop 9, v.label ≠ .execute) &&
      ts[8]?.any fun t : Transition MessageDispatcher DispatcherLabel => decide (t.label = .stop))
    rfl (by decide)
  obtain ⟨hs, h⟩ := Bool.and_eq_true_iff.mp h
  obtain ⟨hcall, hexecute⟩ := of_decide_eq_true hs
  obtain ⟨t, hts, h⟩ := split_of_any h
  have hstop := of_decide_eq_true h
  obtain ⟨hle, hgo⟩ := loop_ends_after_stop hrun hts hstop hexecute
  exact ⟨ts, s, _, t, _, hrun, hts, hstop, hcall, hle, hgo (by simp [hcall])⟩

end Steps

end HueStream.Dispatch
