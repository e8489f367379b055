import HueStream.Discovery.BridgeDiscovery

/-! # One search

What its job and its task can be like together, and what the tickets, the methods and `stop` make of it. -/

namespace HueStream.Discovery

open HueStream.Lib HueStream.Threading

variable {s s' : BridgeDiscovery} {q q' : Search} {l : DiscoveryLabel} {n : ℕ}
  {results : List BridgeDiscoveryResult}

namespace Search

/-- Where the ticket that the completion handler posts can be, for each state of the job. -/
def Fits (state : JobState) (finish : DoneTicket) : Prop :=
  match state with
  | .readyToRun | .canceled => finish = .notPosted
  | .running => finish = .notPosted ∨ finish = .pending
  | .dispatching => finish.runs = true
  | .canceling => finish ≠ .over
  | .completed => finish = .over

/-- **What holds of a search**, until it is run and afterwards. -/
structure Sound (q : Search) : Prop where
  count : q.job.count = 1
  fits : Fits q.job.state (q.job.task 0).finish
  /-- Only a search with methods that found no other in progress is run. -/
  started : q.job.state ≠ .readyToRun → q.methods ≠ [] ∧ q.wasSearching = false
  stopTicket : q.job.state = .readyToRun ∨ q.job.state = .running → q.job.stopTicket = false
  /-- Before the task is executed. -/
  pending : (q.job.task 0).execution = .pending → q.task.searching = false ∧ q.task.posted = [] ∧
    (q.job.task 0).finish = .notPosted ∧ q.task.currentDiscoveryMethods ≠ [] ∧
    (q.job.task 0).executeFinished = false
  /-- The completion handler is called when all methods have completed. -/
  finished : (q.job.task 0).finish ≠ .notPosted → q.task.currentDiscoveryMethods = [] ∧
    q.task.completed = q.methods
  /-- Until then the search goes on. -/
  goesOn : q.job.state = .running → (q.job.task 0).finish = .notPosted →
    q.task.completed ++ q.task.currentDiscoveryMethods = q.methods ∧
      q.task.currentDiscoveryMethods ≠ [] ∧
      ((q.job.task 0).execution = .pending ∨ q.task.searching = true ∨ q.task.posted ≠ [])
  results : ∀ r ∈ q.task.results, r ∈ q.task.reported
  posted : ∀ rs ∈ q.task.posted, ∀ r ∈ rs, r ∈ q.task.reported

/-- The answer of a search in progress is still to be posted. -/
def unanswered (q : Search) : Bool :=
  q.job.isActive && (q.job.task 0).finish ≠ .calling

/-- The callback of the job has posted the results. -/
def succeeded (q : Search) : Prop :=
  (q.job.task 0).finish = .calling ∨ (q.job.task 0).finish = .over

end Search

/-- What a step makes of a search, apart from the calls and the callback of the job. -/
inductive SearchStep (s : BridgeDiscovery) (n : ℕ) (q : Search) : DiscoveryLabel → Search → Prop
  | execute (h : (q.job.task 0).execution = .pending) : SearchStep s n q (.execute n) q.execute
  | executeReturns (h : (q.job.task 0).execution = .running) :
      SearchStep s n q (.executeReturns n) { q with job := q.job.executeReturns 0 }
  | discard (hholder : ∃ h ∈ s.holders, h.canceling = n) (h : (q.job.task 0).execution = .pending) :
      SearchStep s n q (.discard n) { q with job := q.job.discard 0 }
  | methodCompletes {results : List BridgeDiscoveryResult} (h : q.task.searching = true) :
      SearchStep s n q (.methodCompletes n results) (q.methodCompletes results)
  | processResults {results : List BridgeDiscoveryResult} {posted : List (List BridgeDiscoveryResult)}
      (h : q.task.posted = results :: posted) :
      SearchStep s n q (.processResults n)
        ({ q with task := { q.task with posted } }.processResultsAndContinue results)
  | notifyDone (h : (q.job.task 0).finish = .pending) :
      SearchStep s n q (.notifyDone n) { q with job := q.job.notifyDone 0 }
  | setTaskDone (h : (q.job.task 0).finish = .calling) :
      SearchStep s n q (.setTaskDone n) { q with job := q.job.setTaskDone 0 }
  | stopTasks (h : q.job.stopTicket = true) : SearchStep s n q (.stopTasks n) q.stopTasks
  | emptyTask : SearchStep s n q (.emptyTask n) { q with job := q.job.emptyTask }

/-- What the steps of a search leave as it is, and where its job can go. -/
structure Keeps (q q' : Search) : Prop where
  methods : q'.methods = q.methods
  wasSearching : q'.wasSearching = q.wasSearching
  unanswered : q'.unanswered = q.unanswered
  active : q'.job.isActive = true → q.job.isActive = true
  canceled : q.job.state = .canceled → q'.job.state = .canceled
  canceling : q'.job.state = .canceling → q.job.state = .canceling
  quiet : q.job.state ≠ .running ∧ q.job.state ≠ .dispatching →
    q'.job.state ≠ .running ∧ q'.job.state ≠ .dispatching
  succeeded : q.succeeded → q'.succeeded
  reported : ∀ r ∈ q.task.reported, r ∈ q'.task.reported

theorem Keeps.of_job (h : q'.job.state = q.job.state)
    (hfinish : ((q'.job.task 0).finish = .calling ↔ (q.job.task 0).finish = .calling) ∧
      ((q'.job.task 0).finish = .over ↔ (q.job.task 0).finish = .over))
    (hmethods : q'.methods = q.methods) (hwas : q'.wasSearching = q.wasSearching)
    (hreported : ∀ r ∈ q.task.reported, r ∈ q'.task.reported) : Keeps q q' where
  methods := hmethods
  wasSearching := hwas
  unanswered := by
    simp only [Search.unanswered, Job.isActive, h, ne_eq, decide_not, hfinish.1]
  active hactive := by simpa only [Job.isActive, h] using hactive
  canceled hs := h.trans hs
  canceling hs := h.symm.trans hs
  quiet hs := h ▸ hs
  succeeded hs := hs.imp hfinish.1.mpr hfinish.2.mpr
  reported := hreported

/-! ### The steps keep it -/

/-- Where the ticket of the execution is changes. -/
theorem Search.Sound.of_execution (h : q.Sound) {d : TaskDetails}
    (hfinish : d.finish = (q.job.task 0).finish) (hexecution : d.execution ≠ .pending)
    (hgoes : q.job.state = .running → (q.job.task 0).finish = .notPosted →
      q.task.searching = true ∨ q.task.posted ≠ []) :
    Search.Sound { q with job := q.job.setTask 0 d } ∧ Keeps q { q with job := q.job.setTask 0 d } := by
  refine ⟨⟨h.count, ?_, h.started, h.stopTicket, ?_, ?_, ?_, h.results, h.posted⟩, ?_⟩
  · simpa [hfinish] using h.fits
  · simp [hexecution]
  · simpa [hfinish] using h.finished
  · intro hstate hnot
    rw [Job.setTask_task_self, hfinish] at hnot
    obtain ⟨hmethods, hne, -⟩ := h.goesOn hstate hnot
    exact ⟨hmethods, hne, .inr (hgoes hstate hnot)⟩
  · exact .of_job rfl (by simp [hfinish]) rfl rfl fun _ => id

/-- The completion handler, when the last method has completed. -/
theorem Search.Sound.complete (h : q.Sound) (hexecution : (q.job.task 0).execution ≠ .pending)
    (hfinish : (q.job.task 0).finish = .notPosted) {task : BridgeDiscoveryTask}
    (hmethods : task.currentDiscoveryMethods = [])
    (hcompleted : q.job.state = .running → task.completed = q.methods)
    (hreported : task.reported = q.task.reported) (hresults : ∀ r ∈ task.results, r ∈ task.reported)
    (hposted : ∀ rs ∈ task.posted, ∀ r ∈ rs, r ∈ task.reported) :
    Search.Sound { q with job := q.job.complete 0, task } ∧
      Keeps q { q with job := q.job.complete 0, task } := by
  have hfits := h.fits
  have hreported : ∀ r ∈ q.task.reported, r ∈ task.reported := fun r hr => hreported ▸ hr
  by_cases hrunning : q.job.state = .running
  · have hcomplete : q.job.complete 0 = q.job.setTask 0
        { q.job.task 0 with handlerCalled := true, finish := .pending } := by
      rw [Job.complete, if_pos (.inl hrunning)]
    rw [hcomplete]
    refine ⟨⟨h.count, ?_, h.started, h.stopTicket, ?_, ?_, ?_, hresults, hposted⟩, ?_⟩
    · simp [hrunning, Search.Fits]
    · simp [hexecution]
    · exact fun _ => ⟨hmethods, hcompleted hrunning⟩
    · simp
    · exact .of_job rfl (by simp [hfinish]) rfl rfl hreported
  · have hdispatching : q.job.state ≠ .dispatching := by
      intro hdispatching
      rw [hdispatching, hfinish] at hfits
      cases hfits
    have hcomplete : q.job.complete 0 = q.job.setTask 0 { q.job.task 0 with handlerCalled := true } := by
      rw [Job.complete, if_neg (by simp [hrunning, hdispatching])]
    rw [hcomplete]
    refine ⟨⟨h.count, ?_, h.started, h.stopTicket, ?_, ?_, ?_, hresults, hposted⟩, ?_⟩
    · simpa using hfits
    · simp [hexecution]
    · simp [hfinish]
    · exact fun hstate => absurd hstate hrunning
    · exact .of_job rfl (by simp) rfl rfl hreported

theorem Search.Sound.execute (h : q.Sound) (hpending : (q.job.task 0).execution = .pending) :
    q.execute.Sound ∧ Keeps q q.execute := by
  obtain ⟨-, -, hfinish, hmethods, -⟩ := h.pending hpending
  have hexecute : q.execute = { q with
      job := q.job.execute 0, task := { q.task with searching := true } } := by
    rw [Search.execute, Search.startNextSearchMethod, if_neg (by simpa using hmethods)]
  rw [hexecute]
  refine ⟨⟨h.count, ?_, h.started, h.stopTicket, ?_, ?_, ?_, h.results, h.posted⟩, ?_⟩
  · simpa [Job.execute] using h.fits
  · simp [Job.execute]
  · simpa [Job.execute] using h.finished
  · intro hstate _
    obtain ⟨hall, hne, -⟩ := h.goesOn hstate hfinish
    exact ⟨hall, hne, .inr (.inl rfl)⟩
  · exact .of_job rfl (by simp [Job.execute]) rfl rfl fun _ => id

theorem Search.Sound.methodCompletes (h : q.Sound) (hsearching : q.task.searching = true) :
    (q.methodCompletes results).Sound ∧ Keeps q (q.methodCompletes results) := by
  refine ⟨⟨h.count, h.fits, h.started, h.stopTicket, fun hpending => ?_, h.finished,
    fun hstate hfinish => ?_, fun r hr => ?_, fun rs hrs r hr => ?_⟩, ?_⟩
  · rw [(h.pending hpending).1] at hsearching
    cases hsearching
  · obtain ⟨hall, hne, -⟩ := h.goesOn hstate hfinish
    exact ⟨hall, hne, .inr (.inr (by simp [Search.methodCompletes]))⟩
  · exact List.mem_append_left _ (h.results r hr)
  · rcases List.mem_append.mp hrs with hrs | hrs
    · exact List.mem_append_left _ (h.posted rs hrs r hr)
    · obtain rfl := List.mem_singleton.mp hrs
      exact List.mem_append_right _ hr
  · exact .of_job rfl ⟨.rfl, .rfl⟩ rfl rfl fun _ => List.mem_append_left _

theorem mem_foldl_moveToEnd {rs : List BridgeDiscoveryResult} {r : BridgeDiscoveryResult}
    (h : r ∈ results.foldl (moveToEnd BridgeDiscoveryResult.ip) rs) : r ∈ rs ∨ r ∈ results := by
  induction results generalizing rs with
  | nil => exact .inl h
  | cons x results ih =>
    rcases ih h with h | h
    · refine (mem_of_mem_moveToEnd h).imp_right ?_
      rintro rfl
      exact List.mem_cons_self
    · exact .inr (List.mem_cons_of_mem _ h)

theorem Search.Sound.processResults (h : q.Sound) {posted : List (List BridgeDiscoveryResult)}
    (hposted : q.task.posted = results :: posted) :
    Search.Sound ({ q with task := { q.task with posted } }.processResultsAndContinue results) ∧
      Keeps q ({ q with task := { q.task with posted } }.processResultsAndContinue results) := by
  have hexecution : (q.job.task 0).execution ≠ .pending := by
    intro hpending
    rw [(h.pending hpending).2.1] at hposted
    cases hposted
  have hrest : ∀ rs ∈ posted, ∀ r ∈ rs, r ∈ q.task.reported :=
    fun rs hrs => h.posted rs (hposted ▸ List.mem_cons_of_mem _ hrs)
  unfold Search.processResultsAndContinue
  split
  · rename_i hmethods
    have hmethods : q.task.currentDiscoveryMethods = [] := hmethods
    exact ⟨⟨h.count, h.fits, h.started, h.stopTicket, fun hpending => absurd hpending hexecution,
      h.finished, fun hstate hfinish => absurd hmethods (h.goesOn hstate hfinish).2.1, h.results, hrest⟩,
      .of_job rfl ⟨.rfl, .rfl⟩ rfl rfl fun _ => id⟩
  · rename_i method methods hmethods
    have hmethods : q.task.currentDiscoveryMethods = method :: methods := hmethods
    have hfinish : (q.job.task 0).finish = .notPosted := by
      by_contra hfinish
      rw [(h.finished hfinish).1] at hmethods
      cases hmethods
    have hresults : ∀ r ∈ results.foldl (moveToEnd BridgeDiscoveryResult.ip) q.task.results,
        r ∈ q.task.reported := by
      intro r hr
      rcases mem_foldl_moveToEnd hr with hr | hr
      · exact h.results r hr
      · exact h.posted results (hposted ▸ List.mem_cons_self) r hr
    have hall (hstate : q.job.state = .running) :
        (q.task.completed ++ [method]) ++ methods = q.methods := by
      rw [List.append_assoc, List.singleton_append, ← hmethods]
      exact (h.goesOn hstate hfinish).1
    unfold Search.startNextSearchMethod
    split_ifs with hlast
    · have hlast : methods = [] := by simpa using hlast
      subst hlast
      exact h.complete hexecution hfinish rfl (fun hstate => by simpa using hall hstate) rfl hresults hrest
    · have hlast : methods ≠ [] := by simpa using hlast
      refine ⟨⟨h.count, h.fits, h.started, h.stopTicket, fun hpending => absurd hpending hexecution,
        fun hnot => absurd hfinish hnot, fun hstate _ => ⟨hall hstate, hlast, .inr (.inl rfl)⟩, hresults,
        hrest⟩, .of_job rfl ⟨.rfl, .rfl⟩ rfl rfl fun _ => id⟩

theorem Search.Sound.execution_ne (h : q.Sound) (hfinish : (q.job.task 0).finish ≠ .notPosted) :
    (q.job.task 0).execution ≠ .pending :=
  fun hpending => hfinish (h.pending hpending).2.2.1

/-- The ticket that calls the callback begins. -/
theorem Search.Sound.notifyDone (h : q.Sound) (hfinish : (q.job.task 0).finish = .pending) :
    Search.Sound { q with job := q.job.notifyDone 0 } ∧ Keeps q { q with job := q.job.notifyDone 0 } := by
  have hfits := h.fits
  have hfinished := h.finished (by simp [hfinish])
  have hexecution := h.execution_ne (by simp [hfinish])
  rw [hfinish] at hfits
  cases hstate : q.job.state with
  | readyToRun | dispatching | completed | canceled => simp [hstate, Search.Fits, DoneTicket.runs] at hfits
  | running =>
    have hnotify : q.job.notifyDone 0 =
        { q.job.setTask 0 { q.job.task 0 with finish := .begun } with state := .dispatching } := by
      rw [Job.notifyDone, if_pos ⟨rfl, by simp [hstate]⟩]
    rw [hnotify]
    refine ⟨⟨h.count, by simp [Search.Fits, DoneTicket.runs], fun _ => h.started (by simp [hstate]), by simp,
      by simp [hexecution], fun _ => hfinished, by simp, h.results, h.posted⟩, ⟨rfl, rfl, ?_, ?_, ?_, ?_,
      ?_, ?_, fun _ => id⟩⟩
    · simp [Search.unanswered, Job.isActive, hstate, hfinish]
    · simp [Job.isActive, hstate]
    · simp [hstate]
    · simp
    · simp [hstate]
    · simp [Search.succeeded, hfinish]
  | canceling =>
    have hnotify : q.job.notifyDone 0 = q.job.setTask 0 { q.job.task 0 with finish := .begun } := by
      rw [Job.notifyDone, if_neg (by simp [hstate])]
    rw [hnotify]
    refine ⟨⟨h.count, by simp [hstate, Search.Fits], h.started, by simp [hstate], by simp [hexecution],
      fun _ => hfinished, by simp, h.results, h.posted⟩, .of_job rfl (by simp [hfinish]) rfl rfl fun _ => id⟩

/-- The callback is called; the results are posted then. -/
theorem Search.Sound.callback (h : q.Sound) (hfinish : (q.job.task 0).finish = .begun) :
    Search.Sound { q with job := q.job.callback 0 } := by
  have hfits := h.fits
  have hfinished := h.finished (by simp [hfinish])
  have hexecution := h.execution_ne (by simp [hfinish])
  rw [hfinish] at hfits
  refine ⟨h.count, ?_, h.started, h.stopTicket, by simp [Job.callback, hexecution], fun _ => hfinished,
    by simp [Job.callback], h.results, h.posted⟩
  cases hstate : q.job.state <;> simp_all [Search.Fits, Job.callback, DoneTicket.runs]

/-- The callback has returned. -/
theorem Search.Sound.setTaskDone (h : q.Sound) (hfinish : (q.job.task 0).finish = .calling) :
    Search.Sound { q with job := q.job.setTaskDone 0 } ∧ Keeps q { q with job := q.job.setTaskDone 0 } := by
  have hfits := h.fits
  have hfinished := h.finished (by simp [hfinish])
  have hexecution := h.execution_ne (by simp [hfinish])
  have hdone : q.job.setTaskDone 0 =
      { q.job.setTask 0 { q.job.task 0 with finish := .over, done := true } with state := .completed } := by
    rw [Job.setTaskDone, if_pos]
    intro k hk hne
    rw [h.count] at hk
    omega
  have hstarted : q.job.state ≠ .readyToRun := by
    intro hstate
    simp [hstate, hfinish, Search.Fits] at hfits
  rw [hdone]
  refine ⟨⟨h.count, by simp [Search.Fits], fun _ => h.started hstarted, by simp, by simp [hexecution],
    fun _ => hfinished, by simp, h.results, h.posted⟩, ⟨rfl, rfl, ?_, ?_, ?_, ?_, ?_, ?_, fun _ => id⟩⟩
  · simp [Search.unanswered, Job.isActive, hfinish]
  · simp [Job.isActive]
  · intro hstate
    simp [hstate, hfinish, Search.Fits] at hfits
  · simp
  · simp
  · simp [Search.succeeded]

/-- A job is stopped once it is cancelled. -/
theorem Search.Sound.stopTasks (h : q.Sound) (hstop : q.job.stopTicket = true) :
    q.stopTasks.Sound ∧ Keeps q q.stopTasks := by
  have hnot : q.job.state ≠ .running := by
    intro hstate
    rw [h.stopTicket (.inr hstate)] at hstop
    cases hstop
  have hkeeps (task : BridgeDiscoveryTask) (hreported : task.reported = q.task.reported) :
      Keeps q { q with job := q.job.stopTasks, task } :=
    .of_job rfl ⟨.rfl, .rfl⟩ rfl rfl fun r hr => hreported ▸ hr
  unfold Search.stopTasks
  split_ifs with htoStop
  · refine ⟨⟨h.count, h.fits, h.started, fun _ => rfl, fun hpending => ?_, fun hfinish => ?_,
      fun hstate => absurd hstate hnot, h.results, h.posted⟩, hkeeps _ rfl⟩
    · rw [Job.toStop, (h.pending hpending).2.2.2.2, Bool.and_false] at htoStop
      cases htoStop
    · exact ⟨rfl, (h.finished hfinish).2⟩
  · exact ⟨⟨h.count, h.fits, h.started, fun _ => rfl, h.pending, h.finished,
      fun hstate => absurd hstate hnot, h.results, h.posted⟩, hkeeps _ rfl⟩

theorem Search.Sound.of_step (h : q.Sound) (hstep : SearchStep s n q l q')
    (hcanceling : (∃ h ∈ s.holders, h.canceling = n) → q.job.state ≠ .running) :
    q'.Sound ∧ Keeps q q' := by
  cases hstep with
  | execute hpending => exact h.execute hpending
  | executeReturns hrunning =>
    refine h.of_execution rfl (by simp) fun hstate hfinish => ?_
    refine (h.goesOn hstate hfinish).2.2.resolve_left ?_
    simp [hrunning]
  | discard hholder hpending =>
    exact h.of_execution rfl (by simp) fun hstate => absurd hstate (hcanceling hholder)
  | methodCompletes hsearching => exact h.methodCompletes hsearching
  | processResults hposted => exact h.processResults hposted
  | notifyDone hfinish => exact h.notifyDone hfinish
  | setTaskDone hfinish => exact h.setTaskDone hfinish
  | stopTasks hstop => exact h.stopTasks hstop
  | emptyTask =>
    exact ⟨⟨h.count, h.fits, h.started, h.stopTicket, h.pending, h.finished, h.goesOn, h.results,
      h.posted⟩, .of_job rfl ⟨.rfl, .rfl⟩ rfl rfl fun _ => id⟩

/-- `cancel` begins. -/
theorem Search.Sound.requestCancel (h : q.Sound) (hactive : q.job.isActive = true) :
    Search.Sound { q with job := q.job.requestCancel } := by
  have hfits := h.fits
  have hstarted : q.job.state ≠ .readyToRun := by
    intro hstate
    simp [Job.isActive, hstate] at hactive
  refine ⟨by simpa using h.count, ?_, fun _ => h.started hstarted, by simp, by simpa using h.pending,
    by simpa using h.finished, by simp, h.results, h.posted⟩
  simp only [Job.requestCancel_state, Job.requestCancel_task, Search.Fits]
  cases hstate : q.job.state with
  | readyToRun => exact absurd hstate hstarted
  | running =>
    rw [hstate] at hfits
    rcases hfits with hfits | hfits <;> simp [hfits]
  | dispatching =>
    rw [hstate] at hfits
    intro hover
    simp [Search.Fits, hover, DoneTicket.runs] at hfits
  | canceling =>
    rw [hstate] at hfits
    exact hfits
  | completed | canceled => simp [Job.isActive, hstate] at hactive

end HueStream.Discovery
