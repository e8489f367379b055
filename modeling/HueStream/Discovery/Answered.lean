import HueStream.Discovery.Answering

/-! # What is promised of the callbacks

Every callback is answered once, as long as the calls come in turn; and what happens when one does not. -/

namespace HueStream.Discovery

open HueStream.Lib HueStream.Threading

variable {s s' : BridgeDiscovery} {q : Search} {l : DiscoveryLabel} {n : ℕ} {h : Holder}

/-- What an answer says is so of its search. -/
def Answer.Right (a : Answer) (q : Search) : Prop :=
  match a.returnCode with
  | .success => q.wasSearching = false ∧ q.methods ≠ [] ∧ q.task.completed = q.methods ∧
      ∀ r ∈ a.results, r ∈ q.task.reported
  | .stopped => q.wasSearching = false ∧ q.methods ≠ [] ∧ q.job.state = .canceled ∧
      ∀ r ∈ a.results, r ∈ q.task.reported
  | .busy => q.wasSearching = true
  | .missingDiscoveryMethods => q.wasSearching = false ∧ q.methods = []
  | .nullParameter => False

namespace BridgeDiscovery

/-- How often the dispatcher has called the callback of the search. -/
def invocations (s : BridgeDiscovery) (n : ℕ) : ℕ :=
  (s.posts.take s.invoked).countP fun a => a.search = n

/-- A step of a call that was made, a ticket, a method or the dispatcher. -/
def goesOn (s : BridgeDiscovery) : DiscoveryLabel → Bool
  | .search _ _ onQueue | .stop onQueue => s.queueBlocked && onQueue
  | .blocks => false
  | _ => true

end BridgeDiscovery

/-- **What is promised of the callbacks given to `search`.** -/
structure Answered (s : BridgeDiscovery) : Prop where
  fault : s.fault = false
  /-- A callback is called once at most. -/
  once : ∀ n, s.invocations n ≤ s.answers n ∧ s.answers n ≤ 1
  /-- It was posted, or it belongs to the search in progress or one that `stop` is finishing. -/
  answered : ∀ n < s.count, s.answers n = 1 ∨
    s.discoveryJob = some n ∧ (s.inProgress = true ∨ s.holders ≠ [])
  /-- The answer is the right one, with results of its own search. -/
  right : ∀ a ∈ s.posts, a.search < s.count ∧ a.Right (s.searches a.search)
  /-- A search that found another in progress was told so. -/
  busy : ∀ n < s.count, (s.searches n).wasSearching = true →
    ∃ a ∈ s.posts, a.search = n ∧ a.returnCode = .busy
  /-- As long as something is in progress, something goes on. -/
  goesOn : s.inProgress = true ∨ s.holders ≠ [] ∨ s.queueBlocked = true ∨ s.invoked < s.posts.length →
    ∃ l, s.goesOn l = true ∧ (s.step l).isSome

/-! ### Something goes on -/

theorem Sound.goesOn_of_runs (hs : Sound s) (hn : n < s.count) (hblocked : s.queueBlocked = false)
    (hruns : ((s.searches n).job.task 0).finish.runs = true) :
    ∃ l, s.goesOn l = true ∧ (s.step l).isSome := by
  cases hfinish : ((s.searches n).job.task 0).finish with
  | begun =>
    exact ⟨.callback n, rfl, by
      simp [BridgeDiscovery.step, hs.fault, hblocked, BridgeDiscovery.ticket, hn, hfinish]⟩
  | calling =>
    exact ⟨.setTaskDone n, rfl, by
      simp [BridgeDiscovery.step, hs.fault, hblocked, BridgeDiscovery.ticket, hn, hfinish]⟩
  | _ => simp [hfinish, DoneTicket.runs] at hruns

theorem Sound.goesOn_of_pending (hs : Sound s) (hn : n < s.count) (hblocked : s.queueBlocked = false)
    (hfinish : ((s.searches n).job.task 0).finish = .pending) :
    ∃ l, s.goesOn l = true ∧ (s.step l).isSome :=
  ⟨.notifyDone n, rfl, by
    simp [BridgeDiscovery.step, hs.fault, hblocked, BridgeDiscovery.ticket, hn, hfinish]⟩

/-- A call that cancels a job waits for tickets that go on. -/
theorem Sound.goesOn_of_holder (hs : Sound s) {hs' : List Holder} (hholders : s.holders = h :: hs') :
    ∃ l, s.goesOn l = true ∧ (s.step l).isSome := by
  have hmem : h ∈ s.holders := hholders ▸ List.mem_cons_self
  have hn := hs.canceling_lt hmem
  cases hdrained : s.isDrained h with
  | true =>
    cases hcanceled : h.canceled with
    | none =>
      exact ⟨.drained, rfl, by simp [BridgeDiscovery.step, hs.fault, hholders, hcanceled, hdrained]⟩
    | some canceled =>
      exact ⟨.returns, rfl, by simp [BridgeDiscovery.step, hs.fault, hholders, hcanceled, hdrained]⟩
  | false =>
    have hblocked : s.queueBlocked = false := by
      by_contra hblocked
      have hneeds := hs.blocked (eq_true_of_ne_false hblocked) h hmem
      simp [BridgeDiscovery.needsQueue, hdrained] at hneeds
    have hany : s.holders.any (fun k => k.canceling = h.canceling) = true := by simp [hholders]
    simp only [BridgeDiscovery.isDrained, Bool.and_eq_false_iff, Bool.not_eq_false', Bool.or_eq_false_iff,
      decide_eq_false_iff_not, ne_eq, not_not] at hdrained
    rcases hdrained with (hpending | ⟨hrunning, -⟩) | ⟨hruns, -⟩
    · simp only [Job.hasPending, (hs.search h.canceling).count, Bool.or_eq_true, decide_eq_true_eq,
        Nat.lt_one_iff, exists_eq_left] at hpending
      rcases hpending with (hstop | hempty) | hexecution | hfinish
      · exact ⟨.stopTasks h.canceling, rfl, by
          simp [BridgeDiscovery.step, hs.fault, hblocked, BridgeDiscovery.ticket, hn, hstop]⟩
      · exact ⟨.emptyTask h.canceling, rfl, by
          simp [BridgeDiscovery.step, hs.fault, hblocked, BridgeDiscovery.ticket, hn, hempty]⟩
      · exact ⟨.discard h.canceling, rfl, by
          simp [BridgeDiscovery.step, hs.fault, BridgeDiscovery.ticket, hn, hexecution, hholders]⟩
      · exact hs.goesOn_of_pending hn hblocked hfinish
    · exact ⟨.executeReturns h.canceling, rfl, by
        simp [BridgeDiscovery.step, hs.fault, hblocked, BridgeDiscovery.ticket, hn, hrunning]⟩
    · exact hs.goesOn_of_runs hn hblocked hruns

/-- The search in progress goes on when no call cancels it. -/
theorem Sound.goesOn_of_inProgress (hs : Sound s) (hholders : s.holders = [])
    (hblocked : s.queueBlocked = false) (hprogress : s.inProgress = true) :
    ∃ l, s.goesOn l = true ∧ (s.step l).isSome := by
  cases hjob : s.discoveryJob with
  | none => simp [BridgeDiscovery.inProgress, hjob] at hprogress
  | some n =>
    have hn := (hs.current n hjob).1
    rw [inProgress_eq hjob] at hprogress
    have hfits := (hs.search n).fits
    cases hstate : (s.searches n).job.state with
    | readyToRun | completed | canceled => simp [Job.isActive, hstate] at hprogress
    | canceling => exact absurd hholders (hs.canceling n hstate)
    | dispatching =>
      rw [hstate] at hfits
      exact hs.goesOn_of_runs hn hblocked hfits
    | running =>
      rw [hstate] at hfits
      rcases hfits with hfinish | hfinish
      · obtain ⟨-, -, hexecution | hsearching | hposted⟩ := (hs.search n).goesOn hstate hfinish
        · exact ⟨.execute n, rfl, by
            simp [BridgeDiscovery.step, hs.fault, hblocked, BridgeDiscovery.ticket, hn, hexecution]⟩
        · exact ⟨.methodCompletes n [], rfl, by
            simp [BridgeDiscovery.step, hs.fault, BridgeDiscovery.ticket, hn, hsearching]⟩
        · obtain ⟨results, posted, heq⟩ := List.exists_cons_of_ne_nil hposted
          exact ⟨.processResults n, rfl, by
            simp [BridgeDiscovery.step, hs.fault, hblocked, BridgeDiscovery.ticket, hn, heq]⟩
      · exact hs.goesOn_of_pending hn hblocked hfinish

theorem Sound.goesOn (hs : Sound s)
    (hopen : s.inProgress = true ∨ s.holders ≠ [] ∨ s.queueBlocked = true ∨ s.invoked < s.posts.length) :
    ∃ l, s.goesOn l = true ∧ (s.step l).isSome := by
  cases hholders : s.holders with
  | cons h hs' => exact hs.goesOn_of_holder hholders
  | nil =>
    cases hblocked : s.queueBlocked with
    | true =>
      exact ⟨.stop true, by simp [BridgeDiscovery.goesOn, hblocked], by
        simp [BridgeDiscovery.step, hs.fault, BridgeDiscovery.canLock, hholders]⟩
    | false =>
      rcases hopen with hprogress | hne | hb | hlt
      · exact hs.goesOn_of_inProgress hholders hblocked hprogress
      · exact absurd hholders hne
      · rw [hblocked] at hb
        cases hb
      · exact ⟨.invoke, rfl, by simp [BridgeDiscovery.step, hs.fault, hlt]⟩

/-! ### Every run -/

theorem Sound.right (hs : Sound s) {a : Answer} (ha : a ∈ s.posts) :
    a.Right (s.searches a.search) := by
  have hfits := (hs.fits a ha).2
  have hq := hs.search a.search
  cases hcode : a.returnCode with
  | success =>
    simp only [Answer.Fits, hcode] at hfits
    simp only [Answer.Right, hcode]
    obtain ⟨hsucceeded, hresults⟩ := hfits
    have hfinish : ((s.searches a.search).job.task 0).finish ≠ .notPosted := by
      rcases hsucceeded with hfinish | hfinish <;> simp [hfinish]
    have hstate : (s.searches a.search).job.state ≠ .readyToRun := by
      intro hstate
      have hjob := hq.fits
      rw [hstate] at hjob
      exact hfinish hjob
    obtain ⟨hmethods, hwas⟩ := hq.started hstate
    exact ⟨hwas, hmethods, (hq.finished hfinish).2, hresults⟩
  | stopped =>
    simp only [Answer.Fits, hcode] at hfits
    simp only [Answer.Right, hcode]
    obtain ⟨hmethods, hwas⟩ := hq.started (by simp [hfits.1])
    exact ⟨hwas, hmethods, hfits.1, hfits.2⟩
  | busy =>
    simp only [Answer.Fits, hcode] at hfits
    simpa only [Answer.Right, hcode] using hfits
  | missingDiscoveryMethods =>
    simp only [Answer.Fits, hcode] at hfits
    simpa only [Answer.Right, hcode] using hfits.symm
  | nullParameter => simp only [Answer.Fits, hcode] at hfits

theorem Sound.busy (hs : Sound s) (hn : n < s.count) (hwas : (s.searches n).wasSearching = true) :
    ∃ a ∈ s.posts, a.search = n ∧ a.returnCode = .busy := by
  have hstate : (s.searches n).job.state = .readyToRun := by
    by_contra hstate
    have hnot := ((hs.search n).started hstate).2
    rw [hwas] at hnot
    cases hnot
  have howed : s.owed n = 0 := by
    refine List.countP_eq_zero.mpr fun h hh => ?_
    simp only [decide_eq_true_eq, not_and]
    rintro rfl hc
    have hcanceled := (hs.holders h hh).canceled hc
    rw [hstate] at hcanceled
    cases hcanceled
  have hanswers := hs.answers n hn
  rw [howed, if_neg (by simp [Search.unanswered, Job.isActive, hstate])] at hanswers
  have hpos : 0 < s.posts.countP fun a => a.search = n := by
    have hone : s.posts.countP (fun a => a.search = n) = 1 := hanswers
    omega
  obtain ⟨a, ha, heq⟩ := List.countP_pos_iff.mp hpos
  have heq : a.search = n := of_decide_eq_true heq
  have hright := hs.right ha
  subst heq
  refine ⟨a, ha, rfl, ?_⟩
  cases hcode : a.returnCode with
  | busy => rfl
  | success | stopped | missingDiscoveryMethods =>
    simp only [Answer.Right, hcode] at hright
    rw [hwas] at hright
    cases hright.1
  | nullParameter => simp only [Answer.Right, hcode] at hright

theorem Sound.answered (hs : Sound s) : Answered s where
  fault := hs.fault
  once n := by
    refine ⟨(List.take_sublist _ _).countP_le, ?_⟩
    by_cases hn : n < s.count
    · have hanswers := hs.answers n hn
      split_ifs at hanswers <;> omega
    · have hnone : s.answers n = 0 := by
        refine List.countP_eq_zero.mpr fun a ha => ?_
        have hlt := (hs.fits a ha).1
        simp only [decide_eq_true_eq]
        omega
      omega
  answered n hn := by
    by_cases hjob : s.discoveryJob = some n
    · by_cases hopen : s.inProgress = true ∨ s.holders ≠ []
      · exact .inr ⟨hjob, hopen⟩
      · rw [not_or, not_not] at hopen
        have hanswers := hs.answers n hn
        have howed : s.owed n = 0 := by simp [BridgeDiscovery.owed, hopen.2]
        rw [inProgress_eq hjob] at hopen
        rw [howed, if_neg (by simp [Search.unanswered, hopen.1])] at hanswers
        exact .inl hanswers
    · have hanswers := hs.answers n hn
      have howed : s.owed n = 0 := by
        refine List.countP_eq_zero.mpr fun h hh => ?_
        have heq := (hs.holders h hh).job
        simp only [decide_eq_true_eq, not_and]
        rintro rfl
        exact absurd heq hjob
      rw [howed, if_neg (by simp [Search.unanswered, hs.others n hjob])] at hanswers
      exact .inl hanswers
  right a ha := ⟨(hs.fits a ha).1, hs.right ha⟩
  busy _ hn hwas := hs.busy hn hwas
  goesOn := hs.goesOn

/-- **Every callback given to `search` is answered once**, in every state of a run whose calls all come in
turn; and `stop` posts nothing where no search is in progress. -/
theorem answered_of_inTurn {ts : List (Transition BridgeDiscovery DiscoveryLabel)}
    (h : bridgeDiscovery.Run ts s) (hC : ∀ t ∈ ts, t.before.inTurn t.label) :
    Answered s ∧ ∀ t ∈ ts, ∀ onQueue, t.label = .stop onQueue → t.before.inProgress = false →
      t.after.posts = t.before.posts ∧ t.after.holders = t.before.holders := by
  constructor
  · have hs : Sound s := h.invariant_of (C := BridgeDiscovery.inTurn)
      (fun s hs => by obtain rfl : s = {} := hs; exact .init)
      (fun s l s' hstep hC hs => hs.of_step (discoveryStep_cases hstep) hC) hC
    exact hs.answered
  · intro t ht onQueue hlabel hidle
    have hstep := discoveryStep_cases (h.step_of_mem ht)
    rw [hlabel] at hstep
    generalize t.after = s' at hstep
    cases hstep with
    | stop =>
      unfold BridgeDiscovery.stop
      split
      · exact ⟨rfl, rfl⟩
      · rename_i n hjob
        have hactive : (t.before.searches n).job.isActive = false := (inProgress_eq hjob).symm.trans hidle
        rw [if_neg (by simp [hactive])]
        exact ⟨rfl, rfl⟩
    | ticket _ hq => cases hq

/-- A search that ends, with another during it, one that is stopped, and one without methods. -/
theorem answered_of_inTurn_stopped : ∃ ts s, bridgeDiscovery.Run ts s ∧
    s.posts.map (fun a => (a.search, a.returnCode)) =
      [(1, .busy), (0, .success), (2, .stopped), (3, .missingDiscoveryMethods)] ∧ Answered s := by
  obtain ⟨ts, s, hrun, h⟩ := Machine.exists_run (M := bridgeDiscovery) (s := {})
    [.search [.nupnp] [.nupnp, .mdns] false, .execute 0, .search [.mdns] [.nupnp, .mdns] false,
      .executeReturns 0, .methodCompletes 0 [⟨"bridge", "10.0.0.2"⟩], .processResults 0, .notifyDone 0,
      .callback 0, .setTaskDone 0, .search [.mdns, .nupnp] [.nupnp, .mdns] false, .execute 2,
      .executeReturns 2, .stop false, .stopTasks 2, .drained, .emptyTask 2, .returns, .stop false,
      .search [.upnp] [.nupnp, .mdns] false]
    (fun ts s => decide (s.posts.map (fun a => (a.search, a.returnCode)) =
        [(1, .busy), (0, .success), (2, .stopped), (3, .missingDiscoveryMethods)]) &&
      ts.all fun t => decide (t.before.inTurn t.label)) rfl (by decide +kernel)
  simp only [Bool.and_eq_true, decide_eq_true_eq, List.all_eq_true] at h
  exact ⟨ts, s, hrun, h.1, (answered_of_inTurn hrun h.2).1⟩

/-- A search is made while the job of another one is dispatching: it is not answered with `BUSY`. And
`stop` is called from below the callback of the job: the search is answered twice. -/
theorem exists_answered_wrongly :
    (∃ ts s, bridgeDiscovery.Run ts s ∧ (s.searches 1).wasSearching = true ∧
      s.posts.map (fun a => (a.search, a.returnCode)) = [(0, .success), (1, .success)] ∧ ¬ Answered s) ∧
    ∃ ts s, bridgeDiscovery.Run ts s ∧
      s.posts.map (fun a => (a.search, a.returnCode)) = [(0, .stopped), (0, .success)] ∧
        ¬ Answered s := by
  constructor
  · obtain ⟨ts, s, hrun, h⟩ := Machine.exists_run (M := bridgeDiscovery) (s := {})
      [.search [.nupnp] [.nupnp] false, .execute 0, .executeReturns 0, .methodCompletes 0 [],
        .processResults 0, .notifyDone 0, .search [.nupnp] [.nupnp] false, .callback 0, .setTaskDone 0,
        .stopTasks 0, .drained, .returns, .execute 1, .executeReturns 1, .methodCompletes 1 [],
        .processResults 1, .notifyDone 1, .callback 1, .setTaskDone 1]
      (fun _ s => decide ((s.searches 1).wasSearching = true ∧
        s.posts.map (fun a => (a.search, a.returnCode)) = [(0, .success), (1, .success)]))
      rfl (by decide +kernel)
    obtain ⟨hwas, hposts⟩ := of_decide_eq_true h
    refine ⟨ts, s, hrun, hwas, hposts, fun hs => ?_⟩
    have hmem : (1, ReturnCode.success) ∈ s.posts.map (fun a => (a.search, a.returnCode)) := by
      simp [hposts]
    obtain ⟨a, ha, heq⟩ := List.mem_map.mp hmem
    obtain ⟨hsearch, hcode⟩ := Prod.mk.inj heq
    have hright := (hs.right a ha).2
    simp only [Answer.Right, hcode, hsearch, hwas] at hright
    cases hright.1
  · obtain ⟨ts, s, hrun, h⟩ := Machine.exists_run (M := bridgeDiscovery) (s := {})
      [.search [.nupnp] [.nupnp] false, .execute 0, .executeReturns 0, .methodCompletes 0 [],
        .processResults 0, .notifyDone 0, .stop true, .stopTasks 0, .drained, .emptyTask 0, .returns,
        .callback 0, .setTaskDone 0]
      (fun _ s => decide (s.posts.map (fun a => (a.search, a.returnCode)) =
        [(0, .stopped), (0, .success)] ∧ s.answers 0 = 2)) rfl (by decide +kernel)
    obtain ⟨hposts, htwice⟩ := of_decide_eq_true h
    refine ⟨ts, s, hrun, hposts, fun hs => ?_⟩
    have honce := (hs.once 0).2
    omega

end HueStream.Discovery
