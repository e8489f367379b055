import HueStream.Discovery.Searches
import Mathlib.Data.List.Count

/-! # Every callback is answered once

The search of the job there is has its answer to come until the callback of the job posts it, or a `stop`
that has cancelled the job does; every other search has been answered. This needs that no search is made
while the job is dispatching or being cancelled, that `stop` is not called from below the callback of the
job, and that no call on the queue's thread waits for a call that waits for the queue. -/

namespace HueStream.Discovery

open HueStream.Lib HueStream.Threading

variable {s s' : BridgeDiscovery} {q q' : Search} {l : DiscoveryLabel} {n m : ℕ} {h : Holder}

namespace BridgeDiscovery

/-- The callback of the job runs. -/
def callbackRuns (s : BridgeDiscovery) : Bool :=
  match s.discoveryJob with
  | none => false
  | some n => ((s.searches n).job.task 0).finish.runs

/-- A call that cancels a job is not done with the queue. -/
def needsQueue (s : BridgeDiscovery) (h : Holder) : Bool :=
  !s.isDrained h || (h.canceled.isNone && (s.searches h.canceling).job.state = .canceling)

/-- The calls come where they are answered in turn. -/
def inTurn (s : BridgeDiscovery) : DiscoveryLabel → Prop
  | .search options available _ => (s.inProgress = true → s.isSearching = true) ∧
      (s.holders ≠ [] → getDiscoveryMethods options available = [])
  | .stop onQueue => s.inProgress = true →
      if onQueue then s.callbackRuns = false else s.queueBlocked = false
  | .blocks => ∀ h ∈ s.holders, s.needsQueue h = false
  | _ => True

instance : (l : DiscoveryLabel) → Decidable (s.inTurn l)
  | .search options available _ => inferInstanceAs (Decidable
      ((s.inProgress = true → s.isSearching = true) ∧
        (s.holders ≠ [] → getDiscoveryMethods options available = [])))
  | .stop onQueue => inferInstanceAs (Decidable (s.inProgress = true →
      if onQueue then s.callbackRuns = false else s.queueBlocked = false))
  | .blocks => inferInstanceAs (Decidable (∀ h ∈ s.holders, s.needsQueue h = false))
  | .drained | .returns | .execute _ | .executeReturns _ | .discard _ | .methodCompletes _ _
  | .processResults _ | .notifyDone _ | .callback _ | .setTaskDone _ | .stopTasks _ | .emptyTask _
  | .invoke => .isTrue trivial

/-- How often the search was answered. -/
def answers (s : BridgeDiscovery) (n : ℕ) : ℕ := s.posts.countP fun a => a.search = n

/-- How many calls of `stop` are to answer the search. -/
def owed (s : BridgeDiscovery) (n : ℕ) : ℕ :=
  s.holders.countP fun h => h.canceling = n ∧ h.canceled = some true

end BridgeDiscovery

/-! ### What a step can do -/

/-- What a step can do. -/
inductive DiscoveryStep (s : BridgeDiscovery) : DiscoveryLabel → BridgeDiscovery → Prop
  | search {options available : List DiscoveryOption} {onQueue : Bool}
      (hlock : s.canLock onQueue = true) : DiscoveryStep s (.search options available onQueue)
        ({ s with queueBlocked := s.queueBlocked && !onQueue }.search
          (getDiscoveryMethods options available) onQueue)
  | stop {onQueue : Bool} (hlock : s.canLock onQueue = true) : DiscoveryStep s (.stop onQueue)
      ({ s with queueBlocked := s.queueBlocked && !onQueue }.stop onQueue)
  | blocks : DiscoveryStep s .blocks { s with queueBlocked := true }
  | drained {h : Holder} {hs : List Holder} (hholders : s.holders = h :: hs) (hnone : h.canceled = none)
      (hdrained : s.isDrained h = true) : DiscoveryStep s .drained (s.drained h hs)
  | returns {h : Holder} {hs : List Holder} {canceled : Bool} (hholders : s.holders = h :: hs)
      (hcanceled : h.canceled = some canceled) :
      DiscoveryStep s .returns ({ s with holders := hs }.returns h canceled)
  | ticket {l : DiscoveryLabel} {n : ℕ} {q : Search} (hn : n < s.count)
      (hq : SearchStep s n (s.searches n) l q)
      (hblocked : s.queueBlocked = true → (∃ results, l = .methodCompletes n results) ∨ l = .discard n) :
      DiscoveryStep s l (s.setSearch n q)
  | callback {n : ℕ} (hn : n < s.count) (hfinish : ((s.searches n).job.task 0).finish = .begun)
      (hblocked : s.queueBlocked = false) : DiscoveryStep s (.callback n)
        ((s.setSearch n { s.searches n with job := (s.searches n).job.callback 0 }).postSuccess n)
  | invoke (hlt : s.invoked < s.posts.length) :
      DiscoveryStep s .invoke { s with invoked := s.invoked + 1 }

theorem ticket_eq_some {isAt : Search → Bool} {f : Search → Search} :
    s.ticket n isAt f = some s' ↔
      n < s.count ∧ isAt (s.searches n) = true ∧ s' = s.setSearch n (f (s.searches n)) := by
  unfold BridgeDiscovery.ticket
  split_ifs with hat
  · exact ⟨fun h => ⟨hat.1, hat.2, (Option.some.inj h).symm⟩, fun h => h.2.2 ▸ rfl⟩
  · exact ⟨nofun, fun h => absurd ⟨h.1, h.2.1⟩ hat⟩

/-- **What a step can do.** -/
theorem discoveryStep_cases (hstep : s.step l = some s') : DiscoveryStep s l s' := by
  unfold BridgeDiscovery.step at hstep
  by_cases hfault : s.fault = true
  · rw [if_pos hfault] at hstep
    cases hstep
  rw [if_neg hfault] at hstep
  cases l with
  | search options available onQueue =>
    dsimp only at hstep
    split_ifs at hstep with hlock
    cases hstep
    exact .search hlock
  | stop onQueue =>
    dsimp only at hstep
    split_ifs at hstep with hlock
    cases hstep
    exact .stop hlock
  | blocks =>
    dsimp only at hstep
    split_ifs at hstep
    cases hstep
    exact .blocks
  | drained =>
    dsimp only at hstep
    split at hstep
    · cases hstep
    · rename_i h hs hholders
      split_ifs at hstep with hdrained
      cases hstep
      rw [Bool.and_eq_true, Option.isNone_iff_eq_none] at hdrained
      exact .drained hholders hdrained.1 hdrained.2
  | returns =>
    dsimp only at hstep
    split at hstep
    · cases hstep
    · rename_i h hs hholders
      split at hstep
      · cases hstep
      · rename_i canceled hcanceled
        split_ifs at hstep
        cases hstep
        exact .returns hholders hcanceled
  | execute n =>
    dsimp only at hstep
    split_ifs at hstep with hblocked
    obtain ⟨hn, hat, rfl⟩ := ticket_eq_some.mp hstep
    exact .ticket hn (.execute (by simpa using hat)) fun hb => absurd hb hblocked
  | executeReturns n =>
    dsimp only at hstep
    split_ifs at hstep with hblocked
    obtain ⟨hn, hat, rfl⟩ := ticket_eq_some.mp hstep
    exact .ticket hn (.executeReturns (by simpa using hat)) fun hb => absurd hb hblocked
  | discard n =>
    dsimp only at hstep
    split_ifs at hstep with hholder
    obtain ⟨hn, hat, rfl⟩ := ticket_eq_some.mp hstep
    exact .ticket hn (.discard (by simpa using hholder) (by simpa using hat)) fun _ => .inr rfl
  | methodCompletes n results =>
    obtain ⟨hn, hat, rfl⟩ := ticket_eq_some.mp hstep
    exact .ticket hn (.methodCompletes hat) fun _ => .inl ⟨results, rfl⟩
  | processResults n =>
    dsimp only at hstep
    split_ifs at hstep with hblocked
    split at hstep
    · cases hstep
    · rename_i results posted hposted
      obtain ⟨hn, -, rfl⟩ := ticket_eq_some.mp hstep
      exact .ticket hn (.processResults hposted) fun hb => absurd hb hblocked
  | notifyDone n =>
    dsimp only at hstep
    split_ifs at hstep with hblocked
    obtain ⟨hn, hat, rfl⟩ := ticket_eq_some.mp hstep
    exact .ticket hn (.notifyDone (by simpa using hat)) fun hb => absurd hb hblocked
  | callback n =>
    dsimp only at hstep
    split_ifs at hstep with hblocked
    obtain ⟨s₁, hs₁, rfl⟩ := Option.map_eq_some_iff.mp hstep
    obtain ⟨hn, hat, rfl⟩ := ticket_eq_some.mp hs₁
    exact .callback hn (by simpa using hat) (by simpa using hblocked)
  | setTaskDone n =>
    dsimp only at hstep
    split_ifs at hstep with hblocked
    obtain ⟨hn, hat, rfl⟩ := ticket_eq_some.mp hstep
    exact .ticket hn (.setTaskDone (by simpa using hat)) fun hb => absurd hb hblocked
  | stopTasks n =>
    dsimp only at hstep
    split_ifs at hstep with hblocked
    obtain ⟨hn, hat, rfl⟩ := ticket_eq_some.mp hstep
    exact .ticket hn (.stopTasks hat) fun hb => absurd hb hblocked
  | emptyTask n =>
    dsimp only at hstep
    split_ifs at hstep with hblocked
    obtain ⟨hn, -, rfl⟩ := ticket_eq_some.mp hstep
    exact .ticket hn .emptyTask fun hb => absurd hb hblocked
  | invoke =>
    dsimp only at hstep
    split_ifs at hstep with hlt
    cases hstep
    exact .invoke hlt

/-! ### What holds in every state -/

/-- A call of `stop` that cancels the job there is. -/
structure Holds (s : BridgeDiscovery) (h : Holder) : Prop where
  stops : h.replacedBy = none
  belowDone : h.belowDone = false
  job : s.discoveryJob = some h.canceling
  quiet : (s.searches h.canceling).job.state ≠ .running ∧
    (s.searches h.canceling).job.state ≠ .dispatching
  canceled : h.canceled = some true → (s.searches h.canceling).job.state = .canceled
  completed : h.canceled = some false → (s.searches h.canceling).job.state ≠ .canceling

/-- An answer is the right one for its search. -/
def Answer.Fits (a : Answer) (q : Search) : Prop :=
  match a.returnCode with
  | .success => q.succeeded ∧ ∀ r ∈ a.results, r ∈ q.task.reported
  | .stopped => q.job.state = .canceled ∧ ∀ r ∈ a.results, r ∈ q.task.reported
  | .busy => q.wasSearching = true
  | .missingDiscoveryMethods => q.methods = [] ∧ q.wasSearching = false
  | .nullParameter => False

/-- **What holds while all calls come in turn.** -/
structure Sound (s : BridgeDiscovery) : Prop where
  fault : s.fault = false
  search : ∀ n, (s.searches n).Sound
  current : ∀ n, s.discoveryJob = some n → n < s.count ∧ s.callback = some n
  /-- Only the job there is can be active. -/
  others : ∀ n, s.discoveryJob ≠ some n → (s.searches n).job.isActive = false
  holders : ∀ h ∈ s.holders, Holds s h
  canceling : ∀ n, (s.searches n).job.state = .canceling → s.holders ≠ []
  blocked : s.queueBlocked = true → ∀ h ∈ s.holders, s.needsQueue h = false
  answers : ∀ n < s.count, s.answers n + s.owed n = if (s.searches n).unanswered then 0 else 1
  fits : ∀ a ∈ s.posts, a.search < s.count ∧ a.Fits (s.searches a.search)

theorem Keeps.fits {a : Answer} (h : Keeps q q') (ha : a.Fits q) : a.Fits q' := by
  unfold Answer.Fits at ha ⊢
  split at ha
  · exact ⟨h.succeeded ha.1, fun r hr => h.reported r (ha.2 r hr)⟩
  · exact ⟨h.canceled ha.1, fun r hr => h.reported r (ha.2 r hr)⟩
  · exact h.wasSearching.trans ha
  · exact ⟨h.methods.trans ha.1, h.wasSearching.trans ha.2⟩
  · exact ha

/-! ### The steps keep it -/

@[simp] theorem BridgeDiscovery.setSearch_searches_self : (s.setSearch n q).searches n = q := by
  simp [BridgeDiscovery.setSearch]

theorem BridgeDiscovery.setSearch_searches_of_ne (hne : m ≠ n) :
    (s.setSearch n q).searches m = s.searches m := by simp [BridgeDiscovery.setSearch, hne]

theorem Keeps.refl : Keeps q q := .of_job rfl ⟨.rfl, .rfl⟩ rfl rfl fun _ => id

theorem Holds.of_keeps (hs : Holds s h)
    (hkeeps : Keeps (s.searches h.canceling) (s'.searches h.canceling))
    (hjob : s'.discoveryJob = s.discoveryJob) : Holds s' h where
  stops := hs.stops
  belowDone := hs.belowDone
  job := hjob.trans hs.job
  quiet := hkeeps.quiet hs.quiet
  canceled hcanceled := hkeeps.canceled (hs.canceled hcanceled)
  completed hcanceled hstate := hs.completed hcanceled (hkeeps.canceling hstate)

/-- The steps of the searches, apart from the callback of a job. -/
theorem Sound.of_keeps (hs : Sound s) (hsearch : ∀ k, (s'.searches k).Sound)
    (hkeeps : ∀ k, Keeps (s.searches k) (s'.searches k)) (hcount : s'.count = s.count)
    (hjob : s'.discoveryJob = s.discoveryJob) (hcallback : s'.callback = s.callback)
    (hholders : s'.holders = s.holders) (hposts : s'.posts = s.posts) (hfault : s'.fault = s.fault)
    (hblocked : s'.queueBlocked = true → ∀ h ∈ s.holders, s'.needsQueue h = false) : Sound s' where
  fault := hfault.trans hs.fault
  search := hsearch
  current k hk := by
    rw [hcount, hcallback]
    exact hs.current k (hjob ▸ hk)
  others k hk := by
    by_contra hactive
    have hactive := (hkeeps k).active (by simpa using hactive)
    rw [hs.others k (hjob ▸ hk)] at hactive
    cases hactive
  holders h hh := by
    rw [hholders] at hh
    exact (hs.holders h hh).of_keeps (hkeeps _) hjob
  canceling k hk := by
    rw [hholders]
    exact hs.canceling k ((hkeeps k).canceling hk)
  blocked hb h hh := hblocked hb h (hholders ▸ hh)
  answers k hk := by
    rw [BridgeDiscovery.answers, BridgeDiscovery.owed, hposts, hholders, (hkeeps k).unanswered]
    exact hs.answers k (hcount ▸ hk)
  fits a ha := by
    rw [hposts] at ha
    rw [hcount]
    exact ⟨(hs.fits a ha).1, (hkeeps _).fits (hs.fits a ha).2⟩

theorem Sound.ticket (hs : Sound s) (hq : SearchStep s n (s.searches n) l q)
    (hblocked : s.queueBlocked = true → (∃ results, l = .methodCompletes n results) ∨ l = .discard n) :
    Sound (s.setSearch n q) := by
  have hrun : (∃ h ∈ s.holders, h.canceling = n) → (s.searches n).job.state ≠ .running := by
    rintro ⟨h, hh, rfl⟩
    exact (hs.holders h hh).quiet.1
  obtain ⟨hsound, hkeeps⟩ := (hs.search n).of_step hq hrun
  refine hs.of_keeps (fun k => ?_) (fun k => ?_) rfl rfl rfl rfl rfl rfl fun hb h hh => ?_
  · rcases eq_or_ne k n with rfl | hne
    · rwa [BridgeDiscovery.setSearch_searches_self]
    · rw [BridgeDiscovery.setSearch_searches_of_ne hne]
      exact hs.search k
  · rcases eq_or_ne k n with rfl | hne
    · rwa [BridgeDiscovery.setSearch_searches_self]
    · rw [BridgeDiscovery.setSearch_searches_of_ne hne]
      exact .refl
  · have hneeds := hs.blocked hb h hh
    rcases eq_or_ne h.canceling n with rfl | hne
    · have hjob : q.job = (s.searches h.canceling).job := by
        rcases hblocked hb with ⟨results, rfl⟩ | rfl
        · cases hq
          rfl
        · cases hq with
          | discard _ hpending =>
            exfalso
            simp [BridgeDiscovery.needsQueue, BridgeDiscovery.isDrained, Job.hasPending,
              (hs.search h.canceling).count, hpending] at hneeds
      simpa [BridgeDiscovery.needsQueue, BridgeDiscovery.isDrained, hjob] using hneeds
    · simpa [BridgeDiscovery.needsQueue, BridgeDiscovery.isDrained,
        BridgeDiscovery.setSearch_searches_of_ne hne] using hneeds

theorem answers_append (a : Answer) :
    BridgeDiscovery.answers { s with posts := s.posts ++ [a] } n =
      s.answers n + if a.search = n then 1 else 0 := by
  simp [BridgeDiscovery.answers, List.countP_append, List.countP_singleton]

theorem not_answered (hn : s.answers n = 0) {a : Answer} (ha : a ∈ s.posts) : a.search ≠ n := by
  have hnot := List.countP_eq_zero.mp hn a ha
  simpa using hnot

/-- The callback of the job posts the results. -/
theorem Sound.callback (hs : Sound s) (hn : n < s.count)
    (hfinish : ((s.searches n).job.task 0).finish = .begun) (hblocked : s.queueBlocked = false) :
    Sound ((s.setSearch n { s.searches n with job := (s.searches n).job.callback 0 }).postSuccess n) := by
  have hfits := (hs.search n).fits
  rw [hfinish] at hfits
  have hunanswered : (s.searches n).unanswered = true := by
    cases hstate : (s.searches n).job.state <;>
      simp_all [Search.Fits, Search.unanswered, Job.isActive]
  have hzero : s.answers n = 0 ∧ s.owed n = 0 := by
    have hanswers := hs.answers n hn
    rw [if_pos hunanswered] at hanswers
    omega
  set s₁ := s.setSearch n { s.searches n with job := (s.searches n).job.callback 0 } with hs₁
  have hother {k : ℕ} (hne : k ≠ n) : s₁.searches k = s.searches k := by
    rw [hs₁, BridgeDiscovery.setSearch_searches_of_ne hne]
  have hself : s₁.searches n = { s.searches n with job := (s.searches n).job.callback 0 } := by
    rw [hs₁, BridgeDiscovery.setSearch_searches_self]
  have hstate (k : ℕ) : (s₁.searches k).job.state = (s.searches k).job.state := by
    rcases eq_or_ne k n with rfl | hne
    · rw [hself]
      rfl
    · rw [hother hne]
  refine ⟨hs.fault, fun k => ?_, hs.current, fun k hk => ?_, fun h hh => ?_, fun k hk => ?_,
    fun hb => ?_, fun k hk => ?_, fun a ha => ?_⟩
  · show (s₁.searches k).Sound
    rcases eq_or_ne k n with rfl | hne
    · rw [hself]
      exact (hs.search k).callback hfinish
    · rw [hother hne]
      exact hs.search k
  · show (s₁.searches k).job.isActive = false
    rw [Job.isActive, hstate]
    exact hs.others k hk
  · have hh := hs.holders h hh
    exact ⟨hh.stops, hh.belowDone, hh.job, (hstate h.canceling).symm ▸ hh.quiet,
      fun hc => (hstate _).trans (hh.canceled hc), fun hc => (hstate h.canceling).symm ▸ hh.completed hc⟩
  · exact hs.canceling k ((hstate k).symm.trans hk)
  · have hb : s.queueBlocked = true := hb
    rw [hblocked] at hb
    cases hb
  · have hk' := hs.answers k hk
    have happend : (s₁.postSuccess n).answers k = s.answers k + if n = k then 1 else 0 :=
      answers_append _
    rw [happend]
    show s.answers k + _ + s.owed k = if (s₁.searches k).unanswered then 0 else 1
    rcases eq_or_ne k n with rfl | hne
    · rw [hself, if_pos rfl, hzero.1, hzero.2, if_neg]
      simp [Search.unanswered, Job.callback]
    · rw [hother hne, if_neg hne.symm]
      exact hk'
  · show a.search < s.count ∧ a.Fits (s₁.searches a.search)
    rcases List.mem_append.mp ha with ha | ha
    · rw [hother (not_answered hzero.1 ha)]
      exact hs.fits a ha
    · obtain rfl := List.mem_singleton.mp ha
      refine ⟨hn, ?_⟩
      show Answer.Fits _ (s₁.searches n)
      rw [Answer.Fits, hself]
      refine ⟨.inl (by simp [Job.callback]), fun r hr => (hs.search n).results r ?_⟩
      simpa [hself] using hr

/-- `stop` begins to cancel the job. -/
theorem Sound.beginCancel (hs : Sound s) {onQueue : Bool} (hjob : s.discoveryJob = some n)
    (hactive : (s.searches n).job.isActive = true)
    (hruns : onQueue = true → ((s.searches n).job.task 0).finish.runs = false)
    (hblocked : s.queueBlocked = false) : Sound (s.beginCancel n onQueue none) := by
  have hn := (hs.current n hjob).1
  set s₁ := s.beginCancel n onQueue none with hs₁
  have hother {k : ℕ} (hne : k ≠ n) : s₁.searches k = s.searches k :=
    BridgeDiscovery.setSearch_searches_of_ne hne
  have hself : s₁.searches n = { s.searches n with job := (s.searches n).job.requestCancel } :=
    BridgeDiscovery.setSearch_searches_self
  have hcanceling : (s₁.searches n).job.state = .canceling := by simp [hself]
  have hunanswered (k : ℕ) : (s₁.searches k).unanswered = (s.searches k).unanswered := by
    rcases eq_or_ne k n with rfl | hne
    · have hactive' : (s₁.searches k).job.isActive = true := by simp [Job.isActive, hcanceling]
      rw [Search.unanswered, Search.unanswered, hactive, hactive', hself, Job.requestCancel_task]
    · rw [hother hne]
  refine ⟨hs.fault, fun k => ?_, hs.current, fun k hk => ?_, fun h hh => ?_, fun k hk => by simp [hs₁,
    BridgeDiscovery.beginCancel], fun hb => ?_, fun k hk => ?_, fun a ha => ?_⟩
  · rcases eq_or_ne k n with rfl | hne
    · rw [hself]
      exact (hs.search k).requestCancel hactive
    · rw [hother hne]
      exact hs.search k
  · have hne : k ≠ n := by
      rintro rfl
      exact hk hjob
    rw [hother hne]
    exact hs.others k hk
  · rcases List.mem_cons.mp hh with rfl | hh
    · refine ⟨rfl, ?_, hjob, ?_, fun hc => ?_, fun hc => ?_⟩
      · cases onQueue with
        | false => rfl
        | true => simp [hruns rfl]
      · show (s₁.searches n).job.state ≠ _ ∧ (s₁.searches n).job.state ≠ _
        simp [hcanceling]
      · cases hc
      · cases hc
    · have hh := hs.holders h hh
      have heq : h.canceling = n := Option.some.inj (hh.job.symm.trans hjob)
      have hstate : (s.searches n).job.state = .canceling := by
        have hquiet := hh.quiet
        rw [heq] at hquiet
        simpa [Job.isActive, hquiet.1, hquiet.2] using hactive
      refine ⟨hh.stops, hh.belowDone, hh.job, ?_, fun hc => ?_, fun hc => ?_⟩
      · rw [heq, hcanceling]
        simp
      · have hcanceled := hh.canceled hc
        rw [heq, hstate] at hcanceled
        cases hcanceled
      · exact absurd (heq.symm ▸ hstate) (hh.completed hc)
  · have hb : s.queueBlocked = true := hb
    rw [hblocked] at hb
    cases hb
  · rw [hunanswered, ← hs.answers k hk]
    simp [hs₁, BridgeDiscovery.answers, BridgeDiscovery.owed, BridgeDiscovery.beginCancel,
      BridgeDiscovery.setSearch]
  · refine ⟨(hs.fits a ha).1, ?_⟩
    have hfits := (hs.fits a ha).2
    rcases eq_or_ne a.search n with heq | hne
    · rw [heq] at hfits ⊢
      rw [hself]
      unfold Answer.Fits at hfits ⊢
      split at hfits
      · exact ⟨by simpa [Search.succeeded] using hfits.1, hfits.2⟩
      · rw [Job.isActive, hfits.1] at hactive
        cases hactive
      · exact hfits
      · exact hfits
      · exact hfits
    · rwa [hother hne]

/-- A call on the queue's thread begins or ends to wait for the mutex. -/
theorem Sound.of_blocked (hs : Sound s) {queueBlocked : Bool}
    (hblocked : queueBlocked = true → ∀ h ∈ s.holders, s.needsQueue h = false) :
    Sound { s with queueBlocked } :=
  hs.of_keeps hs.search (fun _ => .refl) rfl rfl rfl rfl rfl rfl hblocked

theorem Sound.unblock (hs : Sound s) (onQueue : Bool) :
    Sound { s with queueBlocked := s.queueBlocked && !onQueue } := by
  refine hs.of_blocked fun hb => hs.blocked ?_
  rw [Bool.and_eq_true] at hb
  exact hb.1

theorem inProgress_eq (hjob : s.discoveryJob = some n) : s.inProgress = (s.searches n).job.isActive := by
  simp [BridgeDiscovery.inProgress, hjob]

theorem Sound.stop (hs : Sound s) {onQueue : Bool} (hC : s.inTurn (.stop onQueue)) :
    Sound ({ s with queueBlocked := s.queueBlocked && !onQueue }.stop onQueue) := by
  have hunblocked := hs.unblock onQueue
  unfold BridgeDiscovery.stop
  split
  · exact hunblocked
  · rename_i n hjob
    split_ifs with hactive
    · have hC := hC ((inProgress_eq hjob).trans hactive)
      have hruns : s.callbackRuns = ((s.searches n).job.task 0).finish.runs := by
        have hjob : s.discoveryJob = some n := hjob
        simp [BridgeDiscovery.callbackRuns, hjob]
      refine hunblocked.beginCancel hjob hactive (fun hq => ?_) ?_
      · rw [if_pos hq, hruns] at hC
        exact hC
      · cases onQueue with
        | false => simpa using hC
        | true => simp
    · exact hunblocked

/-- Nothing of a drained job waits or runs, the tickets below the call apart. -/
theorem Sound.finish_of_drained (hs : Sound s) (hh : h ∈ s.holders) (hdrained : s.isDrained h = true) :
    ((s.searches h.canceling).job.task 0).finish ≠ .pending ∧
      ((s.searches h.canceling).job.task 0).finish.runs = false := by
  simp only [BridgeDiscovery.isDrained, Bool.and_eq_true, Bool.not_eq_true', (hs.holders h hh).belowDone,
    Bool.or_false] at hdrained
  refine ⟨fun hpending => ?_, hdrained.2⟩
  have hnone := hdrained.1.1
  simp [Job.hasPending, (hs.search h.canceling).count, hpending] at hnone

/-- `cancel` goes on after the first `cancel_all`: the job is cancelled. -/
theorem Sound.canceled (hs : Sound s) {hs' : List Holder} (hholders : s.holders = h :: hs')
    (hnone : h.canceled = none) (hdrained : s.isDrained h = true)
    (hstate : (s.searches h.canceling).job.state = .canceling) : Sound (s.drained h hs') := by
  have hmem : h ∈ s.holders := hholders ▸ List.mem_cons_self
  have hh := hs.holders h hmem
  obtain ⟨hn, -⟩ := hs.current _ hh.job
  obtain ⟨hpending, hruns⟩ := hs.finish_of_drained hmem hdrained
  set n := h.canceling with hcanceling
  have hfits := (hs.search n).fits
  rw [hstate] at hfits
  have hfinish : ((s.searches n).job.task 0).finish = .notPosted := by
    cases hfinish : ((s.searches n).job.task 0).finish <;>
      simp_all [Search.Fits, DoneTicket.runs]
  have hzero : s.answers n = 0 ∧ s.owed n = 0 := by
    have hanswers := hs.answers n hn
    rw [if_pos (by simp [Search.unanswered, Job.isActive, hstate, hfinish])] at hanswers
    omega
  set s₁ := s.drained h hs' with hs₁
  have hother {k : ℕ} (hne : k ≠ n) : s₁.searches k = s.searches k :=
    BridgeDiscovery.setSearch_searches_of_ne hne
  have hself : s₁.searches n = { s.searches n with
      job := { (s.searches n).job with state := .canceled, emptyTicket := true } } := by
    have hself : s₁.searches n = { s.searches n with job := (s.searches n).job.confirmCancel } :=
      BridgeDiscovery.setSearch_searches_self
    rw [hself, Job.confirmCancel, if_pos hstate]
  have hholders₁ : s₁.holders = { h with canceled := some true } :: hs' := by
    simp [hs₁, BridgeDiscovery.drained, ← hcanceling, hstate]
  refine ⟨hs.fault, fun k => ?_, hs.current, fun k hk => ?_, fun h' hh' => ?_, fun k hk => ?_,
    fun hb => ?_, fun k hk => ?_, fun a ha => ?_⟩
  · rcases eq_or_ne k n with rfl | hne
    · rw [hself]
      have hq := hs.search n
      exact ⟨hq.count, hfinish, fun _ => hq.started (by rw [hstate]; simp), by simp, hq.pending, hq.finished,
        by simp, hq.results, hq.posted⟩
    · rw [hother hne]
      exact hs.search k
  · have hne : k ≠ n := by
      rintro rfl
      exact hk hh.job
    rw [hother hne]
    exact hs.others k hk
  · rw [hholders₁] at hh'
    rcases List.mem_cons.mp hh' with rfl | hh'
    · refine ⟨hh.stops, hh.belowDone, hh.job, ?_, fun _ => ?_, by simp⟩
      · show (s₁.searches n).job.state ≠ _ ∧ (s₁.searches n).job.state ≠ _
        simp [hself]
      · show (s₁.searches n).job.state = _
        rw [hself]
    · have hh' := hs.holders h' (hholders ▸ List.mem_cons_of_mem _ hh')
      have heq : h'.canceling = n := Option.some.inj (hh'.job.symm.trans hh.job)
      refine ⟨hh'.stops, hh'.belowDone, hh'.job, ?_, fun _ => ?_, fun hc => ?_⟩
      · rw [heq, hself]
        simp
      · rw [heq, hself]
      · exact absurd (heq.symm ▸ hstate) (hh'.completed hc)
  · rw [hholders₁]
    simp
  · have hneeds := hs.blocked hb h hmem
    simp [BridgeDiscovery.needsQueue, hnone, ← hcanceling, hstate] at hneeds
  · have howed : s₁.owed k = s.owed k + if n = k then 1 else 0 := by
      rw [BridgeDiscovery.owed, hholders₁, BridgeDiscovery.owed, hholders]
      simp [List.countP_cons, hnone, ← hcanceling]
    have hanswers : s₁.answers k = s.answers k := rfl
    rw [howed, hanswers]
    rcases eq_or_ne k n with rfl | hne
    · rw [if_pos rfl, hzero.1, hzero.2, hself, if_neg (by simp [Search.unanswered, Job.isActive])]
    · rw [if_neg hne.symm, hother hne]
      exact hs.answers k hk
  · rw [hother (not_answered hzero.1 ha)]
    exact hs.fits a ha

/-- `cancel` goes on after the first `cancel_all`: the job has completed, or another call has cancelled
it. -/
theorem Sound.notCanceled (hs : Sound s) {hs' : List Holder} (hholders : s.holders = h :: hs')
    (hnone : h.canceled = none) (hdrained : s.isDrained h = true)
    (hstate : (s.searches h.canceling).job.state ≠ .canceling) : Sound (s.drained h hs') := by
  have hh := hs.holders h (hholders ▸ List.mem_cons_self)
  set s₁ := s.drained h hs' with hs₁
  have hsearches : s₁.searches = s.searches := by
    show Function.update s.searches h.canceling _ = _
    rw [Job.confirmCancel, if_neg hstate]
    exact Function.update_eq_self h.canceling s.searches
  have hholders₁ : s₁.holders = { h with canceled := some false } :: hs' := by
    simp [hs₁, BridgeDiscovery.drained, hstate]
  refine ⟨hs.fault, fun k => ?_, hs.current, fun k hk => ?_, fun h' hh' => ?_, fun k hk => ?_,
    fun hb h' hh' => ?_, fun k hk => ?_, fun a ha => ?_⟩
  · rw [hsearches]
    exact hs.search k
  · rw [hsearches]
    exact hs.others k hk
  · rw [hholders₁] at hh'
    rcases List.mem_cons.mp hh' with rfl | hh'
    · refine ⟨hh.stops, hh.belowDone, hh.job, ?_, by simp, fun _ => ?_⟩
      · rw [hsearches]
        exact hh.quiet
      · rw [hsearches]
        exact hstate
    · have hh' := hs.holders h' (hholders ▸ List.mem_cons_of_mem _ hh')
      exact hh'.of_keeps (by rw [hsearches]; exact .refl) rfl
  · rw [hholders₁]
    simp
  · have hneeds (h' : Holder) : s₁.needsQueue h' = s.needsQueue h' := by
      simp only [BridgeDiscovery.needsQueue, BridgeDiscovery.isDrained, hsearches]
    rw [hneeds]
    rw [hholders₁] at hh'
    rcases List.mem_cons.mp hh' with rfl | hh'
    · have hdrained' : s.isDrained { h with canceled := some false } = true := hdrained
      simp [BridgeDiscovery.needsQueue, hdrained']
    · exact hs.blocked hb h' (hholders ▸ List.mem_cons_of_mem _ hh')
  · have howed : s₁.owed k = s.owed k := by
      rw [BridgeDiscovery.owed, hholders₁, BridgeDiscovery.owed, hholders]
      simp [hnone]
    have hanswers : s₁.answers k = s.answers k := rfl
    rw [howed, hanswers, hsearches]
    exact hs.answers k hk
  · rw [hsearches]
    exact hs.fits a ha

theorem stopReturns_eq (hjob : s.discoveryJob = some n) (hcallback : s.callback = some m) :
    s.stopReturns true = { s with posts := s.posts ++
      [{ search := m, results := (s.searches n).task.results, returnCode := .stopped }] } := by
  unfold BridgeDiscovery.stopReturns
  split
  · rename_i n' m' hn hm
    obtain rfl := Option.some.inj (hn.symm.trans hjob)
    obtain rfl := Option.some.inj (hm.symm.trans hcallback)
    rfl
  · rename_i hnone
    exact absurd hcallback (hnone n m rfl hjob)

/-- `stop` returns. -/
theorem Sound.returns (hs : Sound s) {hs' : List Holder} {canceled : Bool}
    (hholders : s.holders = h :: hs') (hcanceled : h.canceled = some canceled) :
    Sound ({ s with holders := hs' }.returns h canceled) := by
  have hmem : h ∈ s.holders := hholders ▸ List.mem_cons_self
  have hh := hs.holders h hmem
  obtain ⟨hn, hcallback⟩ := hs.current _ hh.job
  have hrest {k : Holder} (hk : k ∈ hs') : k ∈ s.holders := hholders ▸ List.mem_cons_of_mem _ hk
  have hnot (k : ℕ) : (s.searches k).job.state ≠ .canceling := by
    intro hstate
    by_cases hk : s.discoveryJob = some k
    · have heq : h.canceling = k := Option.some.inj (hh.job.symm.trans hk)
      subst heq
      cases canceled with
      | false => exact hh.completed hcanceled hstate
      | true =>
        have hc := hh.canceled hcanceled
        rw [hstate] at hc
        cases hc
    · have hidle := hs.others k hk
      simp [Job.isActive, hstate] at hidle
  have howed (k : ℕ) : s.owed k =
      (hs'.countP fun h => h.canceling = k ∧ h.canceled = some true) +
        if h.canceling = k ∧ canceled = true then 1 else 0 := by
    rw [BridgeDiscovery.owed, hholders]
    simp [List.countP_cons, hcanceled]
  unfold BridgeDiscovery.returns
  rw [hh.stops]
  dsimp only
  cases canceled with
  | false =>
    refine ⟨hs.fault, hs.search, hs.current, hs.others, fun h' hh' => ?_, fun k hk => absurd hk (hnot k),
      fun hb h' hh' => hs.blocked hb h' (hrest hh'), fun k hk => ?_, hs.fits⟩
    · have hh' := hs.holders h' (hrest hh')
      exact ⟨hh'.stops, hh'.belowDone, hh'.job, hh'.quiet, hh'.canceled, hh'.completed⟩
    · have hk' := hs.answers k hk
      rw [howed, if_neg (by simp)] at hk'
      exact hk'
  | true =>
    rw [stopReturns_eq (s := { s with holders := hs' }) hh.job hcallback]
    refine ⟨hs.fault, hs.search, hs.current, hs.others, fun h' hh' => ?_, fun k hk => absurd hk (hnot k),
      fun hb h' hh' => hs.blocked hb h' (hrest hh'), fun k hk => ?_, fun a ha => ?_⟩
    · have hh' := hs.holders h' (hrest hh')
      exact ⟨hh'.stops, hh'.belowDone, hh'.job, hh'.quiet, hh'.canceled, hh'.completed⟩
    · have hk' := hs.answers k hk
      rw [howed] at hk'
      simp only [and_true] at hk'
      rw [answers_append (s := { s with holders := hs' }), ← hk']
      show s.answers k + _ + _ = s.answers k + (_ + _)
      rw [Nat.add_assoc, Nat.add_comm (if h.canceling = k then 1 else 0)]
      rfl
    · rcases List.mem_append.mp ha with ha | ha
      · exact hs.fits a ha
      · obtain rfl := List.mem_singleton.mp ha
        exact ⟨hn, hh.canceled hcanceled, (hs.search _).results⟩

/-- A search that was not run. -/
theorem Search.Sound.unstarted {methods : List DiscoveryOption} {wasSearching : Bool} :
    Search.Sound { methods, wasSearching } where
  count := rfl
  fits := rfl
  started hstate := absurd rfl hstate
  stopTicket _ := rfl
  pending := nofun
  finished hfinish := absurd rfl hfinish
  goesOn := nofun
  results := nofun
  posted := nofun

/-- A search that is run. -/
theorem Search.Sound.run {methods : List DiscoveryOption} (hmethods : methods ≠ []) :
    Search.Sound { methods, job := ({} : Job).run, task := { currentDiscoveryMethods := methods } } where
  count := rfl
  fits := .inl (by simp [Job.run])
  started _ := ⟨hmethods, rfl⟩
  stopTicket _ := rfl
  pending _ := ⟨rfl, rfl, by simp [Job.run], hmethods, by simp [Job.run]⟩
  finished hfinish := absurd (by simp [Job.run]) hfinish
  goesOn _ _ := ⟨rfl, hmethods, .inl (by simp [Job.run])⟩
  results := nofun
  posted := nofun

theorem Sound.answers_count (hs : Sound s) : s.answers s.count = 0 := by
  refine List.countP_eq_zero.mpr fun a ha => ?_
  have hlt := (hs.fits a ha).1
  simp only [decide_eq_true_eq]
  omega

theorem Sound.canceling_lt (hs : Sound s) (hh : h ∈ s.holders) : h.canceling < s.count :=
  (hs.current _ (hs.holders h hh).job).1

/-- A search that is answered at once. -/
theorem Sound.answer (hs : Sound s) {methods : List DiscoveryOption} {returnCode : ReturnCode}
    (hcode : returnCode = .busy ∧ s.inProgress = true ∨
      returnCode = .missingDiscoveryMethods ∧ methods = [] ∧ s.inProgress = false) :
    Sound (s.answer methods returnCode) := by
  set s₁ := s.answer methods returnCode with hs₁
  have hother {k : ℕ} (hk : k < s.count) : s₁.searches k = s.searches k :=
    BridgeDiscovery.setSearch_searches_of_ne (by omega)
  have hself : s₁.searches s.count = { methods, wasSearching := s.inProgress } :=
    BridgeDiscovery.setSearch_searches_self
  have hanswers (k : ℕ) : s₁.answers k = s.answers k + if s.count = k then 1 else 0 :=
    answers_append _
  refine ⟨hs.fault, fun k => ?_, fun k hk => ?_, fun k hk => ?_, fun h hh => ?_, fun k hk => ?_,
    fun hb h hh => ?_, fun k hk => ?_, fun a ha => ?_⟩
  · rcases eq_or_ne k s.count with rfl | hne
    · rw [hself]
      exact .unstarted
    · rw [show s₁.searches k = s.searches k from BridgeDiscovery.setSearch_searches_of_ne hne]
      exact hs.search k
  · obtain ⟨hlt, hcallback⟩ := hs.current k hk
    exact ⟨Nat.lt_succ_of_lt hlt, hcallback⟩
  · rcases eq_or_ne k s.count with rfl | hne
    · rw [hself]
      rfl
    · rw [show s₁.searches k = s.searches k from BridgeDiscovery.setSearch_searches_of_ne hne]
      exact hs.others k hk
  · exact (hs.holders h hh).of_keeps (by rw [hother (hs.canceling_lt hh)]; exact .refl) rfl
  · rcases eq_or_ne k s.count with rfl | hne
    · rw [hself] at hk
      cases hk
    · rw [show s₁.searches k = s.searches k from BridgeDiscovery.setSearch_searches_of_ne hne] at hk
      exact hs.canceling k hk
  · have hneeds := hs.blocked hb h hh
    simp only [BridgeDiscovery.needsQueue, BridgeDiscovery.isDrained] at hneeds ⊢
    rwa [hother (hs.canceling_lt hh)]
  · rw [hanswers]
    rcases Nat.lt_succ_iff_lt_or_eq.mp hk with hlt | rfl
    · rw [hother hlt, if_neg (by omega)]
      exact hs.answers k hlt
    · have howed : s.owed s.count = 0 := by
        refine List.countP_eq_zero.mpr fun h hh => ?_
        have hlt := hs.canceling_lt hh
        simp only [decide_eq_true_eq, not_and]
        omega
      have howed₁ : s₁.owed s.count = s.owed s.count := rfl
      rw [hself, howed₁, howed, hs.answers_count, if_pos rfl, if_neg (by simp [Search.unanswered,
        Job.isActive])]
  · rcases List.mem_append.mp ha with ha | ha
    · obtain ⟨hlt, hfits⟩ := hs.fits a ha
      rw [hother hlt]
      exact ⟨Nat.lt_succ_of_lt hlt, hfits⟩
    · obtain rfl := List.mem_singleton.mp ha
      refine ⟨Nat.lt_succ_self _, ?_⟩
      show Answer.Fits _ (s₁.searches s.count)
      rw [hself]
      rcases hcode with ⟨rfl, hprogress⟩ | ⟨rfl, hmethods, hprogress⟩
      · exact hprogress
      · exact ⟨hmethods, hprogress⟩

/-- A search whose job takes the place of one that has ended. -/
theorem replaceJob_eq {methods : List DiscoveryOption} {onQueue : Bool} (hholders : s.holders = [])
    (hidle : s.inProgress = false) : s.replaceJob methods onQueue =
      { s.setSearch s.count
          { methods, job := ({} : Job).run, task := { currentDiscoveryMethods := methods } } with
        count := s.count + 1, discoveryJob := some s.count, callback := some s.count } := by
  unfold BridgeDiscovery.replaceJob
  split
  · simp [BridgeDiscovery.runJob, BridgeDiscovery.setSearch, hidle]
  · rename_i m hjob
    have hactive : (s.searches m).job.isActive = false := (inProgress_eq hjob).symm.trans hidle
    simp [BridgeDiscovery.runJob, BridgeDiscovery.setSearch, hidle, hholders, hactive]

/-- A search that is run. -/
theorem Sound.starts (hs : Sound s) {methods : List DiscoveryOption} {onQueue : Bool}
    (hmethods : methods ≠ []) (hholders : s.holders = []) (hidle : s.inProgress = false) :
    Sound (s.replaceJob methods onQueue) := by
  rw [replaceJob_eq hholders hidle]
  set q : Search := { methods, job := ({} : Job).run, task := { currentDiscoveryMethods := methods } }
    with hq
  have hsound : q.Sound := .run hmethods
  have hstate : q.job.state = .running := rfl
  have hidle' (k : ℕ) : (s.searches k).job.isActive = false := by
    by_cases hk : s.discoveryJob = some k
    · exact (inProgress_eq hk).symm.trans hidle
    · exact hs.others k hk
  have hself : (s.setSearch s.count q).searches s.count = q := BridgeDiscovery.setSearch_searches_self
  have hother {k : ℕ} (hne : k ≠ s.count) : (s.setSearch s.count q).searches k = s.searches k :=
    BridgeDiscovery.setSearch_searches_of_ne hne
  refine ⟨hs.fault, fun k => ?_, fun k hk => ?_, fun k hk => ?_, fun h hh => ?_, fun k hk => ?_,
    fun hb h hh => ?_, fun k hk => ?_, fun a ha => ?_⟩
  · show ((s.setSearch s.count q).searches k).Sound
    rcases eq_or_ne k s.count with rfl | hne
    · rwa [hself]
    · rw [hother hne]
      exact hs.search k
  · have hk : s.count = k := Option.some.inj hk
    subst hk
    exact ⟨Nat.lt_succ_self _, rfl⟩
  · have hne : k ≠ s.count := by
      rintro rfl
      exact hk rfl
    show ((s.setSearch s.count q).searches k).job.isActive = false
    rw [hother hne]
    exact hidle' k
  · have hh : h ∈ s.holders := hh
    rw [hholders] at hh
    cases hh
  · have hk : ((s.setSearch s.count q).searches k).job.state = .canceling := hk
    rcases eq_or_ne k s.count with rfl | hne
    · rw [hself] at hk
      cases hk
    · rw [hother hne] at hk
      have hactive := hidle' k
      simp [Job.isActive, hk] at hactive
  · have hh : h ∈ s.holders := hh
    rw [hholders] at hh
    cases hh
  · have howed : s.owed k = 0 := by simp [BridgeDiscovery.owed, hholders]
    show s.answers k + s.owed k = if ((s.setSearch s.count q).searches k).unanswered then 0 else 1
    rcases Nat.lt_succ_iff_lt_or_eq.mp hk with hlt | rfl
    · rw [hother (by omega)]
      exact hs.answers k hlt
    · rw [howed, hs.answers_count, hself, if_pos]
      simp [Search.unanswered, Job.isActive, hq, Job.run]
  · obtain ⟨hlt, hfits⟩ := hs.fits a ha
    refine ⟨Nat.lt_succ_of_lt hlt, ?_⟩
    show a.Fits ((s.setSearch s.count q).searches a.search)
    rwa [hother (by omega)]

theorem Sound.searches (hs : Sound s) {options available : List DiscoveryOption} {onQueue : Bool}
    (hC : s.inTurn (.search options available onQueue)) :
    Sound ({ s with queueBlocked := s.queueBlocked && !onQueue }.search
      (getDiscoveryMethods options available) onQueue) := by
  have hunblocked := hs.unblock onQueue
  have hprogress : s.isSearching = true → s.inProgress = true := by
    intro hsearching
    unfold BridgeDiscovery.isSearching at hsearching
    unfold BridgeDiscovery.inProgress
    split at hsearching
    · cases hsearching
    · have hstate : _ = JobState.running := of_decide_eq_true hsearching
      simp [Job.isActive, hstate]
  obtain ⟨hturn, hnested⟩ := hC
  unfold BridgeDiscovery.search
  split_ifs with hsearching hmethods
  · exact hunblocked.answer (.inl ⟨rfl, hprogress hsearching⟩)
  · refine hunblocked.answer (.inr ⟨rfl, by simpa using hmethods, ?_⟩)
    by_contra hactive
    exact hsearching (hturn (eq_true_of_ne_false hactive))
  · have hmethods : getDiscoveryMethods options available ≠ [] := by simpa using hmethods
    refine hunblocked.starts hmethods ?_ ?_
    · by_contra hholders
      exact hmethods (hnested hholders)
    · by_contra hactive
      exact hsearching (hturn (eq_true_of_ne_false hactive))

/-- **A step that comes in turn keeps it.** -/
theorem Sound.of_step (hs : Sound s) (hstep : DiscoveryStep s l s') (hC : s.inTurn l) : Sound s' := by
  cases hstep with
  | search => exact hs.searches hC
  | stop => exact hs.stop hC
  | blocks => exact hs.of_blocked fun _ => hC
  | @drained h _ hholders hnone hdrained =>
    by_cases hstate : (s.searches h.canceling).job.state = .canceling
    · exact hs.canceled hholders hnone hdrained hstate
    · exact hs.notCanceled hholders hnone hdrained hstate
  | returns hholders hcanceled => exact hs.returns hholders hcanceled
  | ticket _ hq hblocked => exact hs.ticket hq hblocked
  | callback hn hfinish hblocked => exact hs.callback hn hfinish hblocked
  | invoke =>
    exact ⟨hs.fault, hs.search, hs.current, hs.others, fun h hh => (hs.holders h hh).of_keeps .refl rfl,
      hs.canceling, hs.blocked, hs.answers, hs.fits⟩

theorem Sound.init : Sound {} where
  fault := rfl
  search _ := .unstarted
  current := nofun
  others _ _ := rfl
  holders := nofun
  canceling := nofun
  blocked := nofun
  answers _ hn := absurd hn (Nat.not_lt_zero _)
  fits := nofun

end HueStream.Discovery
