import HueStream.Monitor.ConnectionMonitor

/-! # One monitor thread for the latest start

A stop joins the thread before it returns, and a start on the first version of the interface stops first,
so there is never more than one thread, and none after a stop. A start on the second version returns at
once while the monitor runs, and leaves it with the bridge and the interval it has. -/

namespace HueStream.Monitor

open HueStream.Data HueStream.Lib

namespace ConnectionMonitor

variable {s : ConnectionMonitor}

/-- The thread is in a check of the bridge. -/
def Checks (s : ConnectionMonitor) (n : ℕ) (bridge : BridgePtr) : Prop :=
  s.threads n = .checking bridge ∨ s.threads n = .checkingLocked bridge

/-- What holds of the threads, the thread object and the call that is under way. -/
structure Sound (s : ConnectionMonitor) : Prop where
  intact : s.fault = false
  fresh : ∀ n, s.count ≤ n → s.threads n = .absent
  joined_lt : ∀ n ∈ s.joined, n < s.count
  /-- While the monitor runs its thread is the only one. -/
  running : s.running = true → ∃ n, s.monitorThread = some n ∧ (s.threads n).Alive ∧ n ∉ s.joined ∧
    ∀ m, (s.threads m).Alive → m = n
  /-- Else the only thread is the one that is joined. -/
  still : s.running = false → s.monitorThread = none ∧
    ∀ m, (s.threads m).Alive → ∃ next, s.call = some (.joining m next)
  joining : ∀ n next, s.call = some (.joining n next) →
    s.running = false ∧ n ∉ s.joined ∧ n < s.count
  creating : ∀ bridge intervalMsec, s.call = some (.creating bridge intervalMsec) → s.running = false
  stopped : s.latest = none → s.running = false ∧ ∀ n next, s.call ≠ some (.joining n next)

/-- The monitor works for the start that returned last. -/
def Follows (s : ConnectionMonitor) : Prop :=
  ∀ bridge intervalMsec, s.latest = some (bridge, intervalMsec) →
    s.bridge = some bridge ∧ s.intervalMsec = intervalMsec

/-! ### What a step does -/

/-- The state after a step. -/
inductive Steps (s : ConnectionMonitor) : MonitorLabel → ConnectionMonitor → Prop
  | start {bridge : BridgePtr} {intervalMsec : ℤ} (hcall : s.call = none) :
      Steps s (.start bridge intervalMsec) { s with call := some (.starting bridge intervalMsec) }
  | stop (hcall : s.call = none) : Steps s .stop { s with call := some (.stopping none) }
  | decides {bridge : BridgePtr} {intervalMsec : ℤ}
      (hcall : s.call = some (.starting bridge intervalMsec)) :
      Steps s .decides (s.decides bridge intervalMsec)
  | signals {next : Option (BridgePtr × ℤ)} (hcall : s.call = some (.stopping next)) :
      Steps s .signals (s.signals next)
  | joins {n : ℕ} {next : Option (BridgePtr × ℤ)} (hcall : s.call = some (.joining n next))
      (hfinished : s.threads n = .finished) :
      Steps s .joins
        (({ s with joined := n :: s.joined, fault := s.fault || n ∈ s.joined } :
          ConnectionMonitor).stopReturns next)
  | creates {bridge : BridgePtr} {intervalMsec : ℤ}
      (hcall : s.call = some (.creating bridge intervalMsec)) :
      Steps s .creates (s.creates bridge intervalMsec)
  /-- A check that begins is one of the bridge of the monitor. -/
  | moves {l : MonitorLabel} {n : ℕ} {p : ThreadPoint} {mutex : Option ℕ} (hn : (s.threads n).Alive)
      (hp : p.Alive ∨ s.running = false)
      (hbegins : ∀ bridge, p = .checking bridge ∨ p = .checkingLocked bridge →
        s.bridge = some bridge) : Steps s l (s.moves n p mutex)
  | update {bridge : BridgePtr} {supportsClipV2 : Bool} :
      Steps s (.update bridge supportsClipV2)
        { s with supportsClipV2 := Function.update s.supportsClipV2 bridge supportsClipV2 }

theorem finishes_steps {l : MonitorLabel} {n : ℕ} {p : ThreadPoint} {mutex : Option ℕ}
    (hn : (s.threads n).Alive) (hp : p = .waiting ∨ p = .timedOut) :
    Steps s l (s.finishes n p mutex) := by
  unfold finishes
  by_cases hrun : s.running = true
  · rw [if_pos hrun]
    rcases hp with rfl | rfl <;> exact .moves hn (.inl (by simp [ThreadPoint.Alive])) (by simp)
  · rw [if_neg hrun]
    exact .moves hn (.inr (by simpa using hrun)) (by simp)

theorem step_cases {l : MonitorLabel} {s' : ConnectionMonitor} (h : s.step l = some s') :
    Steps s l s' := by
  cases l with
  | start bridge intervalMsec =>
    obtain ⟨hcall, rfl⟩ := by simpa [step] using h
    exact .start hcall
  | stop =>
    obtain ⟨hcall, rfl⟩ := by simpa [step] using h
    exact .stop hcall
  | decides =>
    simp only [step] at h
    split at h
    · next hcall =>
      obtain rfl := Option.some.inj h
      exact .decides hcall
    · cases h
  | signals =>
    simp only [step] at h
    split at h
    · next hcall =>
      obtain ⟨-, rfl⟩ := by simpa using h
      exact .signals hcall
    · cases h
  | joins =>
    simp only [step] at h
    split at h
    · next hcall =>
      obtain ⟨hfinished, rfl⟩ := by simpa using h
      exact .joins hcall hfinished
    · cases h
  | creates =>
    simp only [step] at h
    split at h
    · next hcall =>
      obtain ⟨-, rfl⟩ := by simpa using h
      exact .creates hcall
    · cases h
  | loops n =>
    simp only [step, loops, Option.ite_none_right_eq_some, Option.map_eq_some_iff] at h
    obtain ⟨hn, bridge, hbridge, rfl⟩ := h
    have halive : (s.threads n).Alive := by simp [hn, ThreadPoint.Alive]
    split_ifs
    · refine .moves halive (.inl (by simp [ThreadPoint.Alive])) fun b hb => ?_
      obtain rfl : bridge = b := by simpa using hb
      exact hbridge
    · exact .moves halive (.inl (by simp [ThreadPoint.Alive])) (by simp)
  | checked n =>
    simp only [step] at h
    split at h
    · next hn =>
      obtain rfl := Option.some.inj h
      exact .moves (by simp [hn, ThreadPoint.Alive]) (.inl (by simp [ThreadPoint.Alive])) (by simp)
    · next hn =>
      obtain rfl := Option.some.inj h
      exact .moves (by simp [hn, ThreadPoint.Alive]) (.inl (by simp [ThreadPoint.Alive])) (by simp)
    · cases h
  | waits n =>
    simp only [step, Option.ite_none_right_eq_some] at h
    obtain ⟨⟨hn, -⟩, h⟩ := h
    obtain rfl := Option.some.inj h
    exact finishes_steps (by simp [hn, ThreadPoint.Alive]) (.inl rfl)
  | wakes n =>
    simp only [step, Option.ite_none_right_eq_some] at h
    obtain ⟨⟨hn, -⟩, h⟩ := h
    obtain rfl := Option.some.inj h
    exact finishes_steps (by simp [hn, ThreadPoint.Alive]) (.inr rfl)
  | goesOn n =>
    simp only [step, goesOn, Option.ite_none_right_eq_some, Option.map_eq_some_iff] at h
    obtain ⟨hn, bridge, hbridge, rfl⟩ := h
    have halive : (s.threads n).Alive := by simp [hn, ThreadPoint.Alive]
    split_ifs
    · exact .moves halive (.inl (by simp [ThreadPoint.Alive])) (by simp)
    · refine .moves halive (.inl (by simp [ThreadPoint.Alive])) fun b hb => ?_
      obtain rfl : bridge = b := by simpa using hb
      exact hbridge
  | update bridge supportsClipV2 =>
    obtain rfl := Option.some.inj h
    exact .update

/-! ### What the steps keep -/

theorem alive_moves {n m : ℕ} {p : ThreadPoint} {mutex : Option ℕ} (hn : (s.threads n).Alive)
    (h : ((s.moves n p mutex).threads m).Alive) : (s.threads m).Alive := by
  by_cases hm : m = n
  · rwa [hm]
  · rwa [threads_moves, Function.update_of_ne hm] at h

/-- A thread moves on, and ends only when the monitor does not run. -/
theorem Sound.moves (h : Sound s) {n : ℕ} {p : ThreadPoint} (mutex : Option ℕ)
    (hn : (s.threads n).Alive) (hp : p.Alive ∨ s.running = false) : Sound (s.moves n p mutex) where
  intact := h.intact
  fresh m hm := by
    have hne : m ≠ n := by
      rintro rfl
      exact hn.1 (h.fresh m hm)
    rw [threads_moves, Function.update_of_ne hne]
    exact h.fresh m hm
  joined_lt := h.joined_lt
  running hrun := by
    rw [running_moves] at hrun
    obtain ⟨k, hk, halive, hjoined, honly⟩ := h.running hrun
    obtain rfl := honly n hn
    have hp : p.Alive := hp.resolve_right (by rw [hrun]; exact Bool.noConfusion)
    refine ⟨n, hk, ?_, hjoined, fun m hm => honly m (alive_moves hn hm)⟩
    rwa [threads_moves, Function.update_self]
  still hstill := by
    obtain ⟨hnone, hjoining⟩ := h.still hstill
    exact ⟨hnone, fun m hm => hjoining m (alive_moves hn hm)⟩
  joining := h.joining
  creating := h.creating
  stopped := h.stopped

/-- The call changes to one that neither joins nor creates. -/
theorem Sound.calls (h : Sound s) {call : Option Call} {latest : Option (BridgePtr × ℤ)}
    (hold : ∀ n next, s.call ≠ some (.joining n next))
    (hjoining : ∀ n next, call ≠ some (.joining n next))
    (hcreating : ∀ bridge intervalMsec, call = some (.creating bridge intervalMsec) →
      s.running = false)
    (hlatest : latest = none → s.running = false) :
    Sound { s with call := call, latest := latest } where
  intact := h.intact
  fresh := h.fresh
  joined_lt := h.joined_lt
  running := h.running
  still hstill := by
    obtain ⟨hnone, hall⟩ := h.still hstill
    refine ⟨hnone, fun m hm => ?_⟩
    obtain ⟨next, hnext⟩ := hall m hm
    exact absurd hnext (hold m next)
  joining n next hcall := absurd hcall (hjoining n next)
  creating := hcreating
  stopped hnone := ⟨hlatest hnone, hjoining⟩

/-- A stop that has no thread to join, or has joined it, returns. -/
theorem Sound.stopReturns (h : Sound s) (hcall : ∀ n next, s.call ≠ some (.joining n next))
    (hrun : s.running = false) (next : Option (BridgePtr × ℤ)) : Sound (s.stopReturns next) := by
  cases next with
  | none => exact h.calls hcall (by simp) (by simp) fun _ => hrun
  | some next =>
    exact h.calls hcall (by simp) (fun _ _ _ => hrun) fun hnone => (h.stopped hnone).1

/-- The critical section of a stop. -/
theorem Sound.signals (h : Sound s) {next : Option (BridgePtr × ℤ)}
    (hcall : s.call = some (.stopping next)) : Sound (s.signals next) := by
  have hold : ∀ n next', s.call ≠ some (.joining n next') := by simp [hcall]
  unfold ConnectionMonitor.signals
  by_cases hrun : s.running = true
  · obtain ⟨n, hn, halive, hjoined, honly⟩ := h.running hrun
    have hlt : n < s.count := by
      by_contra hge
      exact halive.1 (h.fresh n (by omega))
    have hlatest : s.latest ≠ none := by
      intro hnone
      exact absurd hrun (by rw [(h.stopped hnone).1]; exact Bool.noConfusion)
    rw [if_pos hrun, hn]
    refine ⟨h.intact, h.fresh, h.joined_lt, by simp, fun _ => ⟨rfl, fun m hm => ⟨next, ?_⟩⟩, ?_, by simp,
      fun hnone => absurd hnone hlatest⟩
    · rw [honly m hm]
    · rintro m next' heq
      obtain ⟨rfl, rfl⟩ := by simpa using heq
      exact ⟨rfl, hjoined, hlt⟩
  · rw [if_neg hrun]
    exact h.stopReturns hold (by simpa using hrun) next

/-- The thread has ended and is joined. -/
theorem Sound.joins (h : Sound s) {n : ℕ} {next : Option (BridgePtr × ℤ)}
    (hcall : s.call = some (.joining n next)) (hfinished : s.threads n = .finished) :
    Sound (({ s with joined := n :: s.joined, fault := s.fault || n ∈ s.joined } :
      ConnectionMonitor).stopReturns next) := by
  obtain ⟨hrun, hnot, hlt⟩ := h.joining n next hcall
  obtain ⟨hnone, hall⟩ := h.still hrun
  -- the thread that is joined was the only one
  have hdead : ∀ m, ¬ (s.threads m).Alive := by
    intro m hm
    obtain ⟨next', hnext⟩ := hall m hm
    obtain ⟨rfl, -⟩ := by simpa [hcall] using hnext
    exact hm.2 hfinished
  have hfault : (s.fault || decide (n ∈ s.joined)) = false := by simp [h.intact, hnot]
  have hjoined : ∀ m ∈ n :: s.joined, m < s.count := by
    intro m hm
    rcases List.mem_cons.mp hm with rfl | hm
    · exact hlt
    · exact h.joined_lt m hm
  have hlatest : s.latest ≠ none := fun hl => (h.stopped hl).2 n next hcall
  cases next with
  | none =>
    exact ⟨hfault, h.fresh, hjoined, fun hrun' => absurd (hrun.symm.trans hrun') (by simp),
      fun _ => ⟨hnone, fun m hm => absurd hm (hdead m)⟩, by simp [ConnectionMonitor.stopReturns],
      by simp [ConnectionMonitor.stopReturns], fun _ => ⟨hrun, by simp [ConnectionMonitor.stopReturns]⟩⟩
  | some next =>
    exact ⟨hfault, h.fresh, hjoined, fun hrun' => absurd (hrun.symm.trans hrun') (by simp),
      fun _ => ⟨hnone, fun m hm => absurd hm (hdead m)⟩, by simp [ConnectionMonitor.stopReturns],
      fun _ _ _ => hrun, fun hnone => absurd hnone hlatest⟩

/-- The critical section of a start. -/
theorem Sound.creates (h : Sound s) {bridge : BridgePtr} {intervalMsec : ℤ}
    (hcall : s.call = some (.creating bridge intervalMsec)) :
    Sound (s.creates bridge intervalMsec) := by
  obtain ⟨hnone, hall⟩ := h.still (h.creating bridge intervalMsec hcall)
  have hdead : ∀ m, ¬ (s.threads m).Alive := by
    intro m hm
    obtain ⟨next, hnext⟩ := hall m hm
    simp [hcall] at hnext
  refine ⟨by simp [ConnectionMonitor.creates, h.intact, hnone], fun m hm => ?_, fun m hm => ?_,
    fun _ => ⟨s.count, rfl, ?_, ?_, fun m hm => ?_⟩, by simp [ConnectionMonitor.creates],
    by simp [ConnectionMonitor.creates], by simp [ConnectionMonitor.creates],
    by simp [ConnectionMonitor.creates]⟩
  · have hm : s.count + 1 ≤ m := hm
    have hne : m ≠ s.count := by omega
    simp only [ConnectionMonitor.creates, Function.update_of_ne hne]
    exact h.fresh m (by omega)
  · exact Nat.lt_succ_of_lt (h.joined_lt m hm)
  · simp [ConnectionMonitor.creates, ThreadPoint.Alive]
  · intro hmem
    exact absurd (h.joined_lt s.count hmem) (by omega)
  · by_contra hne
    simp only [ConnectionMonitor.creates, Function.update_of_ne hne] at hm
    exact hdead m hm

theorem Sound.decides (h : Sound s) {bridge : BridgePtr} {intervalMsec : ℤ}
    (hcall : s.call = some (.starting bridge intervalMsec)) :
    Sound (s.decides bridge intervalMsec) := by
  have hold : ∀ n next, s.call ≠ some (.joining n next) := by simp [hcall]
  unfold ConnectionMonitor.decides
  split_ifs with hversion hrun
  · exact h.calls hold (by simp) (by simp) (by simp)
  · exact h.calls hold (by simp) (fun _ _ _ => by simpa using hrun) fun hnone => (h.stopped hnone).1
  · exact h.calls hold (by simp) (by simp) fun hnone => (h.stopped hnone).1

theorem Sound.step (h : Sound s) {l : MonitorLabel} {s' : ConnectionMonitor} (hs : Steps s l s') :
    Sound s' := by
  cases hs with
  | start hcall | stop hcall =>
    exact h.calls (by simp [hcall]) (by simp) (by simp) fun hnone => (h.stopped hnone).1
  | decides hcall => exact h.decides hcall
  | signals hcall => exact h.signals hcall
  | joins hcall hfinished => exact h.joins hcall hfinished
  | creates hcall => exact h.creates hcall
  | moves hn hp hbegins => exact h.moves _ hn hp
  | update =>
    exact ⟨h.intact, h.fresh, h.joined_lt, h.running, h.still, h.joining, h.creating, h.stopped⟩

/-- The start that looks at its bridge and at `_running` in the step. -/
def deciding (s : ConnectionMonitor) : MonitorLabel → Option (BridgePtr × ℤ)
  | .decides =>
    match s.call with
    | some (.starting bridge intervalMsec) => some (bridge, intervalMsec)
    | _ => none
  | _ => none

/-- A start of a bridge of the second version that finds the monitor running is for the bridge and the
interval that it runs with. -/
def Adopted (s : ConnectionMonitor) (l : MonitorLabel) : Prop :=
  ∀ start ∈ s.deciding l, s.supportsClipV2 start.1 = true → s.running = true →
    s.bridge = some start.1 ∧ s.intervalMsec = start.2

instance (s : ConnectionMonitor) (l : MonitorLabel) : Decidable (Adopted s l) :=
  inferInstanceAs (Decidable (∀ start ∈ s.deciding l, _))

theorem Follows.of_latest (h : Follows s) {s' : ConnectionMonitor} (hbridge : s'.bridge = s.bridge)
    (hinterval : s'.intervalMsec = s.intervalMsec) (hlatest : s'.latest = s.latest ∨ s'.latest = none) :
    Follows s' := by
  intro bridge intervalMsec hl
  rw [hbridge, hinterval]
  rcases hlatest with hlatest | hlatest
  · exact h bridge intervalMsec (hlatest ▸ hl)
  · rw [hlatest] at hl
    cases hl

theorem stopReturns_frame (s : ConnectionMonitor) (next : Option (BridgePtr × ℤ)) :
    (s.stopReturns next).bridge = s.bridge ∧ (s.stopReturns next).intervalMsec = s.intervalMsec ∧
      ((s.stopReturns next).latest = s.latest ∨ (s.stopReturns next).latest = none) := by
  cases next <;> simp [stopReturns]

theorem follows_stopReturns (h : Follows s) (next : Option (BridgePtr × ℤ)) :
    Follows (s.stopReturns next) := by
  obtain ⟨hbridge, hinterval, hlatest⟩ := s.stopReturns_frame next
  exact h.of_latest hbridge hinterval hlatest

theorem follows_signals (h : Follows s) (next : Option (BridgePtr × ℤ)) :
    Follows (s.signals next) := by
  unfold signals
  split_ifs with hrun
  · split
    · exact h
    · exact follows_stopReturns (by exact h) next
  · exact follows_stopReturns h next

theorem Follows.step (h : Follows s) {l : MonitorLabel} {s' : ConnectionMonitor}
    (hs : Steps s l s') (hadopted : Adopted s l) : Follows s' := by
  cases hs with
  | start hcall | stop hcall => exact h
  | @decides bridge intervalMsec hcall =>
    unfold ConnectionMonitor.decides
    split_ifs with hversion hrun
    · rintro b i hlatest
      obtain ⟨rfl, rfl⟩ := by simpa using hlatest
      exact hadopted (bridge, intervalMsec) (by simp [deciding, hcall]) hversion hrun
    · exact h
    · exact h
  | signals hcall => exact follows_signals h _
  | joins hcall hfinished => exact follows_stopReturns (by exact h) _
  | creates hcall =>
    rintro b i hlatest
    obtain ⟨rfl, rfl⟩ := by simpa [ConnectionMonitor.creates] using hlatest
    exact ⟨rfl, rfl⟩
  | moves hn hp hbegins => exact h
  | update => exact h

/-! ### Over a run -/

theorem sound_init (supportsClipV2 : BridgePtr → Bool) : Sound { supportsClipV2 } := by
  refine ⟨rfl, fun _ _ => rfl, by simp, by simp, fun _ => ⟨rfl, fun m hm => ?_⟩, by simp, by simp, by simp⟩
  exact absurd rfl hm.1

theorem Sound.latest_ne_none (h : Sound s) {n : ℕ} (hn : (s.threads n).Alive) : s.latest ≠ none := by
  intro hnone
  obtain ⟨hrun, hcall⟩ := h.stopped hnone
  obtain ⟨next, hnext⟩ := (h.still hrun).2 n hn
  exact hcall n next hnext

theorem Checks.alive {n : ℕ} {bridge : BridgePtr} (h : Checks s n bridge) : (s.threads n).Alive := by
  rcases h with h | h <;> simp [h, ThreadPoint.Alive]

theorem threads_stopReturns (s : ConnectionMonitor) (next : Option (BridgePtr × ℤ)) :
    (s.stopReturns next).threads = s.threads := by
  cases next <;> rfl

theorem threads_signals (s : ConnectionMonitor) (next : Option (BridgePtr × ℤ)) :
    (s.signals next).threads = s.threads := by
  unfold signals
  split_ifs
  · split
    · rfl
    · exact threads_stopReturns _ next
  · exact threads_stopReturns _ next

theorem threads_decides (s : ConnectionMonitor) (bridge : BridgePtr) (intervalMsec : ℤ) :
    (s.decides bridge intervalMsec).threads = s.threads := by
  unfold decides
  split_ifs <;> rfl

/-- A check that begins is one of the bridge of the monitor, by a thread that runs. -/
theorem begins {l : MonitorLabel} {s' : ConnectionMonitor} (hs : Steps s l s') {m : ℕ}
    {bridge : BridgePtr} (hbefore : ¬ Checks s m bridge) (hafter : Checks s' m bridge) :
    s.bridge = some bridge ∧ (s.threads m).Alive := by
  have hsame : s'.threads ≠ s.threads := by
    intro heq
    exact hbefore (by rwa [Checks, heq] at hafter)
  cases hs with
  | start hcall | stop hcall | update => exact absurd rfl hsame
  | decides hcall => exact absurd (threads_decides s _ _) hsame
  | signals hcall => exact absurd (threads_signals s _) hsame
  | joins hcall hfinished => exact absurd (threads_stopReturns _ _) hsame
  | creates hcall =>
    by_cases hm : m = s.count
    · simp [Checks, creates, hm] at hafter
    · simp only [Checks, creates, Function.update_of_ne hm] at hafter
      exact absurd hafter hbefore
  | @moves _ n p mutex hn hp hbegins =>
    by_cases hm : m = n
    · subst hm
      rw [Checks, threads_moves, Function.update_self] at hafter
      exact ⟨hbegins bridge hafter, hn⟩
    · rw [Checks, threads_moves, Function.update_of_ne hm] at hafter
      exact absurd hafter hbefore

/-- What is said of a step: while the monitor runs it has one thread, a check that begins is for the
bridge and the interval of the start that returned last, there is none after a stop, and no thread object
is destroyed too early or joined twice. -/
structure Monitors (t : Transition ConnectionMonitor MonitorLabel) : Prop where
  one : t.after.running = true → ∃! n, (t.after.threads n).Alive
  current : ∀ n bridge, ¬ Checks t.before n bridge → Checks t.after n bridge →
    t.before.latest = some (bridge, t.before.intervalMsec)
  quiet : t.after.latest = none → ∀ n bridge, ¬ Checks t.after n bridge
  intact : t.after.fault = false

theorem monitors {l : MonitorLabel} {s' : ConnectionMonitor} (hs : Steps s l s') (h : Sound s)
    (hfollows : Follows s) : Monitors ⟨s, l, s'⟩ where
  one hrun := by
    obtain ⟨n, -, halive, -, honly⟩ := (h.step hs).running hrun
    exact ⟨n, halive, fun m hm => honly m hm⟩
  current n bridge hbefore hafter := by
    obtain ⟨hbridge, halive⟩ := begins hs hbefore hafter
    obtain ⟨⟨bridge', intervalMsec⟩, hlatest⟩ :=
      Option.ne_none_iff_exists'.mp (h.latest_ne_none halive)
    obtain ⟨hbridge', hinterval⟩ := hfollows bridge' intervalMsec hlatest
    obtain rfl : bridge' = bridge := Option.some.inj (hbridge'.symm.trans hbridge)
    rw [hlatest, ← hinterval]
  quiet hnone n bridge hchecks := (h.step hs).latest_ne_none hchecks.alive hnone
  intact := (h.step hs).intact

/-- **One monitor for the latest start.** In every run of starts and stops, in which no start of a
bridge of the second version finds the monitor running for another bridge or interval, every step keeps
to what is said of the monitor. -/
theorem monitors_of_adopted {ts : List (Transition ConnectionMonitor MonitorLabel)}
    (hrun : monitor.Run ts s) (hadopted : ∀ t ∈ ts, Adopted t.before t.label) :
    ∀ t ∈ ts, Monitors t := by
  intro t ht
  obtain ⟨hstep, us, hus, hrun'⟩ := hrun.reaches_before ht
  have hinv : Sound t.before ∧ Follows t.before := by
    refine hrun'.invariant_of (I := fun s => Sound s ∧ Follows s) (C := Adopted) ?_ ?_ fun u hu => hadopted u (hus.subset hu)
    · rintro s ⟨supportsClipV2, rfl⟩
      exact ⟨sound_init supportsClipV2, fun _ _ hlatest => by simp at hlatest⟩
    · rintro s l s' hs hC ⟨hsound, hfollows⟩
      exact ⟨hsound.step (step_cases hs), hfollows.step (step_cases hs) hC⟩
  exact monitors (step_cases hstep) hinv.1 hinv.2

/-- A start for one bridge, a check, a stop, a start for another one on the first version, and again with
a new interval. -/
theorem monitors_of_adopted_example :
    ∃ ts s, monitor.Run ts s ∧ (∀ t ∈ ts, Monitors t) ∧ s.Checks 2 2 ∧ s.latest = some (2, 50) := by
  obtain ⟨ts, s, hrun, h⟩ := Machine.exists_run (M := monitor)
    (s := { supportsClipV2 := fun bridge => bridge = 1 })
    [.start 1 100, .decides, .creates, .loops 0, .checked 0, .waits 0, .stop, .signals, .wakes 0, .joins,
      .start 2 80, .decides, .signals, .creates, .loops 1, .waits 1, .start 2 50, .decides, .signals,
      .wakes 1, .joins, .creates, .loops 2, .waits 2, .wakes 2, .goesOn 2]
    (fun ts s => decide (s.threads 2 = .checkingLocked 2 ∧ s.latest = some (2, 50)) &&
      ts.all fun t => decide (Adopted t.before t.label)) ⟨_, rfl⟩ (by decide +kernel)
  simp only [Bool.and_eq_true, decide_eq_true_eq, List.all_eq_true] at h
  exact ⟨ts, s, hrun, monitors_of_adopted hrun h.2, .inr h.1.1, h.1.2⟩

/-- A start of another bridge of the second version while the monitor runs: the next check is still of
the first bridge. -/
theorem exists_not_current :
    ∃ ts s, monitor.Run ts s ∧ ∃ t ∈ ts, ¬ Monitors t ∧ t.before.latest = some (2, 50) ∧
      t.after.Checks 0 1 := by
  obtain ⟨ts, s, hrun, h⟩ := Machine.exists_run (M := monitor) (s := { supportsClipV2 := fun _ => true })
    [.start 1 100, .decides, .creates, .loops 0, .checked 0, .waits 0, .start 2 50, .decides, .wakes 0,
      .goesOn 0, .loops 0]
    (fun ts _ => ts.any fun t => decide (t.before.latest = some (2, 50) ∧
      t.before.threads 0 = .looping ∧ t.after.threads 0 = .checking 1)) ⟨_, rfl⟩ (by decide +kernel)
  obtain ⟨t, ht, h⟩ := List.any_eq_true.mp h
  obtain ⟨hlatest, hbefore, hafter⟩ := of_decide_eq_true h
  refine ⟨ts, s, hrun, t, ht, fun hm => ?_, hlatest, .inl hafter⟩
  have hcurrent := hm.current 0 1 (by simp [Checks, hbefore]) (.inl hafter)
  simp [hlatest] at hcurrent

end ConnectionMonitor

end HueStream.Monitor
