import HueStream.Flow.Alternation

/-! # One verdict for each procedure

A user procedure of a connecting kind should send one terminal message between its start and its
finish. `SavingCompleted` relies on an earlier stage for that: where no stream is started and the
bridge is not ready, it assumes that `ReportActionRequired` ran. The assumption fails for a bridge
that is streaming already when no stream is wanted, and a procedure in which it ran sends a second
terminal message when the bridge turns out ready, or when it is aborted while saving. -/

namespace HueStream.Flow

open HueStream.Data HueStream.Lib

/-! ### Reading the transcript -/

/-- The terminal messages since a procedure started. -/
def terminalsAfter (n : ℕ) (x : Sent) : ℕ :=
  if x.message.id = .userProcedureStarted then 0
  else if x.message.id.isTerminal then n + 1 else n

/-- How many terminal messages were sent since the last procedure started. -/
def terminals (l : List Sent) : ℕ := l.foldl terminalsAfter 0

/-- A procedure of a connecting kind finishes with one terminal message since it started. -/
def OneVerdict (before : List Sent) (x : Sent) : Prop :=
  x.message.id = .userProcedureFinished → x.message.requestType.isConnecting = true →
    terminals before = 1

@[simp] theorem terminals_concat (l : List Sent) (x : Sent) :
    terminals (l ++ [x]) = terminalsAfter (terminals l) x := by
  simp [terminals]

theorem terminals_append {l ms : List Sent} (h : ∀ x ∈ ms, x.message.id.isBracket = false) :
    terminals (l ++ ms) = terminals l + (ms.map (·.message.id)).countP MessageId.isTerminal := by
  induction ms using List.reverseRecOn with
  | nil => simp
  | append_singleton ms x ih =>
    have hx : x.message.id ≠ .userProcedureStarted := by
      rintro heq
      simpa [heq, MessageId.isBracket] using h x (by simp)
    rw [← List.append_assoc, terminals_concat, ih fun y hy => h y (by simp [hy])]
    simp only [terminalsAfter, if_neg hx, List.map_append, List.countP_append, List.map_cons,
      List.map_nil, List.countP_singleton]
    split_ifs <;> omega

/-! ### The invariant -/

variable {σ : Settings} {ω : Answers} {n : ℕ} {s s' : ConnectionFlow}

/-- The verdicts so far: every procedure that is finished had one. The one that is under way has
none, but while it saves it has one if `ReportActionRequired` ran. -/
structure Judged (s : ConnectionFlow) : Prop where
  fair : Always OneVerdict (sent s.log)
  count : s.request.isConnecting = true → terminals (sent s.log) = if s.reported then 1 else 0
  reported : s.request.isConnecting = true → s.reported = true → s.state = .saving

theorem Speaks.fair (h : Speaks n s s') (hs : Always OneVerdict (sent s.log)) :
    Always OneVerdict (sent s'.log) ∧ terminals (sent s'.log) = terminals (sent s.log) + n := by
  obtain ⟨ids, hspeak, hbr, rfl⟩ := h
  obtain ⟨ms, hms, rfl, -⟩ := hspeak.sent
  have hbr : ∀ x ∈ ms, x.message.id.isBracket = false := fun x hx =>
    hbr _ (List.mem_map_of_mem hx)
  rw [hms]
  refine ⟨hs.append fun m₁ x m₂ hm hfin => ?_, terminals_append hbr⟩
  have := hbr x (by simp [hm])
  simp [hfin, MessageId.isBracket] at this

/-- No verdict yet: a procedure of a connecting kind that does not save. -/
structure Unjudged (s : ConnectionFlow) : Prop where
  fair : Always OneVerdict (sent s.log)
  count : s.request.isConnecting = true → terminals (sent s.log) = 0 ∧ s.reported = false

theorem Judged.unjudged (h : Judged s) (hstate : s.state ≠ .saving) : Unjudged s := by
  refine ⟨h.fair, fun hreq => ?_⟩
  have hrep : s.reported = false := Bool.eq_false_iff.mpr fun hrep => hstate (h.reported hreq hrep)
  exact ⟨by rw [h.count hreq, hrep]; rfl, hrep⟩

/-- A procedure of a connecting kind that finishes keeps the transcript fair if, and only if, its
terminal messages are one altogether. -/
theorem Finishes.fair_iff (h : Finishes n s s') (hs : Always OneVerdict (sent s.log)) :
    Always OneVerdict (sent s'.log) ↔
      (s.request.isConnecting = true → terminals (sent s.log) + n = 1) := by
  obtain ⟨s₁, hspeaks, -, hsent⟩ := h.speaks
  obtain ⟨hfair, hcount⟩ := hspeaks.fair hs
  rw [hsent]
  split_ifs with hint
  · rw [List.append_nil]
    have hno : ¬ s.request.isConnecting = true := by simp [hint, RequestType.isConnecting]
    exact ⟨fun _ hreq => absurd hreq hno, fun _ => hfair⟩
  · rw [always_concat, ← hcount]
    exact ⟨fun h => h.2 rfl, fun h => ⟨hfair, fun _ => h⟩⟩

theorem Finishes.judged (h : Finishes n s s') (hs : Always OneVerdict (sent s.log))
    (hcount : s.request.isConnecting = true → terminals (sent s.log) + n = 1) : Judged s' := by
  have hdone : ¬ s'.request.isConnecting = true := by simp [h.request, RequestType.isConnecting]
  exact ⟨(h.fair_iff hs).mpr hcount, fun hreq => absurd hreq hdone, fun hreq => absurd hreq hdone⟩

theorem GoesOn.judged (h : GoesOn s s') (hs : Unjudged s) : Judged s' := by
  obtain ⟨hfair, hcount⟩ := h.speaks.fair hs.fair
  refine ⟨hfair, fun hreq => ?_, fun hreq hrep => ?_⟩
  all_goals
    rw [h.speaks.request] at hreq
    obtain ⟨hzero, hno⟩ := hs.count hreq
  · rw [hcount, hzero, h.speaks.reported, hno]
    rfl
  · rw [h.speaks.reported, hno] at hrep
    cases hrep

/-- Any end of a handler that starts without a verdict and finishes with one. -/
theorem Outcome.judged (h : Outcome n s s') (hs : Unjudged s)
    (hn : s.request.isConnecting = true → n = 1) : Judged s' := by
  rcases h with h | h | h | h
  · exact h.judged hs
  · obtain ⟨hfair, hcount⟩ := h.speaks.fair hs.fair
    refine ⟨hfair, fun hreq => ?_, fun _ _ => h.state⟩
    rw [h.speaks.request] at hreq
    rw [hcount, (hs.count hreq).1, h.speaks.reported, (hs.count hreq).2]
    rfl
  · obtain ⟨hfair, hcount⟩ := h.speaks.fair hs.fair
    refine ⟨hfair, fun hreq => ?_, fun _ _ => h.state⟩
    rw [h.speaks.request] at hreq
    rw [hcount, (hs.count hreq).1, h.reported]
    rfl
  · refine h.judged hs.fair fun hreq => ?_
    rw [(hs.count hreq).1, hn hreq]

theorem unjudged_of_start {request : RequestType} (h : s.start request = some s')
    (hs : Judged s) : Unjudged s' := by
  obtain ⟨-, -, hreq, hrep, -, hsent⟩ := ConnectionFlow.start_eq_some h
  split_ifs at hsent with hint
  · rw [List.append_nil] at hsent
    exact ⟨hsent ▸ hs.fair, fun hconn => by rw [hreq, hint] at hconn; cases hconn⟩
  · constructor
    · rw [hsent]
      exact always_concat.mpr ⟨hs.fair, nofun⟩
    · rw [hsent, terminals_concat]
      exact fun _ => ⟨rfl, hrep⟩

/-- The completion of an operation does not spoil the verdict on the procedure under way: it is not
the completion of a `Load`, which would finish it without one, and a save that is completed concludes
the procedure if, and only if, `ReportActionRequired` did not run in it. -/
def soundCompletion (σ : Settings) (s : ConnectionFlow) : Operation → Bool
  | .load .finish => s.state ≠ .loading
  | .save => s.concludesOnSave σ = !s.reported
  | _ => true

/-- A step that does not spoil the verdict on the procedure under way, if that is of a connecting
kind. An abort does so after `ReportActionRequired` ran. -/
def sound (σ : Settings) (s : ConnectionFlow) (i : Input) : Bool :=
  !s.request.isConnecting || match i with
    | .abort => !s.reported
    | .deliver c _ _ => soundCompletion σ s c.operation
    | _ => true

theorem state_ne_saving {op : Operation} (h : s.accepts op = true) (hsave : op ≠ .save)
    (hpush : ∀ bridge, op ≠ .pushLink bridge) : s.state ≠ .saving := by
  intro hstate
  cases op <;> simp_all [ConnectionFlow.accepts]

/-- A completed save finishes the procedure, whatever the state is. -/
theorem finishes_save (procedure : Option ℕ) (reply : Reply) (keep : Bool) :
    Finishes (s.verdicts σ .save) s (s.handle σ ω (.deliver ⟨.save, procedure⟩ reply keep)) := by
  set t := s.take ⟨.save, procedure⟩ keep
  have htake : Speaks 0 s t := Speaks.refl.silent
  obtain ⟨s₁, hann, hend⟩ := ConnectionFlow.savingCompleted_cases (s := t) σ ω reply.result
  have hfin := (htake.trans hann.1).finishes hend
  rwa [Nat.zero_add] at hfin

/-- The completion of a `Load` finishes the procedure. -/
theorem finishes_load (h : s.state = .loading) (procedure : Option ℕ) (reply : Reply)
    (keep : Bool) :
    Finishes 0 s (s.handle σ ω (.deliver ⟨.load .finish, procedure⟩ reply keep)) := by
  set t := s.take ⟨.load .finish, procedure⟩ keep
  have htake : Speaks 0 s t := Speaks.refl.silent
  obtain ⟨s₁, hann, ⟨-, hend⟩ | ⟨hne, -⟩⟩ := ConnectionFlow.loadingCompleted_cases (s := t) σ h
    .finish reply.result reply.bridges
  · exact (htake.trans hann.1).finishes hend
  · exact absurd rfl hne

/-- A sound step keeps the verdicts. -/
theorem judged_of_sound {i : Input} (hi : s.enabled i = true) (hs : Judged s)
    (hsound : sound σ s i = true) : Judged (s.handle σ ω i) := by
  rcases ConnectionFlow.handle_cases σ ω hi with ⟨hspeaks, hstate⟩ | ⟨rfl, -, hend⟩ |
    ⟨⟨op, procedure⟩, reply, keep, rfl, haccepts, hpush, hout⟩ | ⟨request, s₁, hstart, hgo, n, hout⟩
  · obtain ⟨hfair, hcount⟩ := hspeaks.fair hs.fair
    refine ⟨hfair, ?_, ?_⟩
    · rw [hcount, hspeaks.request, hspeaks.reported, Nat.add_zero]
      exact hs.count
    · rw [hstate, hspeaks.request, hspeaks.reported]
      exact hs.reported
  · refine hend.judged hs.fair fun hreq => ?_
    have hrep : s.reported = false := by simpa [sound, hreq] using hsound
    rw [hs.count hreq, hrep]
    rfl
  · by_cases hsave : op = .save
    · subst hsave
      refine (finishes_save procedure reply keep).judged hs.fair fun hreq => ?_
      have hconcl : s.concludesOnSave σ = !s.reported := by
        simpa [sound, soundCompletion, hreq] using hsound
      rw [hs.count hreq, ConnectionFlow.verdicts, hconcl]
      cases s.reported <;> rfl
    · refine hout.judged (hs.unjudged (state_ne_saving haccepts hsave hpush)) fun hreq => ?_
      have hcompl : soundCompletion σ s op = true := by simpa [sound, hreq] using hsound
      cases op with
      | load callback =>
        cases callback with
        | finish => simp_all [soundCompletion, ConnectionFlow.accepts]
        | _ => rfl
      | save => exact absurd rfl hsave
      | _ => rfl
  · obtain ⟨-, -, hreq, -⟩ := ConnectionFlow.start_eq_some hstart
    have hopen := unjudged_of_start hstart hs
    by_cases hconn : request.isConnecting = true
    · exact (hgo hconn).judged hopen
    · exact hout.judged hopen fun h => absurd (hreq ▸ h) hconn

/-- A step that is not sound spoils the verdict. -/
theorem not_fair_of_not_sound {i : Input} (hset : Settled s) (hs : Judged s)
    (hsound : sound σ s i = false) : ¬ Always OneVerdict (sent (s.handle σ ω i).log) := by
  have hreq : s.request.isConnecting = true := by
    by_contra h
    simp [sound, h] at hsound
  have hbad : ∀ {n s'}, Finishes n s s' → (if s.reported then 1 else 0) + n ≠ 1 →
      ¬ Always OneVerdict (sent s'.log) := by
    intro n s' hend hne hfair
    refine hne ?_
    rw [← hs.count hreq]
    exact (hend.fair_iff hs.fair).mp hfair hreq
  simp only [sound, hreq, Bool.not_true, Bool.false_or] at hsound
  split at hsound
  · rcases ConnectionFlow.doAbort_cases (s := s) σ with ⟨hidle, -⟩ | ⟨-, hend⟩
    · rw [hset.idle hidle] at hreq
      cases hreq
    · exact hbad hend (by simp_all)
  · next c reply keep =>
    obtain ⟨op, procedure⟩ := c
    unfold soundCompletion at hsound
    dsimp only at hsound
    split at hsound
    · have hload : s.state = .loading := by simpa using hsound
      have hrep : s.reported = false := Bool.eq_false_iff.mpr fun hrep => by
        have := hs.reported hreq hrep
        simp [hload] at this
      exact hbad (finishes_load hload procedure reply keep) (by simp [hrep])
    · refine hbad (finishes_save procedure reply keep) ?_
      have hne : s.concludesOnSave σ ≠ !s.reported := by simpa using hsound
      unfold ConnectionFlow.verdicts
      revert hne
      cases s.concludesOnSave σ <;> cases s.reported <;> simp
    · cases hsound
  · cases hsound

theorem judged_init : Judged ConnectionFlow.init :=
  ⟨always_nil, fun _ => rfl, nofun⟩

/-- **One verdict for each procedure, exactly when every step is sound.** In a run, every procedure of
a connecting kind that is finished has sent one terminal message since it started if, and only if,
every step of the run is sound. -/
theorem one_verdict_iff {ts : List (Transition ConnectionFlow (Input × Answers))}
    (h : (machine σ).Run ts s) :
    Always OneVerdict (sent s.log) ↔ ∀ t ∈ ts, sound σ t.before t.label.1 = true := by
  have hhandle : ∀ {s l s'}, (machine σ).step s l = some s' →
      s.enabled l.1 = true ∧ s' = s.handle σ l.2 l.1 := by
    intro s l s' hstep
    simp only [machine, ConnectionFlow.step] at hstep
    split_ifs at hstep with henabled
    exact ⟨henabled, (Option.some.inj hstep).symm⟩
  refine h.good_iff (I := fun s => Settled s ∧ Judged s)
    (G := fun s => Always OneVerdict (sent s.log)) (C := fun s l => sound σ s l.1 = true)
    (by rintro s rfl; exact ⟨settled_init, judged_init⟩) (fun s hs => hs.2.fair) ?_ ?_ ?_
  · rintro s l s' hstep hsound ⟨hset, hs⟩
    obtain ⟨henabled, rfl⟩ := hhandle hstep
    exact ⟨settled_step hstep hset, judged_of_sound henabled hs hsound⟩
  · rintro s l s' hstep hsound ⟨hset, hs⟩
    obtain ⟨-, rfl⟩ := hhandle hstep
    exact not_fair_of_not_sound hset hs (Bool.eq_false_iff.mpr hsound)
  · exact fun s l s' hstep hfair => hfair.prefix (ConnectionFlow.sent_prefix_step σ hstep)

/-- A connect that is aborted while it loads: its only terminal message is that of the abort. -/
theorem one_verdict_iff_aborted : ∃ ts s, (machine {}).Run ts s ∧
    (sent s.log).map (·.message.id) =
      [.userProcedureStarted, .startLoading, .doneAborted, .userProcedureFinished] ∧
    (Always OneVerdict (sent s.log) ↔ ∀ t ∈ ts, sound {} t.before t.label.1 = true) := by
  obtain ⟨ts, s, hrun, hp⟩ := Machine.exists_run (M := machine {}) (s := .init)
    [(.connectToBridge, {}), (.abort, {})]
    (fun _ s => (sent s.log).map (·.message.id) =
      [.userProcedureStarted, .startLoading, .doneAborted, .userProcedureFinished]) rfl (by decide)
  exact ⟨ts, s, hrun, by simpa using hp, one_verdict_iff hrun⟩

/-! ### Procedures with no verdict and with two -/

/-- A bridge that was authorized for streaming before. -/
def knownBridge : Bridge where
  ipAddress := "192.168.1.2"
  id := "001788"
  modelId := "BSB002"
  apiversion := "1.24.0"
  user := "user"
  appId := "user"
  clientKey := "00112233445566778899AABBCCDDEEFF"
  isValidIp := true
  isAuthorized := true

/-- The same bridge, streaming for this application. -/
def streamingBridge : Bridge :=
  { knownBridge with
    groups := [{ id := "1", active := true, owner := "user" }], selectedGroup := "1" }

/-- The last message finishes a procedure of a connecting kind after `n` terminal messages. -/
def finishedWith (n : ℕ) (s : ConnectionFlow) : Bool :=
  match (sent s.log).getLast? with
  | some x => x.message.id = .userProcedureFinished && x.message.requestType.isConnecting &&
      terminals (sent s.log).dropLast = n
  | none => false

theorem eq_one_of_finishedWith (h : finishedWith n s = true)
    (hfair : Always OneVerdict (sent s.log)) : n = 1 := by
  unfold finishedWith at h
  split at h
  · next x hx =>
    simp only [Bool.and_eq_true, decide_eq_true_eq] at h
    exact h.2.symm.trans (hfair.last hx h.1.1 h.1.2)
  · cases h

set_option maxRecDepth 4000 in
/-- A connect to a bridge that is streaming already, where no stream is wanted, finishes without a
verdict; and a procedure that is aborted while it saves what it reported finishes with two. -/
theorem exists_run_without_one_verdict :
    (∃ ts s, (machine { autoStartAtConnection := false }).Run ts s ∧ finishedWith 0 s = true ∧
      ¬ Always OneVerdict (sent s.log)) ∧
    ∃ ts s, (machine {}).Run ts s ∧ finishedWith 2 s = true ∧
      ¬ Always OneVerdict (sent s.log) := by
  constructor
  · obtain ⟨ts, s, hrun, hp⟩ := Machine.exists_run
      (M := machine { autoStartAtConnection := false }) (s := .init)
      [(.connectToBridge, {}),
        (.deliver ⟨.load .searchOrRetrieve, some 0⟩ { bridges := [knownBridge] } false, {}),
        (.deliver ⟨.retrieveSmallConfig 3, some 0⟩ {} false, {}),
        (.mutate 3 streamingBridge, {}),
        (.deliver ⟨.retrieveFullConfig, some 0⟩ { bridge := 3 } false, {}),
        (.deliver ⟨.save, some 0⟩ {} false, {})]
      (fun _ s => finishedWith 0 s) rfl (by decide)
    exact ⟨ts, s, hrun, hp, fun h => absurd (eq_one_of_finishedWith hp h) (by decide)⟩
  · obtain ⟨ts, s, hrun, hp⟩ := Machine.exists_run (M := machine {}) (s := .init)
      [(.newBridge { ipAddress := "192.168.1.2" }, {}), (.setManual 2, {}),
        (.deliver ⟨.load (.retrieve 2), some 0⟩ { result := .failed } false, {}),
        (.deliver ⟨.retrieveSmallConfig 2, some 0⟩ { result := .failed } false, {}), (.abort, {})]
      (fun _ s => finishedWith 2 s) rfl (by decide)
    exact ⟨ts, s, hrun, hp, fun h => absurd (eq_one_of_finishedWith hp h) (by decide)⟩

end HueStream.Flow
