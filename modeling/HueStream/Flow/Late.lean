import HueStream.Flow.Alternation

/-! # Late completions

A completion is late when the procedure that issued its operation is not the current one any more.
Most handlers drop a completion that comes in the wrong state. That keeps out the late ones as long
as no later procedure is in the same state; and `SavingCompleted`, which does not look at the state,
lets all of them through. -/

namespace HueStream.Flow

open HueStream.Data HueStream.Lib

variable {σ : Settings} {ω : Answers} {s s' : ConnectionFlow}

/-- The procedure that issued the operation is not the current one. -/
def ConnectionFlow.late (s : ConnectionFlow) (c : Completion) : Prop :=
  s.current = none ∨ c.procedure ≠ s.current

/-- A message about the end of a stage or of the procedure, or the start of a stream. -/
def Act.isNotable : Act → Bool
  | .message m _ => m.id.isDone || m.id.isFinish
  | .startStream _ _ => true
  | _ => false

/-- A step that takes effect. -/
def Effective (s s' : ConnectionFlow) : Prop :=
  s'.state ≠ s.state ∨ s'.request ≠ s.request ∨ s'.persistentData ≠ s.persistentData ∨
    s'.activeBridge ≠ s.activeBridge ∨ ∃ a ∈ s'.log.drop s.log.length, a.isNotable = true

/-- The completion of an operation finds a state its handler does not wait in, or is an answer to a
pushlink that decides nothing and does not write the active bridge, or a pushlink that is due. -/
def ConnectionFlow.disregards (s : ConnectionFlow) (op : Operation) : Bool :=
  !s.accepts op || match op with
    | .authenticate bridge =>
      s.stillAsking bridge && !(s.retriesAddress bridge && bridge = s.activePtr)
    | .pushLink _ => true
    | _ => false

/-- A step on which the flow says nothing is effective only in its data. -/
theorem not_effective (hstate : s'.state = s.state) (hreq : s'.request = s.request)
    (hdata : s'.persistentData = s.persistentData) (hactive : s'.activeBridge = s.activeBridge)
    {l : List Act} (hlog : s'.log = s.log ++ l) (hl : ∀ a ∈ l, a.isNotable = false) :
    ¬ Effective s s' := by
  rintro (h | h | h | h | ⟨a, ha, hnote⟩)
  · exact h hstate
  · exact h hreq
  · exact h hdata
  · exact h hactive
  · rw [hlog, List.drop_left] at ha
    rw [hl a ha] at hnote
    cases hnote

/-- A chance for the address of the active bridge is a change of it. -/
theorem activeBridge_of_keepsAsking {bridge : BridgePtr} (h : ConnectionFlow.KeepsAsking s bridge s') :
    s'.activeBridge = s.activeBridge ↔ (s.retriesAddress bridge && bridge = s.activePtr) = false := by
  have hptr : s'.activePtr = s.activePtr := congrArg HueStreamData.active h.persistentData
  unfold ConnectionFlow.activeBridge
  rw [hptr, h.heap]
  by_cases hagain : s.retriesAddress bridge = true
  · by_cases hbridge : bridge = s.activePtr
    · have hip : (s.heap s.activePtr).isValidIp = false := by
        simp only [ConnectionFlow.retriesAddress, Bool.and_eq_true, Bool.not_eq_true'] at hagain
        exact hbridge ▸ hagain.1
      refine iff_of_false (fun heq => ?_) (by rw [hagain]; simp [hbridge])
      rw [if_pos hagain, hbridge, Function.update_self] at heq
      have := congrArg Bridge.isValidIp heq
      simp [hip] at this
    · rw [if_pos hagain, Function.update_of_ne (Ne.symm hbridge)]
      exact iff_of_true rfl (by simp [hbridge])
  · rw [if_neg hagain]
    exact iff_of_true rfl (by simp [hagain])

/-- **Which completions take effect**, late or not: those that are not disregarded. -/
theorem effective_deliver_iff (c : Completion) (reply : Reply) (keep : Bool) :
    Effective s (s.handle σ ω (.deliver c reply keep)) ↔ s.disregards c.operation = false := by
  set t := s.take c keep with ht
  have hdo : s.handle σ ω (.deliver c reply keep) = t.complete σ ω c reply := rfl
  have hdis : t.disregards c.operation = s.disregards c.operation := rfl
  have heff : ∀ u, Effective s u ↔ Effective t u := fun u => Iff.rfl
  rw [hdo, heff, ← hdis]
  cases haccepts : t.accepts c.operation with
  | false =>
    rw [ConnectionFlow.complete_of_not_accepts σ ω haccepts]
    exact iff_of_false (not_effective rfl rfl rfl rfl (List.append_nil _).symm (by simp))
      (by simp [ConnectionFlow.disregards, haccepts])
  | true =>
    rcases ConnectionFlow.complete_cases σ ω haccepts reply with
      ⟨bridge, hop, heq⟩ | ⟨bridge, hop, hask, hkeep⟩ | ⟨hask, hpush, s₁, hann, hout⟩
    · rw [heq]
      exact iff_of_false (not_effective (l := [.authenticate bridge]) rfl rfl rfl rfl rfl
        (by simp [Act.isNotable])) (by simp [ConnectionFlow.disregards, hop])
    · have hdis : t.disregards c.operation = false ↔
          (t.retriesAddress bridge && bridge = t.activePtr) = true := by
        rw [hop] at haccepts ⊢
        simp [ConnectionFlow.disregards, haccepts, hask]
      rw [hdis]
      by_cases hwrite : (t.retriesAddress bridge && bridge = t.activePtr) = true
      · refine iff_of_true (.inr (.inr (.inr (.inl fun heq => ?_)))) hwrite
        rw [(activeBridge_of_keepsAsking hkeep).mp heq] at hwrite
        cases hwrite
      · refine iff_of_false (not_effective hkeep.state hkeep.request hkeep.persistentData
          ((activeBridge_of_keepsAsking hkeep).mpr (Bool.eq_false_iff.mpr hwrite))
          (hkeep.log.trans (List.append_nil _).symm) (by simp)) hwrite
    · obtain ⟨m, hm, hmem⟩ := hann.of_log hout.log
      refine iff_of_true (.inr (.inr (.inr (.inr ⟨_, hmem, by simp [Act.isNotable, hm]⟩)))) ?_
      obtain ⟨op, procedure⟩ := c
      cases op with
      | authenticate bridge => simp_all [ConnectionFlow.disregards]
      | pushLink bridge => exact absurd rfl (hpush bridge)
      | _ => simp_all [ConnectionFlow.disregards]

/-- **Late completions.** Once no procedure is under way every completion is late. In a run, no late
completion takes effect if, and only if, each of them is disregarded where it arrives. -/
theorem late_completions_iff {ts : List (Transition ConnectionFlow (Input × Answers))}
    (h : (machine σ).Run ts s) :
    (s.state = .idle → ∀ c, s.late c) ∧
      ((∀ t ∈ ts, ∀ c reply keep, t.label.1 = .deliver c reply keep → t.before.late c →
          ¬ Effective t.before t.after) ↔
        ∀ t ∈ ts, ∀ c reply keep, t.label.1 = .deliver c reply keep → t.before.late c →
          t.before.disregards c.operation = true) := by
  refine ⟨fun hidle c => .inl ((settled_of_run h).noProcedure hidle), ?_⟩
  have hstep : ∀ t ∈ ts, ∀ c reply keep, t.label.1 = .deliver c reply keep →
      (¬ Effective t.before t.after ↔ t.before.disregards c.operation = true) := by
    intro t ht c reply keep hlabel
    have hstep := h.step_of_mem ht
    simp only [machine, ConnectionFlow.step] at hstep
    split_ifs at hstep with henabled
    rw [← Option.some.inj hstep, hlabel, effective_deliver_iff, Bool.not_eq_false]
  exact ⟨fun h t ht c reply keep hlabel hlate =>
      (hstep t ht c reply keep hlabel).mp (h t ht c reply keep hlabel hlate),
    fun h t ht c reply keep hlabel hlate =>
      (hstep t ht c reply keep hlabel).mpr (h t ht c reply keep hlabel hlate)⟩

/-- A search that completes after its connect was aborted. -/
theorem late_completions_iff_aborted : ∃ ts s, (machine {}).Run ts s ∧ s.state = .idle ∧
    (s.state = .idle → ∀ c, s.late c) ∧
      ((∀ t ∈ ts, ∀ c reply keep, t.label.1 = .deliver c reply keep → t.before.late c →
          ¬ Effective t.before t.after) ↔
        ∀ t ∈ ts, ∀ c reply keep, t.label.1 = .deliver c reply keep → t.before.late c →
          t.before.disregards c.operation = true) := by
  obtain ⟨ts, s, hrun, hp⟩ := Machine.exists_run (M := machine {}) (s := .init)
    [(.connectToNewBridge, {}), (.deliver ⟨.load .search, some 0⟩ {} false, {}), (.abort, {}),
      (.deliver ⟨.search, some 0⟩ {} false, {})]
    (fun _ s => s.state = .idle) rfl (by decide)
  exact ⟨ts, s, hrun, by simpa using hp, late_completions_iff hrun⟩

/-! ### A late completion that starts a stream -/

/-- A bridge that is ready to stream. -/
def readyBridge : Bridge where
  ipAddress := "192.168.1.2"
  id := "001788"
  modelId := "BSB002"
  apiversion := "1.24.0"
  user := "user"
  clientKey := "00112233445566778899AABBCCDDEEFF"
  isValidIp := true
  isAuthorized := true
  groups := [{ id := "1" }]
  selectedGroup := "1"

/-- The last transition delivers a completion in `Idle`, where no procedure is under way, and starts a
stream. -/
def streamsInIdle (ts : List (Transition ConnectionFlow (Input × Answers))) : Bool :=
  match ts.getLast? with
  | some ⟨s, (.deliver _ _ _, _), s'⟩ =>
    s.current = none && s.state = .idle && (s'.log.drop s.log.length).any fun
      | .startStream _ _ => true
      | _ => false
  | _ => false

set_option maxRecDepth 4000 in
/-- The save that an `ID_BRIDGE_REFRESHED` event starts completes after the event is dealt with: no
request was made, and the completion starts streaming. -/
theorem exists_late_completion_that_streams :
    ∃ ts s, (machine {}).Run ts s ∧ ∃ t ∈ ts, ∃ c reply keep, t.label.1 = .deliver c reply keep ∧
      t.before.late c ∧ t.before.state = .idle ∧ Effective t.before t.after ∧
      ∃ render p, .startStream render p ∈ t.after.log.drop t.before.log.length := by
  obtain ⟨ts, s, hrun, hp⟩ := Machine.exists_run (M := machine {}) (s := .init)
    [(.newBridge readyBridge, {}), (.monitorEvent ⟨.internal, .bridgeRefreshed, 2, []⟩, {}),
      (.deliver ⟨.save, some 0⟩ {} false, {})]
    (fun ts _ => streamsInIdle ts) rfl (by decide)
  refine ⟨ts, s, hrun, ?_⟩
  unfold streamsInIdle at hp
  split at hp
  · next b c reply keep ω a hlast =>
    simp only [Bool.and_eq_true, decide_eq_true_eq, List.any_eq_true] at hp
    obtain ⟨⟨hcur, hidle⟩, act, hact, hstart⟩ := hp
    refine ⟨_, List.mem_of_getLast? hlast, c, reply, keep, rfl, .inl hcur, hidle, ?_⟩
    cases act with
    | startStream render p =>
      exact ⟨.inr (.inr (.inr (.inr ⟨_, hact, rfl⟩))), render, p, hact⟩
    | _ => cases hstart
  · cases hp

end HueStream.Flow
