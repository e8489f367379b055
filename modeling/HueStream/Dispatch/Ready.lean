import HueStream.Dispatch.Connect

/-! # Who waits until the library is ready

A call that marks the library as busy is answered by the message that its procedure, or the one that
keeps it from starting, is finished. An internal procedure sends no such message, so a request that it
keeps from starting is never answered.

The invariant says whom the mark stands for: a request that is still queued, or a user procedure that
is under way. -/

namespace HueStream.Dispatch

open HueStream.Data HueStream.Flow HueStream.Lib

variable {σ : Settings} {s s' : Connect} {n : ℕ}

/-! ### What the messages of one function make of the mark -/

/-- The mark after the messages that take the flow from `f` to `f'`. -/
def heard (f f' : ConnectionFlow) (isIdle : Bool) : Bool :=
  ((sent f'.log).drop (sent f.log).length).foldl updateConnectionStatus isIdle

section Heard
variable {f f₁ f' : ConnectionFlow} {ms ms' : List Sent} {b : Bool}

theorem heard_of_append (h : sent f'.log = sent f.log ++ ms) :
    heard f f' b = ms.foldl updateConnectionStatus b := by
  unfold heard
  rw [h, List.drop_left]

theorem heard_trans (h : sent f₁.log = sent f.log ++ ms) (h' : sent f'.log = sent f₁.log ++ ms') :
    heard f f' b = heard f₁ f' (heard f f₁ b) := by
  rw [heard_of_append h, heard_of_append h', ← List.foldl_append]
  refine heard_of_append ?_
  rw [h', h, List.append_assoc]

theorem updateConnectionStatus_of_not_bracket {x : Sent} (h : x.message.id.isBracket = false) :
    updateConnectionStatus b x = b := by
  unfold updateConnectionStatus
  split
  · next hid => simp [hid, MessageId.isBracket] at h
  · next hid => simp [hid, MessageId.isBracket] at h
  · rfl

theorem foldl_of_not_bracket (h : ∀ x ∈ ms, x.message.id.isBracket = false) :
    ms.foldl updateConnectionStatus b = b := by
  induction ms with
  | nil => rfl
  | cons x ms ih =>
    rw [List.foldl_cons, updateConnectionStatus_of_not_bracket (h x (by simp))]
    exact ih fun y hy => h y (by simp [hy])

/-- Within a procedure the mark stays. -/
theorem heard_of_speaks (h : Speaks n f f') :
    ∃ ms, sent f'.log = sent f.log ++ ms ∧ ∀ b, heard f f' b = b := by
  obtain ⟨ids, hspeak, hbr, -⟩ := h
  obtain ⟨ms, hms, rfl, -⟩ := hspeak.sent
  refine ⟨ms, hms, fun b => ?_⟩
  rw [heard_of_append hms]
  exact foldl_of_not_bracket fun x hx => hbr _ (List.mem_map_of_mem hx)

/-- The end of a user procedure clears the mark. -/
theorem heard_of_finishes (h : Finishes n f f') : heard f f' b = (b || f.request ≠ .internal) := by
  obtain ⟨f₁, hspeaks, -, hsent⟩ := h.speaks
  obtain ⟨ms, hms, hstay⟩ := heard_of_speaks hspeaks
  rw [heard_trans hms hsent, hstay, heard_of_append hsent]
  by_cases hint : f.request = .internal
  · rw [if_pos hint]
    simp [hint]
  · rw [if_neg hint]
    simp [hint, updateConnectionStatus]

/-- After the mark is still there at its end, a function has left a procedure under way, or has done
nothing to a mark that was there before. -/
theorem of_heard_outcome (h : Outcome n f f') (hb : heard f f' b = false) :
    b = false ∧ (f.request = .internal ∨ f'.state ≠ .idle ∧ f'.request = f.request) := by
  have hbusy : ∀ {k}, Speaks k f f' → f'.state ≠ .idle →
      b = false ∧ (f.request = .internal ∨ f'.state ≠ .idle ∧ f'.request = f.request) := by
    intro k hspeaks hstate
    obtain ⟨ms, -, hstay⟩ := heard_of_speaks hspeaks
    rw [hstay] at hb
    exact ⟨hb, .inr ⟨hstate, hspeaks.request⟩⟩
  rcases h with h | h | h | h
  · exact hbusy h.speaks h.idle
  · exact hbusy h.speaks (by simp [h.state])
  · exact hbusy h.speaks (by simp [h.state])
  · rw [heard_of_finishes h] at hb
    simp only [ne_eq, decide_not, Bool.or_eq_false_iff, Bool.not_eq_false',
      decide_eq_true_eq] at hb
    exact ⟨hb.1, .inl hb.2⟩

end Heard

/-! ### The invariant -/

/-- A waiting call is accounted for: its request is queued, or a user procedure is under way. -/
structure Accounted (s : Connect) : Prop where
  marked : s.isIdle = false → (∃ w ∈ s.queue, w.isAwaited = true) ∨
    (s.flow.state ≠ .idle ∧ s.flow.request ≠ .internal)
  events : ∀ message, .monitorEvent message ∈ s.queue → message.id.isMonitorEvent = true

/-- The inputs that keep every waiting call accounted for: no request of such a call is run while an
internal procedure is under way. -/
def keepsCallers (s : Connect) : Input → Bool
  | .dispatch _ => !(s.queue.head?.any Work.isAwaited) || s.flow.state = .idle ||
    s.flow.request ≠ .internal
  | _ => true

/-- A user request is ignored unless the flow is idle, and otherwise opens a user procedure. -/
theorem Call.request_cases (σ : Settings) (ω : Answers) (f : ConnectionFlow) (c : Call)
    (hc : c ≠ .abort) :
    (f.state ≠ .idle ∧ f.handle σ ω c.request = f) ∨
      ∃ request f₁, f.start request = some f₁ ∧ request ≠ .internal ∧
        ∃ n, Outcome n f₁ (f.handle σ ω c.request) := by
  have hopens : ∀ {request P f'}, Opens request P f f' → request ≠ .internal →
      (∀ f₁, P f₁ f' → ∃ n, Outcome n f₁ f') → (f.state ≠ .idle ∧ f' = f) ∨
        ∃ request f₁, f.start request = some f₁ ∧ request ≠ .internal ∧ ∃ n, Outcome n f₁ f' := by
    rintro request P f' (h | ⟨f₁, hstart, hP⟩) hreq hout
    · exact .inl h
    · exact .inr ⟨request, f₁, hstart, hreq, hout f₁ hP⟩
  have hgo : ∀ {f' f₁}, GoesOn f₁ f' → ∃ n, Outcome n f₁ f' := fun h => ⟨0, .goesOn h⟩
  cases c with
  | connectToBridge =>
    exact hopens ConnectionFlow.opens_doConnectToBridge nofun fun _ => hgo
  | connectToBridgeBackground =>
    exact hopens ConnectionFlow.opens_doConnectToBridgeBackground nofun fun _ => hgo
  | connectToBridgeWithIp ipAddress =>
    exact hopens (ConnectionFlow.opens_doConnectToBridgeWithIp ipAddress) nofun fun _ => hgo
  | connectToNewBridge =>
    exact hopens (ConnectionFlow.opens_doConnectToNewBridge σ ω) nofun fun _ => hgo
  | setManual bridge =>
    exact hopens (ConnectionFlow.opens_doSetManual σ ω bridge) nofun fun _ => hgo
  | connectoToBridgeWithIdKey id user clientKey =>
    exact hopens (ConnectionFlow.opens_doConnectoToBridgeWithIdKey σ ω id user clientKey) nofun
      fun _ => hgo
  | resetBridge =>
    exact hopens (ConnectionFlow.opens_doReset σ ω true) nofun fun _ h => ⟨0, .saves h⟩
  | resetAllData =>
    exact hopens (ConnectionFlow.opens_doReset σ ω false) nofun fun _ h => ⟨0, .saves h⟩
  | selectGroup id => exact hopens (ConnectionFlow.opens_doSelectGroup σ id) nofun fun _ h => h
  | load => exact hopens ConnectionFlow.opens_doLoad nofun fun _ => hgo
  | abort => exact absurd rfl hc
  | startStream => exact hopens (ConnectionFlow.opens_doStartStream σ ω) nofun fun _ => hgo
  | stopStream =>
    exact hopens (ConnectionFlow.opens_doStopStream σ ω) nofun fun _ h => ⟨0, .finishes h⟩

/-- What a queued function does to the flow: it leaves the procedure that is under way as it is, goes
on with it, or opens another one. -/
theorem run_cases (σ : Settings) (ω : Answers) (f : ConnectionFlow) {w : Work}
    (hw : ∀ message, w = .monitorEvent message → message.id.isMonitorEvent = true) :
    ((w.isAwaited = true → f.state ≠ .idle) ∧ Speaks 0 f (Connect.run σ ω f w) ∧
      (Connect.run σ ω f w).state = f.state) ∨
    (w.isAwaited = false ∧ ∃ n, Outcome n f (Connect.run σ ω f w)) ∨
    ∃ request f₁, f.start request = some f₁ ∧ (w.isAwaited = true → request ≠ .internal) ∧
      ∃ n, Outcome n f₁ (Connect.run σ ω f w) := by
  cases w with
  | request c =>
    by_cases hc : c = .abort
    · subst hc
      rcases ConnectionFlow.doAbort_cases (s := f) σ with ⟨-, heq⟩ | ⟨-, hend⟩
      · have hrun : Connect.run σ ω f (.request .abort) = f := heq
        rw [hrun]
        exact .inl ⟨nofun, .refl, rfl⟩
      · exact .inr (.inl ⟨rfl, 1, .finishes hend⟩)
    · rcases c.request_cases σ ω f hc with ⟨hstate, heq⟩ | ⟨request, f₁, hstart, hreq, hout⟩
      · have hrun : Connect.run σ ω f (.request c) = f := heq
        rw [hrun]
        exact .inl ⟨fun _ => hstate, .refl, rfl⟩
      · exact .inr (.inr ⟨request, f₁, hstart, fun _ => hreq, hout⟩)
  | monitorEvent message =>
    rcases ConnectionFlow.doOnBridgeMonitorEvent_cases (s := f) σ ω message (hw message rfl) with
      ⟨-, hspeaks, hstate⟩ | ⟨f₁, hstart, hend | hend⟩
    · exact .inl ⟨nofun, hspeaks, hstate⟩
    · exact .inr (.inr ⟨_, f₁, hstart, nofun, 0, .goesOn hend⟩)
    · exact .inr (.inr ⟨_, f₁, hstart, nofun, 0, .finishes hend⟩)
  | completion c reply =>
    have hrun : Connect.run σ ω f (.completion c reply) = f.complete σ ω c reply := rfl
    rw [hrun]
    cases haccepts : f.accepts c.operation with
    | false =>
      rw [ConnectionFlow.complete_of_not_accepts σ ω haccepts]
      exact .inl ⟨nofun, .refl, rfl⟩
    | true =>
      rcases ConnectionFlow.complete_cases σ ω haccepts reply with
        ⟨bridge, -, heq⟩ | ⟨bridge, -, -, hkeep⟩ | ⟨-, -, f₁, hann, hend⟩
      · rw [heq]
        exact .inl ⟨nofun, ConnectionFlow.speaks_pushLinkBridge .refl _ _, rfl⟩
      · exact .inl ⟨nofun, Speaks.refl.congr hkeep.request hkeep.current hkeep.reported hkeep.log,
          hkeep.state⟩
      · exact .inr (.inl ⟨rfl, _, hann.1.outcome hend⟩)

/-- The dispatcher runs the next function. -/
theorem accounted_dispatch {ω : Answers} {w : Work} {queue : List Work} (h : Accounted s)
    (hqueue : s.queue = w :: queue)
    (hw : w.isAwaited = true → s.flow.state = .idle ∨ s.flow.request ≠ .internal) :
    Accounted (s.dispatch σ ω w queue) := by
  refine ⟨fun hmark => ?_, fun message (hmem : _ ∈ queue) => h.events message (by simp [hqueue, hmem])⟩
  set f' := Connect.run σ ω s.flow w with hf'
  have hmark : heard s.flow f' s.isIdle = false := hmark
  show (∃ w ∈ queue, w.isAwaited = true) ∨ (f'.state ≠ .idle ∧ f'.request ≠ .internal)
  -- a mark that was there before the function is accounted for without it
  have hbefore : s.isIdle = false → w.isAwaited = false → (∃ w ∈ queue, w.isAwaited = true) ∨
      (s.flow.state ≠ .idle ∧ s.flow.request ≠ .internal) := by
    intro hidle hnot
    obtain ⟨v, hv, hawait⟩ | hbusy := h.marked hidle
    · rw [hqueue] at hv
      rcases List.mem_cons.mp hv with rfl | hv
      · rw [hawait] at hnot
        contradiction
      · exact .inl ⟨v, hv, hawait⟩
    · exact .inr hbusy
  have hevent : ∀ message, w = .monitorEvent message → message.id.isMonitorEvent = true := by
    rintro message rfl
    exact h.events message (by simp [hqueue])
  rcases run_cases σ ω s.flow hevent with
    ⟨hawait, hspeaks, hstate⟩ | ⟨hawait, n, hout⟩ | ⟨request, f₁, hstart, hreq, n, hout⟩
  · obtain ⟨ms, -, hstay⟩ := heard_of_speaks hspeaks
    rw [hstay] at hmark
    rw [hstate, hspeaks.request]
    by_cases hw' : w.isAwaited = true
    · exact .inr ⟨hawait hw', (hw hw').resolve_left (hawait hw')⟩
    · exact hbefore hmark (Bool.eq_false_iff.mpr hw')
  · obtain ⟨hidle, hint | ⟨hstate, hsame⟩⟩ := of_heard_outcome hout hmark
    · exact (hbefore hidle hawait).imp_right fun hbusy => absurd hint hbusy.2
    · refine (hbefore hidle hawait).imp_right fun hbusy => ⟨hstate, ?_⟩
      rw [hsame]
      exact hbusy.2
  · obtain ⟨hidle, -, hfreq, -, -, hsent⟩ := ConnectionFlow.start_eq_some hstart
    obtain ⟨ms, hms⟩ : ∃ ms, sent f'.log = sent f₁.log ++ ms := by
      obtain ⟨log, hlog⟩ := hout.log
      exact ⟨sent log, by rw [← hlog, sent_append]⟩
    rw [heard_trans hsent hms] at hmark
    obtain ⟨hb, hcase⟩ := of_heard_outcome hout hmark
    by_cases hint : request = .internal
    · rw [heard_of_append hsent, if_pos hint] at hb
      have hnot : w.isAwaited = false := Bool.eq_false_iff.mpr fun hw' => hreq hw' hint
      exact (hbefore hb hnot).imp_right fun hbusy => absurd hidle hbusy.1
    · rw [hfreq] at hcase
      obtain ⟨hstate, hsame⟩ := hcase.resolve_left hint
      exact .inr ⟨hstate, by rwa [hsame]⟩

/-- A function that is queued and a change of the rest of the program keep the calls accounted for. -/
theorem Accounted.queue (h : Accounted s) (w : Work) (hqueue : s'.queue = s.queue ++ [w])
    (hmark : s'.isIdle = false → s.isIdle = false ∨ w.isAwaited = true)
    (hevent : ∀ message, w = .monitorEvent message → message.id.isMonitorEvent = true)
    (hstate : s'.flow.state = s.flow.state) (hreq : s'.flow.request = s.flow.request) :
    Accounted s' := by
  constructor
  · intro hidle
    rw [hqueue, hstate, hreq]
    rcases hmark hidle with hidle | hw
    · refine (h.marked hidle).imp_left ?_
      rintro ⟨v, hv, hawait⟩
      exact ⟨v, by simp [hv], hawait⟩
    · exact .inl ⟨w, by simp, hw⟩
  · intro message hmem
    rw [hqueue] at hmem
    rcases List.mem_append.mp hmem with hmem | hmem
    · exact h.events message hmem
    · exact hevent message (List.mem_singleton.mp hmem).symm

theorem accounted_step {input : Input} (hstep : s.step σ input = some s')
    (hC : keepsCallers s input = true) (h : Accounted s) : Accounted s' := by
  cases input with
  | call c =>
    simp only [Connect.step] at hstep
    split_ifs at hstep
    obtain rfl := Option.some.inj hstep
    refine h.queue (.request c) rfl (fun hidle => ?_) (by rintro _ ⟨⟩) rfl rfl
    have hidle : (s.isIdle && !c.marksBusy) = false := hidle
    rw [Bool.and_eq_false_iff, Bool.not_eq_false'] at hidle
    exact hidle
  | monitorEvent message =>
    simp only [Connect.step] at hstep
    split_ifs at hstep with henabled
    obtain rfl := Option.some.inj hstep
    refine h.queue (.monitorEvent message) rfl .inl ?_ rfl rfl
    rintro _ ⟨⟩
    simp only [ConnectionFlow.enabled, Bool.and_eq_true] at henabled
    exact henabled.2
  | answer c reply keep =>
    simp only [Connect.step] at hstep
    split_ifs at hstep
    obtain rfl := Option.some.inj hstep
    exact h.queue (.completion c reply) rfl .inl (by rintro _ ⟨⟩) rfl rfl
  | timer task =>
    simp only [Connect.step] at hstep
    split_ifs at hstep
    obtain rfl := Option.some.inj hstep
    exact h.queue _ rfl .inl (by rintro _ ⟨⟩) rfl rfl
  | newBridge bridge =>
    obtain rfl := Option.some.inj hstep
    exact ⟨h.marked, h.events⟩
  | mutate p bridge =>
    simp only [Connect.step] at hstep
    split_ifs at hstep
    obtain rfl := Option.some.inj hstep
    exact ⟨h.marked, h.events⟩
  | dispatch ω =>
    simp only [Connect.step] at hstep
    cases hqueue : s.queue with
    | nil =>
      rw [hqueue] at hstep
      cases hstep
    | cons w queue =>
      rw [hqueue] at hstep
      obtain rfl := Option.some.inj hstep
      refine accounted_dispatch h hqueue fun hw => ?_
      simp only [keepsCallers, hqueue, List.head?_cons, Option.any_some, hw, Bool.not_true,
        Bool.false_or, Bool.or_eq_true, decide_eq_true_eq] at hC
      exact hC

/-- **Nobody waits for a request that was dropped.** In a run in which no request of a waiting call is
dispatched while an internal procedure is under way, `_isIdle` is true whenever the flow is idle and
no function is queued. -/
theorem ready_when_idle {ts : List (Transition Connect Input)} (hrun : (machine σ).Run ts s)
    (hC : ∀ t ∈ ts, keepsCallers t.before t.label = true) (hidle : s.flow.state = .idle)
    (hqueue : s.queue = []) : s.isIdle = true := by
  have h : Accounted s := by
    refine hrun.invariant_of (C := fun s input => keepsCallers s input = true) ?_ ?_ hC
    · rintro s rfl
      exact ⟨nofun, nofun⟩
    · exact fun s input s' hstep hC h => accounted_step hstep hC h
  by_contra hmark
  rcases h.marked (Bool.eq_false_iff.mpr hmark) with ⟨w, hw, -⟩ | ⟨hstate, -⟩
  · rw [hqueue] at hw
    cases hw
  · exact hstate hidle

/-- A call that loads the stored bridges, next to one that is ignored because the load is under
way. -/
theorem ready_when_idle_loaded : ∃ ts s, (machine {}).Run ts s ∧ s.flow.state = .idle ∧
    s.queue = [] ∧ s.isIdle = true := by
  obtain ⟨ts, s, hrun, hp⟩ := Machine.exists_run (M := machine {}) (s := {})
    [.call .load, .dispatch {}, .call .resetBridge, .dispatch {},
      .answer ⟨.load .finish, some 0⟩ {} false, .dispatch {}]
    (fun ts s => s.flow.state = .idle && s.queue.isEmpty &&
      ts.all fun t => keepsCallers t.before t.label) rfl (by decide)
  simp only [Bool.and_eq_true, decide_eq_true_eq, List.isEmpty_iff, List.all_eq_true] at hp
  obtain ⟨⟨hidle, hqueue⟩, hC⟩ := hp
  exact ⟨ts, s, hrun, hidle, hqueue, ready_when_idle hrun hC hidle hqueue⟩

/-- A bridge with the second version of the interface. -/
def clipV2Bridge : Bridge where
  ipAddress := "192.168.1.2"
  id := "001788"
  modelId := "BSB002"
  apiversion := "1.50.0"
  swversion := "1950000000"
  isValidIp := true
  isAuthorized := true

set_option maxRecDepth 4000 in
/-- The bridge is connected again, which starts an internal procedure; meanwhile a connect is called
for. It is dropped, and nobody tells its caller. -/
theorem exists_caller_that_waits : ∃ ts s, (machine {}).Run ts s ∧ s.flow.state = .idle ∧
    s.queue = [] ∧ s.isIdle = false := by
  obtain ⟨ts, s, hrun, hp⟩ := Machine.exists_run (M := machine {}) (s := {})
    [.newBridge clipV2Bridge, .monitorEvent ⟨.internal, .bridgeConnected, 2, []⟩, .dispatch {},
      .call .connectToBridge, .dispatch {},
      .answer ⟨.retrieveFullConfig, some 0⟩ { bridge := 2 } false, .dispatch {},
      .answer ⟨.save, some 0⟩ {} false, .dispatch {}]
    (fun _ s => s.flow.state = .idle && s.queue.isEmpty && !s.isIdle) rfl (by decide)
  simp only [Bool.and_eq_true, decide_eq_true_eq, List.isEmpty_iff, Bool.not_eq_true'] at hp
  exact ⟨ts, s, hrun, hp.1.1, hp.1.2, hp.2⟩

end HueStream.Dispatch
