import HueStream.Flow.Asking

/-! # Counting the bridges that are asked

`_ongoingAuthenticationCount` stands for the bridges of the list that is being authenticated which have
neither failed too often nor been authorized. The history of a run says which these are (`Attempts`).
The count is right as long as no answer about another bridge concludes anything: one that was given up
before, or one of an earlier list, whose answers and retries go on after an abort. -/

namespace HueStream.Flow

open HueStream.Data HueStream.Lib

/-! ### The history of an authentication -/

/-- The bridges that are being authenticated, how often each bridge has failed, and which ones were
authorized. -/
structure Attempts where
  bridges : List BridgePtr := []
  failed : BridgePtr → ℕ := fun _ => 0
  authorized : List BridgePtr := []

/-- The list of the last `ID_START_AUTHORIZING`. -/
def authorizingList (log : List Act) : List BridgePtr :=
  (((sent log).reverse.find? fun x => x.message.id = .startAuthorizing).map
    (·.message.bridgeList)).getD []

namespace Attempts

variable (a : Attempts)

/-- The bridge has failed too often. -/
def exceeded (bridge : BridgePtr) : Bool := pushlinkInvalidIpMaxRetries < a.failed bridge

/-- The bridge has neither failed too often nor been authorized. -/
def isOpen (bridge : BridgePtr) : Bool := !a.exceeded bridge && bridge ∉ a.authorized

/-- How many bridges of the list are open. -/
def remaining : ℕ := a.bridges.countP a.isOpen

/-- The authenticator answers about a bridge: without a valid address the attempt has failed. -/
def answered (p : BridgePtr) (bridge : Bridge) : Attempts :=
  let a := if bridge.isValidIp then a else
    { a with failed := Function.update a.failed p (a.failed p + 1) }
  if bridge.isAuthorized && (bridge.isValidIp || !a.exceeded p) then
    { a with authorized := p :: a.authorized }
  else a

/-- What a step makes of the history. -/
def next (t : Transition ConnectionFlow (Input × Answers)) : Attempts :=
  if t.before.state ≠ .authenticating then
    if t.after.state = .authenticating then { bridges := authorizingList t.after.log } else a
  else match t.label.1 with
    | .abort => { a with bridges := [] }
    | .deliver ⟨.authenticate bridge, _⟩ _ _ => a.answered bridge (t.before.heap bridge)
    | _ => a

/-- The history of a run. -/
def ofRun (ts : List (Transition ConnectionFlow (Input × Answers))) : Attempts :=
  ts.foldl next {}

@[simp] theorem ofRun_concat (ts : List (Transition ConnectionFlow (Input × Answers)))
    (t : Transition ConnectionFlow (Input × Answers)) : ofRun (ts ++ [t]) = (ofRun ts).next t :=
  List.foldl_concat ..

end Attempts

/-- An answer about the bridge ends its authentication: it is authorized, or given up. -/
def ConnectionFlow.concludes (s : ConnectionFlow) (bridge : BridgePtr) : Bool :=
  s.authorizes bridge || s.givesUp bridge

/-- The step sends `ID_FINISH_AUTHORIZING_FAILED`. -/
def SendsFailed (s s' : ConnectionFlow) : Prop :=
  ∃ x ∈ (sent s'.log).drop (sent s.log).length, x.message.id = .finishAuthorizingFailed

/-- After the transition the count is the number of open bridges, and if the transition has reported
failure, all bridges have failed too often. -/
def Counted (before : List (Transition ConnectionFlow (Input × Answers)))
    (t : Transition ConnectionFlow (Input × Answers)) : Prop :=
  t.after.ongoingAuthenticationCount = (Attempts.ofRun (before ++ [t])).remaining ∧
    (SendsFailed t.before t.after → ∀ b ∈ (Attempts.ofRun (before ++ [t])).bridges,
      (Attempts.ofRun (before ++ [t])).exceeded b = true)

variable {σ : Settings} {ω : Answers} {s s' u : ConnectionFlow} {a : Attempts} {l : Input × Answers}

/-! ### Steps that are no answers -/

/-- Nothing has happened to the authentication, or it is over. -/
structure Steady (s s' : ConnectionFlow) : Prop where
  asking : s'.state = .authenticating → s.state = .authenticating
  count : s'.ongoingAuthenticationCount = s.ongoingAuthenticationCount
  failed : ∀ b, s'.failedTries b = s.failedTries b
  background : s.backgroundDiscoveredBridges.Nodup → s'.backgroundDiscoveredBridges.Nodup
  quiet : ¬ SendsFailed s s'

/-- An authentication begins with a list of bridges. -/
structure Starts (s : ConnectionFlow) (bridges : List BridgePtr) (s' : ConnectionFlow) : Prop where
  before : s.state ≠ .authenticating
  state : s'.state = .authenticating
  ne : bridges ≠ []
  nodup : bridges.Nodup
  count : s'.ongoingAuthenticationCount = bridges.length
  failed : ∀ b, s'.failedTries b = 0
  background : s.backgroundDiscoveredBridges.Nodup → s'.backgroundDiscoveredBridges.Nodup
  quiet : ¬ SendsFailed s s'
  list : authorizingList s'.log = bridges

theorem not_sendsFailed (h : ∃ ms, sent s'.log = sent s.log ++ ms ∧
    ∀ x ∈ ms, x.message.id ≠ .finishAuthorizingFailed) : ¬ SendsFailed s s' := by
  obtain ⟨ms, hms, hne⟩ := h
  rintro ⟨x, hx, hid⟩
  rw [hms, List.drop_left] at hx
  exact hne x hx hid

theorem failedTries_congr
    (h : s'.authenticationProcessesInfo = s.authenticationProcessesInfo) (b : BridgePtr) :
    s'.failedTries b = s.failedTries b := by
  unfold ConnectionFlow.failedTries
  rw [h]

theorem Frame.steady (h : Frame s s') (hstate : s'.state = s.state ∨ s'.state ≠ .authenticating) :
    Steady s s' := by
  refine ⟨fun hauth => ?_, h.count, failedTries_congr h.info, h.background, not_sendsFailed h.sent⟩
  rcases hstate with hstate | hstate
  · exact hstate ▸ hauth
  · exact absurd hauth hstate

theorem Moves.steady {x : FlowState} {ops : List Operation} {execs : List Act} (hframe : Frame s u)
    (h : Moves u x ops execs s') (hx : x ≠ .authenticating) : Steady s s' := by
  obtain ⟨ms, hms, hne⟩ := hframe.sent
  obtain ⟨ms', hms', hne'⟩ := h.sent
  refine ⟨fun hauth => absurd (h.state.symm.trans hauth) hx, h.count.trans hframe.count,
    failedTries_congr (h.info.trans hframe.info), h.background ∘ hframe.background,
    not_sendsFailed ⟨ms ++ ms', ?_, fun y hy => ?_⟩⟩
  · rw [hms', hms, List.append_assoc]
  · exact (List.mem_append.mp hy).elim (hne y) (hne' y)

theorem authorizingList_of_sent {r : RequestType} {p : BridgePtr} {bridges : List BridgePtr}
    {log : List Act} {ms : List Sent} (h : sent log = ms ++
      [⟨⟨r, .startAuthorizing, p, bridges⟩, true⟩, ⟨⟨r, .pressPushLink, p, bridges⟩, true⟩]) :
    authorizingList log = bridges := by
  unfold authorizingList
  rw [h]
  simp

theorem ConnectionFlow.Authenticates.starts {bridges : List BridgePtr} (hframe : Frame s u)
    (h : Authenticates u bridges s') (hne : bridges ≠ []) (hnodup : bridges.Nodup)
    (hx : s.state ≠ .authenticating) : Starts s bridges s' := by
  obtain ⟨ms, hms, hquiet⟩ := hframe.sent
  obtain ⟨r, p, hsent⟩ := h.sent
  refine ⟨hx, h.state, hne, hnodup, h.count, fun b => ?_, fun hbg => ?_,
    not_sendsFailed ⟨_, by rw [hsent, hms, List.append_assoc], fun y hy => ?_⟩,
    authorizingList_of_sent hsent⟩
  · unfold ConnectionFlow.failedTries
    rw [h.info b]
    split_ifs <;> rfl
  · rw [h.background]
    exact hframe.background hbg
  · rcases List.mem_append.mp hy with hy | hy
    · exact hquiet y hy
    · simp only [List.mem_cons, List.not_mem_nil, or_false] at hy
      rcases hy with rfl | rfl
      · exact nofun
      · exact nofun

theorem Continues.cases (h : Continues σ ω s s') : Steady s s' ∨ ∃ bridges, Starts s bridges s' := by
  obtain ⟨v, hframe, hstage⟩ := h
  cases hstage with
  | load callback =>
    exact .inl ((ConnectionFlow.moves_beginLoading callback).steady hframe nofun)
  | search =>
    obtain ⟨x, hx, hmoves⟩ := ConnectionFlow.moves_startBridgeSearch (s := v)
    exact .inl (hmoves.steady hframe (by rcases hx with rfl | rfl <;> decide))
  | authenticate bridges hne hnodup hx =>
    exact .inr ⟨bridges,
      (ConnectionFlow.authenticates_startAuthentication bridges).starts hframe hne hnodup hx⟩
  | retrieveSmall bridge =>
    exact .inl ((ConnectionFlow.moves_startRetrieveSmallConfig bridge).steady hframe nofun)
  | retrieveFull =>
    exact .inl ((ConnectionFlow.moves_startRetrieveFullConfig σ ω).steady hframe nofun)
  | save => exact .inl ((ConnectionFlow.moves_beginSaving σ).steady hframe nofun)
  | saveAside => exact .inl ((ConnectionFlow.moves_saveAside σ).steady hframe nofun)
  | finish h hidle => exact .inl ((hframe.trans h).steady (.inr (by simp [hidle])))

/-! ### Steps -/

/-- The inputs that change the history of an authentication under way. -/
def Input.decides : Input → Bool
  | .abort => true
  | .deliver ⟨.authenticate _, _⟩ _ _ => true
  | _ => false

theorem operation_of_decides {c : Completion} {reply : Reply} {keep : Bool}
    (h : (Input.deliver c reply keep).decides = true) :
    ∃ bridge, c.operation = .authenticate bridge := by
  obtain ⟨op, procedure⟩ := c
  cases op with
  | authenticate bridge => exact ⟨bridge, rfl⟩
  | _ => cases h

theorem next_of_steady (h : Steady s s')
    (hdecides : l.1.decides = true → s.state ≠ .authenticating) : a.next ⟨s, l, s'⟩ = a := by
  unfold Attempts.next
  by_cases hauth : s.state = .authenticating
  · rw [if_neg (by simp [hauth])]
    dsimp only
    split
    · next h => exact absurd hauth (hdecides (by rw [h]; rfl))
    · next h => exact absurd hauth (hdecides (by rw [h]; rfl))
    · rfl
  · rw [if_pos (by exact hauth), if_neg fun h' => hauth (h.asking h')]

theorem next_of_starts {bridges : List BridgePtr} (h : Starts s bridges s') :
    a.next ⟨s, l, s'⟩ = { bridges } := by
  unfold Attempts.next
  rw [if_pos (by exact h.before), if_pos (by exact h.state), h.list]

/-- A completion that is no answer is none of the authentication's business, or begins one. -/
theorem attempts_deliver {c : Completion} (reply : Reply)
    (h : s.accepts c.operation = true → ∀ bridge, c.operation ≠ .authenticate bridge) :
    Steady s (s.complete σ ω c reply) ∨ ∃ bridges, Starts s bridges (s.complete σ ω c reply) := by
  cases haccepts : s.accepts c.operation with
  | false =>
    rw [ConnectionFlow.complete_of_not_accepts σ ω haccepts]
    exact .inl (Frame.refl.steady (.inl rfl))
  | true =>
    by_cases hpush : ∃ bridge, c.operation = .pushLink bridge
    · obtain ⟨op, procedure⟩ := c
      obtain ⟨bridge, rfl⟩ := hpush
      have hsent : sent (s.pushLinkBridge procedure bridge).log = sent s.log ++ [] :=
        sent_append s.log [.authenticate bridge]
      exact .inl ⟨id, rfl, fun _ => rfl, id, not_sendsFailed ⟨[], hsent, by simp⟩⟩
    · exact (ConnectionFlow.complete_stage σ ω haccepts reply (h haccepts)
        fun b h => hpush ⟨b, h⟩).cases

/-- A step is none of the authentication's business, begins one, aborts it, or is an answer. -/
theorem attempts_cases (hstep : s.step σ l = some s')
    (hnodup : s.backgroundDiscoveredBridges.Nodup) :
    (Steady s s' ∧ (l.1.decides = true → s.state ≠ .authenticating)) ∨
    (∃ bridges, Starts s bridges s') ∨
    (s.state = .authenticating ∧ l.1 = .abort ∧ s'.state = .idle ∧
      Steady { s with ongoingAuthenticationCount := 0 } s') ∨
    (s.state = .authenticating ∧ ∃ bridge procedure reply keep,
      l.1 = .deliver ⟨.authenticate bridge, procedure⟩ reply keep ∧
      s' = (s.take ⟨.authenticate bridge, procedure⟩ keep).authenticationCompleted σ l.2 procedure
        bridge) := by
  obtain ⟨i, ω⟩ := l
  unfold ConnectionFlow.step at hstep
  split_ifs at hstep with henabled
  obtain rfl := Option.some.inj hstep
  by_cases habort : i = .abort
  · subst habort
    rcases ConnectionFlow.stage_doAbort (s := s) σ with ⟨hidle, heq⟩ | ⟨-, hframe, hidle⟩
    · have hsame : s.handle σ ω .abort = s := heq
      refine .inl ⟨?_, fun _ => by simp [hidle]⟩
      rw [hsame]
      exact Frame.refl.steady (.inl rfl)
    · by_cases hauth : s.state = .authenticating
      · rw [if_pos hauth] at hframe
        exact .inr (.inr (.inl ⟨hauth, rfl, hidle, hframe.steady (.inr (by simp [hidle]))⟩))
      · rw [if_neg hauth] at hframe
        exact .inl ⟨hframe.steady (.inr (by simp [hidle])), fun _ => hauth⟩
  by_cases htimer : ∃ task, i = .timer task
  · obtain ⟨task, rfl⟩ := htimer
    exact .inl ⟨⟨id, rfl, fun _ => rfl, id,
      not_sendsFailed ⟨[], (List.append_nil _).symm, by simp⟩⟩, nofun⟩
  by_cases hdeliver : ∃ c reply keep, i = .deliver c reply keep
  · obtain ⟨c, reply, keep, rfl⟩ := hdeliver
    set t := s.take c keep
    have hdo : s.handle σ ω (.deliver c reply keep) = t.complete σ ω c reply := rfl
    rw [hdo]
    by_cases hanswer : t.accepts c.operation = true ∧ ∃ bridge, c.operation = .authenticate bridge
    · obtain ⟨op, procedure⟩ := c
      obtain ⟨haccepts, bridge, rfl⟩ := hanswer
      have hstate : s.state = .authenticating := of_decide_eq_true haccepts
      exact .inr (.inr (.inr ⟨hstate, bridge, procedure, reply, keep, rfl, rfl⟩))
    · rcases attempts_deliver (σ := σ) (ω := ω) (s := t) reply
        (fun h b hb => hanswer ⟨h, b, hb⟩) with h | ⟨bridges, h⟩
      · refine .inl ⟨⟨h.asking, h.count, h.failed, h.background, h.quiet⟩, fun hdecides => ?_⟩
        intro hauth
        obtain ⟨bridge, hbridge⟩ := operation_of_decides hdecides
        refine hanswer ⟨?_, bridge, hbridge⟩
        rw [hbridge]
        exact decide_eq_true hauth
      · exact .inr (.inl ⟨bridges, h.before, h.state, h.ne, h.nodup, h.count, h.failed,
          h.background, h.quiet, h.list⟩)
  · have hdeliver : ∀ c reply keep, i ≠ .deliver c reply keep :=
      fun c r k h => hdeliver ⟨c, r, k, h⟩
    have htimer : ∀ task, i ≠ .timer task := fun task h => htimer ⟨task, h⟩
    rcases ConnectionFlow.handle_stage σ ω henabled hnodup habort hdeliver htimer with hquiet | hstage
    · refine .inl ⟨hquiet.1.steady (.inl hquiet.2), fun hdecides => ?_⟩
      cases i <;> simp_all [Input.decides]
    · rcases hstage.cases with h | h
      · refine .inl ⟨h, fun hdecides => ?_⟩
        cases i <;> simp_all [Input.decides]
      · exact .inr (.inl h)

/-! ### What an answer makes of the history -/

theorem countP_without {α : Type*} [DecidableEq α] {p p' : α → Bool} {b : α} {l : List α}
    (hnodup : l.Nodup) (hother : ∀ x, x ≠ b → p' x = p x) (hb : p' b = false) :
    l.countP p' + (if b ∈ l ∧ p b = true then 1 else 0) = l.countP p := by
  induction l with
  | nil => simp
  | cons x l ih =>
    obtain ⟨hx, hl⟩ := List.nodup_cons.mp hnodup
    have ih := ih hl
    rw [List.countP_cons, List.countP_cons]
    by_cases hxb : x = b
    · subst hxb
      rw [if_neg (by simp [hx])] at ih
      simp only [hb, List.mem_cons, true_or, true_and, Bool.false_eq_true, if_false]
      omega
    · have hbx : b ∈ x :: l ↔ b ∈ l := by simp [Ne.symm hxb]
      simp only [hother x hxb, hbx]
      omega

namespace Attempts

theorem answered_bridges (p : BridgePtr) (bridge : Bridge) :
    (a.answered p bridge).bridges = a.bridges := by
  unfold answered
  dsimp only
  split_ifs <;> rfl

theorem answered_failed (p b : BridgePtr) (bridge : Bridge) : (a.answered p bridge).failed b =
    a.failed b + if b = p ∧ bridge.isValidIp = false then 1 else 0 := by
  have hfailed : (a.answered p bridge).failed =
      (if bridge.isValidIp then a else
        { a with failed := Function.update a.failed p (a.failed p + 1) }).failed := by
    unfold answered
    dsimp only
    split_ifs <;> rfl
  rw [hfailed]
  by_cases hip : bridge.isValidIp = true
  · rw [if_pos hip]
    simp [hip]
  · rw [if_neg hip]
    by_cases hb : b = p
    · simp [hb, hip]
    · simp [hb]

theorem answered_authorized (p : BridgePtr) (bridge : Bridge) : (a.answered p bridge).authorized =
    if bridge.isAuthorized && (bridge.isValidIp || !(a.answered p bridge).exceeded p) then
      p :: a.authorized
    else a.authorized := by
  have hexceeded : (a.answered p bridge).exceeded p =
      (if bridge.isValidIp then a else
        { a with failed := Function.update a.failed p (a.failed p + 1) }).exceeded p := by
    unfold exceeded
    rw [answered_failed]
    split_ifs <;> simp_all
  rw [hexceeded]
  unfold answered
  dsimp only
  split_ifs <;> rfl

theorem isOpen_answered_of_ne {p b : BridgePtr} (bridge : Bridge) (hb : b ≠ p) :
    (a.answered p bridge).isOpen b = a.isOpen b := by
  unfold isOpen exceeded
  rw [answered_failed, answered_authorized]
  split_ifs <;> simp_all

end Attempts

/-- The history knows how often each bridge has failed. -/
theorem exceeded_answered {bridge : BridgePtr} (hfailed : s.failedTries bridge = a.failed bridge)
    (hip : (s.heap bridge).isValidIp = false) :
    (a.answered bridge (s.heap bridge)).exceeded bridge = !s.retriesAddress bridge := by
  unfold Attempts.exceeded ConnectionFlow.retriesAddress
  rw [Attempts.answered_failed, ← hfailed, hip]
  simp only [and_self, if_true, Bool.not_false, Bool.true_and, ← decide_not, not_le]

/-- An answer that concludes something closes its bridge. -/
theorem isOpen_answered_of_concludes {bridge : BridgePtr}
    (hfailed : s.failedTries bridge = a.failed bridge) (h : s.concludes bridge = true) :
    (a.answered bridge (s.heap bridge)).isOpen bridge = false := by
  unfold Attempts.isOpen
  rw [Attempts.answered_authorized]
  simp only [ConnectionFlow.concludes, ConnectionFlow.authorizes, ConnectionFlow.givesUp] at h
  by_cases hip : (s.heap bridge).isValidIp = true
  · simp only [hip, Bool.true_or, Bool.true_and, Bool.not_true, Bool.false_and, Bool.or_false] at h
    simp [hip, h]
  · have hip : (s.heap bridge).isValidIp = false := Bool.eq_false_iff.mpr hip
    rw [exceeded_answered hfailed hip]
    cases hretries : s.retriesAddress bridge <;> simp_all

/-- An answer that concludes nothing changes nothing about its bridge. -/
theorem isOpen_answered_of_not_concludes {bridge : BridgePtr}
    (hfailed : s.failedTries bridge = a.failed bridge) (h : s.concludes bridge = false) :
    (a.answered bridge (s.heap bridge)).isOpen bridge = a.isOpen bridge := by
  unfold Attempts.isOpen
  rw [Attempts.answered_authorized]
  simp only [ConnectionFlow.concludes, ConnectionFlow.authorizes, ConnectionFlow.givesUp,
    Bool.or_eq_false_iff] at h
  by_cases hip : (s.heap bridge).isValidIp = true
  · simp only [hip, Bool.true_or, Bool.true_and] at h
    unfold Attempts.exceeded
    rw [Attempts.answered_failed]
    simp [hip, h.1]
  · have hip : (s.heap bridge).isValidIp = false := Bool.eq_false_iff.mpr hip
    simp only [hip, Bool.not_false, Bool.true_and, Bool.false_or, Bool.not_eq_false'] at h
    obtain ⟨hauth, hretries⟩ := h
    have hopen : a.exceeded bridge = false := by
      simp only [ConnectionFlow.retriesAddress, hip, Bool.not_false, Bool.true_and,
        decide_eq_true_eq, hfailed] at hretries
      simp only [Attempts.exceeded, decide_eq_false_iff_not]
      omega
    simp only [hretries, Bool.true_and] at hauth
    rw [exceeded_answered hfailed hip, hretries, hopen, hauth]
    rfl

/-! ### The invariant -/

/-- What a history knows of the flow. -/
structure Tracks (a : Attempts) (s : ConnectionFlow) : Prop where
  failed : ∀ b, s.failedTries b = a.failed b
  background : s.backgroundDiscoveredBridges.Nodup
  asking : s.state = .authenticating →
    a.authorized = [] ∧ a.bridges.Nodup ∧ 0 < s.ongoingAuthenticationCount

theorem tracks_init : Tracks {} .init := ⟨fun _ => rfl, List.nodup_nil, nofun⟩

/-- The step concludes nothing, or what it concludes is about an open bridge of the list. -/
def Attempts.concerns (a : Attempts) (s : ConnectionFlow) (i : Input) : Prop :=
  ∀ bridge procedure reply keep, i = .deliver ⟨.authenticate bridge, procedure⟩ reply keep →
    s.state = .authenticating → s.concludes bridge = true →
    bridge ∈ a.bridges ∧ a.isOpen bridge = true

/-- How an answer is taken. -/
structure Taken (s : ConnectionFlow) (bridge : BridgePtr) (s' : ConnectionFlow) : Prop where
  failed : ∀ p, s'.failedTries p =
    s.failedTries p + if p = bridge ∧ (s.heap bridge).isValidIp = false then 1 else 0
  background : s'.backgroundDiscoveredBridges.Nodup
  count : s'.ongoingAuthenticationCount = if s.concludes bridge then
    sizeDecrement s.ongoingAuthenticationCount else s.ongoingAuthenticationCount
  asking : s'.state = .authenticating → s.authorizes bridge = false ∧
    s'.ongoingAuthenticationCount ≠ 0
  sends : SendsFailed s s' → s.concludes bridge = true ∧ s'.ongoingAuthenticationCount = 0 ∧
    s.authorizes bridge = false

theorem taken_of_answer (hstate : s.state = .authenticating)
    (hpos : 0 < s.ongoingAuthenticationCount) (hnodup : s.backgroundDiscoveredBridges.Nodup)
    (procedure : Option ℕ) (bridge : BridgePtr) :
    Taken s bridge (s.authenticationCompleted σ ω procedure bridge) := by
  obtain ⟨t, ht, hcases⟩ := ConnectionFlow.answer_cases σ ω hstate procedure bridge
  have hdec : t.decremented.ongoingAuthenticationCount =
      sizeDecrement s.ongoingAuthenticationCount := congrArg sizeDecrement ht.count
  have hnodup : t.backgroundDiscoveredBridges.Nodup := ht.background ▸ hnodup
  have hquiet : ∀ {v}, v.log = s.log → ¬ SendsFailed s v := fun hlog =>
    not_sendsFailed ⟨[], by rw [hlog, List.append_nil], by simp⟩
  rcases hcases with ⟨hup, hauth, heq⟩ | ⟨hup, hauth, u, hframe, heq⟩ | ⟨hup, hauth, heq⟩
  · have hconcl : s.concludes bridge = true := by simp [ConnectionFlow.concludes, hup]
    rw [heq]
    split_ifs with hzero
    · obtain ⟨x, hx, hmoves⟩ := ConnectionFlow.moves_startBridgeSearch
        (s := t.decremented.feedback .finishAuthorizingFailed)
      rw [ConnectionFlow.feedback_eq] at hmoves ⊢
      have hcount := hmoves.count
      refine ⟨fun p => ?_, hmoves.background hnodup, ?_, fun hasking => ?_,
        fun _ => ⟨hconcl, hcount.trans hzero, hauth⟩⟩
      · exact (failedTries_congr hmoves.info p).trans (ht.failed p)
      · rw [if_pos hconcl, ← hdec]
        exact hcount
      · have hx' : x = .authenticating := hmoves.state.symm.trans hasking
        rcases hx with rfl | rfl
        · cases hx'
        · cases hx'
    · refine ⟨ht.failed, hnodup, by rw [if_pos hconcl, hdec], fun _ => ⟨hauth, hzero⟩, fun h => ?_⟩
      exact absurd h (hquiet ht.log)
  · have hconcl : s.concludes bridge = true := by simp [ConnectionFlow.concludes, hauth]
    have hmoves := ConnectionFlow.moves_startRetrieveFullConfig (s := u.stopScheduler) σ ω
    obtain ⟨ms, hms, hne⟩ := hframe.sent
    obtain ⟨ms', hms', hne'⟩ := hmoves.sent
    rw [heq]
    refine ⟨fun p => ?_, hmoves.background (hframe.background hnodup), ?_, fun hasking => ?_,
      fun h => ?_⟩
    · have hinfo : (u.stopScheduler.startRetrieveFullConfig σ ω).authenticationProcessesInfo =
        t.authenticationProcessesInfo := hmoves.info.trans hframe.info
      exact (failedTries_congr hinfo p).trans (ht.failed p)
    · rw [if_pos hconcl, ← hdec]
      exact hmoves.count.trans hframe.count
    · cases hmoves.state.symm.trans hasking
    · refine absurd h (not_sendsFailed ⟨ms ++ ms', ?_, fun y hy => ?_⟩)
      · have hlog : sent u.stopScheduler.log = sent s.log ++ ms := by rw [← ht.log]; exact hms
        rw [hms', hlog, List.append_assoc]
      · exact (List.mem_append.mp hy).elim (hne y) (hne' y)
  · have hconcl : s.concludes bridge = false := by simp [ConnectionFlow.concludes, hauth, hup]
    rw [heq]
    have hcount : (t.askAgain procedure bridge).ongoingAuthenticationCount =
      s.ongoingAuthenticationCount := ht.count
    refine ⟨ht.failed, hnodup, by simp [hconcl, hcount], fun _ => ⟨hauth, by omega⟩, fun h => ?_⟩
    exact absurd h (hquiet ht.log)

/-- The count of an answer that is taken is right when the answer concerns an open bridge, and only
then. -/
theorem count_answered {bridge : BridgePtr} (htracks : Tracks a s)
    (hstate : s.state = .authenticating)
    (hcount : s.ongoingAuthenticationCount = a.remaining) (h : Taken s bridge s') :
    s'.ongoingAuthenticationCount = (a.answered bridge (s.heap bridge)).remaining ↔
      (s.concludes bridge = true → bridge ∈ a.bridges ∧ a.isOpen bridge = true) := by
  obtain ⟨-, hnodup, hpos⟩ := htracks.asking hstate
  have hother : ∀ x, x ≠ bridge → (a.answered bridge (s.heap bridge)).isOpen x = a.isOpen x :=
    fun x hx => Attempts.isOpen_answered_of_ne _ hx
  unfold Attempts.remaining at hcount ⊢
  rw [Attempts.answered_bridges, h.count]
  cases hconcl : s.concludes bridge with
  | false =>
    have hself := isOpen_answered_of_not_concludes (htracks.failed bridge) hconcl
    have hsame : ∀ x ∈ a.bridges,
        ((a.answered bridge (s.heap bridge)).isOpen x = true ↔ a.isOpen x = true) := by
      intro x _
      by_cases hx : x = bridge
      · rw [hx, hself]
      · rw [hother x hx]
    simp [List.countP_congr hsame, hcount]
  | true =>
    have hself := isOpen_answered_of_concludes (htracks.failed bridge) hconcl
    have hwithout := countP_without hnodup hother hself
    simp only [sizeDecrement, if_true, true_imp_iff, if_neg (Nat.ne_of_gt hpos)]
    split_ifs at hwithout with hopen
    · exact iff_of_true (by omega) hopen
    · exact iff_of_false (by omega) hopen

/-! ### Runs -/

theorem answered_authorized_eq {bridge : BridgePtr}
    (hfailed : s.failedTries bridge = a.failed bridge) :
    (a.answered bridge (s.heap bridge)).authorized =
      if s.authorizes bridge then bridge :: a.authorized else a.authorized := by
  have hauth : s.authorizes bridge = ((s.heap bridge).isAuthorized && ((s.heap bridge).isValidIp ||
      !(a.answered bridge (s.heap bridge)).exceeded bridge)) := by
    unfold ConnectionFlow.authorizes
    rw [Bool.and_comm]
    cases hip : (s.heap bridge).isValidIp with
    | true => rfl
    | false => rw [exceeded_answered hfailed hip, Bool.not_not]
  rw [Attempts.answered_authorized, ← hauth]

theorem next_of_answer {bridge : BridgePtr} {procedure : Option ℕ} {reply : Reply} {keep : Bool}
    (hstate : s.state = .authenticating)
    (hlabel : l.1 = .deliver ⟨.authenticate bridge, procedure⟩ reply keep) :
    a.next ⟨s, l, s'⟩ = a.answered bridge (s.heap bridge) := by
  unfold Attempts.next
  rw [if_neg (by simp [hstate])]
  simp only [hlabel]

theorem next_of_abort (hstate : s.state = .authenticating) (hlabel : l.1 = .abort) :
    a.next ⟨s, l, s'⟩ = { a with bridges := [] } := by
  unfold Attempts.next
  rw [if_neg (by simp [hstate])]
  simp only [hlabel]

theorem taken_of_take (bridge : BridgePtr) (procedure : Option ℕ) (keep : Bool)
    (htracks : Tracks a s) (hstate : s.state = .authenticating) :
    Taken s bridge ((s.take ⟨.authenticate bridge, procedure⟩ keep).authenticationCompleted σ ω
      procedure bridge) := by
  set u := s.take ⟨.authenticate bridge, procedure⟩ keep
  have hpos : 0 < u.ongoingAuthenticationCount := (htracks.asking hstate).2.2
  have htaken : Taken u bridge (u.authenticationCompleted σ ω procedure bridge) :=
    taken_of_answer (σ := σ) (ω := ω) (s := u) hstate hpos htracks.background procedure bridge
  exact ⟨htaken.failed, htaken.background, htaken.count, htaken.asking, htaken.sends⟩

/-- The history goes on knowing the flow. -/
theorem tracks_step (hstep : s.step σ l = some s') (h : Tracks a s) :
    Tracks (a.next ⟨s, l, s'⟩) s' := by
  rcases attempts_cases hstep h.background with ⟨hsteady, hdecides⟩ | ⟨bridges, hstarts⟩ |
    ⟨hstate, hlabel, hidle, hsteady⟩ | ⟨hstate, bridge, procedure, reply, keep, hlabel, rfl⟩
  · rw [next_of_steady hsteady hdecides]
    refine ⟨fun b => (hsteady.failed b).trans (h.failed b), hsteady.background h.background, ?_⟩
    intro hasking
    rw [hsteady.count]
    exact h.asking (hsteady.asking hasking)
  · rw [next_of_starts hstarts]
    refine ⟨hstarts.failed, hstarts.background h.background, fun _ => ⟨rfl, hstarts.nodup, ?_⟩⟩
    rw [hstarts.count]
    exact List.length_pos_of_ne_nil hstarts.ne
  · rw [next_of_abort hstate hlabel]
    exact ⟨fun b => (hsteady.failed b).trans (h.failed b), hsteady.background h.background,
      fun hasking => by simp [hidle] at hasking⟩
  · have htaken := taken_of_take (σ := σ) (ω := l.2) bridge procedure keep h hstate
    rw [next_of_answer hstate hlabel]
    refine ⟨fun p => ?_, htaken.background, fun hasking => ?_⟩
    · rw [htaken.failed, Attempts.answered_failed, h.failed]
    · obtain ⟨hnot, hpos⟩ := htaken.asking hasking
      obtain ⟨hauthorized, hnodup, -⟩ := h.asking hstate
      rw [answered_authorized_eq (h.failed bridge), hnot, Attempts.answered_bridges]
      exact ⟨hauthorized, hnodup, Nat.pos_of_ne_zero hpos⟩

/-- One step keeps the count right when what it concludes concerns the list, and only then. -/
theorem counted_step (hstep : s.step σ l = some s') (h : Tracks a s)
    (hcount : s.ongoingAuthenticationCount = a.remaining) :
    (s'.ongoingAuthenticationCount = (a.next ⟨s, l, s'⟩).remaining ∧
      (SendsFailed s s' → ∀ b ∈ (a.next ⟨s, l, s'⟩).bridges,
        (a.next ⟨s, l, s'⟩).exceeded b = true)) ↔ a.concerns s l.1 := by
  rcases attempts_cases hstep h.background with ⟨hsteady, hdecides⟩ | ⟨bridges, hstarts⟩ |
    ⟨hstate, hlabel, hidle, hsteady⟩ | ⟨hstate, bridge, procedure, reply, keep, hlabel, rfl⟩
  · rw [next_of_steady hsteady hdecides]
    refine iff_of_true ⟨hsteady.count.trans hcount, fun hsends => absurd hsends hsteady.quiet⟩ ?_
    intro bridge procedure reply keep hlabel hstate
    exact absurd hstate (hdecides (by rw [hlabel]; rfl))
  · rw [next_of_starts hstarts]
    refine iff_of_true ⟨?_, fun hsends => absurd hsends hstarts.quiet⟩ ?_
    · rw [hstarts.count]
      exact (List.countP_eq_length.mpr fun b _ => rfl).symm
    · intro bridge procedure reply keep _ hstate
      exact absurd hstate hstarts.before
  · rw [next_of_abort hstate hlabel]
    refine iff_of_true ⟨hsteady.count, fun hsends => absurd hsends hsteady.quiet⟩ ?_
    intro bridge procedure reply keep hanswer
    rw [hlabel] at hanswer
    cases hanswer
  · have htaken := taken_of_take (σ := σ) (ω := l.2) bridge procedure keep h hstate
    have hcounted := count_answered h hstate hcount htaken
    rw [next_of_answer hstate hlabel]
    constructor
    · rintro ⟨hright, -⟩ bridge' procedure' reply' keep' hlabel' _ hconcl
      rw [hlabel] at hlabel'
      cases hlabel'
      exact hcounted.mp hright hconcl
    · intro hconcerns
      have hright := hcounted.mpr (hconcerns bridge procedure reply keep hlabel hstate)
      refine ⟨hright, fun hsends b hb => ?_⟩
      obtain ⟨-, hzero, hnot⟩ := htaken.sends hsends
      have hclosed := List.countP_eq_zero.mp (hright.symm.trans hzero) b hb
      have hauthorized : (a.answered bridge (s.heap bridge)).authorized = [] := by
        rw [answered_authorized_eq (h.failed bridge), hnot]
        exact (h.asking hstate).1
      simpa [Attempts.isOpen, hauthorized] using hclosed

theorem tracks_of_run {ts : List (Transition ConnectionFlow (Input × Answers))}
    (h : (machine σ).Run ts s) : Tracks (Attempts.ofRun ts) s := by
  induction h with
  | init h =>
    obtain rfl := h
    exact tracks_init
  | step hrun hstep ih =>
    rw [Attempts.ofRun_concat]
    exact tracks_step hstep ih

/-- The count of a run whose transitions were all counted. -/
theorem count_of_run {ts : List (Transition ConnectionFlow (Input × Answers))}
    (h : (machine σ).Run ts s) (hcounted : Always Counted ts) :
    s.ongoingAuthenticationCount = (Attempts.ofRun ts).remaining := by
  cases h with
  | init h =>
    obtain rfl := h
    rfl
  | step hrun hstep => exact (always_concat.mp hcounted).2.1

/-- **The count of the authentication.** Over every run, `_ongoingAuthenticationCount` is at each
point the number of open bridges of the list, and `ID_FINISH_AUTHORIZING_FAILED` is sent only when all
have failed too often, exactly when every answer that concludes something concerns an open bridge of
the list. In any case the count never grows but by a new list, so that it never wraps. -/
theorem authentication_counted {ts : List (Transition ConnectionFlow (Input × Answers))}
    (h : (machine σ).Run ts s) :
    (∀ t ∈ ts, (t.before.state ≠ .authenticating → t.after.state ≠ .authenticating) →
      t.after.ongoingAuthenticationCount ≤ t.before.ongoingAuthenticationCount) ∧
    (Always Counted ts ↔ Always (fun before t =>
      (Attempts.ofRun before).concerns t.before t.label.1) ts) := by
  refine ⟨fun t ht hno => ?_, ?_⟩
  · obtain ⟨hstep, us, -, hrun⟩ := h.reaches_before ht
    have htracks := tracks_of_run hrun
    rcases attempts_cases hstep htracks.background with ⟨hsteady, -⟩ | ⟨bridges, hstarts⟩ |
      ⟨-, -, -, hsteady⟩ | ⟨hstate, bridge, procedure, reply, keep, -, heq⟩
    · exact hsteady.count.le
    · exact absurd hstarts.state (hno hstarts.before)
    · exact hsteady.count.le.trans (Nat.zero_le _)
    · have htaken := taken_of_take (σ := σ) (ω := t.label.2) bridge procedure keep htracks
        hstate
      obtain ⟨-, -, hpos⟩ := htracks.asking hstate
      rw [heq, htaken.count, sizeDecrement, if_neg (Nat.ne_of_gt hpos)]
      split_ifs <;> omega
  · induction h with
    | init => simp
    | step hrun hstep ih =>
      rw [always_concat, always_concat]
      have hone : Always Counted _ → _ := fun hcounted =>
        counted_step hstep (tracks_of_run hrun) (count_of_run hrun hcounted)
      refine ⟨fun ⟨hcounted, hlast⟩ => ⟨ih.mp hcounted, ?_⟩, fun ⟨hconcerns, hlast⟩ => ?_⟩
      · unfold Counted at hlast
        rw [Attempts.ofRun_concat] at hlast
        exact (hone hcounted).mp hlast
      · have hcounted := ih.mpr hconcerns
        refine ⟨hcounted, ?_⟩
        unfold Counted
        rw [Attempts.ofRun_concat]
        exact (hone hcounted).mpr hlast

/-- A bridge that a search finds. -/
def foundBridge (ipAddress : String) : Bridge where
  ipAddress := ipAddress
  id := "001788"
  modelId := "BSB002"
  isValidIp := true

/-- A new bridge is searched for, one is found and asked, and it has not answered yet. -/
def askingFor (ipAddress : String) (procedure : ℕ) : List (Input × Answers) :=
  [(.connectToNewBridge, {}), (.deliver ⟨.load .search, some procedure⟩ {} false, {}),
    (.deliver ⟨.search, some procedure⟩ { bridges := [foundBridge ipAddress] } false, {})]

set_option maxRecDepth 4000 in
/-- The bridge that is asked is authorized at once. -/
theorem authentication_counted_authorized : ∃ ts s, (machine {}).Run ts s ∧ s.state = .retrieving ∧
    (∀ t ∈ ts, (t.before.state ≠ .authenticating → t.after.state ≠ .authenticating) →
      t.after.ongoingAuthenticationCount ≤ t.before.ongoingAuthenticationCount) ∧
    (Always Counted ts ↔ Always (fun before t =>
      (Attempts.ofRun before).concerns t.before t.label.1) ts) := by
  obtain ⟨ts, s, hrun, hp⟩ := Machine.exists_run (M := machine {}) (s := .init)
    (askingFor "192.168.1.2" 0 ++
      [(.mutate 5 { foundBridge "192.168.1.2" with isAuthorized := true }, ({} : Answers)),
      (.deliver ⟨.authenticate 5, some 0⟩ {} false, {})])
    (fun _ s => s.state = .retrieving) rfl (by decide)
  exact ⟨ts, s, hrun, by simpa using hp, authentication_counted hrun⟩

/-- The last transition reports failure and leaves nobody to be asked, while a bridge of the list is
still open. -/
def givesUpOpenBridge (ts : List (Transition ConnectionFlow (Input × Answers))) : Bool :=
  ts.getLast?.any fun t => t.after.ongoingAuthenticationCount = 0 &&
    ((sent t.after.log).drop (sent t.before.log).length).any
      (fun x => x.message.id = .finishAuthorizingFailed) &&
    (Attempts.ofRun ts).bridges.any (Attempts.ofRun ts).isOpen

/-- An attempt to ask a bridge that fails for want of a valid address, and leads to the next one. -/
def failedAttempt (p : BridgePtr) (procedure : ℕ) : List (Input × Answers) :=
  [(.mutate p {}, {}), (.deliver ⟨.authenticate p, some procedure⟩ {} false, {}),
    (.timer ⟨-1, p, some procedure⟩, {}), (.deliver ⟨.pushLink p, some procedure⟩ {} false, {})]

set_option maxRecDepth 10000 in
/-- A connect is aborted while its bridge is asked, and the next one asks another bridge. The answers
about the first bridge go on and fail: the second one is given up without having been answered for. -/
theorem exists_open_bridge_given_up : ∃ ts s, (machine {}).Run ts s ∧ ∃ before t,
    before ++ [t] <+: ts ∧ t.after.ongoingAuthenticationCount = 0 ∧ SendsFailed t.before t.after ∧
      ∃ b ∈ (Attempts.ofRun (before ++ [t])).bridges,
        (Attempts.ofRun (before ++ [t])).isOpen b = true := by
  obtain ⟨ts, s, hrun, hp⟩ := Machine.exists_run (M := machine {}) (s := .init)
    (askingFor "192.168.1.2" 0 ++ [(.abort, ({} : Answers))] ++ askingFor "192.168.1.3" 1 ++
      failedAttempt 5 0 ++ failedAttempt 5 0 ++ failedAttempt 5 0 ++ (failedAttempt 5 0).take 2)
    (fun ts _ => givesUpOpenBridge ts) rfl (by decide)
  refine ⟨ts, s, hrun, ?_⟩
  simp only [givesUpOpenBridge, Option.any_eq_true, Bool.and_eq_true, decide_eq_true_eq,
    List.any_eq_true] at hp
  obtain ⟨t, hlast, ⟨hzero, x, hx, hid⟩, b, hb, hopen⟩ := hp
  obtain ⟨before, rfl⟩ := List.getLast?_eq_some_iff.mp hlast
  exact ⟨before, t, List.prefix_rfl, hzero, ⟨x, hx, hid⟩, b, hb, hopen⟩

end HueStream.Flow
