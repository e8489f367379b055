import HueStream.Monitor.BridgeStreamingChecker

/-! # What the checks report

A check reports that its bridge has become connected or is no longer, and that the connection for events
may be gone when a successful check has used another port than the one before. The port is compared with
the statics. They are those of the bridge as long as no check of another bridge and no check that failed
has replaced them since. -/

namespace HueStream.Monitor

open HueStream.Data HueStream.Flow HueStream.Lib

variable {σ : BridgeSettings} {v : Statics} {b : Bridge} {c : Completion}

/-! ### The callback -/

/-- The three ways through the callback. -/
theorem reply_cases (hc : c.error ≠ .invalidEventingConnection) :
    (c.error = .success ∧ c.statusCode = 200 ∧ v.portChanged b c.localPort = false ∧
      reply σ v b c = replyConnected σ v b c.localPort) ∨
    (c.error = .success ∧ v.portChanged b c.localPort = true ∧
      reply σ v b c = replyInvalidEventing σ v b c.localPort) ∨
    ((c.error = .success → c.statusCode ≠ 200 ∧ v.portChanged b c.localPort = false) ∧
      reply σ v b c = replyDisconnected σ v b) := by
  unfold reply
  by_cases hsuccess : c.error = .success
  · cases hport : v.portChanged b c.localPort with
    | true => exact .inr (.inl ⟨hsuccess, rfl, by simp [hsuccess]⟩)
    | false =>
      by_cases hstatus : c.statusCode = 200
      · exact .inl ⟨hsuccess, hstatus, rfl, by simp [hsuccess, hstatus]⟩
      · exact .inr (.inr ⟨fun _ => ⟨hstatus, rfl⟩, by simp [hsuccess, hstatus]⟩)
  · exact .inr (.inr ⟨fun h => absurd h hsuccess, by simp [hsuccess, hc]⟩)

theorem bridgeConnected_mem_iff (hc : c.error ≠ .invalidEventingConnection) :
    .bridgeConnected ∈ (reply σ v b c).messages ↔
      c.error = .success ∧ c.statusCode = 200 ∧ v.portChanged b c.localPort = false ∧
        b.isConnected σ = false := by
  rcases reply_cases (σ := σ) (v := v) (b := b) hc with
    ⟨hsuccess, hstatus, hport, hreply⟩ | ⟨hsuccess, hport, hreply⟩ | ⟨hnot, hreply⟩
  · rw [hreply, replyConnected]
    cases b.isConnected σ <;> simp [hsuccess, hstatus, hport]
  · rw [hreply, replyInvalidEventing]
    cases b.isConnected σ <;> simp [hport]
  · rw [hreply, replyDisconnected]
    have hfalse : ¬ (c.error = .success ∧ c.statusCode = 200) := fun h => (hnot h.1).1 h.2
    cases b.isConnected σ <;> cases b.isStreaming σ <;> simp <;> tauto

/-- The messages of a bridge that is lost. -/
theorem bridgeDisconnected_mem (hc : c.error ≠ .invalidEventingConnection)
    (h : .bridgeDisconnected ∈ (reply σ v b c).messages) :
    b.isConnected σ = true ∧
      (b.isStreaming σ = true →
        (reply σ v b c).messages = [.streamingDisconnected, .bridgeDisconnected]) := by
  rcases reply_cases (σ := σ) (v := v) (b := b) hc with
    ⟨-, -, -, hreply⟩ | ⟨-, -, hreply⟩ | ⟨-, hreply⟩
  · rw [hreply, replyConnected] at h
    cases hconnected : b.isConnected σ <;> simp [hconnected] at h
  · rw [hreply, replyInvalidEventing] at h
    cases hconnected : b.isConnected σ <;> simp [hconnected] at h
  · rw [hreply, replyDisconnected] at h ⊢
    cases hconnected : b.isConnected σ with
    | false => simp [hconnected] at h
    | true => exact ⟨rfl, fun hstreaming => by simp [hstreaming]⟩

theorem invalidEventing_mem_iff (hc : c.error ≠ .invalidEventingConnection) :
    .invalidEventingConnection ∈ (reply σ v b c).messages ↔
      c.error = .success ∧ v.portChanged b c.localPort = true ∧ b.isConnected σ = true := by
  rcases reply_cases (σ := σ) (v := v) (b := b) hc with
    ⟨hsuccess, hstatus, hport, hreply⟩ | ⟨hsuccess, hport, hreply⟩ | ⟨hnot, hreply⟩
  · rw [hreply, replyConnected]
    cases b.isConnected σ <;> simp [hport]
  · rw [hreply, replyInvalidEventing]
    cases b.isConnected σ <;> simp [hsuccess, hport]
  · rw [hreply, replyDisconnected]
    have hfalse : ¬ (c.error = .success ∧ v.portChanged b c.localPort = true) :=
      fun h => absurd h.2 (by simp [(hnot h.1).2])
    cases b.isConnected σ <;> cases b.isStreaming σ <;> simp <;> tauto

/-- What the callback does to the bridge is what its messages say. -/
theorem reply_bridge (hc : c.error ≠ .invalidEventingConnection) :
    (.bridgeConnected ∈ (reply σ v b c).messages ∧ (reply σ v b c).bridge.isValidIp = true) ∨
    (.bridgeConnected ∉ (reply σ v b c).messages ∧ .bridgeDisconnected ∈ (reply σ v b c).messages ∧
      (reply σ v b c).bridge.isValidIp = false) ∨
    (.bridgeConnected ∉ (reply σ v b c).messages ∧ .bridgeDisconnected ∉ (reply σ v b c).messages ∧
      (reply σ v b c).bridge = b) := by
  rcases reply_cases (σ := σ) (v := v) (b := b) hc with
    ⟨-, -, -, hreply⟩ | ⟨-, -, hreply⟩ | ⟨-, hreply⟩
  · rw [hreply, replyConnected]
    cases b.isConnected σ <;> simp
  · rw [hreply, replyInvalidEventing]
    cases b.isConnected σ <;> simp
  · rw [hreply, replyDisconnected]
    cases b.isConnected σ <;> cases b.isStreaming σ <;> simp

namespace BridgeStreamingChecker

variable {s : BridgeStreamingChecker} {bridge : BridgePtr}

/-! ### What is said of a check -/

/-- The check is successful, and its port is valid and another than that of the successful check of the
bridge before it. -/
def OtherPort (s : BridgeStreamingChecker) (bridge : BridgePtr) (c : Completion) : Prop :=
  c.error = .success ∧ c.statusCode = 200 ∧ 0 < c.localPort ∧
    ∃ port ∈ s.ports (s.heap bridge).id, port ≠ c.localPort

/-- The messages of a check: connected and disconnected alternate, the stream of a bridge that is lost is
disconnected first, and the connection for events is invalid exactly when a connected bridge was checked
over another port. -/
structure Reports (σ : BridgeSettings) (s : BridgeStreamingChecker) (bridge : BridgePtr)
    (c : Completion) : Prop where
  alternates : ∀ m, m = .bridgeConnected ∨ m = .bridgeDisconnected →
    m ∈ (s.answer σ bridge c).messages → s.lastSent bridge ≠ some m
  streamingFirst : .bridgeDisconnected ∈ (s.answer σ bridge c).messages →
    (s.heap bridge).isStreaming σ = true →
    (s.answer σ bridge c).messages = [.streamingDisconnected, .bridgeDisconnected]
  invalidEventing : .invalidEventingConnection ∈ (s.answer σ bridge c).messages ↔
    (s.heap bridge).isConnected σ = true ∧ OtherPort s bridge c

/-- The statics are right for the check, and the bridge has not become one that cannot be connected. -/
structure Tracked (σ : BridgeSettings) (s : BridgeStreamingChecker) (bridge : BridgePtr)
    (c : Completion) : Prop where
  /-- A port that differs from the one in the statics is valid and comes with the status of success. -/
  valid : c.error = .success → (s.heap bridge).isConnected σ = true →
    (s.statics bridge).portChanged (s.heap bridge) c.localPort = true →
    0 < c.localPort ∧ c.statusCode = 200
  /-- Where the port differs from the one of the bridge, the statics still hold a port of the bridge. -/
  own : (s.heap bridge).isConnected σ = true → OtherPort s bridge c →
    (s.statics bridge).lastBridgeId = (s.heap bridge).id ∧ (s.statics bridge).lastLocalPort ≠ 0
  connectable : c.error = .success → c.statusCode = 200 →
    (s.statics bridge).portChanged (s.heap bridge) c.localPort = false →
    s.lastSent bridge = some .bridgeConnected → (s.heap bridge).isConnectable σ = true

instance : Decidable (OtherPort s bridge c) :=
  inferInstanceAs (Decidable (_ ∧ _ ∧ _ ∧ ∃ port ∈ s.ports (s.heap bridge).id, port ≠ c.localPort))

theorem tracked_iff : Tracked σ s bridge c ↔
    (c.error = .success → (s.heap bridge).isConnected σ = true →
      (s.statics bridge).portChanged (s.heap bridge) c.localPort = true →
      0 < c.localPort ∧ c.statusCode = 200) ∧
    ((s.heap bridge).isConnected σ = true → OtherPort s bridge c →
      (s.statics bridge).lastBridgeId = (s.heap bridge).id ∧ (s.statics bridge).lastLocalPort ≠ 0) ∧
    (c.error = .success → c.statusCode = 200 →
      (s.statics bridge).portChanged (s.heap bridge) c.localPort = false →
      s.lastSent bridge = some .bridgeConnected → (s.heap bridge).isConnectable σ = true) :=
  ⟨fun h => ⟨h.valid, h.own, h.connectable⟩, fun h => ⟨h.1, h.2.1, h.2.2⟩⟩

instance : Decidable (Tracked σ s bridge c) := decidable_of_iff _ tracked_iff.symm

/-- The port in the statics is the one of its bridge, and the last message sent for a bridge says whether
its address is valid. -/
structure Sound (s : BridgeStreamingChecker) : Prop where
  named : s.lastBridgeId = none → s.lastLocalPort = 0
  own : ∀ id, s.lastBridgeId = some id → s.lastLocalPort ≠ 0 → s.ports id = some s.lastLocalPort
  connected : ∀ p, s.lastSent p = some .bridgeConnected → (s.heap p).isValidIp = true
  disconnected : ∀ p, s.lastSent p = some .bridgeDisconnected → (s.heap p).isValidIp = false

theorem portChanged_iff {localPort : ℤ} :
    v.portChanged b localPort = true ↔
      v.lastBridgeId = b.id ∧ v.lastLocalPort ≠ 0 ∧ v.lastLocalPort ≠ localPort := by
  simp [Statics.portChanged, and_assoc]

/-- The port in the statics, under the name of the bridge, is the port of its last successful check. -/
theorem Sound.port_eq (h : Sound s) (hname : (s.statics bridge).lastBridgeId = (s.heap bridge).id)
    (hport : (s.statics bridge).lastLocalPort ≠ 0) :
    s.ports (s.heap bridge).id = some (s.statics bridge).lastLocalPort := by
  cases hid : s.lastBridgeId with
  | none => exact absurd (h.named hid) hport
  | some id =>
    have hname : id = (s.heap bridge).id := by simpa [statics, hid] using hname
    exact hname ▸ h.own id hid hport

/-- The statics ask for the message exactly when the ports of the bridge do. -/
theorem Sound.portChanged_iff_otherPort (h : Sound s) (hT : Tracked σ s bridge c)
    (hsuccess : c.error = .success) (hconnected : (s.heap bridge).isConnected σ = true) :
    (s.statics bridge).portChanged (s.heap bridge) c.localPort = true ↔ OtherPort s bridge c := by
  constructor
  · intro hchanged
    obtain ⟨hvalid, hstatus⟩ := hT.valid hsuccess hconnected hchanged
    obtain ⟨hname, hport, hne⟩ := portChanged_iff.mp hchanged
    exact ⟨hsuccess, hstatus, hvalid, _, h.port_eq hname hport, hne⟩
  · intro hother
    obtain ⟨hname, hport⟩ := hT.own hconnected hother
    obtain ⟨-, -, -, port, hown, hne⟩ := hother
    obtain rfl : (s.statics bridge).lastLocalPort = port :=
      Option.some.inj ((h.port_eq hname hport).symm.trans hown)
    exact portChanged_iff.mpr ⟨hname, hport, hne⟩

theorem isConnected_iff : b.isConnected σ = true ↔ b.isConnectable σ = true ∧ b.isValidIp = true := by
  simp [Bridge.isConnected]

/-! ### One check -/

theorem Sound.reports (h : Sound s) (hc : c.error ≠ .invalidEventingConnection)
    (hT : Tracked σ s bridge c) : Reports σ s bridge c where
  alternates m hm hmem hsent := by
    rcases hm with rfl | rfl
    · obtain ⟨hsuccess, hstatus, hport, hnot⟩ := (bridgeConnected_mem_iff hc).mp hmem
      have hconnected : (s.heap bridge).isConnected σ = true :=
        isConnected_iff.mpr ⟨hT.connectable hsuccess hstatus hport hsent, h.connected bridge hsent⟩
      simp [hconnected] at hnot
    · have hconnected := isConnected_iff.mp (bridgeDisconnected_mem hc hmem).1
      simp [h.disconnected bridge hsent] at hconnected
  streamingFirst hmem := (bridgeDisconnected_mem hc hmem).2
  invalidEventing := by
    rw [answer, invalidEventing_mem_iff hc]
    constructor
    · rintro ⟨hsuccess, hchanged, hconnected⟩
      exact ⟨hconnected, (h.portChanged_iff_otherPort hT hsuccess hconnected).mp hchanged⟩
    · rintro ⟨hconnected, hother⟩
      exact ⟨hother.1, (h.portChanged_iff_otherPort hT hother.1 hconnected).mpr hother, hconnected⟩

/-- A check that reports what it should has met the condition. -/
theorem Reports.tracked (h : Reports σ s bridge c) (hc : c.error ≠ .invalidEventingConnection) :
    Tracked σ s bridge c where
  valid hsuccess hconnected hchanged := by
    have hmem := (invalidEventing_mem_iff (σ := σ) hc).mpr ⟨hsuccess, hchanged, hconnected⟩
    obtain ⟨-, -, hstatus, hvalid, -⟩ := h.invalidEventing.mp hmem
    exact ⟨hvalid, hstatus⟩
  own hconnected hother := by
    have hmem := h.invalidEventing.mpr ⟨hconnected, hother⟩
    obtain ⟨-, hchanged, -⟩ := (invalidEventing_mem_iff hc).mp hmem
    obtain ⟨hname, hport, -⟩ := portChanged_iff.mp hchanged
    exact ⟨hname, hport⟩
  connectable hsuccess hstatus hport hsent := by
    by_contra hnot
    have hconnected : (s.heap bridge).isConnected σ = false := by
      rw [Bool.eq_false_iff]
      exact fun hcon => hnot (isConnected_iff.mp hcon).1
    exact h.alternates _ (.inl rfl)
      ((bridgeConnected_mem_iff hc).mpr ⟨hsuccess, hstatus, hport, hconnected⟩) hsent

/-! ### Over a run -/

/-- What the callback leaves in the statics: its port, under the name of the bridge, if it was valid in a
check that was a success, else the statics as they were or without a port. -/
theorem reply_statics (hc : c.error ≠ .invalidEventingConnection) :
    (c.error = .success ∧ c.statusCode = 200 ∧ 0 < c.localPort ∧
      (reply σ v b c).statics = { lastLocalPort := c.localPort, lastBridgeId := b.id }) ∨
    (¬ (c.error = .success ∧ c.statusCode = 200 ∧ 0 < c.localPort) ∧ (reply σ v b c).statics = v) ∨
    (reply σ v b c).statics = { v with lastLocalPort := 0 } ∨
    (c.error = .success ∧ v.portChanged b c.localPort = true ∧ b.isConnected σ = true ∧
      ¬ (0 < c.localPort ∧ c.statusCode = 200)) := by
  rcases reply_cases (σ := σ) (v := v) (b := b) hc with
    ⟨hsuccess, hstatus, hport, hreply⟩ | ⟨hsuccess, hport, hreply⟩ | ⟨hnot, hreply⟩
  · rw [hreply, replyConnected]
    by_cases hvalid : 0 < c.localPort
    · refine .inl ⟨hsuccess, hstatus, hvalid, ?_⟩
      split_ifs <;> rfl
    · refine .inr (.inl ⟨fun h => hvalid h.2.2, ?_⟩)
      split_ifs <;> rfl
  · rw [hreply, replyInvalidEventing]
    cases hconnected : b.isConnected σ with
    | false => exact .inr (.inr (.inl rfl))
    | true =>
      by_cases hgood : 0 < c.localPort ∧ c.statusCode = 200
      · refine .inl ⟨hsuccess, hgood.2, hgood.1, ?_⟩
        have hname := (BridgeStreamingChecker.portChanged_iff.mp hport).1
        simp [hgood.1, ← hname]
      · exact .inr (.inr (.inr ⟨hsuccess, hport, rfl, hgood⟩))
  · rw [hreply, replyDisconnected]
    refine .inr (.inr (.inl ?_))
    split_ifs <;> rfl

/-- The last message of a bridge is an old one, and its flag is as before, or the check has sent it. -/
theorem lastSent_completes (hc : c.error ≠ .invalidEventingConnection) {p : BridgePtr} {m : MessageId}
    (hsent : (s.completes σ bridge c).lastSent p = some m) :
    (s.lastSent p = some m ∧
      ((s.completes σ bridge c).heap p).isValidIp = (s.heap p).isValidIp) ∨
    (m = .bridgeConnected ∧ ((s.completes σ bridge c).heap p).isValidIp = true) ∨
    (m = .bridgeDisconnected ∧ ((s.completes σ bridge c).heap p).isValidIp = false) := by
  have hflag : (.bridgeConnected ∈ (s.answer σ bridge c).messages ∧
      (s.answer σ bridge c).bridge.isValidIp = true) ∨
    (.bridgeConnected ∉ (s.answer σ bridge c).messages ∧
      .bridgeDisconnected ∈ (s.answer σ bridge c).messages ∧
      (s.answer σ bridge c).bridge.isValidIp = false) ∨
    (.bridgeConnected ∉ (s.answer σ bridge c).messages ∧
      .bridgeDisconnected ∉ (s.answer σ bridge c).messages ∧
      (s.answer σ bridge c).bridge = s.heap bridge) := reply_bridge hc
  simp only [BridgeStreamingChecker.completes, lastSentAfter] at hsent ⊢
  by_cases hp : p = bridge
  · subst hp
    rw [Function.update_self]
    rcases hflag with ⟨hcon, hvalid⟩ | ⟨hcon, hdis, hvalid⟩ | ⟨hcon, hdis, hsame⟩
    · rw [if_pos hcon, Function.update_self] at hsent
      exact .inr (.inl ⟨(Option.some.inj hsent).symm, hvalid⟩)
    · rw [if_neg hcon, if_pos hdis, Function.update_self] at hsent
      exact .inr (.inr ⟨(Option.some.inj hsent).symm, hvalid⟩)
    · rw [if_neg hcon, if_neg hdis] at hsent
      exact .inl ⟨hsent, by rw [hsame]⟩
  · rw [Function.update_of_ne hp]
    refine .inl ⟨?_, rfl⟩
    split_ifs at hsent
    · rwa [Function.update_of_ne hp] at hsent
    · rwa [Function.update_of_ne hp] at hsent
    · exact hsent

theorem Sound.completes (h : Sound s) (hc : c.error ≠ .invalidEventingConnection)
    (hT : Tracked σ s bridge c) : Sound (s.completes σ bridge c) where
  named hnone := by simp [BridgeStreamingChecker.completes] at hnone
  own id hid hport := by
    simp only [BridgeStreamingChecker.completes, Option.some.injEq] at hid hport ⊢
    unfold answer at hid hport ⊢
    rcases reply_statics (σ := σ) (v := s.statics bridge) (b := s.heap bridge) hc with
      ⟨hsuccess, hstatus, hvalid, hstatics⟩ | ⟨hnot, hstatics⟩ | hstatics |
      ⟨hsuccess, hchanged, hconnected, hbad⟩
    · rw [hstatics] at hid ⊢
      obtain rfl := hid
      rw [portsAfter, if_pos ⟨hsuccess, hstatus, hvalid⟩, Function.update_self]
    · rw [hstatics] at hid hport ⊢
      rw [portsAfter, if_neg hnot]
      cases hname : s.lastBridgeId with
      | none => exact absurd (h.named hname) hport
      | some id' =>
        obtain rfl : id' = id := by simpa [statics, hname] using hid
        exact h.own id' hname hport
    · rw [hstatics] at hport
      exact absurd rfl hport
    · exact absurd (hT.valid hsuccess hconnected hchanged) hbad
  connected p hsent := by
    rcases lastSent_completes hc hsent with ⟨hold, hsame⟩ | ⟨-, hvalid⟩ | ⟨hm, -⟩
    · rw [hsame, h.connected p hold]
    · exact hvalid
    · cases hm
  disconnected p hsent := by
    rcases lastSent_completes hc hsent with ⟨hold, hsame⟩ | ⟨hm, -⟩ | ⟨-, hvalid⟩
    · rw [hsame, h.disconnected p hold]
    · cases hm
    · exact hvalid

/-- Something else changes the bridge: either its flag is as before, or what was sent no longer counts. -/
theorem Sound.changes (h : Sound s) (newBridge : Bridge) : Sound (s.changes bridge newBridge) := by
  have hflag : ∀ p m, (s.changes bridge newBridge).lastSent p = some m → s.lastSent p = some m ∧
      ((s.changes bridge newBridge).heap p).isValidIp = (s.heap p).isValidIp := by
    intro p m hsent
    simp only [BridgeStreamingChecker.changes] at hsent ⊢
    by_cases hp : p = bridge
    · subst hp
      rw [Function.update_self]
      split_ifs at hsent with hsame
      · exact ⟨hsent, hsame⟩
      · rw [Function.update_self] at hsent
        cases hsent
    · rw [Function.update_of_ne hp]
      split_ifs at hsent
      · exact ⟨hsent, rfl⟩
      · rw [Function.update_of_ne hp] at hsent
        exact ⟨hsent, rfl⟩
  refine ⟨h.named, h.own, fun p hsent => ?_, fun p hsent => ?_⟩
  · obtain ⟨hold, hsame⟩ := hflag p _ hsent
    rw [hsame, h.connected p hold]
  · obtain ⟨hold, hsame⟩ := hflag p _ hsent
    rw [hsame, h.disconnected p hold]

/-- The condition, for the steps that are the end of a check. -/
def TrackedStep (σ : BridgeSettings) (s : BridgeStreamingChecker) (l : CheckLabel) : Prop :=
  ∀ bridge c, l = .completes bridge c → Tracked σ s bridge c

/-- What is said of a check, for the steps that are the end of one. -/
def ReportsStep (σ : BridgeSettings) (t : Transition BridgeStreamingChecker CheckLabel) : Prop :=
  ∀ bridge c, t.label = .completes bridge c → Reports σ t.before bridge c

instance (l : CheckLabel) : Decidable (TrackedStep σ s l) :=
  match l with
  | .check _ => .isTrue fun _ _ h => nomatch h
  | .completes bridge c =>
    decidable_of_iff (Tracked σ s bridge c)
      ⟨fun h _ _ heq => by cases heq; exact h, fun h => h bridge c rfl⟩
  | .expires _ => .isTrue fun _ _ h => nomatch h
  | .changes _ _ => .isTrue fun _ _ h => nomatch h

theorem Sound.step (h : Sound s) {l : CheckLabel} {s' : BridgeStreamingChecker}
    (hs : step σ s l = some s') (hT : TrackedStep σ s l) : Sound s' := by
  cases l with
  | check bridge =>
    have hsame : s'.lastBridgeId = s.lastBridgeId ∧ s'.lastLocalPort = s.lastLocalPort ∧
        s'.ports = s.ports ∧ s'.lastSent = s.lastSent ∧ s'.heap = s.heap := by
      simp only [BridgeStreamingChecker.step] at hs
      split_ifs at hs <;> obtain rfl := Option.some.inj hs <;> exact ⟨rfl, rfl, rfl, rfl, rfl⟩
    obtain ⟨hid, hport, hports, hsent, hheap⟩ := hsame
    exact ⟨by rw [hid, hport]; exact h.named, by rw [hid, hport, hports]; exact h.own,
      by rw [hsent, hheap]; exact h.connected, by rw [hsent, hheap]; exact h.disconnected⟩
  | completes bridge c =>
    obtain ⟨⟨-, hc⟩, rfl⟩ := by simpa [BridgeStreamingChecker.step] using hs
    exact h.completes hc (hT bridge c rfl)
  | expires bridge =>
    obtain ⟨-, rfl⟩ := by simpa [BridgeStreamingChecker.step] using hs
    exact ⟨h.named, h.own, h.connected, h.disconnected⟩
  | changes bridge newBridge =>
    obtain rfl := Option.some.inj hs
    exact h.changes newBridge

/-- **When the checks report what they should.** In every run of checks of any bridges, all checks report
what they should exactly when the statics are right for every one of them, and no bridge of which
connected was the last message has become one that cannot be connected. -/
theorem reports_iff_tracked (σ : BridgeSettings)
    {ts : List (Transition BridgeStreamingChecker CheckLabel)} (hrun : (checker σ).Run ts s) :
    (∀ t ∈ ts, ReportsStep σ t) ↔ ∀ t ∈ ts, TrackedStep σ t.before t.label := by
  refine hrun.forall_iff (I := Sound) ?_ (fun s l s' hs hC h => h.step hs hC) fun s l s' hs h => ?_
  · rintro s ⟨heap, rfl⟩
    exact ⟨fun _ => rfl, by simp, by simp, by simp⟩
  · constructor
    · rintro hreports bridge c rfl
      obtain ⟨⟨-, hc⟩, -⟩ := by simpa [checker, BridgeStreamingChecker.step] using hs
      exact (hreports bridge c rfl).tracked hc
    · rintro hT bridge c hl
      obtain rfl : l = .completes bridge c := hl
      obtain ⟨⟨-, hc⟩, -⟩ := by simpa [checker, BridgeStreamingChecker.step] using hs
      exact h.reports hc (hT bridge c rfl)

/-! ### Examples -/

/-- Bridges of the second version with the number as their id. -/
def exampleHeap (p : BridgePtr) : Bridge :=
  { id := toString p, ipAddress := "192.168.1.2", user := "u", isAuthorized := true,
    modelId := "BSB002", swversion := "1948086000" }

/-- The check that a step ends. -/
def ended (t : Transition BridgeStreamingChecker CheckLabel) : Option (BridgePtr × Completion) :=
  match t.label with
  | .completes bridge c => some (bridge, c)
  | _ => none

theorem label_eq_of_ended {t : Transition BridgeStreamingChecker CheckLabel}
    (h : ended t = some (bridge, c)) : t.label = .completes bridge c := by
  unfold ended at h
  split at h
  · next hl =>
    obtain ⟨rfl, rfl⟩ := by simpa using h
    exact hl
  · cases h

/-- Connected, over another port, and lost. -/
theorem reports_example :
    ∃ ts s, (checker {}).Run ts s ∧ (∀ t ∈ ts, ReportsStep {} t) ∧
      ts.filterMap (fun t => (ended t).map fun check =>
        (t.before.answer {} check.1 check.2).messages) =
        [[.bridgeConnected], [.invalidEventingConnection], [.bridgeDisconnected]] := by
  obtain ⟨ts, s, hrun, h⟩ := Machine.exists_run (M := checker {}) (s := { heap := exampleHeap })
    [.check 0, .completes 0 ⟨.success, 200, 5⟩, .check 0, .completes 0 ⟨.success, 200, 7⟩, .check 0,
      .completes 0 ⟨.timeout, 0, 0⟩]
    (fun ts _ => decide (ts.filterMap (fun t => (ended t).map fun check =>
        (t.before.answer {} check.1 check.2).messages) =
        [[.bridgeConnected], [.invalidEventingConnection], [.bridgeDisconnected]]) &&
      ts.all fun t => decide (TrackedStep {} t.before t.label)) ⟨_, rfl⟩ (by decide +kernel)
  simp only [Bool.and_eq_true, decide_eq_true_eq, List.all_eq_true] at h
  exact ⟨ts, s, hrun, (reports_iff_tracked {} hrun).mpr h.2, h.1⟩

/-- A check that has not met the condition does not report what it should. -/
theorem exists_not_reports_of_run (ls : List CheckLabel) (bridge : BridgePtr) (c : Completion)
    (hc : c.error ≠ .invalidEventingConnection)
    (h : ((checker {}).trail { heap := exampleHeap } ls).any (fun r => r.1.any fun t =>
      decide (ended t = some (bridge, c) ∧ ¬ Tracked {} t.before bridge c)) = true) :
    ∃ ts s, (checker {}).Run ts s ∧ ∃ t ∈ ts, t.label = .completes bridge c ∧ ¬ ReportsStep {} t := by
  obtain ⟨ts, s, hrun, h⟩ := Machine.exists_run (M := checker {}) (s := { heap := exampleHeap }) ls
    (fun ts _ => ts.any fun t => decide (ended t = some (bridge, c) ∧ ¬ Tracked {} t.before bridge c))
    ⟨_, rfl⟩ h
  obtain ⟨t, ht, h⟩ := List.any_eq_true.mp h
  obtain ⟨hended, hnot⟩ := of_decide_eq_true h
  have hlabel := label_eq_of_ended hended
  exact ⟨ts, s, hrun, t, ht, hlabel, fun hreports => hnot ((hreports bridge c hlabel).tracked hc)⟩

/-- A check of another bridge hides that the port has changed, and a port of 0 counts as a change. -/
theorem exists_not_reports :
    (∃ ts s, (checker {}).Run ts s ∧
      ∃ t ∈ ts, t.label = .completes 0 ⟨.success, 200, 7⟩ ∧ ¬ ReportsStep {} t) ∧
    ∃ ts s, (checker {}).Run ts s ∧
      ∃ t ∈ ts, t.label = .completes 0 ⟨.success, 200, 0⟩ ∧ ¬ ReportsStep {} t :=
  ⟨exists_not_reports_of_run [.check 0, .completes 0 ⟨.success, 200, 5⟩, .check 1,
      .completes 1 ⟨.success, 200, 9⟩, .check 0, .completes 0 ⟨.success, 200, 7⟩] 0 _ (by decide)
      (by decide +kernel),
    exists_not_reports_of_run [.check 0, .completes 0 ⟨.success, 200, 5⟩, .check 0,
      .completes 0 ⟨.success, 200, 0⟩] 0 _ (by decide) (by decide +kernel)⟩

end BridgeStreamingChecker

end HueStream.Monitor
