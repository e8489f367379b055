import HueStream.Streaming.Starting
import HueStream.Streaming.Stream

/-! # Sessions that are stopped

A stream that is running has one session, that of its copy. It is sent a stop when the stream stops,
unless the bridge by which the stop is decided does not count as streaming: the one that is passed to
`Stop`, when it is the same as the copy, or the copy itself. -/

namespace HueStream.Streaming

open HueStream.Data HueStream.Lib

variable {ε : Context} {s s' : Stream} {b b' bridge copy : Bridge} {c : Call} {l : Label}
  {answer answer' : HttpAnswer} {shared : Bool} {ts : List (Transition Stream Label)}

/-! ### What is promised -/

/-- After a call: a running stream has its copy; a start that has failed leaves nothing running; one with
a thread that has succeeded is served by one; and a stream that is not running has left no session. -/
structure Promised (l : Label) (s : Stream) : Prop where
  copy : s.running = true → s.activeBridgeCopy.isSome = true
  failed : s.result = some false → s.running = false
  thread : ∀ c, l = .startWithRenderThread c → s.result = some true → s.running = true ∧ s.threads = 1
  stopped : s.running = false → s.sessions = []

/-! ### Where it is kept -/

/-- The copy of a running stream counts as streaming. -/
def Stream.stopsCopy (ε : Context) (s : Stream) : Bool :=
  !s.running || s.activeBridgeCopy.any (·.isStreaming ε.settings)

/-- The answers to the activation end with a success, and one before has made the bridge count as not
connected; and no attempt to connect succeeds. -/
def Call.losesSession (ε : Context) (c : Call) : Bool :=
  (verdicts ε c.bridge c.activation).getLast? = some .ok &&
    (verdicts ε c.bridge c.activation).any (fun v => v = .unreachable || v = .unauthorized) &&
    !(c.connects.take 5).any id

/-- A start has no thread to make for a stream that is running without one; or it can stop the stream
that is running, and stop the new one if it cannot connect. -/
def Stream.startKeeps (ε : Context) (s : Stream) (c : Call) (threaded : Bool) : Bool :=
  if s.isStreamingToBridgeAndGroup c.bridge then !threaded || s.renderThread
  else s.stopsCopy ε && !c.losesSession ε

/-- The steps that keep the promises. -/
def keepsSessions (ε : Context) (s : Stream) : Label → Bool
  | .start c => s.startKeeps ε c false
  | .startWithRenderThread c => s.startKeeps ε c true
  | .stop _ => s.stopsCopy ε
  | .stopBridge bridge shared _ _ => !s.running ||
      !s.activeBridgeCopy.any (fun copy => isSameBridgeAndGroup copy bridge) ||
      (s.toBridge shared bridge).isStreaming ε.settings
  | .groups _ => true

/-! ### Bridges -/

/-- A choice that comes out as something else than its first part. -/
theorem of_ite_eq {α : Type} {c : Prop} [Decidable c] {x y z : α} (h : (if c then x else y) = z)
    (hne : x ≠ z) : ¬ c ∧ y = z := by
  by_cases hc : c
  · rw [if_pos hc] at h
    exact absurd h hne
  · rw [if_neg hc] at h
    exact ⟨hc, h⟩

/-- A bridge that was ready and has its group activated counts as streaming. -/
theorem isStreaming_of_ready {σ : BridgeSettings} {g : Group} (groups : List Group)
    (h : b.isReadyToStream σ = true)
    (hb : b' = { b with groups, isBusy := false }) (hg : g ∈ b'.getGroup) (hactive : g.active = true)
    (howner : g.owner = b'.appId) : b'.isStreaming σ = true := by
  have hgroups : groups.length ≠ 0 := by
    intro hnil
    obtain rfl := List.length_eq_zero_iff.mp hnil
    rw [hb] at hg
    cases hg
  have hstatus : b.getStatus σ = .ready := of_decide_eq_true h
  unfold Bridge.getStatus at hstatus
  obtain ⟨h₁, hstatus⟩ := of_ite_eq hstatus (by decide)
  obtain ⟨h₂, hstatus⟩ := of_ite_eq hstatus (by decide)
  obtain ⟨h₃, hstatus⟩ := of_ite_eq hstatus (by decide)
  obtain ⟨h₄, hstatus⟩ := of_ite_eq hstatus (by decide)
  obtain ⟨h₅, hstatus⟩ := of_ite_eq hstatus (by decide)
  obtain ⟨h₆, hstatus⟩ := of_ite_eq hstatus (by decide)
  obtain ⟨h₇, -⟩ := of_ite_eq hstatus (by decide)
  have hstreaming : b'.getStatus σ = .streaming := by
    unfold Bridge.getStatus
    rw [show b'.getGroup = some g from hg]
    subst hb
    rw [if_neg (by exact h₁), if_neg (by exact h₂), if_neg (by exact h₃), if_neg (by exact h₄),
      if_neg (by exact h₅), if_neg (by exact h₆), if_neg (by exact h₇), if_neg hgroups]
    simp [hactive, howner]
  exact decide_eq_true hstreaming

/-! ### Requests -/

theorem note_of_noActivation {ipAddress : String} {rs : List Request} (h : NoActivation rs) :
    rs.foldl (Request.note ipAddress) [] = [] := by
  induction rs with
  | nil => rfl
  | cons r rs ih =>
    have hr : Request.note ipAddress [] r = [] := by
      unfold Request.note
      by_cases hactivate : r.activate = true
      · rw [if_pos hactivate, if_neg (h r List.mem_cons_self hactivate)]
      · rw [if_neg hactivate]
        rfl
    rw [List.foldl_cons, hr]
    exact ih fun r' hr' => h r' (List.mem_cons_of_mem _ hr')

/-- `StreamStarter::Stop` stops the session of the bridge, which keeps its address, and its selected
group. -/
theorem starterStop_eq {p : Stream × Bridge} (h : s.starterStop ε b answer = some p) :
    p.1 = { s with sessions := s.sessions.filter (· ≠ ⟨b.ipAddress, b.selectedGroup⟩) } ∧
    p.2.isSupportingClipV2 ε.settings = b.isSupportingClipV2 ε.settings := by
  unfold Stream.starterStop at h
  cases hstop : (Exchange.mk b [answer] []).stop ε with
  | error failure =>
    rw [hstop] at h
    cases h
  | ok e =>
    rw [hstop] at h
    obtain rfl := Option.some.inj h
    unfold Exchange.stop at hstop
    cases hexecute : (Exchange.mk b [answer] []).execute ε false with
    | error failure =>
      rw [hexecute] at hstop
      cases hstop
    | ok result =>
      obtain ⟨ok, e₁⟩ := result
      rw [hexecute] at hstop
      obtain ⟨r, v, ⟨hid, hactivate, -⟩, hmoves, -, -⟩ := executeUrl_ok hexecute
      obtain ⟨hrequests, hclip⟩ : e.requests = [r] ∧
          e.useClipV2 ε = (Exchange.mk b [answer] []).useClipV2 ε := by
        have hrequests : e₁.requests = [r] := hmoves.requests
        have hclip := hmoves.useClipV2
        change (if (ok && e₁.bridge.isValidGroupSelected) = true then _ else _) = _ at hstop
        split_ifs at hstop
        · obtain rfl := Except.ok.inj hstop
          exact ⟨hrequests, hclip⟩
        · obtain rfl := Except.ok.inj hstop
          exact ⟨hrequests, hclip⟩
      refine ⟨?_, hclip⟩
      rw [hrequests, List.foldl_cons, List.foldl_nil, Request.note, if_neg (by simp [hactivate]), hid]

/-! ### The invariant -/

/-- The stream is stopped. -/
structure Idle (s : Stream) : Prop where
  running : s.running = false
  sessions : s.sessions = []
  renderThread : s.renderThread = false
  threads : s.threads = 0

/-- The stream runs on its copy, and no other session is open. -/
structure Serving (s : Stream) (copy : Bridge) : Prop where
  running : s.running = true
  activeBridgeCopy : s.activeBridgeCopy = some copy
  sessions : ∀ x ∈ s.sessions, x = ⟨copy.ipAddress, copy.selectedGroup⟩
  threads : s.threads = s.renderThread.toNat

def Invariant (s : Stream) : Prop := Idle s ∨ ∃ copy, Serving s copy

theorem idle_init : Idle {} := ⟨rfl, rfl, rfl, rfl⟩

theorem Idle.toCopy (h : Idle s) (shared : Bool) (b : Bridge) : Idle (s.toCopy shared b) := by
  cases shared with
  | true => exact ⟨h.running, h.sessions, h.renderThread, h.threads⟩
  | false => exact h

/-- Another stop leaves a stopped stream stopped. -/
theorem Idle.starterStop {p : Stream × Bridge} (h : Idle s) (hp : s.starterStop ε b answer = some p) :
    Idle p.1 := by
  obtain ⟨heq, -⟩ := starterStop_eq hp
  rw [heq]
  refine ⟨h.running, ?_, h.renderThread, h.threads⟩
  show s.sessions.filter _ = []
  rw [h.sessions, List.filter_nil]

theorem Serving.filter_sessions (h : Serving s copy) :
    s.sessions.filter (· ≠ ⟨copy.ipAddress, copy.selectedGroup⟩) = [] := by
  rw [List.filter_eq_nil_iff]
  intro x hx
  simp [h.sessions x hx]

theorem Serving.threads_sub (h : Serving s copy) : s.threads - s.renderThread.toNat = 0 := by
  rw [h.threads, Nat.sub_self]

theorem Serving.stopsCopy_iff (h : Serving s copy) :
    s.stopsCopy ε = true ↔ copy.isStreaming ε.settings = true := by
  simp [Stream.stopsCopy, h.running, h.activeBridgeCopy]

/-- The stop of its session, after the thread is joined. -/
theorem Serving.starterStop {p : Stream × Bridge} (h : Serving s copy)
    (hsession : (⟨b.ipAddress, b.selectedGroup⟩ : Session) = ⟨copy.ipAddress, copy.selectedGroup⟩)
    (hp : s.halt.starterStop ε b answer = some p) : Idle p.1 := by
  obtain ⟨heq, -⟩ := starterStop_eq hp
  rw [heq, hsession]
  exact ⟨rfl, h.filter_sessions, rfl, h.threads_sub⟩

theorem Invariant.stop (hI : Invariant s) (hc : s.stopsCopy ε = true)
    (h : s.stop ε answer = some s') : Idle s' := by
  unfold Stream.stop at h
  rcases hI with hidle | ⟨copy, hserving⟩
  · rw [hidle.running] at h
    obtain rfl := Option.some.inj h
    exact hidle
  · simp only [hserving.running, hserving.activeBridgeCopy, hserving.stopsCopy_iff.mp hc, Bool.not_true,
      Bool.false_eq_true, if_false, if_true, Option.map_eq_some_iff] at h
    obtain ⟨p, hp, rfl⟩ := h
    obtain ⟨hrunning, hsessions, hthread, hthreads⟩ := hserving.starterStop rfl hp
    exact ⟨hrunning, hsessions, hthread, hthreads⟩

/-- The same bridge and group have the same session. -/
theorem session_toBridge (h : isSameBridgeAndGroup copy bridge = true) :
    (⟨(s.toBridge shared bridge).ipAddress, (s.toBridge shared bridge).selectedGroup⟩ : Session) =
      ⟨copy.ipAddress, copy.selectedGroup⟩ := by
  have hkept : (s.toBridge shared bridge).ipAddress = bridge.ipAddress ∧
      (s.toBridge shared bridge).selectedGroup = bridge.selectedGroup := by
    unfold Stream.toBridge
    cases s.activeBridgeCopy with
    | none => exact ⟨rfl, rfl⟩
    | some copy => cases shared <;> exact ⟨rfl, rfl⟩
  simp only [isSameBridgeAndGroup, Bool.and_eq_true, decide_eq_true_eq] at h
  rw [hkept.1, hkept.2, h.1.2, h.2]

theorem Invariant.stopBridge (hI : Invariant s)
    (hc : keepsSessions ε s (.stopBridge bridge shared answer answer') = true)
    (h : s.stopBridge ε bridge shared answer answer' = some s') : Idle s' := by
  unfold Stream.stopBridge at h
  rcases hI with hidle | ⟨copy, hserving⟩
  · rw [hidle.running] at h
    obtain rfl := Option.some.inj h
    exact hidle
  · simp only [hserving.running, hserving.activeBridgeCopy, Bool.not_true, Bool.false_eq_true,
      if_false] at h
    by_cases hsame : isSameBridgeAndGroup copy bridge = true
    · have hstreaming : (s.toBridge shared bridge).isStreaming ε.settings = true := by
        simpa [keepsSessions, hserving.running, hserving.activeBridgeCopy, hsame] using hc
      rw [if_pos hsame, Option.bind_eq_bind, Option.bind_some] at h
      change (if (s.toBridge shared bridge).isStreaming ε.settings = true then _ else _) = _ at h
      rw [if_pos hstreaming] at h
      obtain ⟨p, hp, hs'⟩ := Option.bind_eq_some_iff.mp h
      obtain rfl := Option.some.inj hs'
      exact (hserving.starterStop (session_toBridge hsame) hp).toCopy _ _
    · rw [if_neg hsame] at h
      obtain ⟨s₁, hs₁, h⟩ := Option.bind_eq_some_iff.mp h
      obtain ⟨p, hp, rfl⟩ := Option.map_eq_some_iff.mp hs₁
      obtain ⟨hrunning, hsessions, hthread, hthreads⟩ := hserving.starterStop rfl hp
      have hidle : Idle { p.1 with activeBridgeCopy := some p.2 } :=
        ⟨hrunning, hsessions, hthread, hthreads⟩
      split_ifs at h
      · obtain ⟨p', hp', hs'⟩ := Option.bind_eq_some_iff.mp h
        obtain rfl := Option.some.inj hs'
        exact (hidle.starterStop hp').toCopy _ _
      · obtain rfl := Option.some.inj h
        exact hidle

/-! ### Starts -/

/-- The requests of a call that returns open the session of the bridge exactly when it succeeds. -/
theorem Returned.sessions {answers : List HttpAnswer} {result : Bool} {e : Exchange}
    (h : Returned ε b answers result e) : e.requests.foldl (Request.note b.ipAddress) [] =
      if result = true then [⟨b.ipAddress, b.selectedGroup⟩] else [] := by
  obtain ⟨rs, r, hrequests, hrs, ⟨hid, hactivate, -⟩, rfl⟩ := h.requests
  rw [hrequests, List.foldl_append, note_of_noActivation hrs, List.foldl_cons, List.foldl_nil,
    Request.note, if_pos hactivate, hid]
  simp

/-- The bridge of a call that succeeds counts as streaming, if it was ready and no answer has made it
count as not connected. -/
theorem Returned.isStreaming {answers : List HttpAnswer} {e : Exchange}
    (h : Returned ε b answers true e) (hready : b.isReadyToStream ε.settings = true)
    (hall : (verdicts ε b answers).any (fun v => v = .unreachable || v = .unauthorized) = false) :
    e.bridge.isStreaming ε.settings = true := by
  obtain ⟨hidle, g, hg, hactive, howner⟩ := h.active rfl
  obtain ⟨groups, isBusy, hbridge⟩ := h.bridge
  refine isStreaming_of_ready groups hready ?_ hg hactive howner
  simp only [List.any_eq_false, Bool.or_eq_true, decide_eq_true_eq, not_or] at hall
  have hreachable : (verdicts ε b answers).all (· ≠ .unreachable) = true := by
    rw [List.all_eq_true]
    exact fun v hv => decide_eq_true (hall v hv).1
  have hauthorized : (verdicts ε b answers).all (· ≠ .unauthorized) = true := by
    rw [List.all_eq_true]
    exact fun v hv => decide_eq_true (hall v hv).2
  rw [hreachable, hauthorized, Bool.and_true, Bool.and_true] at hbridge
  rw [hbridge] at hidle
  obtain rfl : isBusy = false := hidle
  exact hbridge

/-- After a successful activation the stream serves the copy of the bridge. -/
theorem serving_started {started : Bool} {e : Exchange} (hidle : Idle s)
    (hstart : (Exchange.mk bridge c.activation []).startStream ε c.overrideLevel = .ok (started, e))
    (hanswers : e.answers = []) (hstarted : started = true) :
    Serving { s with
      sessions := e.requests.foldl (Request.note bridge.ipAddress) s.sessions
      activeBridgeCopy := some e.bridge, running := true } e.bridge := by
  have hreturned := startStream_returned hstart hanswers
  refine ⟨rfl, rfl, fun x hx => ?_, ?_⟩
  · have hsessions : e.requests.foldl (Request.note bridge.ipAddress) s.sessions =
        [⟨bridge.ipAddress, bridge.selectedGroup⟩] := by
      rw [hidle.sessions, hreturned.sessions, if_pos hstarted]
    change x ∈ e.requests.foldl (Request.note bridge.ipAddress) s.sessions at hx
    rw [hsessions] at hx
    obtain rfl := List.mem_singleton.mp hx
    obtain ⟨groups, isBusy, hbridge⟩ := hreturned.bridge
    rw [hbridge]
  · rw [hidle.threads, hidle.renderThread]
    rfl

/-- A session of a bridge that is ready is opened, with no other one open; or it is not activated, or
stopped when nothing connects. -/
theorem startStreamingSession_cases (hidle : Idle s) (hready : bridge.isReadyToStream ε.settings = true)
    (hclip : bridge.isSupportingClipV2 ε.settings = c.bridge.isSupportingClipV2 ε.settings)
    (hlose : c.losesSession ε = false) (h : s.startStreamingSession ε c bridge = some s') :
    (s'.result = some true ∧ s'.renderThread = false ∧ ∃ copy, Serving s' copy) ∨
    (s'.result = some false ∧ Idle s') := by
  unfold Stream.startStreamingSession at h
  cases hstart : (Exchange.mk bridge c.activation []).startStream ε c.overrideLevel with
  | error failure =>
    rw [hstart] at h
    cases h
  | ok p =>
    obtain ⟨started, e⟩ := p
    simp only [hstart] at h
    split_ifs at h with hanswers hstarted hconnect
    · have hreturned := startStream_returned hstart (by simpa using hanswers)
      have hfalse : started = false := by simpa using hstarted
      obtain rfl := Option.some.inj h
      have hsessions := hreturned.sessions
      rw [hfalse, if_neg Bool.false_ne_true, ← hidle.sessions] at hsessions
      have hstopped : Idle { s with sessions := e.requests.foldl (Request.note bridge.ipAddress) s.sessions } :=
        ⟨hidle.running, hsessions.trans hidle.sessions, hidle.renderThread, hidle.threads⟩
      obtain ⟨h₁, h₂, h₃, h₄⟩ := hstopped.toCopy c.shared e.bridge
      exact .inr ⟨rfl, h₁, h₂, h₃, h₄⟩
    · obtain rfl := Option.some.inj h
      obtain ⟨hrunning, hcopy, hsessions, hthreads⟩ :=
        serving_started hidle hstart (by simpa using hanswers) (by simpa using hstarted)
      exact .inl ⟨rfl, hidle.renderThread, e.bridge, hrunning, hcopy, hsessions, hthreads⟩
    · have hserving := serving_started hidle hstart (by simpa using hanswers) (by simpa using hstarted)
      obtain ⟨s₂, hs₂, rfl⟩ := Option.map_eq_some_iff.mp h
      have hreturned := startStream_returned hstart (by simpa using hanswers)
      obtain rfl : started = true := by simpa using hstarted
      -- The stop is sent because none of the answers has made the copy count as not connected.
      have hall : (verdicts ε bridge c.activation).any
          (fun v => v = .unreachable || v = .unauthorized) = false := by
        have hverdicts : verdicts ε c.bridge c.activation = verdicts ε bridge c.activation := by
          unfold verdicts
          rw [hclip]
        have hlast := hreturned.last rfl
        rw [Bool.not_eq_true] at hconnect
        simpa [Call.losesSession, hverdicts, hlast, hconnect] using hlose
      have hcopy := hserving.stopsCopy_iff.mpr (hreturned.isStreaming hready hall)
      obtain ⟨h₁, h₂, h₃, h₄⟩ := Invariant.stop (.inr ⟨_, hserving⟩) hcopy hs₂
      exact .inr ⟨rfl, h₁, h₂, h₃, h₄⟩

theorem isSupportingClipV2_toBridge {σ : BridgeSettings} :
    (s.toBridge shared b).isSupportingClipV2 σ = b.isSupportingClipV2 σ := by
  unfold Stream.toBridge
  cases s.activeBridgeCopy with
  | none => rfl
  | some copy => cases shared <;> rfl

theorem stopOld_cases {p : Stream × Bridge} (hidle : Idle s) (h : s.stopOld ε c b = some p) :
    Idle p.1 ∧ p.2.isSupportingClipV2 ε.settings = b.isSupportingClipV2 ε.settings := by
  unfold Stream.stopOld at h
  split_ifs at h
  · obtain ⟨q, hq, rfl⟩ := Option.map_eq_some_iff.mp h
    exact ⟨(hidle.starterStop hq).toCopy _ _, (starterStop_eq hq).2⟩
  · obtain rfl := Option.some.inj h
    exact ⟨hidle, rfl⟩

theorem startReady_cases (hidle : Idle s)
    (hclip : bridge.isSupportingClipV2 ε.settings = c.bridge.isSupportingClipV2 ε.settings)
    (hlose : c.losesSession ε = false) (h : s.startReady ε c bridge = some s') :
    (s'.result = some true ∧ s'.renderThread = false ∧ ∃ copy, Serving s' copy) ∨
    (s'.result = some false ∧ Idle s') := by
  unfold Stream.startReady at h
  split_ifs at h with hready hempty
  · exact startStreamingSession_cases hidle hready hclip hlose h
  · obtain rfl := Option.some.inj h
    exact .inr ⟨rfl, hidle.running, hidle.sessions, hidle.renderThread, hidle.threads⟩

/-- A start to another bridge or group stops what runs, and serves the new session or leaves nothing. -/
theorem start_cases (hI : Invariant s) (hsame : s.isStreamingToBridgeAndGroup c.bridge = false)
    (hstops : s.stopsCopy ε = true) (hlose : c.losesSession ε = false) (h : s.start ε c = some s') :
    (s'.result = some true ∧ s'.renderThread = false ∧ ∃ copy, Serving s' copy) ∨
    (s'.result = some false ∧ Idle s') := by
  unfold Stream.start at h
  rw [hsame, if_neg Bool.false_ne_true] at h
  obtain ⟨s₁, hs₁, h⟩ := Option.bind_eq_some_iff.mp h
  have hidle : Idle s₁ := hI.stop hstops hs₁
  have hclip : ({ s₁.toBridge c.shared c.bridge with isBusy := false } : Bridge).isSupportingClipV2
      ε.settings = c.bridge.isSupportingClipV2 ε.settings :=
    (isSupportingClipV2_congr rfl rfl).trans isSupportingClipV2_toBridge
  obtain ⟨p, hp, h⟩ := Option.bind_eq_some_iff.mp h
  obtain ⟨hidle₂, hclip₂⟩ := stopOld_cases hidle hp
  exact startReady_cases hidle₂ (hclip₂.trans hclip) hlose h

/-- A call that finds the stream running to its bridge and group only says so. -/
theorem start_same (hsame : s.isStreamingToBridgeAndGroup c.bridge = true) (h : s.start ε c = some s') :
    s' = { s with result := some true } := by
  unfold Stream.start at h
  rw [if_pos hsame] at h
  split_ifs at h
  exact (Option.some.inj h).symm

theorem Invariant.result (hI : Invariant s) (result : Option Bool) :
    Invariant { s with result } := by
  rcases hI with ⟨h₁, h₂, h₃, h₄⟩ | ⟨copy, h₁, h₂, h₃, h₄⟩
  · exact .inl ⟨h₁, h₂, h₃, h₄⟩
  · exact .inr ⟨copy, h₁, h₂, h₃, h₄⟩

/-- What the invariant promises after a call that has not failed and makes no thread. -/
theorem Invariant.promised (hI : Invariant s) (hresult : s.result = some false → s.running = false)
    (hthread : ∀ c, l = .startWithRenderThread c → s.result = some true →
      s.running = true ∧ s.threads = 1) : Promised l s := by
  rcases hI with hidle | ⟨copy, hserving⟩
  · refine ⟨fun hrunning => ?_, hresult, hthread, fun _ => hidle.sessions⟩
    rw [hidle.running] at hrunning
    contradiction
  · refine ⟨fun _ => ?_, hresult, hthread, fun hrunning => ?_⟩
    · rw [hserving.activeBridgeCopy]
      rfl
    · rw [hserving.running] at hrunning
      contradiction

/-- **A step that meets the condition keeps the invariant and its promises.** -/
theorem Invariant.step (hI : Invariant s) (hkeep : keepsSessions ε s l = true)
    (h : s.step ε l = some s') : Invariant s' ∧ Promised l s' := by
  cases l with
  | start c =>
    cases hsame : s.isStreamingToBridgeAndGroup c.bridge with
    | true =>
      obtain rfl := start_same hsame h
      have hI' := hI.result (some true)
      exact ⟨hI', hI'.promised (by simp) (by simp)⟩
    | false =>
      simp only [keepsSessions, Stream.startKeeps, hsame, Bool.false_eq_true, if_false,
        Bool.and_eq_true, Bool.not_eq_true'] at hkeep
      have hcases := start_cases hI hsame hkeep.1 hkeep.2 h
      have hI' : Invariant s' := hcases.symm.imp And.right fun h => h.2.2
      refine ⟨hI', hI'.promised (fun hresult => ?_) (by simp)⟩
      rcases hcases with ⟨htrue, -⟩ | ⟨-, hidle⟩
      · rw [htrue] at hresult
        cases hresult
      · exact hidle.running
  | startWithRenderThread c =>
    change s.startWithRenderThread ε c = some s' at h
    unfold Stream.startWithRenderThread at h
    cases hsame : s.isStreamingToBridgeAndGroup c.bridge with
    | true =>
      rw [hsame, if_pos rfl] at h
      split_ifs at h
      obtain rfl := Option.some.inj h
      simp only [keepsSessions, Stream.startKeeps, hsame, if_true, Bool.not_true, Bool.false_or] at hkeep
      have hI' := hI.result (some true)
      refine ⟨hI', hI'.promised (by simp) fun _ _ _ => ?_⟩
      rcases hI with hidle | ⟨copy, hserving⟩
      · rw [hidle.renderThread] at hkeep
        contradiction
      · exact ⟨hserving.running, by rw [hserving.threads, hkeep]; rfl⟩
    | false =>
      rw [hsame, if_neg Bool.false_ne_true] at h
      simp only [keepsSessions, Stream.startKeeps, hsame, Bool.false_eq_true, if_false,
        Bool.and_eq_true, Bool.not_eq_true'] at hkeep
      obtain ⟨s₁, hs₁, h⟩ := Option.bind_eq_some_iff.mp h
      rcases start_cases hI hsame hkeep.1 hkeep.2 hs₁ with
        ⟨hresult, hthread, copy, hserving⟩ | ⟨hresult, hidle⟩
      · rw [if_pos hresult] at h
        obtain rfl := Option.some.inj h
        have hthreads : s₁.threads + 1 = 1 := by rw [hserving.threads, hthread]; rfl
        have hI' : Invariant { s₁ with renderThread := true, threads := s₁.threads + 1 } :=
          .inr ⟨copy, hserving.running, hserving.activeBridgeCopy, hserving.sessions, hthreads⟩
        refine ⟨hI', hI'.promised (fun hfalse => ?_) fun _ _ _ => ⟨hserving.running, hthreads⟩⟩
        change s₁.result = some false at hfalse
        rw [hresult] at hfalse
        cases hfalse
      · rw [if_neg (by simp [hresult])] at h
        obtain rfl := Option.some.inj h
        have hI' : Invariant s₁ := .inl hidle
        refine ⟨hI', hI'.promised (fun _ => hidle.running) fun _ _ htrue => ?_⟩
        rw [hresult] at htrue
        cases htrue
  | stop answer =>
    obtain ⟨s₁, hs₁, rfl⟩ := Option.map_eq_some_iff.mp h
    have hI' : Invariant { s₁ with result := none } := Invariant.result (.inl (hI.stop hkeep hs₁)) none
    exact ⟨hI', hI'.promised (by simp) (by simp)⟩
  | stopBridge bridge shared answer answer' =>
    obtain ⟨s₁, hs₁, rfl⟩ := Option.map_eq_some_iff.mp h
    have hI' : Invariant { s₁ with result := none } :=
      Invariant.result (.inl (hI.stopBridge hkeep hs₁)) none
    exact ⟨hI', hI'.promised (by simp) (by simp)⟩
  | groups groups =>
    obtain rfl := Option.some.inj h
    have hI' : Invariant { s with
        activeBridgeCopy := s.activeBridgeCopy.map ({ · with groups }), result := none } := by
      rcases hI with ⟨h₁, h₂, h₃, h₄⟩ | ⟨copy, h₁, h₂, h₃, h₄⟩
      · exact .inl ⟨h₁, h₂, h₃, h₄⟩
      · exact .inr ⟨{ copy with groups }, h₁, by rw [h₂]; rfl, h₃, h₄⟩
    exact ⟨hI', hI'.promised (by simp) (by simp)⟩

/-- **The promises are kept after every call of a run whose calls all meet the condition.** -/
theorem sessions_stopped (hrun : (machine ε).Run ts s)
    (hkeep : ∀ t ∈ ts, keepsSessions ε t.before t.label = true) :
    ∀ t ∈ ts, Promised t.label t.after := by
  intro t ht
  obtain ⟨hstep, us, hus, hbefore⟩ := hrun.reaches_before ht
  have hI : Invariant t.before := by
    refine hbefore.invariant_of (C := fun s l => keepsSessions ε s l = true) ?_ ?_ ?_
    · rintro s rfl
      exact .inl idle_init
    · exact fun s l s' hstep hkeep hI => (hI.step hkeep hstep).1
    · exact fun u hu => hkeep u (hus.subset hu)
  exact (hI.step (hkeep t ht) hstep).2

/-! ### Runs -/

def success : HttpAnswer := ⟨true, .array [.node [("success", .node [])]]⟩

/-- A bridge that is ready to stream to its group. -/
def readyBridge : Bridge where
  ipAddress := "192.168.1.15"
  id := "001788"
  modelId := "BSB002"
  apiversion := "1.24.0"
  user := "user"
  appId := "user"
  clientKey := "00112233445566778899AABBCCDDEEFF"
  isValidIp := true
  isAuthorized := true
  groups := [{ id := "1" }]
  selectedGroup := "1"

/-- A start that connects at the second attempt. -/
def connecting : Call where
  bridge := readyBridge
  activation := [success]
  connects := [false, true]

/-- A stream with a thread, and its stop. -/
theorem sessions_stopped_thread : ∃ ts s, (machine {}).Run ts s ∧ s.running = false ∧
    ∀ t ∈ ts, Promised t.label t.after := by
  obtain ⟨ts, s, hrun, h⟩ := Machine.exists_run (M := machine {}) (s := {})
    [.startWithRenderThread connecting, .stop success]
    (fun ts s => !s.running && ts.all fun t => keepsSessions {} t.before t.label) rfl (by decide +kernel)
  rw [Bool.and_eq_true, List.all_eq_true] at h
  exact ⟨ts, s, hrun, by simpa using h.1, sessions_stopped hrun h.2⟩

/-- A start whose second request times out, and that connects at no attempt. -/
def failing : Call where
  bridge := readyBridge
  activation := [⟨true, .array [.node [("error", .node [("type", .number 307 "307")])]]⟩,
    ⟨false, .node []⟩, success]

/-- The session stays when the bridge that is passed to `Stop` does not count as streaming, and when an
answer before the success has made the copy count as not connected and nothing connects; and a start
with a thread finds the stream running without one. -/
theorem exists_session_left :
    (∃ ts s, (machine {}).Run ts s ∧ s.running = false ∧ s.sessions = [⟨"192.168.1.15", "1"⟩]) ∧
    (∃ ts s, (machine {}).Run ts s ∧ s.result = some false ∧ s.sessions = [⟨"192.168.1.15", "1"⟩]) ∧
    ∃ ts s, (machine {}).Run ts s ∧
      ts.map Transition.label = [.start connecting, .startWithRenderThread { bridge := readyBridge }] ∧
      s.result = some true ∧ s.threads = 0 := by
  refine ⟨?_, ?_, ?_⟩
  · obtain ⟨ts, s, hrun, h⟩ := Machine.exists_run (M := machine {}) (s := {})
      [.start connecting, .stopBridge readyBridge false success success]
      (fun _ s => s.running = false ∧ s.sessions = [⟨"192.168.1.15", "1"⟩]) rfl (by decide +kernel)
    exact ⟨ts, s, hrun, of_decide_eq_true h⟩
  · obtain ⟨ts, s, hrun, h⟩ := Machine.exists_run (M := machine {}) (s := {}) [.start failing]
      (fun _ s => s.result = some false ∧ s.sessions = [⟨"192.168.1.15", "1"⟩]) rfl (by decide +kernel)
    exact ⟨ts, s, hrun, of_decide_eq_true h⟩
  · obtain ⟨ts, s, hrun, hlabels, h⟩ := Machine.exists_run_along (M := machine {}) (s := {})
      [.start connecting, .startWithRenderThread { bridge := readyBridge }]
      (fun _ s => s.result = some true ∧ s.threads = 0) rfl (by decide +kernel)
    exact ⟨ts, s, hrun, hlabels, of_decide_eq_true h⟩

end HueStream.Streaming
