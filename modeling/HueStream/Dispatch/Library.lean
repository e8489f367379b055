import HueStream.Dispatch.Ready
import HueStream.Flow.Shown

/-! # The library object

`HueStream` hears every message of the flow through its `Connect`, and hands it on to the client. The messages
are all it has: from them it takes the active bridge, the known bridges, what the group controller and the mixer
work on, and whether the connection monitor is to run.

A bridge is read when the message comes. Other threads write bridge objects meanwhile, so what is read is
given with the step.

* `follows_flow`: what the library object has is what the flow has, whenever the flow is idle, and while a
  procedure of the user is under way as long as no message was only passed on;
* `monitor_rests`: the monitor rests while a procedure of the user is under way, unless a message was passed
  on in it. -/

namespace HueStream.Dispatch

open HueStream.Data HueStream.Flow HueStream.Lib

/-- The intervals of `AppSettings`. -/
structure MonitorIntervals where
  connectionMs : ℤ := 15000
  streamingMs : ℤ := 5000
  notStreamingMs : ℤ := 15000

/-- `HueStream`, with its `Connect`. -/
structure Library where
  connect : Connect := {}
  /-- At none it is the empty bridge of the constructor. -/
  activeBridge : Option BridgePtr := none
  knownBridges : List BridgePtr := []
  groupController : Option BridgePtr := none
  /-- The bridge `PrepareMixer` was called with last. -/
  mixer : Option BridgePtr := none
  /-- What the connection monitor was told last: a bridge and an interval, or to stop. -/
  monitor : Option (BridgePtr × ℤ) := none
  /-- The messages the client was handed. -/
  handed : List FeedbackMessage := []

namespace Library

variable (σ : Settings) (μ : MonitorIntervals) (s : Library)

/-- The interval a bridge is watched at. -/
def interval (seen : Bridge) : ℤ :=
  if seen.isSupportingClipV2 σ.bridge then μ.connectionMs
  else if seen.isStreaming σ.bridge then μ.streamingMs else μ.notStreamingMs

/-- What follows a finished procedure and an internal message. -/
def adopt (seen : Bridge) (bridge : BridgePtr) : Library :=
  { s with
    mixer := if seen.isStreaming σ.bridge then some bridge else s.mixer
    groupController := some bridge
    monitor := if seen.isConnectable σ.bridge then some (bridge, interval σ μ seen) else none }

/-- `NewFeedbackMessage`, with the bridge as it is read. -/
def newFeedbackMessage (seen : Bridge) (m : FeedbackMessage) : Library :=
  let s := { s with activeBridge := some m.bridge }
  let s :=
    if m.id = .finishLoadingBridgeConfigured ∨ m.id = .startSaving then
      { s with knownBridges := m.bridgeList }
    else s
  let s :=
    if m.id = .userProcedureFinished ∨ m.requestType = .internal then s.adopt σ μ seen m.bridge
    else if m.id = .userProcedureStarted then { s with monitor := none }
    else s
  { s with handed := s.handed ++ [m] }

/-- The messages of one function, one after another. -/
def hear (seen : ℕ → Bridge) : Library → List Sent → Library
  | s, [] => s
  | s, x :: ms => hear (fun i => seen (i + 1)) (s.newFeedbackMessage σ μ (seen 0) x.message) ms

/-- What the rest of the library object lets through: its messages of other threads are internal ones, and
`Stop` asks whether the bridge is streaming. -/
def permits : Input → Bool
  | .monitorEvent m => m.requestType = .internal
  | .call .stopStream => s.activeBridge.any fun p => (s.connect.flow.heap p).isStreaming σ.bridge
  | _ => true

/-- One step, with the bridges that are read in it. -/
def step (l : Input × (ℕ → Bridge)) : Option Library :=
  if s.permits σ l.1 then
    (s.connect.step σ l.1).map fun connect =>
      { s with connect }.hear σ μ l.2 ((sent connect.flow.log).drop (sent s.connect.flow.log).length)
  else none

end Library

/-- The library object under given settings. -/
def library (σ : Settings) (μ : MonitorIntervals) : Machine Library (Input × (ℕ → Bridge)) where
  Init s := s = {}
  step s l := s.step σ μ l

/-! ### What is made of the messages -/

/-- A message was passed on since the last procedure was started. -/
def passedAfter (b : Bool) (x : Sent) : Bool :=
  if x.message.id = .userProcedureStarted then false else b || !x.own

def passedOn (l : List Sent) : Bool := l.foldl passedAfter false

theorem passedOn_concat (l : List Sent) (x : Sent) : passedOn (l ++ [x]) = passedAfter (passedOn l) x := by
  simp [passedOn]

/-- Internal procedures are not announced. -/
def Announced (l : List Sent) : Prop :=
  ∀ x ∈ l, x.message.id = .userProcedureStarted → x.message.requestType ≠ .internal

theorem Announced.open_ne {l : List Sent} (h : Announced l) {r : RequestType}
    (hr : openProcedure l = some r) : r ≠ .internal := by
  induction l using List.reverseRecOn with
  | nil => cases hr
  | append_singleton l x ih =>
    rw [openProcedure_concat] at hr
    unfold openAfter at hr
    split at hr
    · next hid =>
      obtain rfl := Option.some.inj hr
      exact h x (by simp) hid
    · cases hr
    · exact ih (fun y hy => h y (by simp [hy])) hr

section Hearing

variable {σ : Settings} {μ : MonitorIntervals} {s : Library} {l ms : List Sent} {x : Sent}

/-- What a library object has made of the messages it has heard. -/
structure Hears (s : Library) (l : List Sent) : Prop where
  handed : s.handed = l.map Sent.message
  active : s.activeBridge = l.getLast?.map fun x => x.message.bridge
  adopted : ∀ x, l.getLast? = some x →
    x.message.requestType = .internal ∨ x.message.id = .userProcedureFinished →
    s.groupController = some x.message.bridge ∧ ∀ m, s.monitor = some m → m.1 = x.message.bridge
  paused : ∀ r, openProcedure l = some r → s.monitor = none ∨ passedOn l = true

theorem Hears.concat (h : Hears s l) (hannounced : Announced (l ++ [x])) (horder : InOrder l x)
    (seen : Bridge) : Hears (s.newFeedbackMessage σ μ seen x.message) (l ++ [x]) := by
  have hfields : (s.newFeedbackMessage σ μ seen x.message).handed = s.handed ++ [x.message] ∧
      (s.newFeedbackMessage σ μ seen x.message).activeBridge = some x.message.bridge := by
    unfold Library.newFeedbackMessage Library.adopt
    dsimp only
    split_ifs <;> exact ⟨rfl, rfl⟩
  refine ⟨by simp [hfields.1, h.handed], by simp [hfields.2], fun y hy hadopt => ?_, fun r hr => ?_⟩
  · obtain rfl : x = y := by simpa using hy
    have hif : x.message.id = .userProcedureFinished ∨ x.message.requestType = .internal := hadopt.symm
    unfold Library.newFeedbackMessage Library.adopt
    dsimp only
    rw [if_pos hif]
    refine ⟨rfl, fun m hm => ?_⟩
    dsimp only at hm
    split_ifs at hm
    exact (congrArg Prod.fst (Option.some.inj hm)).symm
  · rw [openProcedure_concat] at hr
    rw [passedOn_concat]
    unfold openAfter at hr
    unfold InOrder at horder
    split at hr
    · next hid =>
      -- a procedure is started
      have hinternal := hannounced x (by simp) hid
      have hif : ¬ (x.message.id = .userProcedureFinished ∨ x.message.requestType = .internal) := by
        rw [hid]
        simpa using hinternal
      left
      unfold Library.newFeedbackMessage
      dsimp only
      rw [if_neg hif, if_pos hid]
    · cases hr
    · next hstarted hfinished =>
      rw [passedAfter, if_neg hstarted]
      by_cases hown : x.own = true
      · have hopen : r ≠ .internal :=
          Announced.open_ne (fun y hy => hannounced y (by simp [hy])) hr
        have hrequest : x.message.requestType = r := by
          split at horder
          · next hid => exact absurd hid hstarted
          · next hid => exact absurd hid hfinished
          · exact horder hown r hr
        have hif : ¬ (x.message.id = .userProcedureFinished ∨ x.message.requestType = .internal) := by
          rw [hrequest]
          exact not_or.mpr ⟨hfinished, hopen⟩
        have hmonitor : (s.newFeedbackMessage σ μ seen x.message).monitor = s.monitor := by
          unfold Library.newFeedbackMessage
          dsimp only
          rw [if_neg hif, if_neg hstarted]
          split_ifs <;> rfl
        rw [hmonitor]
        exact (h.paused r hr).imp_right fun hpassed => by simp [hpassed]
      · exact .inr (by simp [hown])

/-- The messages of one function. -/
theorem Hears.hear (h : Hears s l) (hannounced : Announced (l ++ ms)) (horder : Always InOrder (l ++ ms))
    (seen : ℕ → Bridge) : Hears (s.hear σ μ seen ms) (l ++ ms) := by
  induction ms generalizing s l seen with
  | nil => simpa [Library.hear] using h
  | cons x ms ih =>
    have hsplit : l ++ x :: ms = (l ++ [x]) ++ ms := by simp
    rw [hsplit] at hannounced horder ⊢
    have hlast : InOrder l x := by
      have hprefix := horder.prefix (List.prefix_append (l ++ [x]) ms)
      simpa using hprefix.last (x := x) (by simp)
    refine ih (h.concat (fun y hy => hannounced y (by simp at hy ⊢; tauto)) hlast (seen 0)) hannounced
      horder _

theorem hear_connect (seen : ℕ → Bridge) : (s.hear σ μ seen ms).connect = s.connect := by
  induction ms generalizing s seen with
  | nil => rfl
  | cons x ms ih =>
    refine (ih _).trans ?_
    unfold Library.newFeedbackMessage Library.adopt
    dsimp only
    split_ifs <;> rfl

end Hearing

/-! ### Runs -/

/-- The flow between two functions, and the events that are queued. -/
structure Between (c : Connect) : Prop where
  settled : Settled c.flow
  announced : Announced (sent c.flow.log)
  shown : c.flow.state = .idle → c.flow.Shown ∨ sent c.flow.log = []
  busy : c.flow.request ≠ .internal → c.flow.Shown ∨
    ∃ x, (sent c.flow.log).getLast? = some x ∧ x.own = false
  events : ∀ m, .monitorEvent m ∈ c.queue → m.id.isMonitorEvent = true ∧ m.requestType = .internal

section Between

variable {σ : Settings} {ω : Answers} {μ : MonitorIntervals} {c c' : Connect} {f f' : ConnectionFlow}
  {w : Work} {queue : List Work}

theorem Speaks.announced {n : ℕ} (h : Speaks n f f') (hf : Announced (sent f.log)) :
    Announced (sent f'.log) := by
  obtain ⟨ids, hspeak, hbr, -⟩ := h
  obtain ⟨ms, hms, rfl, -⟩ := hspeak.sent
  intro x hx hid
  rw [hms] at hx
  rcases List.mem_append.mp hx with hx | hx
  · exact hf x hx hid
  · have hnot := hbr _ (List.mem_map_of_mem hx)
    rw [hid] at hnot
    cases hnot

theorem Outcome.announced {n : ℕ} (h : Outcome n f f') (hf : Announced (sent f.log)) :
    Announced (sent f'.log) := by
  rcases h with h | h | h | h
  · exact Speaks.announced h.speaks hf
  · exact Speaks.announced h.speaks hf
  · exact Speaks.announced h.speaks hf
  · obtain ⟨f₁, hspeaks, -, hsent⟩ := h.speaks
    intro x hx hid
    rw [hsent] at hx
    rcases List.mem_append.mp hx with hx | hx
    · exact Speaks.announced hspeaks hf x hx hid
    · split_ifs at hx
      · cases hx
      · obtain rfl := List.mem_singleton.mp hx
        cases hid

theorem tells_run (w : Work) (hw : ∀ m, w = .monitorEvent m → m.requestType = .internal) :
    f.Tells (Connect.run σ ω f w) := by
  cases w with
  | request call =>
    refine ConnectionFlow.tells_request σ ω call.request ?_ ?_
    · intro message heq
      cases call <;> cases heq
    · intro c reply keep heq
      cases call <;> cases heq
  | monitorEvent message => exact ConnectionFlow.tells_monitorEvent σ ω message (hw message rfl)
  | completion c reply => exact ConnectionFlow.tells_complete σ ω c reply

/-- The dispatcher runs the next function. -/
theorem Between.dispatch (h : Between c) (hqueue : c.queue = w :: queue) :
    Between (c.dispatch σ ω w queue) ∧ sent c.flow.log <+: sent (c.dispatch σ ω w queue).flow.log := by
  have hevent : ∀ m, w = .monitorEvent m → m.id.isMonitorEvent = true ∧ m.requestType = .internal := by
    rintro m rfl
    exact h.events m (by simp [hqueue])
  have hcases := run_cases σ ω c.flow fun m hm => (hevent m hm).1
  have htells := tells_run (σ := σ) (ω := ω) (f := c.flow) w fun m hm => (hevent m hm).2
  have hsettled : Settled (Connect.run σ ω c.flow w) ∧ Announced (sent (Connect.run σ ω c.flow w).log) ∧
      sent c.flow.log <+: sent (Connect.run σ ω c.flow w).log := by
    rcases hcases with ⟨-, hspeaks, hstate⟩ | ⟨-, n, hout⟩ | ⟨request, f₁, hstart, -, n, hout⟩
    · refine ⟨⟨hspeaks.mid h.settled.toMid, ?_, ?_⟩, Speaks.announced hspeaks h.announced,
        hspeaks.log.filterMap _⟩
      · rw [hstate, hspeaks.request]
        exact h.settled.idle
      · rw [hstate, hspeaks.current]
        exact h.settled.noProcedure
    · exact ⟨hout.settled h.settled.toMid, Outcome.announced hout h.announced, hout.log.filterMap _⟩
    · obtain ⟨-, -, -, -, -, hsent⟩ := ConnectionFlow.start_eq_some hstart
      have hannounced : Announced (sent f₁.log) := by
        intro x hx hid
        rw [hsent] at hx
        rcases List.mem_append.mp hx with hx | hx
        · exact h.announced x hx hid
        · split_ifs at hx with hinternal
          · cases hx
          · obtain rfl := List.mem_singleton.mp hx
            exact hinternal
      refine ⟨hout.settled (mid_of_start hstart h.settled), Outcome.announced hout hannounced, ?_⟩
      have hlog : sent f₁.log <+: sent (Connect.run σ ω c.flow w).log := hout.log.filterMap _
      exact (hsent ▸ List.prefix_append _ _ : sent c.flow.log <+: sent f₁.log).trans hlog
  refine ⟨⟨hsettled.1, hsettled.2.1, fun hidle => ?_, fun hbusy => ?_, fun m hm => ?_⟩, hsettled.2.2⟩
  · change (Connect.run σ ω c.flow w).state = .idle at hidle
    cases htells with
    | shown hshown => exact .inl hshown
    | same hlog hactive hrequest hstate =>
      rw [hstate] at hidle
      rcases h.shown hidle with hshown | hnil
      · exact .inl (hshown.congr hlog hactive hrequest)
      · exact .inr (hlog.trans hnil)
    | passedOn hstate hsame => exact absurd (hsame.symm.trans hidle) hstate
    | untold hstate =>
      rw [hstate] at hidle
      cases hidle
  · change (Connect.run σ ω c.flow w).request ≠ .internal at hbusy
    cases htells with
    | shown hshown => exact .inl hshown
    | same hlog hactive hrequest hstate =>
      rw [hrequest] at hbusy
      rcases h.busy hbusy with hshown | ⟨x, hx, hown⟩
      · exact .inl (hshown.congr hlog hactive hrequest)
      · exact .inr ⟨x, (congrArg List.getLast? hlog).trans hx, hown⟩
    | @passedOn _ _ _ x hlast hx =>
      refine .inr ⟨x, (congrArg List.getLast? hlast).trans ?_, hx⟩
      simp
    | untold _ hrequest => exact absurd hrequest hbusy
  · have hm : Work.monitorEvent m ∈ queue := hm
    exact h.events m (by simp [hqueue, hm])

/-- Another step changes nothing that is seen here, but the queue. -/
theorem Between.other (h : Between c) (hlog : c'.flow.log = c.flow.log)
    (hactive : c'.flow.activePtr = c.flow.activePtr) (hrequest : c'.flow.request = c.flow.request)
    (hstate : c'.flow.state = c.flow.state) (hcurrent : c'.flow.current = c.flow.current)
    (hqueue : ∀ m, .monitorEvent m ∈ c'.queue → .monitorEvent m ∈ c.queue ∨
      m.id.isMonitorEvent = true ∧ m.requestType = .internal) : Between c' := by
  have hsent : sent c'.flow.log = sent c.flow.log := congrArg sent hlog
  have hshown (hc : c.flow.Shown) : c'.flow.Shown := hc.congr hsent hactive hrequest
  refine ⟨⟨⟨?_, ?_⟩, ?_, ?_⟩, ?_, ?_, ?_, fun m hm => (hqueue m hm).elim (h.events m) id⟩
  · rw [hsent]
    exact h.settled.inOrder
  · rw [hsent, hrequest]
    exact h.settled.opened
  · rw [hstate, hrequest]
    exact h.settled.idle
  · rw [hstate, hcurrent]
    exact h.settled.noProcedure
  · rw [hsent]
    exact h.announced
  · rw [hstate, hsent]
    exact fun hidle => (h.shown hidle).imp_left hshown
  · rw [hrequest, hsent]
    exact fun hbusy => (h.busy hbusy).imp_left hshown

theorem Between.of_step {input : Input} (h : Between c) (hstep : c.step σ input = some c')
    (hevent : ∀ m, input = .monitorEvent m → m.requestType = .internal) :
    Between c' ∧ sent c.flow.log <+: sent c'.flow.log := by
  have hone {w : Work} (hw : ∀ m, w = .monitorEvent m →
      m.id.isMonitorEvent = true ∧ m.requestType = .internal) (m : FeedbackMessage)
      (hm : .monitorEvent m ∈ c.queue ++ [w]) : .monitorEvent m ∈ c.queue ∨
        m.id.isMonitorEvent = true ∧ m.requestType = .internal :=
    (List.mem_append.mp hm).imp_right fun hm => hw m (List.mem_singleton.mp hm).symm
  cases input with
  | call call =>
    simp only [Connect.step] at hstep
    split_ifs at hstep
    cases hstep
    refine ⟨h.other rfl rfl rfl rfl rfl (hone ?_), List.prefix_rfl⟩
    rintro m ⟨⟩
  | monitorEvent message =>
    simp only [Connect.step] at hstep
    split_ifs at hstep with henabled
    cases hstep
    simp only [ConnectionFlow.enabled, Bool.and_eq_true] at henabled
    refine ⟨h.other rfl rfl rfl rfl rfl (hone ?_), List.prefix_rfl⟩
    rintro m ⟨⟩
    exact ⟨henabled.2, hevent message rfl⟩
  | answer completion reply keep =>
    simp only [Connect.step] at hstep
    split_ifs at hstep
    cases hstep
    refine ⟨h.other rfl rfl rfl rfl rfl (hone ?_), List.prefix_rfl⟩
    rintro m ⟨⟩
  | timer task =>
    simp only [Connect.step] at hstep
    split_ifs at hstep
    cases hstep
    refine ⟨h.other rfl rfl rfl rfl rfl (hone ?_), List.prefix_rfl⟩
    rintro m ⟨⟩
  | newBridge bridge =>
    cases hstep
    exact ⟨h.other rfl rfl rfl rfl rfl fun m hm => .inl hm, List.prefix_rfl⟩
  | mutate p bridge =>
    simp only [Connect.step] at hstep
    split_ifs at hstep
    cases hstep
    exact ⟨h.other rfl rfl rfl rfl rfl fun m hm => .inl hm, List.prefix_rfl⟩
  | dispatch ω =>
    simp only [Connect.step] at hstep
    split at hstep
    · cases hstep
    · next w queue hqueue =>
      cases hstep
      exact h.dispatch hqueue

/-! ### The library object and the flow -/

/-- The library object has made of the messages what it makes of them. -/
structure Attentive (s : Library) : Prop where
  between : Between s.connect
  hears : Hears s (sent s.connect.flow.log)

theorem Attentive.of_step {s s' : Library} {l : Input × (ℕ → Bridge)} (h : Attentive s)
    (hstep : s.step σ μ l = some s') : Attentive s' := by
  unfold Library.step at hstep
  split_ifs at hstep with hpermits
  obtain ⟨c', hconnect, rfl⟩ := Option.map_eq_some_iff.mp hstep
  have hevent : ∀ m, l.1 = .monitorEvent m → m.requestType = .internal := by
    intro m hm
    rw [hm] at hpermits
    simpa [Library.permits] using hpermits
  obtain ⟨hbetween, ms, hms⟩ := h.between.of_step hconnect hevent
  have hdrop : (sent c'.flow.log).drop (sent s.connect.flow.log).length = ms := by
    rw [← hms, List.drop_left]
  rw [hdrop]
  refine ⟨by rwa [hear_connect], ?_⟩
  rw [hear_connect]
  have hears : Hears { s with connect := c' } (sent s.connect.flow.log) :=
    ⟨h.hears.handed, h.hears.active, h.hears.adopted, h.hears.paused⟩
  have hall := hears.hear (σ := σ) (μ := μ) (hms ▸ hbetween.announced)
    (hms ▸ hbetween.settled.inOrder) l.2
  rwa [hms] at hall

theorem Attentive.of_run {s : Library} (h : (library σ μ).Reachable s) : Attentive s := by
  refine h.invariant ?_ fun s l s' hstep hs => hs.of_step hstep
  rintro _ rfl
  refine ⟨⟨settled_init, ?_, fun _ => .inr rfl, fun hbusy => absurd rfl hbusy, ?_⟩, ?_⟩
  · intro x hx
    cases hx
  · intro m hm
    cases hm
  · exact ⟨rfl, rfl, nofun, nofun⟩

/-- **The library object follows the flow.** The client is handed what the flow says, in this order. Whenever
the flow is idle and has said anything, the active bridge of the library object is the one of the flow, its
group controller works on it, and the monitor watches this bridge or none; while a procedure of the user is
under way the active bridge is the one of the flow unless the last message was only passed on. -/
theorem follows_flow {s : Library} (h : (library σ μ).Reachable s) :
    s.handed = (sent s.connect.flow.log).map Sent.message ∧
      (s.connect.flow.state = .idle → s.handed = [] ∨ s.activeBridge = some s.connect.flow.activePtr ∧
        s.groupController = some s.connect.flow.activePtr ∧
          ∀ m, s.monitor = some m → m.1 = s.connect.flow.activePtr) ∧
      (s.connect.flow.request ≠ .internal → s.activeBridge = some s.connect.flow.activePtr ∨
        ∃ x, (sent s.connect.flow.log).getLast? = some x ∧ x.own = false) := by
  have hs := Attentive.of_run h
  have hactive {x : Sent} (hlast : (sent s.connect.flow.log).getLast? = some x) :
      s.activeBridge = some x.message.bridge := by
    rw [hs.hears.active, hlast]
    rfl
  refine ⟨hs.hears.handed, fun hidle => ?_, fun hbusy => ?_⟩
  · rcases hs.between.shown hidle with ⟨x, hlast, hbridge, hx⟩ | hnil
    · have hinternal := hs.between.settled.idle hidle
      have hadopt : x.message.requestType = .internal ∨ x.message.id = .userProcedureFinished :=
        hx.imp (fun hrequest => hrequest.trans hinternal) fun hfinished => hfinished.1
      obtain ⟨hcontroller, hmonitor⟩ := hs.hears.adopted x hlast hadopt
      refine .inr ⟨hbridge ▸ hactive hlast, hbridge ▸ hcontroller, ?_⟩
      exact fun m hm => (hmonitor m hm).trans hbridge
    · exact .inl (by rw [hs.hears.handed, hnil]; rfl)
  · refine (hs.between.busy hbusy).imp_left ?_
    rintro ⟨x, hlast, hbridge, -⟩
    exact hbridge ▸ hactive hlast

/-- The stored bridge is loaded, and the monitor watches it. -/
theorem follows_flow_example : ∃ s, (library {} {}).Reachable s ∧ s.connect.flow.state = .idle ∧
    s.monitor = some (s.connect.flow.activePtr, 15000) ∧
      s.handed = (sent s.connect.flow.log).map Sent.message ∧
        s.activeBridge = some s.connect.flow.activePtr ∧
          s.groupController = some s.connect.flow.activePtr := by
  obtain ⟨ts, s, hrun, hp⟩ := Machine.exists_run (M := library {} {}) (s := {})
    [(.call .load, fun _ => {}), (.dispatch {}, fun _ => {}),
      (.answer ⟨.load .finish, some 0⟩ { bridges := [clipV2Bridge] } false, fun _ => {}),
      (.dispatch {}, fun _ => { clipV2Bridge with user := "app" })]
    (fun _ s => decide (s.connect.flow.state = .idle ∧ s.handed ≠ [] ∧
      s.monitor = some (s.connect.flow.activePtr, 15000))) rfl (by decide)
  obtain ⟨hidle, hhanded, hmonitor⟩ := of_decide_eq_true hp
  obtain ⟨hsame, hidle', -⟩ := follows_flow ⟨ts, hrun⟩
  obtain ⟨hactive, hcontroller, -⟩ := (hidle' hidle).resolve_left hhanded
  exact ⟨s, ⟨ts, hrun⟩, hidle, hmonitor, hsame, hactive, hcontroller⟩

/-- **The monitor rests during procedures.** While a procedure is open in what the client was handed, the
connection monitor was told to stop and not to go on, unless since the beginning of the procedure a message of
another thread was passed on. -/
theorem monitor_rests {s : Library} (h : (library σ μ).Reachable s) {r : RequestType}
    (hopen : openProcedure (sent s.connect.flow.log) = some r) :
    s.monitor = none ∨ passedOn (sent s.connect.flow.log) = true :=
  (Attentive.of_run h).hears.paused r hopen

/-- A connect is called for while the monitor runs: it is told to stop. -/
theorem monitor_rests_example : ∃ s, (library {} {}).Reachable s ∧
    openProcedure (sent s.connect.flow.log) = some .connect ∧
      passedOn (sent s.connect.flow.log) = false ∧ s.monitor = none := by
  obtain ⟨ts, s, hrun, hp⟩ := Machine.exists_run (M := library {} {}) (s := {})
    [(.newBridge clipV2Bridge, fun _ => {}),
      (.monitorEvent ⟨.internal, .bridgeDisconnected, 2, []⟩, fun _ => {}),
      (.dispatch {}, fun _ => { clipV2Bridge with user := "app" }),
      (.call .connectToBridge, fun _ => {}), (.dispatch {}, fun _ => {})]
    (fun _ s => decide (openProcedure (sent s.connect.flow.log) = some .connect ∧
      passedOn (sent s.connect.flow.log) = false)) rfl (by decide)
  obtain ⟨hopen, hpassed⟩ := of_decide_eq_true hp
  have hmonitor := (monitor_rests ⟨ts, hrun⟩ hopen).resolve_right (by simp [hpassed])
  exact ⟨s, ⟨ts, hrun⟩, hopen, hpassed, hmonitor⟩

end Between

end HueStream.Dispatch
