import HueStream.Data.Bridge
import HueStream.Flow.Message
import HueStream.Lib.Run

/-! # The configuration retriever

`ConfigRetriever` makes one request at a time. A request is in flight until its completion handler has
returned: the callback, which is called in the handler, still finds the retriever busy. What the parsing
of an answer comes to is part of the outcome here; whatever it is, it is handed to the callback. -/

namespace HueStream.Config

open HueStream.Data HueStream.Flow HueStream.Lib

/-- `ConfigType`. -/
inductive ConfigType
  | small | full
deriving DecidableEq

/-- How a request ends. -/
inductive Outcome
  /-- An answer, and the result of `ParseResponseAndExecuteCallback`. -/
  | success (result : OperationResult)
  | canceled
  /-- Any other error. -/
  | error
deriving DecidableEq

/-- A request, with the number of the call it is made for. -/
structure Request where
  call : ℕ
  bridge : Bridge
  configType : ConfigType
  url : String

/-- `ConfigRetriever`, with all requests it has made and the calls whose callbacks it has called. -/
structure ConfigRetriever where
  configType : ConfigType
  busy : Bool := false
  request : Option Request := none
  /-- The completion handler is in `Finish`, after the callback. -/
  finishing : Bool := false
  requests : List Request := []
  callbacks : List (ℕ × OperationResult) := []

/-- A call of `Execute`, or a part of the completion handler. -/
inductive Label
  | execute (bridge : Bridge)
  | respond (outcome : Outcome)
  | release

namespace ConfigRetriever

variable (σ : BridgeSettings) (s : ConfigRetriever)

/-- `RetrieveConfig` of the next call. -/
def retrieveConfig (bridge : Bridge) : ConfigRetriever :=
  let configUrl := match s.configType with
    | .small => bridge.getSmallConfigUrl σ
    | .full => bridge.getBaseUrl σ false false
  let request : Request := ⟨s.requests.length, bridge, s.configType, configUrl⟩
  { s with request := some request, requests := s.requests ++ [request] }

/-- `Execute`; it returns `false` and changes nothing while the retriever is busy. -/
def execute (bridge : Bridge) : ConfigRetriever :=
  if s.busy then s
  else
    let configType := if bridge.isSupportingClipV2 σ then .small else s.configType
    { s with busy := true, configType }.retrieveConfig σ bridge

/-- The completion handler up to the callback, which only a cancelled request does not reach. -/
def respond (request : Request) : Outcome → ConfigRetriever
  | .success result =>
    { s with finishing := true, callbacks := s.callbacks ++ [(request.call, result)] }
  | .error => { s with finishing := true, callbacks := s.callbacks ++ [(request.call, .failed)] }
  | .canceled => { s with request := none }

def step : Label → Option ConfigRetriever
  | .execute bridge => some (s.execute σ bridge)
  | .respond outcome => match s.request with
    | none => none
    | some request => if s.finishing then none else some (s.respond request outcome)
  | .release => if s.finishing then some { s with busy := false, request := none, finishing := false }
    else none

end ConfigRetriever

/-- A retriever that is made for one type of configuration. -/
def machine (σ : BridgeSettings) (constructed : ConfigType) : Machine ConfigRetriever Label where
  Init s := s = { configType := constructed }
  step := ConfigRetriever.step σ

/-! ### What the retriever owes -/

/-- The configuration a call is for. -/
def wanted (σ : BridgeSettings) (constructed : ConfigType) (bridge : Bridge) : ConfigType :=
  if bridge.isSupportingClipV2 σ then .small else constructed

/-- The call that waits for its callback. -/
def ConfigRetriever.waiting (s : ConfigRetriever) : Option ℕ :=
  if s.finishing then none else s.request.map Request.call

/-- The retriever is busy exactly while a request is in flight; each accepted call has got its callback
once, in the order of the calls, or waits for it; and each has fetched what it was for. -/
structure Orderly (σ : BridgeSettings) (constructed : ConfigType) (s : ConfigRetriever) : Prop where
  busy : s.busy = true ↔ s.request.isSome = true
  callbacks : s.callbacks.map Prod.fst ++ s.waiting.toList = s.requests.map Request.call
  fetched : ∀ r ∈ s.requests, r.configType = wanted σ constructed r.bridge

/-- A request is not cancelled; and a bridge of the first version is not asked after one of the second
has been, if the retriever is made for the full configuration. -/
def keepsOrder (σ : BridgeSettings) (constructed : ConfigType) (s : ConfigRetriever) : Label → Bool
  | .execute bridge => s.busy || bridge.isSupportingClipV2 σ || s.configType = constructed
  | .respond outcome => outcome ≠ .canceled
  | .release => true

variable {σ : BridgeSettings} {constructed : ConfigType} {s s' : ConfigRetriever} {l : Label}
  {ts : List (Transition ConfigRetriever Label)}

/-- The calls are numbered, and a handler that finishes has its request. -/
structure Invariant (σ : BridgeSettings) (constructed : ConfigType) (s : ConfigRetriever) : Prop
    extends Orderly σ constructed s where
  numbered : s.requests.map Request.call = List.range s.requests.length
  finishing : s.finishing = true → s.request.isSome = true

theorem invariant_init : Invariant σ constructed { configType := constructed } :=
  ⟨⟨by simp, rfl, by simp⟩, rfl, by simp⟩

/-- An accepted call. -/
theorem execute_of_not_busy (bridge : Bridge) (h : s.busy = false) :
    ∃ request : Request, request.call = s.requests.length ∧ request.bridge = bridge ∧
      request.configType = (if bridge.isSupportingClipV2 σ then .small else s.configType) ∧
      (s.execute σ bridge).busy = true ∧ (s.execute σ bridge).request = some request ∧
      (s.execute σ bridge).finishing = s.finishing ∧
      (s.execute σ bridge).requests = s.requests ++ [request] ∧
      (s.execute σ bridge).callbacks = s.callbacks := by
  have hidle : ¬ s.busy = true := by simp [h]
  unfold ConfigRetriever.execute
  rw [if_neg hidle]
  exact ⟨_, rfl, rfl, rfl, rfl, rfl, rfl, rfl, rfl⟩

theorem Invariant.execute {bridge : Bridge} (h : Invariant σ constructed s)
    (hkeep : keepsOrder σ constructed s (.execute bridge) = true) :
    Invariant σ constructed (s.execute σ bridge) := by
  by_cases hbusy : s.busy = true
  · have hsame : s.execute σ bridge = s := if_pos hbusy
    rw [hsame]
    exact h
  · have hidle : s.busy = false := Bool.eq_false_iff.mpr hbusy
    have hnone : s.request = none := Option.not_isSome_iff_eq_none.mp fun hsome => hbusy (h.busy.mpr hsome)
    have hfinishing : s.finishing = false := by
      rw [Bool.eq_false_iff]
      intro hfin
      have := h.finishing hfin
      simp [hnone] at this
    obtain ⟨r, hcall, hbridge, htype, hbusy', hrequest, hfin, hrequests, hcallbacks⟩ :=
      execute_of_not_busy (σ := σ) bridge hidle
    have hall : s.callbacks.map Prod.fst = List.range s.requests.length := by
      have := h.callbacks
      rw [ConfigRetriever.waiting, hfinishing, hnone, h.numbered] at this
      simpa using this
    have hwanted : r.configType = wanted σ constructed r.bridge := by
      rw [htype, hbridge, wanted]
      simp only [keepsOrder, hidle, Bool.false_or, Bool.or_eq_true, decide_eq_true_eq] at hkeep
      rcases hkeep with hv2 | hsame
      · rw [if_pos hv2, if_pos hv2]
      · rw [hsame]
    refine ⟨⟨?_, ?_, ?_⟩, ?_, ?_⟩
    · simp [hbusy', hrequest]
    · rw [ConfigRetriever.waiting, hfin, hfinishing, hrequest, hrequests, hcallbacks, hall,
        List.map_append, h.numbered]
      rfl
    · intro r' hr'
      rw [hrequests] at hr'
      rcases List.mem_append.mp hr' with hr' | hr'
      · exact h.fetched r' hr'
      · obtain rfl := List.mem_singleton.mp hr'
        exact hwanted
    · rw [hrequests, List.map_append, h.numbered, List.length_append, List.length_singleton,
        List.range_succ, ← hcall]
      rfl
    · intro hfin'
      rw [hfin, hfinishing] at hfin'
      contradiction

/-- The callback of the request in flight. -/
theorem Invariant.finish {request : Request} {result : OperationResult}
    (h : Invariant σ constructed s) (hrequest : s.request = some request)
    (hfinishing : s.finishing = false) :
    Invariant σ constructed { s with
      finishing := true, callbacks := s.callbacks ++ [(request.call, result)] } := by
  refine ⟨⟨h.busy, ?_, h.fetched⟩, h.numbered, fun _ => by simp [hrequest]⟩
  have hcallbacks := h.callbacks
  rw [ConfigRetriever.waiting, hfinishing, hrequest] at hcallbacks
  rw [← hcallbacks]
  simp [ConfigRetriever.waiting]

theorem Invariant.release (h : Invariant σ constructed s) (hfinishing : s.finishing = true) :
    Invariant σ constructed { s with busy := false, request := none, finishing := false } := by
  refine ⟨⟨by simp, ?_, h.fetched⟩, h.numbered, by simp⟩
  have hcallbacks := h.callbacks
  rw [ConfigRetriever.waiting, hfinishing] at hcallbacks
  rw [← hcallbacks]
  simp [ConfigRetriever.waiting]

theorem Invariant.step (hstep : s.step σ l = some s') (hkeep : keepsOrder σ constructed s l = true)
    (h : Invariant σ constructed s) : Invariant σ constructed s' := by
  cases l with
  | execute bridge =>
    obtain rfl : s.execute σ bridge = s' := Option.some.inj hstep
    exact h.execute hkeep
  | respond outcome =>
    rw [ConfigRetriever.step] at hstep
    cases hrequest : s.request with
    | none => simp [hrequest] at hstep
    | some request =>
      simp only [hrequest] at hstep
      split_ifs at hstep with hfinishing
      obtain rfl := Option.some.inj hstep
      have hfinishing := Bool.eq_false_iff.mpr hfinishing
      cases outcome with
      | success result => exact h.finish hrequest hfinishing
      | error => exact h.finish hrequest hfinishing
      | canceled => simp [keepsOrder] at hkeep
  | release =>
    rw [ConfigRetriever.step] at hstep
    split_ifs at hstep with hfinishing
    obtain rfl := Option.some.inj hstep
    exact h.release hfinishing

/-- A cancelled request leaves the retriever busy, and the first version after the second gets the small
configuration. -/
theorem Invariant.lose (hstep : s.step σ l = some s') (hkeep : ¬ keepsOrder σ constructed s l = true)
    (h : Invariant σ constructed s) : ¬ Orderly σ constructed s' := by
  intro horder
  cases l with
  | execute bridge =>
    obtain rfl : s.execute σ bridge = s' := Option.some.inj hstep
    simp only [keepsOrder, Bool.or_eq_true, decide_eq_true_eq, not_or] at hkeep
    obtain ⟨⟨hbusy, hv1⟩, hother⟩ := hkeep
    obtain ⟨r, -, hbridge, htype, -, -, -, hrequests, -⟩ :=
      execute_of_not_busy (σ := σ) bridge (Bool.eq_false_iff.mpr hbusy)
    have hwanted := horder.fetched r (by simp [hrequests])
    rw [htype, hbridge, wanted, if_neg hv1, if_neg hv1] at hwanted
    exact hother hwanted
  | respond outcome =>
    rw [ConfigRetriever.step] at hstep
    cases hrequest : s.request with
    | none => simp [hrequest] at hstep
    | some request =>
      simp only [hrequest] at hstep
      split_ifs at hstep with hfinishing
      obtain rfl := Option.some.inj hstep
      obtain rfl : outcome = .canceled := by simpa [keepsOrder] using hkeep
      have hbusy : s.busy = true := h.busy.mpr (by simp [hrequest])
      have hnone := horder.busy.mp hbusy
      simp [ConfigRetriever.respond] at hnone
  | release => simp [keepsOrder] at hkeep

/-- A bridge of the second version. -/
def clipV2Bridge : Bridge := { swversion := "1944193080" }

end HueStream.Config
