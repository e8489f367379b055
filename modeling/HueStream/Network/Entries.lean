import HueStream.Network.HttpRequestExecutor

/-! # The entries of the request map

The entry of the map that an accepted call of `add` needs is there until the call is answered, as long as
the number of active instances is the number of calls that have a share in the entry (`Sound`). Two things
break this: another info for a request that is pending, and the loop of `remove`, which takes the shares
of others after a response that is discarded. Every step that does neither keeps it. -/

namespace HueStream.Network

open HueStream.Lib

variable {s s' : HttpRequestExecutor} {l : ExecutorLabel} {n i request : ℕ} {a b : Added}

/-! ### Parts of a state -/

namespace HttpRequestExecutor

variable (info : RequestInfo) (entry : Option ℕ)

@[simp] theorem setInfo_infos_self : (s.setInfo i info).infos i = info := by simp [setInfo]

theorem setInfo_infos_of_ne {j : ℕ} (h : j ≠ i) : (s.setInfo i info).infos j = s.infos j := by
  simp [setInfo, h]

@[simp] theorem setInfo_self : s.setInfo i (s.infos i) = s := by simp [setInfo]

@[simp] theorem setInfo_adds : (s.setInfo i info).adds = s.adds := rfl

@[simp] theorem setInfo_requestMap : (s.setInfo i info).requestMap = s.requestMap := rfl

@[simp] theorem setAdded_adds : (s.setAdded n a).adds = s.adds.set n a := rfl

@[simp] theorem setAdded_infos : (s.setAdded n a).infos = s.infos := rfl

@[simp] theorem setAdded_requestMap : (s.setAdded n a).requestMap = s.requestMap := rfl

@[simp] theorem append_adds : (s.append a).adds = s.adds ++ [a] := rfl

@[simp] theorem append_infos : (s.append a).infos = s.infos := rfl

@[simp] theorem append_requestMap : (s.append a).requestMap = s.requestMap := rfl

@[simp] theorem setEntry_adds : (s.setEntry request entry).adds = s.adds := rfl

@[simp] theorem setEntry_infos : (s.setEntry request entry).infos = s.infos := rfl

@[simp] theorem setEntry_requestMap_self : (s.setEntry request entry).requestMap request = entry := by
  simp [setEntry]

theorem setEntry_requestMap_of_ne {request' : ℕ} (h : request' ≠ request) :
    (s.setEntry request entry).requestMap request' = s.requestMap request' := by simp [setEntry, h]

end HttpRequestExecutor

/-! ### What a step can do -/

/-- What a step can do. -/
inductive Step (s : HttpRequestExecutor) : ExecutorLabel → HttpRequestExecutor → Prop
  | setMaxRetries {maxRetries : ℤ} : Step s (.setMaxRetries maxRetries) { s with maxRetries }
  | stop : Step s .stop { s with stopped := true }
  | refused {l : ExecutorLabel} (hstopped : s.stopped = true) : Step s l s
  | add {request : ℕ} {hasCallback : Bool} (hstopped : s.stopped = false) :
      Step s (.add request hasCallback) (s.add request hasCallback)
  | addAgain {n : ℕ} {a : Added} {action : HttpErrorPostActionType} (hn : s.adds[n]? = some a)
      (hstage : a.stage = .calling action) (hstopped : s.stopped = false) :
      Step s (.addAgain n) (s.addInfo a.info)
  | expired {l : ExecutorLabel} {n : ℕ} {a : Added} (hn : s.adds[n]? = some a)
      (hstage : a.stage.unanswered = true) (howned : s.owned a.info = false) :
      Step s l { s with fault := true }
  | lost {n : ℕ} {held strong : Bool} {a : Added} (hn : s.adds[n]? = some a)
      (hstage : a.stage = .queued strong) (hentry : s.requestMap (s.requestOf a) = none) :
      Step s (.execute n held) (s.setAdded n { a with stage := .ended })
  | perform {n : ℕ} {held strong : Bool} {a : Added} (hn : s.adds[n]? = some a)
      (hstage : a.stage = .queued strong) :
      Step s (.execute n held)
        ((s.setInfo a.info (s.infos a.info).performed).setAdded n { a with stage := .requested })
  | doRequestReturns {i : ℕ} : Step s (.doRequestReturns i) (s.setInfo i
      { s.infos i with idleStateCounter := (s.infos i).idleStateCounter - 1 })
  | retry {n statusCode : ℕ} {held : Bool} {a : Added} {action : HttpErrorPostAction} {info : RequestInfo}
      (hn : s.adds[n]? = some a) (hstage : a.stage = .requested)
      (hinfo : info = (s.infos a.info).overrideRetries statusCode action.minRetries)
      (hcountdown : 0 < info.retryCountdown) :
      Step s (.handleResponse n statusCode action held)
        ((s.setInfo a.info (info.retryPerformedForError statusCode)).setAdded n
          { a with stage := .queued true })
  | respond {n statusCode minRetries : ℕ} {held : Bool} {a : Added} {action : HttpErrorPostAction}
      {type : HttpErrorPostActionType} {info : RequestInfo} (hn : s.adds[n]? = some a)
      (hstage : a.stage = .requested) (hmin : minRetries = 0 ∨ minRetries = action.minRetries)
      (hinfo : info = (s.infos a.info).overrideRetries statusCode minRetries) :
      Step s (.handleResponse n statusCode action held)
        ((s.setInfo a.info info).setAdded n { a with stage := .responded type })
  | call {n : ℕ} {a : Added} {action : HttpErrorPostActionType} (hn : s.adds[n]? = some a)
      (hstage : a.stage = .responded action) (hcallback : (s.infos a.info).hasCallback = true) :
      Step s (.callback n)
        (s.setAdded n { a with stage := .calling action, callbacks := a.callbacks + 1 })
  | beginRemove {l : ExecutorLabel} {n : ℕ} {a : Added} {action : HttpErrorPostActionType}
      (hn : s.adds[n]? = some a)
      (hstage : a.stage = .responded action ∧ (s.infos a.info).hasCallback = false ∨
        a.stage = .calling action) :
      Step s l (s.beginRemove n a action)
  | removeRequest {n : ℕ} {a : Added} {again : Bool} (hn : s.adds[n]? = some a)
      (hstage : a.stage = .removing again) :
      Step s (.removeRequest n)
        ((s.removeRequest (s.requestOf a)).setAdded n { a with stage := .testing })
  | testEnds {n : ℕ} {a : Added} (hn : s.adds[n]? = some a) (hstage : a.stage = .testing) :
      Step s (.test n) (s.setAdded n { a with stage := .ended })
  | testAgain {n j : ℕ} {a : Added} (hn : s.adds[n]? = some a) (hstage : a.stage = .testing)
      (hentry : s.requestMap (s.requestOf a) = some j)
      (hdiscard : (s.infos a.info).postActionType = .discard) :
      Step s (.test n) ((s.setInfo j { s.infos j with taken := true }).setAdded n
        { a with stage := .removing true })

theorem handleResponse_cases {statusCode : ℕ} {action : HttpErrorPostAction} {held : Bool}
    (hn : s.adds[n]? = some a) (hstage : a.stage = .requested) :
    Step s (.handleResponse n statusCode action held) (s.handleResponse n a statusCode action) := by
  unfold HttpRequestExecutor.handleResponse
  by_cases hstopped : s.stopped
  · simp only [hstopped, if_true, reduceCtorEq, false_and, if_false]
    exact .respond hn hstage (.inl rfl) rfl
  · simp only [hstopped, Bool.false_eq_true, if_false]
    split_ifs with hretry
    · exact .retry hn hstage rfl hretry.2
    · exact .respond hn hstage (.inr rfl) rfl

theorem stepOf_cases (hn : s.adds[n]? = some a) (hl : HttpRequestExecutor.added l = some n)
    (h : s.stepOf n a l = some s') : Step s l s' := by
  cases l with
  | setMaxRetries | stop | add | doRequestReturns => cases hl
  | addAgain n' =>
    cases hl
    simp only [HttpRequestExecutor.stepOf] at h
    split at h
    · cases h
      by_cases hstopped : s.stopped = true
      · rw [HttpRequestExecutor.addInfo, if_pos hstopped]
        exact .refused hstopped
      · exact .addAgain hn ‹_› (by simpa using hstopped)
    · cases h
  | execute n' held =>
    cases hl
    simp only [HttpRequestExecutor.stepOf] at h
    split at h
    · rename_i strong hstage
      cases h
      split_ifs with halive
      · unfold HttpRequestExecutor.execute
        split
        · exact .lost hn hstage ‹_›
        · exact .perform hn hstage
      · simp only [Bool.or_eq_true, not_or, Bool.not_eq_true] at halive
        exact .expired hn (by rw [hstage]; rfl) halive.2
    · cases h
  | handleResponse n' statusCode action held =>
    cases hl
    simp only [HttpRequestExecutor.stepOf] at h
    split at h
    · rename_i hstage
      cases h
      split_ifs with halive
      · exact handleResponse_cases hn hstage
      · simp only [Bool.or_eq_true, not_or, Bool.not_eq_true] at halive
        exact .expired hn (by rw [hstage]; rfl) halive.2
    · cases h
  | callback n' =>
    cases hl
    simp only [HttpRequestExecutor.stepOf] at h
    split at h
    · rename_i action hstage
      unfold HttpRequestExecutor.callback at h
      split_ifs at h with hcallback hidle
      · cases h
        exact .beginRemove hn (.inl ⟨hstage, by simpa using hcallback⟩)
      · cases h
        exact .call hn hstage (by simpa using hcallback)
    · cases h
  | callbackReturns n' =>
    cases hl
    simp only [HttpRequestExecutor.stepOf] at h
    split at h
    · cases h
      exact .beginRemove hn (.inr ‹_›)
    · cases h
  | removeRequest n' =>
    cases hl
    simp only [HttpRequestExecutor.stepOf] at h
    split at h
    · cases h
      exact .removeRequest hn ‹_›
    · cases h
  | test n' =>
    cases hl
    simp only [HttpRequestExecutor.stepOf] at h
    split at h
    · rename_i hstage
      cases h
      unfold HttpRequestExecutor.test
      split
      · exact .testEnds hn hstage
      · split_ifs with hdiscard
        · exact .testAgain hn hstage ‹_› hdiscard
        · exact .testEnds hn hstage
    · cases h

/-- **What a step can do.** -/
theorem step_cases (h : s.step l = some s') : Step s l s' := by
  unfold HttpRequestExecutor.step at h
  split_ifs at h with hfault
  split at h
  · cases h
    exact .setMaxRetries
  · cases h
    exact .stop
  · cases h
    by_cases hstopped : s.stopped = true
    · rw [HttpRequestExecutor.add, if_pos hstopped]
      exact .refused hstopped
    · exact .add (by simpa using hstopped)
  · split_ifs at h
    cases h
    exact .doRequestReturns
  · rw [Option.bind_eq_some_iff] at h
    obtain ⟨n, hl, h⟩ := h
    rw [Option.bind_eq_some_iff] at h
    obtain ⟨a, hn, h⟩ := h
    exact stepOf_cases hn hl h

/-! ### Shares of an entry -/

/-- The call has a share in the entry of its request. -/
def Stage.shares : Stage → Bool
  | .queued _ | .requested | .responded _ | .calling _ => true
  | .removing again => !again
  | .testing | .ended => false

namespace HttpRequestExecutor

/-- How many calls have a share in the entry of an info. -/
def shares (s : HttpRequestExecutor) (i : ℕ) : ℕ :=
  s.adds.countP fun a => a.info == i && a.stage.shares

/-- What the call runs can still touch the entry of its request. -/
def active (s : HttpRequestExecutor) (a : Added) : Prop :=
  a.stage ≠ .ended ∧ (a.stage = .testing → (s.infos a.info).postActionType = .discard)

end HttpRequestExecutor

/-- **The entries and the calls fit together.** -/
structure Sound (s : HttpRequestExecutor) : Prop where
  fault : s.fault = false
  known : ∀ a ∈ s.adds, a.info < s.created
  entry : ∀ request i, s.requestMap request = some i → i < s.created ∧ (s.infos i).request = request
  /-- As long as no share was taken by another call, the entry is there for its shares. -/
  shared : ∀ i < s.created, (s.infos i).taken = false →
    (s.requestMap (s.infos i).request = some i ↔ 0 < s.shares i) ∧
      (0 < s.shares i → (s.infos i).numActiveInstances = s.shares i)
  /-- A share was taken only where all calls are answered. -/
  taken : ∀ i < s.created, (s.infos i).taken = true →
    (∀ a ∈ s.adds, a.info = i → a.stage.unanswered = false) ∧
      (s.requestMap (s.infos i).request = some i →
        0 < (s.infos i).numActiveInstances ∧ (s.infos i).numActiveInstances ≤ s.shares i)
  own : ∀ a ∈ s.adds, s.active a → s.requestMap (s.requestOf a) = none ∨
    s.requestMap (s.requestOf a) = some a.info
  again : ∀ a ∈ s.adds, a.stage = .removing true → (s.infos a.info).taken = true
  callbacks : ∀ a ∈ s.adds, a.callbacks =
    if a.stage.unanswered || !(s.infos a.info).hasCallback then 0 else 1

/-- The parts of an info that its entry depends on. -/
def RequestInfo.entryEq (info info' : RequestInfo) : Prop :=
  info.request = info'.request ∧ info.hasCallback = info'.hasCallback ∧
    info.numActiveInstances = info'.numActiveInstances ∧ info.taken = info'.taken

theorem mem_setAdded (h : b ∈ (s.setAdded n a).adds) : b ∈ s.adds ∨ b = a :=
  List.mem_or_eq_of_mem_set h

/-- A call that goes on without giving up its share, or getting one, leaves the number of shares. -/
theorem shares_set (hn : s.adds[n]? = some a) (hinfo : b.info = a.info)
    (hshares : b.stage.shares = a.stage.shares) (hadds : s'.adds = s.adds.set n b) :
    s'.shares i = s.shares i := by
  unfold HttpRequestExecutor.shares
  rw [hadds]
  have hadd := countP_set_add (fun a => a.info == i && a.stage.shares) hn b
  rw [hinfo, hshares] at hadd
  omega

theorem Sound.of_unanswered (h : Sound s) (ha : a ∈ s.adds) (hstage : a.stage.unanswered = true) :
    (s.infos a.info).taken = false ∧ s.requestMap (s.requestOf a) = some a.info := by
  have hlt := h.known a ha
  have htaken : (s.infos a.info).taken = false := by
    by_contra htaken
    rw [Bool.not_eq_false] at htaken
    rw [(h.taken a.info hlt htaken).1 a ha rfl] at hstage
    cases hstage
  refine ⟨htaken, (h.shared a.info hlt htaken).1.mpr ?_⟩
  refine List.countP_pos_iff.mpr ⟨a, ha, ?_⟩
  generalize a.stage = stage at hstage
  cases stage with
  | queued | requested | responded => simp [Stage.shares]
  | calling | removing | testing | ended => cases hstage

theorem Sound.owned (h : Sound s) (ha : a ∈ s.adds) (hstage : a.stage.unanswered = true) :
    s.owned a.info = true := by
  have hentry := (h.of_unanswered ha hstage).2
  unfold HttpRequestExecutor.requestOf at hentry
  simp [HttpRequestExecutor.owned, hentry]

/-- A step that leaves the map and the shares. -/
theorem Sound.of_same (h : Sound s) (hfault : s'.fault = s.fault) (hcreated : s'.created = s.created)
    (hmap : s'.requestMap = s.requestMap) (hinfos : ∀ i, (s'.infos i).entryEq (s.infos i))
    (hshares : ∀ i, s'.shares i = s.shares i)
    (hadds : ∀ b ∈ s'.adds, ∃ a ∈ s.adds, b.info = a.info ∧
      (b.stage.unanswered = true → a.stage.unanswered = true) ∧
      (b.stage = .removing true → a.stage = .removing true) ∧
      b.callbacks = if b.stage.unanswered || !(s.infos b.info).hasCallback then 0 else 1)
    (hactive : ∀ b ∈ s'.adds, s'.active b → ∃ a ∈ s.adds, b.info = a.info ∧ s.active a) :
    Sound s' := by
  have hrequest (i : ℕ) : (s'.infos i).request = (s.infos i).request := (hinfos i).1
  have htaken (i : ℕ) : (s'.infos i).taken = (s.infos i).taken := (hinfos i).2.2.2
  have hcount (i : ℕ) : (s'.infos i).numActiveInstances = (s.infos i).numActiveInstances :=
    (hinfos i).2.2.1
  refine ⟨hfault.trans h.fault, fun b hb => ?_, fun request i hi => ?_, fun i hlt hi => ?_,
    fun i hlt hi => ⟨fun b hb hinfo => ?_, ?_⟩, fun b hb hb' => ?_, fun b hb hb' => ?_,
    fun b hb => ?_⟩
  · obtain ⟨a, ha, hinfo, -⟩ := hadds b hb
    rw [hcreated, hinfo]
    exact h.known a ha
  · rw [hcreated, hrequest]
    exact h.entry request i (hmap ▸ hi)
  · rw [hmap, hrequest, hshares, hcount]
    exact h.shared i (hcreated ▸ hlt) (htaken i ▸ hi)
  · obtain ⟨a, ha, hinfo', hunanswered, -⟩ := hadds b hb
    have ha' := (h.taken i (hcreated ▸ hlt) (htaken i ▸ hi)).1 a ha (hinfo' ▸ hinfo)
    by_contra hb'
    rw [hunanswered (by simpa using hb')] at ha'
    cases ha'
  · rw [hmap, hrequest, hcount, hshares]
    exact (h.taken i (hcreated ▸ hlt) (htaken i ▸ hi)).2
  · obtain ⟨a, ha, hinfo, ha'⟩ := hactive b hb hb'
    have hown := h.own a ha ha'
    unfold HttpRequestExecutor.requestOf at hown ⊢
    rw [hmap, hinfo, hrequest]
    exact hown
  · obtain ⟨a, ha, hinfo, -, hagain, -⟩ := hadds b hb
    rw [htaken, hinfo]
    exact h.again a ha (hagain hb')
  · obtain ⟨a, ha, hinfo, -, -, hcallbacks⟩ := hadds b hb
    rw [(hinfos b.info).2.1]
    exact hcallbacks

theorem setInfo_entryEq {info : RequestInfo} (hinfo : info.entryEq (s.infos i)) (j : ℕ) :
    ((s.setInfo i info).infos j).entryEq (s.infos j) := by
  rcases eq_or_ne j i with rfl | hne
  · rw [HttpRequestExecutor.setInfo_infos_self]
    exact hinfo
  · rw [HttpRequestExecutor.setInfo_infos_of_ne _ hne]
    exact ⟨rfl, rfl, rfl, rfl⟩

/-- A call goes on, and its info with it. -/
theorem Sound.of_move (h : Sound s) (hn : s.adds[n]? = some a) {info : RequestInfo}
    (hinfo : info.entryEq (s.infos a.info)) (hactive : s.active a) (hb : b.info = a.info)
    (hshares : b.stage.shares = a.stage.shares)
    (hunanswered : b.stage.unanswered = true → a.stage.unanswered = true)
    (hagain : b.stage ≠ .removing true)
    (hcallbacks : b.callbacks =
      if b.stage.unanswered || !(s.infos a.info).hasCallback then 0 else 1) :
    Sound ((s.setInfo a.info info).setAdded n b) := by
  have ha := List.mem_of_getElem? hn
  refine h.of_same rfl rfl rfl (setInfo_entryEq hinfo) (fun i => shares_set hn hb hshares rfl)
    (fun c hc => ?_) (fun c hc hc' => ?_)
  · rcases mem_setAdded hc with hc | rfl
    · exact ⟨c, hc, rfl, id, id, h.callbacks c hc⟩
    · exact ⟨a, ha, hb, hunanswered, fun hstage => absurd hstage hagain, by rw [hb]; exact hcallbacks⟩
  · rcases mem_setAdded hc with hc | rfl
    · by_cases heq : c.info = a.info
      · exact ⟨a, ha, heq, hactive⟩
      · refine ⟨c, hc, rfl, hc'.1, fun hstage => ?_⟩
        have hpost := hc'.2 hstage
        rwa [HttpRequestExecutor.setAdded_infos, HttpRequestExecutor.setInfo_infos_of_ne _ heq] at hpost
    · exact ⟨a, ha, hb, hactive⟩

theorem active_of_stage (hended : a.stage ≠ .ended) (htesting : a.stage ≠ .testing) : s.active a :=
  ⟨hended, fun h => absurd h htesting⟩

theorem entryEq_overrideRetries (info : RequestInfo) (statusCode minRetries : ℕ) :
    (info.overrideRetries statusCode minRetries).entryEq info := by
  unfold RequestInfo.overrideRetries
  split_ifs <;> exact ⟨rfl, rfl, rfl, rfl⟩

theorem Sound.perform (h : Sound s) (hn : s.adds[n]? = some a) {strong : Bool}
    (hstage : a.stage = .queued strong) :
    Sound ((s.setInfo a.info (s.infos a.info).performed).setAdded n { a with stage := .requested }) := by
  have hcallbacks := h.callbacks a (List.mem_of_getElem? hn)
  rw [hstage] at hcallbacks
  exact h.of_move hn ⟨rfl, rfl, rfl, rfl⟩ (active_of_stage (by simp [hstage]) (by simp [hstage])) rfl
    (by rw [hstage]; rfl) (by simp [hstage, Stage.unanswered]) (by simp) hcallbacks

/-- A response leads to a retry or to the callback. -/
theorem Sound.handled (h : Sound s) (hn : s.adds[n]? = some a) (hstage : a.stage = .requested)
    {info : RequestInfo} (hinfo : info.entryEq (s.infos a.info)) {stage : Stage}
    (hnext : stage = .queued true ∨ ∃ action, stage = .responded action) :
    Sound ((s.setInfo a.info info).setAdded n { a with stage }) := by
  have hcallbacks := h.callbacks a (List.mem_of_getElem? hn)
  rw [hstage] at hcallbacks
  have hactive : s.active a := active_of_stage (by simp [hstage]) (by simp [hstage])
  rcases hnext with rfl | ⟨action, rfl⟩
  · exact h.of_move hn hinfo hactive rfl (by rw [hstage]; rfl) (by simp [hstage, Stage.unanswered])
      (by simp) hcallbacks
  · exact h.of_move hn hinfo hactive rfl (by rw [hstage]; rfl) (by simp [hstage, Stage.unanswered])
      (by simp) hcallbacks

theorem Sound.call (h : Sound s) (hn : s.adds[n]? = some a) {action : HttpErrorPostActionType}
    (hstage : a.stage = .responded action) (hcallback : (s.infos a.info).hasCallback = true) :
    Sound (s.setAdded n { a with stage := .calling action, callbacks := a.callbacks + 1 }) := by
  have hcallbacks := h.callbacks a (List.mem_of_getElem? hn)
  rw [hstage] at hcallbacks
  rw [← HttpRequestExecutor.setInfo_self (s := s) (i := a.info)]
  refine h.of_move hn ⟨rfl, rfl, rfl, rfl⟩ (active_of_stage (by simp [hstage]) (by simp [hstage])) rfl
    (by rw [hstage]; rfl) (by simp [Stage.unanswered]) (by simp) ?_
  simp [hcallbacks, hcallback, Stage.unanswered]

theorem Sound.beginRemove (h : Sound s) (hn : s.adds[n]? = some a) {action : HttpErrorPostActionType}
    (hstage : a.stage = .responded action ∧ (s.infos a.info).hasCallback = false ∨
      a.stage = .calling action) : Sound (s.beginRemove n a action) := by
  have hcallbacks := h.callbacks a (List.mem_of_getElem? hn)
  rcases hstage with ⟨hstage, hcallback⟩ | hstage
  · refine h.of_move hn ⟨rfl, rfl, rfl, rfl⟩ (active_of_stage (by simp [hstage]) (by simp [hstage])) rfl
      (by rw [hstage]; rfl) (by simp [Stage.unanswered]) (by simp) ?_
    simpa [hstage, hcallback, Stage.unanswered] using hcallbacks
  · refine h.of_move hn ⟨rfl, rfl, rfl, rfl⟩ (active_of_stage (by simp [hstage]) (by simp [hstage])) rfl
      (by rw [hstage]; rfl) (by simp [Stage.unanswered]) (by simp) ?_
    simpa [hstage, Stage.unanswered] using hcallbacks

theorem Sound.doRequestReturns (h : Sound s) (i : ℕ) : Sound (s.setInfo i
    { s.infos i with idleStateCounter := (s.infos i).idleStateCounter - 1 }) := by
  refine h.of_same rfl rfl rfl (setInfo_entryEq ⟨rfl, rfl, rfl, rfl⟩) (fun _ => rfl)
    (fun b hb => ⟨b, hb, rfl, id, id, h.callbacks b hb⟩) (fun b hb hb' => ⟨b, hb, rfl, hb'.1, ?_⟩)
  intro hstage
  have hpost := hb'.2 hstage
  rcases eq_or_ne b.info i with rfl | hne
  · simpa using hpost
  · rwa [HttpRequestExecutor.setInfo_infos_of_ne _ hne] at hpost

theorem Sound.testEnds (h : Sound s) (hn : s.adds[n]? = some a) (hstage : a.stage = .testing) :
    Sound (s.setAdded n { a with stage := .ended }) := by
  have ha := List.mem_of_getElem? hn
  have hcallbacks := h.callbacks a ha
  rw [hstage] at hcallbacks
  refine h.of_same rfl rfl rfl (fun _ => ⟨rfl, rfl, rfl, rfl⟩)
    (fun i => shares_set hn (b := { a with stage := .ended }) rfl (by rw [hstage]; rfl) rfl)
    (fun c hc => ?_) (fun c hc hc' => ?_)
  · rcases mem_setAdded hc with hc | rfl
    · exact ⟨c, hc, rfl, id, id, h.callbacks c hc⟩
    · exact ⟨a, ha, rfl, by simp [Stage.unanswered], by simp, hcallbacks⟩
  · rcases mem_setAdded hc with hc | rfl
    · exact ⟨c, hc, rfl, hc'⟩
    · exact absurd rfl hc'.1

/-! ### Calls of `add` -/

theorem shares_append {t : HttpRequestExecutor} (hadds : t.adds = s.adds ++ [a]) :
    t.shares i = s.shares i + if a.info == i && a.stage.shares then 1 else 0 := by
  unfold HttpRequestExecutor.shares
  rw [hadds, List.countP_append, List.countP_singleton]

/-- Where nothing is active there is no share. -/
theorem shares_eq_zero (h : ∀ a ∈ s.adds, a.info = i → ¬ s.active a) : s.shares i = 0 := by
  refine List.countP_eq_zero.mpr fun a ha hshare => ?_
  rw [Bool.and_eq_true, beq_iff_eq] at hshare
  refine h a ha hshare.1 (active_of_stage ?_ ?_)
  · intro hstage
    rw [hstage] at hshare
    cases hshare.2
  · intro hstage
    rw [hstage] at hshare
    cases hshare.2

theorem shares_pos (ha : a ∈ s.adds) (hshares : a.stage.shares = true) : 0 < s.shares a.info :=
  List.countP_pos_iff.mpr ⟨a, ha, by simp [hshares]⟩

/-- A new info has entered the map, with the call that has added it. -/
structure Enters (s s' : HttpRequestExecutor) (request : ℕ) : Prop where
  fault : s'.fault = s.fault
  created : s'.created = s.created + 1
  adds : s'.adds = s.adds ++ [⟨s.created, .queued false, 0⟩]
  infos : ∀ i, i ≠ s.created → s'.infos i = s.infos i
  request_eq : (s'.infos s.created).request = request
  instances : (s'.infos s.created).numActiveInstances = 1
  fresh : (s'.infos s.created).taken = false
  entry : s'.requestMap request = some s.created
  entries : ∀ r, r ≠ request → s'.requestMap r = s.requestMap r

theorem enters_add {hasCallback : Bool} (hstopped : s.stopped = false)
    (hentry : s.requestMap request = none) : Enters s (s.add request hasCallback) request := by
  have hadd : s.add request hasCallback = ({ s.setInfo s.created
      { request, retryCountdown := s.maxRetries, hasCallback, maxRetries := s.maxRetries } with
        created := s.created + 1 }.setEntry request (some s.created)).append
          ⟨s.created, .queued false, 0⟩ := by
    simp [HttpRequestExecutor.add, HttpRequestExecutor.addRequest, hstopped, hentry]
  rw [hadd]
  have hinfo := HttpRequestExecutor.setInfo_infos_self (s := s) (i := s.created)
    { request, retryCountdown := s.maxRetries, hasCallback, maxRetries := s.maxRetries }
  exact ⟨rfl, rfl, rfl, fun i hi => HttpRequestExecutor.setInfo_infos_of_ne _ hi,
    congrArg RequestInfo.request hinfo, congrArg RequestInfo.numActiveInstances hinfo,
    congrArg RequestInfo.taken hinfo, HttpRequestExecutor.setEntry_requestMap_self _,
    fun r hr => HttpRequestExecutor.setEntry_requestMap_of_ne _ hr⟩

namespace Enters

theorem mem_adds (he : Enters s s' request) (hb : b ∈ s'.adds) :
    b ∈ s.adds ∨ b = ⟨s.created, .queued false, 0⟩ := by
  rw [he.adds] at hb
  simpa using hb

theorem shares_of_ne (he : Enters s s' request) (hi : i ≠ s.created) : s'.shares i = s.shares i := by
  rw [shares_append he.adds]
  simp [hi.symm]

theorem shares_new (he : Enters s s' request) (h : Sound s) : s'.shares s.created = 1 := by
  rw [shares_append he.adds, shares_eq_zero fun a ha heq => absurd heq (h.known a ha).ne]
  simp [Stage.shares]

theorem shared (he : Enters s s' request) (h : Sound s)
    (hidle : ∀ a ∈ s.adds, s.requestOf a = request → ¬ s.active a) (hlt : i < s'.created)
    (htaken : (s'.infos i).taken = false) :
    (s'.requestMap (s'.infos i).request = some i ↔ 0 < s'.shares i) ∧
      (0 < s'.shares i → (s'.infos i).numActiveInstances = s'.shares i) := by
  rcases eq_or_ne i s.created with rfl | hi
  · simp [he.shares_new h, he.request_eq, he.entry, he.instances]
  · rw [he.created] at hlt
    rw [he.infos i hi] at htaken ⊢
    rw [he.shares_of_ne hi]
    by_cases hr : (s.infos i).request = request
    · have hzero : s.shares i = 0 := by
        refine shares_eq_zero fun a ha heq => hidle a ha ?_
        rw [HttpRequestExecutor.requestOf, heq, hr]
      rw [hr, he.entry, hzero]
      simp [hi.symm]
    · rw [he.entries _ hr]
      exact h.shared i (by omega) htaken

theorem taken (he : Enters s s' request) (h : Sound s) (hlt : i < s'.created)
    (htaken : (s'.infos i).taken = true) :
    (∀ b ∈ s'.adds, b.info = i → b.stage.unanswered = false) ∧
      (s'.requestMap (s'.infos i).request = some i →
        0 < (s'.infos i).numActiveInstances ∧ (s'.infos i).numActiveInstances ≤ s'.shares i) := by
  have hi : i ≠ s.created := by
    rintro rfl
    rw [he.fresh] at htaken
    cases htaken
  rw [he.created] at hlt
  rw [he.infos i hi] at htaken ⊢
  rw [he.shares_of_ne hi]
  obtain ⟨hanswered, hentry⟩ := h.taken i (by omega) htaken
  refine ⟨fun b hb hinfo => ?_, fun hmap => hentry ?_⟩
  · rcases he.mem_adds hb with hb | rfl
    · exact hanswered b hb hinfo
    · exact absurd hinfo hi.symm
  · have hr : (s.infos i).request ≠ request := by
      intro hr
      rw [hr, he.entry] at hmap
      exact hi (Option.some.inj hmap).symm
    rwa [he.entries _ hr] at hmap

theorem own (he : Enters s s' request) (h : Sound s)
    (hidle : ∀ a ∈ s.adds, s.requestOf a = request → ¬ s.active a) (hb : b ∈ s'.adds)
    (hactive : s'.active b) :
    s'.requestMap (s'.requestOf b) = none ∨ s'.requestMap (s'.requestOf b) = some b.info := by
  unfold HttpRequestExecutor.requestOf
  rcases he.mem_adds hb with hb | rfl
  · have hi : b.info ≠ s.created := (h.known b hb).ne
    have hold : s.active b := ⟨hactive.1, fun hstage => he.infos b.info hi ▸ hactive.2 hstage⟩
    have hr : (s.infos b.info).request ≠ request := fun hr => hidle b hb hr hold
    rw [he.infos _ hi, he.entries _ hr]
    exact h.own b hb hold
  · right
    rw [he.request_eq, he.entry]

end Enters

/-- A request that is not pending, and that nothing can still remove, is added. -/
theorem Sound.of_enters (h : Sound s) (he : Enters s s' request)
    (hidle : ∀ a ∈ s.adds, s.requestOf a = request → ¬ s.active a) : Sound s' := by
  refine ⟨he.fault.trans h.fault, fun b hb => ?_, fun r i hi => ?_, fun i => he.shared h hidle,
    fun i => he.taken h, fun b => he.own h hidle, fun b hb hagain => ?_, fun b hb => ?_⟩
  · rw [he.created]
    rcases he.mem_adds hb with hb | rfl
    · exact Nat.lt_succ_of_lt (h.known b hb)
    · exact Nat.lt_succ_self _
  · rw [he.created]
    rcases eq_or_ne r request with rfl | hr
    · obtain rfl : s.created = i := by simpa [he.entry] using hi
      exact ⟨Nat.lt_succ_self _, he.request_eq⟩
    · rw [he.entries r hr] at hi
      obtain ⟨hlt, hrequest⟩ := h.entry r i hi
      rw [he.infos i hlt.ne]
      exact ⟨Nat.lt_succ_of_lt hlt, hrequest⟩
  · rcases he.mem_adds hb with hb | rfl
    · rw [he.infos _ (h.known b hb).ne]
      exact h.again b hb hagain
    · simp at hagain
  · rcases he.mem_adds hb with hb | rfl
    · rw [he.infos _ (h.known b hb).ne]
      exact h.callbacks b hb
    · rfl

/-! ### Changes of one entry -/

/-- Nothing but one info and its entry is changed, and this entry at most removed. -/
structure Touches (s s' : HttpRequestExecutor) (i : ℕ) (info : RequestInfo) : Prop where
  fault : s'.fault = s.fault
  created : s'.created = s.created
  infos : s'.infos = Function.update s.infos i info
  request : info.request = (s.infos i).request
  hasCallback : info.hasCallback = (s.infos i).hasCallback
  post : info.postActionType = (s.infos i).postActionType
  taken : (s.infos i).taken = true → info.taken = true
  entries : ∀ r, s'.requestMap r = s.requestMap r ∨
    s'.requestMap r = none ∧ s.requestMap r = some i

namespace Touches

variable {info : RequestInfo} {j : ℕ}

theorem infos_self (ht : Touches s s' i info) : s'.infos i = info := by simp [ht.infos]

theorem infos_of_ne (ht : Touches s s' i info) (hj : j ≠ i) : s'.infos j = s.infos j := by
  simp [ht.infos, hj]

theorem request_eq (ht : Touches s s' i info) (j : ℕ) :
    (s'.infos j).request = (s.infos j).request := by
  rcases eq_or_ne j i with rfl | hj
  · rw [ht.infos_self, ht.request]
  · rw [ht.infos_of_ne hj]

theorem hasCallback_eq (ht : Touches s s' i info) (j : ℕ) :
    (s'.infos j).hasCallback = (s.infos j).hasCallback := by
  rcases eq_or_ne j i with rfl | hj
  · rw [ht.infos_self, ht.hasCallback]
  · rw [ht.infos_of_ne hj]

theorem post_eq (ht : Touches s s' i info) (j : ℕ) :
    (s'.infos j).postActionType = (s.infos j).postActionType := by
  rcases eq_or_ne j i with rfl | hj
  · rw [ht.infos_self, ht.post]
  · rw [ht.infos_of_ne hj]

theorem of_entry (ht : Touches s s' i info) {r : ℕ} (h : s'.requestMap r = some j) :
    s.requestMap r = some j := by
  rcases ht.entries r with heq | ⟨hnone, -⟩
  · rwa [heq] at h
  · rw [hnone] at h
    cases h

theorem own (ht : Touches s s' i info) (h : Sound s) (ha : a ∈ s.adds) (hactive : s'.active a) :
    s'.requestMap (s'.requestOf a) = none ∨ s'.requestMap (s'.requestOf a) = some a.info := by
  have hold := h.own a ha ⟨hactive.1, fun hstage => ht.post_eq a.info ▸ hactive.2 hstage⟩
  unfold HttpRequestExecutor.requestOf at hold ⊢
  rw [ht.request_eq]
  rcases ht.entries (s.infos a.info).request with heq | ⟨hnone, -⟩
  · rw [heq]
    exact hold
  · exact .inl hnone

theorem again (ht : Touches s s' i info) (h : Sound s) (ha : a ∈ s.adds)
    (hstage : a.stage = .removing true) : (s'.infos a.info).taken = true := by
  have hold := h.again a ha hstage
  rcases eq_or_ne a.info i with heq | hne
  · rw [heq] at hold ⊢
    rw [ht.infos_self]
    exact ht.taken hold
  · rw [ht.infos_of_ne hne]
    exact hold

theorem shared (ht : Touches s s' i info) (h : Sound s) (hj : j ≠ i)
    (hshares : s'.shares j = s.shares j) (hlt : j < s.created) (htaken : (s'.infos j).taken = false) :
    (s'.requestMap (s'.infos j).request = some j ↔ 0 < s'.shares j) ∧
      (0 < s'.shares j → (s'.infos j).numActiveInstances = s'.shares j) := by
  rw [ht.infos_of_ne hj] at htaken ⊢
  rw [hshares]
  obtain ⟨hiff, hcount⟩ := h.shared j hlt htaken
  refine ⟨?_, hcount⟩
  rw [← hiff]
  rcases ht.entries (s.infos j).request with heq | ⟨hnone, hentry⟩
  · rw [heq]
  · rw [hnone, hentry]
    simp [hj.symm]

end Touches

/-- What is to be seen to where one info and its entry are changed. -/
theorem Sound.of_touches (h : Sound s) {info : RequestInfo} (ht : Touches s s' i info)
    (hshares : ∀ j, j ≠ i → s'.shares j = s.shares j)
    (hadds : ∀ b ∈ s'.adds, b ∈ s.adds ∨ b.info = i ∧ i < s.created ∧
      (s'.active b → s.requestMap (s.infos i).request = none ∨
        s.requestMap (s.infos i).request = some i) ∧
      (b.stage = .removing true → info.taken = true) ∧
      b.callbacks = if b.stage.unanswered || !(s.infos i).hasCallback then 0 else 1)
    (hshared : info.taken = false →
      (s'.requestMap (s.infos i).request = some i ↔ 0 < s'.shares i) ∧
        (0 < s'.shares i → info.numActiveInstances = s'.shares i))
    (htaken : info.taken = true →
      (∀ b ∈ s'.adds, b.info = i → b.stage.unanswered = false) ∧
        (s'.requestMap (s.infos i).request = some i →
          0 < info.numActiveInstances ∧ info.numActiveInstances ≤ s'.shares i)) :
    Sound s' := by
  refine ⟨ht.fault.trans h.fault, fun b hb => ?_, fun r j hj => ?_, fun j hlt hj => ?_,
    fun j hlt hj => ?_, fun b hb hactive => ?_, fun b hb hagain => ?_, fun b hb => ?_⟩
  · rw [ht.created]
    rcases hadds b hb with hb | ⟨rfl, hlt, -⟩
    · exact h.known b hb
    · exact hlt
  · rw [ht.created, ht.request_eq]
    exact h.entry r j (ht.of_entry hj)
  · rcases eq_or_ne j i with rfl | hne
    · rw [ht.infos_self] at hj
      rw [ht.request_eq, ht.infos_self]
      exact hshared hj
    · exact ht.shared h hne (hshares j hne) (ht.created ▸ hlt) hj
  · rcases eq_or_ne j i with rfl | hne
    · rw [ht.infos_self] at hj
      rw [ht.request_eq, ht.infos_self]
      exact htaken hj
    · rw [ht.infos_of_ne hne] at hj ⊢
      rw [hshares j hne]
      obtain ⟨hanswered, hentry⟩ := h.taken j (ht.created ▸ hlt) hj
      refine ⟨fun b hb hinfo => ?_, fun hmap => hentry (ht.of_entry hmap)⟩
      rcases hadds b hb with hb | ⟨heq, -⟩
      · exact hanswered b hb hinfo
      · exact absurd (hinfo.symm.trans heq) hne
  · rcases hadds b hb with hb | ⟨rfl, -, hown, -⟩
    · exact ht.own h hb hactive
    · unfold HttpRequestExecutor.requestOf
      rw [ht.request_eq]
      rcases ht.entries (s.infos b.info).request with heq | ⟨hnone, -⟩
      · rw [heq]
        exact hown hactive
      · exact .inl hnone
  · rcases hadds b hb with hb | ⟨rfl, -, -, hagain', -⟩
    · exact ht.again h hb hagain
    · rw [ht.infos_self]
      exact hagain' hagain
  · rw [ht.hasCallback_eq]
    rcases hadds b hb with hb | ⟨rfl, -, -, -, hcallbacks⟩
    · exact h.callbacks b hb
    · exact hcallbacks

theorem addInfo_eq (hstopped : s.stopped = false) (hentry : s.requestMap (s.infos i).request = some i) :
    s.addInfo i = (s.setInfo i { (s.infos i).addedAgain with
      numActiveInstances := (s.infos i).numActiveInstances + 1 }).append ⟨i, .queued true, 0⟩ := by
  simp [HttpRequestExecutor.addInfo, HttpRequestExecutor.addRequest, hstopped, hentry,
    HttpRequestExecutor.setInfo, RequestInfo.addedAgain]

/-- In its callback a call adds its info again. -/
theorem Sound.addAgain (h : Sound s) (ha : a ∈ s.adds) {action : HttpErrorPostActionType}
    (hstage : a.stage = .calling action) (hstopped : s.stopped = false)
    (htaken : (s.infos a.info).taken = false) : Sound (s.addInfo a.info) := by
  have hlt := h.known a ha
  have hpos : 0 < s.shares a.info := shares_pos ha (by rw [hstage]; rfl)
  obtain ⟨hiff, hcount⟩ := h.shared a.info hlt htaken
  have hentry := hiff.mpr hpos
  rw [addInfo_eq hstopped hentry]
  set info := { (s.infos a.info).addedAgain with
    numActiveInstances := (s.infos a.info).numActiveInstances + 1 }
  have hshares (j : ℕ) := shares_append (i := j) (s := s)
    (t := (s.setInfo a.info info).append ⟨a.info, .queued true, 0⟩) rfl
  have ht : Touches s ((s.setInfo a.info info).append ⟨a.info, .queued true, 0⟩) a.info info :=
    ⟨rfl, rfl, rfl, rfl, rfl, rfl, id, fun r => .inl rfl⟩
  refine h.of_touches ht (fun j hj => ?_) (fun b hb => ?_) (fun _ => ?_) (fun htaken' => ?_)
  · rw [hshares]
    simp [hj.symm]
  · rcases List.mem_append.mp hb with hb | hb
    · exact .inl hb
    · obtain rfl := List.mem_singleton.mp hb
      exact .inr ⟨rfl, hlt, fun _ => .inr hentry, by simp, rfl⟩
  · rw [hshares]
    exact ⟨by simp [hentry, Stage.shares], by simp [info, hcount hpos, Stage.shares]⟩
  · have htaken' : (s.infos a.info).taken = true := htaken'
    rw [htaken] at htaken'
    cases htaken'

/-! ### The removal -/

/-- What `remove_request` does to the entry of an info: nothing, where it is gone; it goes with its last
instance; or it has one instance less. -/
theorem removeRequest_cases (h : s.requestMap request = none ∨ s.requestMap request = some i) :
    (s.requestMap request = none ∧ s.removeRequest request = s) ∨
    (s.requestMap request = some i ∧ (s.infos i).numActiveInstances = 1 ∧
      s.removeRequest request = s.setEntry request none) ∨
    (s.requestMap request = some i ∧ (s.infos i).numActiveInstances ≠ 1 ∧
      s.removeRequest request = s.setInfo i
        { s.infos i with numActiveInstances := (s.infos i).numActiveInstances - 1 }) := by
  unfold HttpRequestExecutor.removeRequest
  rcases h with hnone | hsome
  · exact .inl ⟨hnone, by rw [hnone]⟩
  · rw [hsome]
    by_cases hone : (s.infos i).numActiveInstances = 1
    · exact .inr (.inl ⟨rfl, hone, if_pos hone⟩)
    · exact .inr (.inr ⟨rfl, hone, if_neg hone⟩)

/-- At the first removal for an info of which no share was taken the entry is there. -/
theorem Sound.first_removal (h : Sound s) (ha : a ∈ s.adds) {again : Bool}
    (hstage : a.stage = .removing again) (htaken : (s.infos a.info).taken = false) :
    again = false ∧ s.requestMap (s.requestOf a) = some a.info ∧
      (s.infos a.info).numActiveInstances = s.shares a.info := by
  have hagain : again = false := by
    by_contra hagain
    rw [Bool.not_eq_false] at hagain
    rw [h.again a ha (by rw [hstage, hagain])] at htaken
    cases htaken
  have hpos := shares_pos ha (by rw [hstage, hagain]; rfl)
  obtain ⟨hiff, hcount⟩ := h.shared a.info (h.known a ha) htaken
  exact ⟨hagain, hiff.mpr hpos, hcount hpos⟩

/-- A handler at the condition of its loop, after the entry has lost a share. -/
theorem Sound.of_removal (h : Sound s) (hn : s.adds[n]? = some a) {again : Bool}
    (hstage : a.stage = .removing again) {info : RequestInfo} (ht : Touches s s' a.info info)
    (hadds : s'.adds = s.adds) (htaken_eq : info.taken = (s.infos a.info).taken)
    (hshared : info.taken = false →
      (s'.requestMap (s.requestOf a) = some a.info ↔ 1 < s.shares a.info))
    (hcount : s'.requestMap (s.requestOf a) = some a.info → 1 < (s.infos a.info).numActiveInstances ∧
      info.numActiveInstances + 1 = (s.infos a.info).numActiveInstances) :
    Sound (s'.setAdded n { a with stage := .testing }) := by
  have ha := List.mem_of_getElem? hn
  have hlt := h.known a ha
  have hown := h.own a ha (active_of_stage (by simp [hstage]) (by simp [hstage]))
  have hcallbacks := h.callbacks a ha
  rw [hstage] at hcallbacks
  have hmem (b : Added) (hb : b ∈ (s'.setAdded n { a with stage := .testing }).adds) :
      b ∈ s.adds ∨ b = { a with stage := .testing } := hadds ▸ mem_setAdded hb
  have hshares (j : ℕ) : (s'.setAdded n { a with stage := .testing }).shares j +
      (if a.info == j && !again then 1 else 0) = s.shares j := by
    have hset := countP_set_add (fun a => a.info == j && a.stage.shares) hn { a with stage := .testing }
    rw [← hadds] at hset
    simpa [HttpRequestExecutor.shares, hstage, Stage.shares, hadds] using hset
  have hself := hshares a.info
  have ht' : Touches s (s'.setAdded n { a with stage := .testing }) a.info info := ⟨ht.fault, ht.created, ht.infos, ht.request,
    ht.hasCallback, ht.post, ht.taken, ht.entries⟩
  refine h.of_touches ht' (fun j hj => ?_) (fun b hb => ?_)
    (fun htaken => ?_) (fun htaken => ⟨fun b hb hinfo => ?_, fun hentry => ?_⟩)
  · simpa [hj.symm] using hshares j
  · refine (hmem b hb).imp_right ?_
    rintro rfl
    exact ⟨rfl, hlt, fun _ => hown, by simp, hcallbacks⟩
  · obtain ⟨rfl, -, hinstances⟩ := h.first_removal ha hstage (htaken_eq ▸ htaken)
    simp only [beq_self_eq_true, Bool.not_false, Bool.and_self, if_true] at hself
    have hentry := hshared htaken
    refine ⟨hentry.trans (by omega), fun hpos => ?_⟩
    have hcount := hcount (hentry.mpr (by omega))
    omega
  · rcases hmem b hb with hb | rfl
    · exact (h.taken a.info hlt (htaken_eq ▸ htaken)).1 b hb hinfo
    · rfl
  · have hcount := hcount hentry
    have hle := ((h.taken a.info hlt (htaken_eq ▸ htaken)).2 (ht.of_entry hentry)).2
    split_ifs at hself <;> omega

/-- The entry of an info has an active instance. -/
theorem Sound.instances_pos (h : Sound s) (ha : a ∈ s.adds)
    (hentry : s.requestMap (s.requestOf a) = some a.info) :
    0 < (s.infos a.info).numActiveInstances := by
  have hlt := h.known a ha
  cases htaken : (s.infos a.info).taken with
  | false =>
    obtain ⟨hiff, hcount⟩ := h.shared a.info hlt htaken
    have hpos := hiff.mp hentry
    rw [hcount hpos]
    exact hpos
  | true => exact ((h.taken a.info hlt htaken).2 hentry).1

/-- The handler of a call has removed a share of the entry: its own, or one more. -/
theorem Sound.removeRequest (h : Sound s) (hn : s.adds[n]? = some a) {again : Bool}
    (hstage : a.stage = .removing again) :
    Sound ((s.removeRequest (s.requestOf a)).setAdded n { a with stage := .testing }) := by
  have ha := List.mem_of_getElem? hn
  have hown := h.own a ha (active_of_stage (by simp [hstage]) (by simp [hstage]))
  have hfirst := h.first_removal ha hstage
  rcases removeRequest_cases hown with ⟨hnone, heq⟩ | ⟨hsome, hone, heq⟩ | ⟨hsome, hmore, heq⟩
  · rw [heq]
    have ht : Touches s s a.info (s.infos a.info) :=
      ⟨rfl, rfl, by simp, rfl, rfl, rfl, id, fun r => .inl rfl⟩
    refine h.of_removal hn hstage ht rfl rfl (fun htaken => ?_) (by simp [hnone])
    rw [(hfirst htaken).2.1] at hnone
    cases hnone
  · rw [heq]
    have hentry : (s.setEntry (s.requestOf a) none).requestMap (s.requestOf a) = none :=
      HttpRequestExecutor.setEntry_requestMap_self _
    have ht : Touches s (s.setEntry (s.requestOf a) none) a.info (s.infos a.info) := by
      refine ⟨rfl, rfl, by simp, rfl, rfl, rfl, id, fun r => ?_⟩
      rcases eq_or_ne r (s.requestOf a) with rfl | hr
      · exact .inr ⟨hentry, hsome⟩
      · exact .inl (HttpRequestExecutor.setEntry_requestMap_of_ne _ hr)
    refine h.of_removal hn hstage ht rfl rfl (fun htaken => ?_) (by simp)
    have hcount := (hfirst htaken).2.2
    rw [hentry]
    simp; omega
  · rw [heq]
    have hpos := h.instances_pos ha hsome
    refine h.of_removal hn hstage ⟨rfl, rfl, rfl, rfl, rfl, rfl, id, fun r => .inl rfl⟩ rfl rfl
      (fun htaken => ?_) (fun _ => ⟨by omega, Nat.sub_add_cancel hpos⟩)
    have hcount := (hfirst htaken).2.2
    exact iff_of_true hsome (by omega)

/-- The loop of a discarded response goes on where all calls that share the entry are answered. -/
theorem Sound.testAgain (h : Sound s) (hn : s.adds[n]? = some a) (hstage : a.stage = .testing)
    {j : ℕ} (hentry : s.requestMap (s.requestOf a) = some j)
    (hdiscard : (s.infos a.info).postActionType = .discard)
    (hanswered : ∀ b ∈ s.adds, s.requestOf b = s.requestOf a → b.stage.unanswered = false) :
    Sound ((s.setInfo j { s.infos j with taken := true }).setAdded n
      { a with stage := .removing true }) := by
  have ha := List.mem_of_getElem? hn
  have hlt := h.known a ha
  have hown := h.own a ha ⟨by simp [hstage], fun _ => hdiscard⟩
  obtain rfl : a.info = j := by simpa [hentry, eq_comm] using hown
  have hcallbacks := h.callbacks a ha
  rw [hstage] at hcallbacks
  have hshares (i : ℕ) : ((s.setInfo a.info { s.infos a.info with taken := true }).setAdded n
      { a with stage := .removing true }).shares i = s.shares i :=
    shares_set hn (b := { a with stage := .removing true }) rfl (by rw [hstage]; rfl) rfl
  refine h.of_touches (i := a.info) ⟨rfl, rfl, rfl, rfl, rfl, rfl, fun _ => rfl, fun r => .inl rfl⟩
    (fun i _ => hshares i) (fun b hb => ?_) (by simp) (fun _ => ⟨fun b hb hinfo => ?_, fun _ => ?_⟩)
  · refine (mem_setAdded hb).imp_right ?_
    rintro rfl
    exact ⟨rfl, hlt, fun _ => hown, fun _ => rfl, hcallbacks⟩
  · rcases mem_setAdded hb with hb | rfl
    · exact hanswered b hb (by rw [HttpRequestExecutor.requestOf, hinfo]; rfl)
    · rfl
  · rw [hshares]
    cases htaken : (s.infos a.info).taken with
    | false =>
      obtain ⟨hiff, hcount⟩ := h.shared a.info hlt htaken
      have hpos := hiff.mp hentry
      rw [hcount hpos]
      exact ⟨hpos, le_rfl⟩
    | true => exact (h.taken a.info hlt htaken).2 hentry

/-! ### The condition -/

/-- When the step keeps the entries. A request is added only while it is not pending and nothing can still
remove it, and with a number of retries that is not negative; an info is not added again after the loop
of a discarded response has taken a share; and such a loop goes on only where all calls of the request
are answered. -/
def HttpRequestExecutor.keeps (s : HttpRequestExecutor) : ExecutorLabel → Prop
  | .add request _ => s.stopped = false → 0 ≤ s.maxRetries ∧ s.requestMap request = none ∧
      ∀ a ∈ s.adds, s.requestOf a = request → ¬ s.active a
  | .addAgain n => s.stopped = false → ∀ a, s.adds[n]? = some a → (s.infos a.info).taken = false
  | .test n => ∀ a, s.adds[n]? = some a → (s.infos a.info).postActionType = .discard →
      s.requestMap (s.requestOf a) ≠ none →
      ∀ b ∈ s.adds, s.requestOf b = s.requestOf a → b.stage.unanswered = false
  | _ => True

namespace HttpRequestExecutor

variable (s)

instance (a : Added) : Decidable (s.active a) :=
  inferInstanceAs (Decidable (a.stage ≠ .ended ∧
    (a.stage = .testing → (s.infos a.info).postActionType = .discard)))

instance : (l : ExecutorLabel) → Decidable (s.keeps l)
  | .add request _ => inferInstanceAs (Decidable (s.stopped = false → 0 ≤ s.maxRetries ∧
      s.requestMap request = none ∧ ∀ a ∈ s.adds, s.requestOf a = request → ¬ s.active a))
  | .addAgain n => inferInstanceAs (Decidable (s.stopped = false →
      ∀ a ∈ s.adds[n]?, (s.infos a.info).taken = false))
  | .test n => inferInstanceAs (Decidable (∀ a ∈ s.adds[n]?,
      (s.infos a.info).postActionType = .discard → s.requestMap (s.requestOf a) ≠ none →
      ∀ b ∈ s.adds, s.requestOf b = s.requestOf a → b.stage.unanswered = false))
  | .setMaxRetries _ | .stop | .execute _ _ | .doRequestReturns _ | .handleResponse _ _ _ _
  | .callback _ | .callbackReturns _ | .removeRequest _ => inferInstanceAs (Decidable True)

end HttpRequestExecutor

theorem Sound.of_step (h : Sound s) (hstep : Step s l s') (hC : s.keeps l) : Sound s' := by
  cases hstep with
  | setMaxRetries | stop =>
    exact ⟨h.fault, h.known, h.entry, h.shared, h.taken, h.own, h.again, h.callbacks⟩
  | refused => exact h
  | add hstopped =>
    obtain ⟨-, hentry, hidle⟩ := hC hstopped
    exact h.of_enters (enters_add hstopped hentry) hidle
  | addAgain hn hstage hstopped =>
    exact h.addAgain (List.mem_of_getElem? hn) hstage hstopped (hC hstopped _ hn)
  | expired hn hstage howned =>
    rw [h.owned (List.mem_of_getElem? hn) hstage] at howned
    cases howned
  | lost hn hstage hentry =>
    rw [(h.of_unanswered (List.mem_of_getElem? hn) (by rw [hstage]; rfl)).2] at hentry
    cases hentry
  | perform hn hstage => exact h.perform hn hstage
  | @doRequestReturns i => exact h.doRequestReturns i
  | @retry n statusCode held a action info hn hstage hinfo =>
    have heq : (info.retryPerformedForError statusCode).entryEq (s.infos a.info) :=
      hinfo ▸ entryEq_overrideRetries (s.infos a.info) statusCode action.minRetries
    exact h.handled hn hstage heq (.inl rfl)
  | respond hn hstage _ hinfo =>
    subst hinfo
    exact h.handled hn hstage (entryEq_overrideRetries _ _ _) (.inr ⟨_, rfl⟩)
  | call hn hstage hcallback => exact h.call hn hstage hcallback
  | beginRemove hn hstage => exact h.beginRemove hn hstage
  | removeRequest hn hstage => exact h.removeRequest hn hstage
  | testEnds hn hstage => exact h.testEnds hn hstage
  | testAgain hn hstage hentry hdiscard =>
    exact h.testAgain hn hstage hentry hdiscard (hC _ hn hdiscard (by rw [hentry]; simp))

theorem Sound.init (maxRetries : ℤ) : Sound { maxRetries } := by
  constructor <;> simp

end HueStream.Network
