import HueStream.Network.Entries

/-! # Every accepted request is answered

Of the runs that keep the entries of the map: every accepted call of `add` is answered once, no expired
info is dereferenced, and what the executor waits for is there exactly as long as a call is to be
answered or removed. How often a request is performed is bounded by what its retries, and the calls that
add it again, can still spend. -/

namespace HueStream.Network

open HueStream.Lib

variable {s s' : HttpRequestExecutor} {l : ExecutorLabel} {n i request : ℕ} {a b : Added}

/-! ### The number of attempts -/

def Stage.isQueued : Stage → Bool
  | .queued _ => true
  | _ => false

namespace HttpRequestExecutor

/-- The calls that are about to perform the request of an info. -/
def queued (s : HttpRequestExecutor) (i : ℕ) : ℕ :=
  s.adds.countP fun a => a.info == i && a.stage.isQueued

end HttpRequestExecutor

/-- The delegate asks for no minimum of retries. -/
def ExecutorLabel.asksNoMinimum : ExecutorLabel → Prop
  | .handleResponse _ _ action _ => action.minRetries = 0
  | _ => True

/-- What an info has been performed and what it can still spend, with so many calls queued. -/
def RequestInfo.Spends (info : RequestInfo) (queued : ℕ) : Prop :=
  0 ≤ info.retryCountdown ∧
    info.attempts + queued + info.retryCountdown ≤ info.maxRetries + 1 + info.readds

theorem RequestInfo.overrideRetries_zero {info : RequestInfo} (h : 0 ≤ info.retryCountdown)
    (statusCode : ℕ) : info.overrideRetries statusCode 0 = info := by
  unfold RequestInfo.overrideRetries
  rw [if_neg]
  rintro ⟨-, hlt⟩
  have hzero : Int.bmod ((0 : ℕ) : ℤ) (2 ^ 32) = 0 := by decide
  omega

/-- Every info keeps to what it can spend. -/
def Spends (s : HttpRequestExecutor) : Prop := ∀ i < s.created, (s.infos i).Spends (s.queued i)

/-- The parts of an info that tell what it can spend. -/
def RequestInfo.spendsEq (info info' : RequestInfo) : Prop :=
  info.retryCountdown = info'.retryCountdown ∧ info.attempts = info'.attempts ∧
    info.maxRetries = info'.maxRetries ∧ info.readds = info'.readds

theorem RequestInfo.Spends.congr {info info' : RequestInfo} {k k' : ℕ} (h : info'.Spends k')
    (heq : info.spendsEq info') (hle : k ≤ k') : info.Spends k := by
  obtain ⟨hcountdown, hattempts, hmax, hreadds⟩ := heq
  unfold RequestInfo.Spends at h ⊢
  rw [hcountdown, hattempts, hmax, hreadds]
  omega

theorem queued_set_add (hn : s.adds[n]? = some a) (hadds : s'.adds = s.adds.set n b)
    (hinfo : b.info = a.info) (i : ℕ) :
    s'.queued i + (if a.info == i && a.stage.isQueued then 1 else 0) =
      s.queued i + if a.info == i && b.stage.isQueued then 1 else 0 := by
  unfold HttpRequestExecutor.queued
  rw [hadds, ← hinfo]
  have hset := countP_set_add (fun a => a.info == i && a.stage.isQueued) hn b
  rw [hinfo] at hset ⊢
  exact hset

/-- A call goes on with its info. -/
theorem Spends.of_move (h : Spends s) (hn : s.adds[n]? = some a) (hcreated : s'.created = s.created)
    {info : RequestInfo} (hinfos : s'.infos = Function.update s.infos a.info info)
    (hadds : s'.adds = s.adds.set n b) (hb : b.info = a.info)
    (hinfo : ∀ k, k + (if a.stage.isQueued then 1 else 0) =
      s.queued a.info + (if b.stage.isQueued then 1 else 0) → (s.infos a.info).Spends (s.queued a.info) →
        info.Spends k) : Spends s' := by
  intro i hlt
  rw [hcreated] at hlt
  have hqueued := queued_set_add hn hadds hb i
  rcases eq_or_ne i a.info with rfl | hne
  · rw [hinfos, Function.update_self]
    exact hinfo _ (by simpa using hqueued) (h a.info hlt)
  · rw [hinfos, Function.update_of_ne hne]
    have heq : s'.queued i = s.queued i := by simpa [hne.symm] using hqueued
    rw [heq]
    exact h i hlt

/-- Nothing is spent. -/
theorem Spends.of_le (h : Spends s) (hcreated : s'.created = s.created)
    (hinfos : ∀ i, (s'.infos i).spendsEq (s.infos i)) (hqueued : ∀ i, s'.queued i ≤ s.queued i) :
    Spends s' :=
  fun i hlt => (h i (hcreated ▸ hlt)).congr (hinfos i) (hqueued i)

theorem queued_set_le (hn : s.adds[n]? = some a) (hadds : s'.adds = s.adds.set n b)
    (hinfo : b.info = a.info) (hstage : b.stage.isQueued = false) (i : ℕ) :
    s'.queued i ≤ s.queued i := by
  have hset := queued_set_add hn hadds hinfo i
  rw [hstage, Bool.and_false] at hset
  simp only [Bool.false_eq_true, if_false] at hset
  omega

theorem setInfo_spendsEq {info : RequestInfo} (hinfo : info.spendsEq (s.infos i)) (j : ℕ) :
    ((s.setInfo i info).infos j).spendsEq (s.infos j) := by
  rcases eq_or_ne j i with rfl | hne
  · rw [HttpRequestExecutor.setInfo_infos_self]
    exact hinfo
  · rw [HttpRequestExecutor.setInfo_infos_of_ne _ hne]
    exact ⟨rfl, rfl, rfl, rfl⟩

theorem removeRequest_spendsEq (request j : ℕ) :
    ((s.removeRequest request).infos j).spendsEq (s.infos j) := by
  unfold HttpRequestExecutor.removeRequest
  split
  · exact ⟨rfl, rfl, rfl, rfl⟩
  · split_ifs
    · exact ⟨rfl, rfl, rfl, rfl⟩
    · refine setInfo_spendsEq ?_ j
      exact ⟨rfl, rfl, rfl, rfl⟩

theorem removeRequest_adds (request : ℕ) : (s.removeRequest request).adds = s.adds := by
  unfold HttpRequestExecutor.removeRequest
  split
  · rfl
  · split_ifs <;> rfl

theorem removeRequest_created (request : ℕ) : (s.removeRequest request).created = s.created := by
  unfold HttpRequestExecutor.removeRequest
  split
  · rfl
  · split_ifs <;> rfl

theorem Spends.of_enters (h : Spends s) (hs : Sound s) (he : Enters s s' request)
    (hnew : (s'.infos s.created).Spends 1) : Spends s' := by
  intro i hlt
  have hqueued : s'.queued i = s.queued i + if s.created == i then 1 else 0 := by
    unfold HttpRequestExecutor.queued
    rw [he.adds, List.countP_append, List.countP_singleton]
    simp [Stage.isQueued]
  rcases eq_or_ne i s.created with rfl | hne
  · have hzero : s.queued s.created = 0 :=
      List.countP_eq_zero.mpr fun a ha heq => by
        rw [Bool.and_eq_true, beq_iff_eq] at heq
        exact (hs.known a ha).ne heq.1
    rw [hqueued, hzero]
    simpa using hnew
  · rw [he.created] at hlt
    rw [hqueued, he.infos i hne]
    simpa [hne.symm] using h i (by omega)

theorem Spends.addAgain (h : Spends s) (hstopped : s.stopped = false)
    (hentry : s.requestMap (s.infos i).request = some i) : Spends (s.addInfo i) := by
  rw [addInfo_eq hstopped hentry]
  intro j hlt
  have hspends := h j hlt
  have hqueued : ((s.setInfo i { (s.infos i).addedAgain with
      numActiveInstances := (s.infos i).numActiveInstances + 1 }).append
        ⟨i, .queued true, 0⟩).queued j = s.queued j + if i == j then 1 else 0 := by
    unfold HttpRequestExecutor.queued
    rw [HttpRequestExecutor.append_adds, HttpRequestExecutor.setInfo_adds, List.countP_append,
      List.countP_singleton]
    simp [Stage.isQueued]
  rw [hqueued, HttpRequestExecutor.append_infos]
  rcases eq_or_ne j i with rfl | hne
  · rw [HttpRequestExecutor.setInfo_infos_self]
    unfold RequestInfo.Spends RequestInfo.addedAgain at *
    simp only [beq_self_eq_true, if_true]
    omega
  · rw [HttpRequestExecutor.setInfo_infos_of_ne _ hne]
    simpa [hne.symm] using hspends

theorem Spends.of_step (h : Spends s) (hs : Sound s) (hstep : Step s l s') (hC : s.keeps l)
    (hmin : l.asksNoMinimum) : Spends s' := by
  cases hstep with
  | setMaxRetries | stop | refused => exact h
  | @add request hasCallback hstopped =>
    obtain ⟨hmax, hentry, -⟩ := hC hstopped
    have he : Enters s (s.add request hasCallback) request := enters_add hstopped hentry
    refine h.of_enters hs he ?_
    have hnew : (s.add request hasCallback).infos s.created =
        { request, retryCountdown := s.maxRetries, hasCallback, maxRetries := s.maxRetries } := by
      simp [HttpRequestExecutor.add, HttpRequestExecutor.addRequest, hstopped, hentry,
        HttpRequestExecutor.setInfo]
    rw [hnew]
    exact ⟨hmax, by simp; omega⟩
  | addAgain hn hstage hstopped =>
    have ha := List.mem_of_getElem? hn
    obtain ⟨hiff, -⟩ := hs.shared _ (hs.known _ ha) (hC hstopped _ hn)
    exact h.addAgain hstopped (hiff.mpr (shares_pos ha (by rw [hstage]; rfl)))
  | expired => exact h
  | lost hn hstage => exact h.of_le rfl (fun _ => ⟨rfl, rfl, rfl, rfl⟩) (queued_set_le hn rfl rfl rfl)
  | perform hn hstage =>
    refine h.of_move hn rfl rfl rfl rfl fun k hk hspends => ?_
    rw [hstage] at hk
    simp only [Stage.isQueued, if_true, Bool.false_eq_true, if_false] at hk
    simp only [RequestInfo.Spends, RequestInfo.performed] at *
    omega
  | @doRequestReturns i =>
    exact h.of_le rfl (setInfo_spendsEq ⟨rfl, rfl, rfl, rfl⟩) fun _ => le_rfl
  | @retry n statusCode held a action info hn hstage hinfo hcountdown =>
    refine h.of_move hn rfl rfl rfl rfl fun k hk hspends => ?_
    have hmin : action.minRetries = 0 := hmin
    rw [hmin, RequestInfo.overrideRetries_zero hspends.1] at hinfo
    subst hinfo
    rw [hstage] at hk
    simp only [Stage.isQueued, if_true, Bool.false_eq_true, if_false] at hk
    simp only [RequestInfo.Spends, RequestInfo.retryPerformedForError] at *
    omega
  | @respond n statusCode minRetries held a action type info hn hstage hmin' hinfo =>
    refine h.of_move hn rfl rfl rfl rfl fun k hk hspends => ?_
    have hmin : action.minRetries = 0 := hmin
    have hzero : minRetries = 0 := by omega
    rw [hzero, RequestInfo.overrideRetries_zero hspends.1] at hinfo
    subst hinfo
    rw [hstage] at hk
    simpa [Stage.isQueued] using hspends.congr ⟨rfl, rfl, rfl, rfl⟩ (by simp [Stage.isQueued] at hk; omega)
  | call hn => exact h.of_le rfl (fun _ => ⟨rfl, rfl, rfl, rfl⟩) (queued_set_le hn rfl rfl rfl)
  | beginRemove hn =>
    exact h.of_le rfl (setInfo_spendsEq ⟨rfl, rfl, rfl, rfl⟩) (queued_set_le hn rfl rfl rfl)
  | @removeRequest n a _ hn =>
    refine h.of_le (removeRequest_created _) (removeRequest_spendsEq _)
      (queued_set_le (b := { a with stage := .testing }) hn ?_ rfl rfl)
    exact congrArg (List.set · n _) (removeRequest_adds _)
  | testEnds hn => exact h.of_le rfl (fun _ => ⟨rfl, rfl, rfl, rfl⟩) (queued_set_le hn rfl rfl rfl)
  | testAgain hn =>
    exact h.of_le rfl (setInfo_spendsEq ⟨rfl, rfl, rfl, rfl⟩) (queued_set_le hn rfl rfl rfl)

/-! ### Every run -/

/-- **What is promised of the accepted calls of `add`.** -/
structure Answers (s : HttpRequestExecutor) : Prop where
  /-- No expired info was dereferenced. -/
  fault : s.fault = false
  /-- The callback of the info is called once for each call, where there is one: not while the call is
  unanswered, and not again. -/
  callbacks : ∀ a ∈ s.adds, a.callbacks =
    if a.stage.unanswered || !(s.infos a.info).hasCallback then 0 else 1
  /-- A call that is not answered goes on: its next step can be made, or a `do_request` with its info is
  still to return. -/
  goesOn : ∀ n a, s.adds[n]? = some a → a.stage.unanswered = true →
    ∃ l, (HttpRequestExecutor.added l = some n ∨ l = .doRequestReturns a.info) ∧ (s.step l).isSome
  /-- Its entry is in the map, so `stop` and `wait_for_pending_requests` do not return. -/
  pending : ∀ a ∈ s.adds, a.stage.unanswered = true →
    s.requestMap (s.requestOf a) = some a.info
  /-- They return when every call has removed its share. -/
  returns : (∀ a ∈ s.adds, a.stage.shares = false) → s.idle

theorem Sound.goesOn (h : Sound s) (hn : s.adds[n]? = some a) (hstage : a.stage.unanswered = true) :
    ∃ l, (HttpRequestExecutor.added l = some n ∨ l = .doRequestReturns a.info) ∧
      (s.step l).isSome := by
  have howned := h.owned (List.mem_of_getElem? hn) hstage
  generalize hstage' : a.stage = stage at hstage
  cases stage with
  | queued strong =>
    refine ⟨.execute n false, .inl rfl, ?_⟩
    simp [HttpRequestExecutor.step, h.fault, HttpRequestExecutor.added, hn,
      HttpRequestExecutor.stepOf, hstage']
  | requested =>
    refine ⟨.handleResponse n 0 ⟨.none, 0⟩ false, .inl rfl, ?_⟩
    simp [HttpRequestExecutor.step, h.fault, HttpRequestExecutor.added, hn,
      HttpRequestExecutor.stepOf, hstage']
  | responded action =>
    by_cases hidle : 0 < (s.infos a.info).idleStateCounter
    · exact ⟨.doRequestReturns a.info, .inr rfl, by simp [HttpRequestExecutor.step, h.fault, hidle]⟩
    · refine ⟨.callback n, .inl rfl, ?_⟩
      have hzero : (s.infos a.info).idleStateCounter = 0 := by omega
      cases hcallback : (s.infos a.info).hasCallback <;>
        simp [HttpRequestExecutor.step, h.fault, HttpRequestExecutor.added, hn,
          HttpRequestExecutor.stepOf, hstage', HttpRequestExecutor.callback, hcallback, hzero]
  | calling | removing | testing | ended => cases hstage

theorem Sound.idle (h : Sound s) (hshares : ∀ a ∈ s.adds, a.stage.shares = false) : s.idle := by
  intro request
  by_contra hentry
  obtain ⟨i, hi⟩ := Option.ne_none_iff_exists'.mp hentry
  obtain ⟨hlt, rfl⟩ := h.entry request i hi
  have hzero : s.shares i = 0 := by
    refine List.countP_eq_zero.mpr fun a ha heq => ?_
    rw [Bool.and_eq_true, hshares a ha] at heq
    cases heq.2
  cases htaken : (s.infos i).taken with
  | false =>
    have hpos := (h.shared i hlt htaken).1.mp hi
    omega
  | true =>
    have hle := (h.taken i hlt htaken).2 hi
    omega

theorem Sound.answers (h : Sound s) : Answers s where
  fault := h.fault
  callbacks := h.callbacks
  goesOn _ _ hn hstage := h.goesOn hn hstage
  pending _ ha hstage := (h.of_unanswered ha hstage).2
  returns := h.idle

/-- **Every accepted request is answered once**, in every state of a run whose steps all keep the entries;
and where the delegate asks for no minimum of retries, a request is performed at most once more than the
number of retries, and once more each time its info is added again. -/
theorem answers_of_keeps {ts : List (Transition HttpRequestExecutor ExecutorLabel)}
    (h : httpRequestExecutor.Run ts s) (hC : ∀ t ∈ ts, t.before.keeps t.label) :
    Answers s ∧ ((∀ t ∈ ts, t.label.asksNoMinimum) → ∀ i < s.created,
      ((s.infos i).attempts : ℤ) ≤ (s.infos i).maxRetries + 1 + (s.infos i).readds) := by
  have hinit (s : HttpRequestExecutor) (hs : httpRequestExecutor.Init s) : Sound s := by
    obtain ⟨maxRetries, rfl⟩ := hs
    exact .init maxRetries
  constructor
  · have hs : Sound s := h.invariant_of (C := HttpRequestExecutor.keeps) hinit
      (fun s l s' hstep hkeeps hs => hs.of_step (step_cases hstep) hkeeps) hC
    exact hs.answers
  · intro hmin i hlt
    have hs : Sound s ∧ Spends s := by
      refine h.invariant_of (C := fun s l => s.keeps l ∧ l.asksNoMinimum) (I := fun s => Sound s ∧ Spends s)
        (fun s hs => ⟨hinit s hs, ?_⟩) (fun s l s' hstep hkeeps hs => ?_)
        (fun t ht => ⟨hC t ht, hmin t ht⟩)
      · obtain ⟨maxRetries, rfl⟩ := hs
        intro i hi
        cases hi
      · exact ⟨hs.1.of_step (step_cases hstep) hkeeps.1,
          hs.2.of_step hs.1 (step_cases hstep) hkeeps.1 hkeeps.2⟩
    have hspends := hs.2 i hlt
    unfold RequestInfo.Spends at hspends
    omega

/-- A request with one retry is retried and fails; in its callback it is added again, and answered. -/
theorem answers_of_keeps_added_again : ∃ ts s, httpRequestExecutor.Run ts s ∧
    s.adds.map Added.callbacks = [1, 1] ∧ (s.infos 0).attempts = 3 ∧ Answers s := by
  obtain ⟨ts, s, hrun, h⟩ := Machine.exists_run (M := httpRequestExecutor) (s := { maxRetries := 1 })
    [.add 7 true, .execute 0 false, .handleResponse 0 500 ⟨.retry, 0⟩ false, .execute 0 false,
      .doRequestReturns 0, .doRequestReturns 0, .handleResponse 0 500 ⟨.retry, 0⟩ false, .callback 0,
      .addAgain 0, .callbackReturns 0, .removeRequest 0, .test 0, .execute 1 false,
      .doRequestReturns 0, .handleResponse 1 200 ⟨.none, 0⟩ false, .callback 1, .callbackReturns 1,
      .removeRequest 1, .test 1]
    (fun ts s => decide (s.adds.map Added.callbacks = [1, 1] ∧ (s.infos 0).attempts = 3) &&
      ts.all fun t => decide (t.before.keeps t.label)) ⟨1, rfl⟩ (by decide +kernel)
  simp only [Bool.and_eq_true, decide_eq_true_eq, List.all_eq_true] at h
  exact ⟨ts, s, hrun, h.1.1, h.1.2, (answers_of_keeps hrun h.2).1⟩

/-- A request is added while it is pending: the second call looks up an info that has expired. And a
request is added again in its callback, after a response that the delegate discards: the handler removes
the entry, and the second call ends without an answer. -/
theorem exists_unanswered :
    (∃ ts s, httpRequestExecutor.Run ts s ∧ s.fault = true ∧ ¬ Answers s) ∧
    ∃ ts s, httpRequestExecutor.Run ts s ∧ s.fault = false ∧
      (∀ a ∈ s.adds, a.stage = .ended ∧ (s.infos a.info).hasCallback = true) ∧
      s.adds.map Added.callbacks = [1, 0] ∧ ¬ Answers s := by
  constructor
  · obtain ⟨ts, s, hrun, h⟩ := Machine.exists_run (M := httpRequestExecutor) (s := { maxRetries := 1 })
      [.add 7 true, .add 7 true, .execute 1 false] (fun _ s => s.fault) ⟨1, rfl⟩ (by decide +kernel)
    refine ⟨ts, s, hrun, h, fun hs => ?_⟩
    have hfault := hs.fault
    rw [h] at hfault
    cases hfault
  · obtain ⟨ts, s, hrun, h⟩ := Machine.exists_run (M := httpRequestExecutor) (s := { maxRetries := 1 })
      [.add 7 true, .execute 0 false, .doRequestReturns 0, .handleResponse 0 500 ⟨.discard, 0⟩ false,
        .callback 0, .addAgain 0, .callbackReturns 0, .removeRequest 0, .test 0, .removeRequest 0,
        .test 0, .execute 1 false]
      (fun _ s => decide (s.fault = false ∧
        (∀ a ∈ s.adds, a.stage = .ended ∧ (s.infos a.info).hasCallback = true) ∧
        s.adds.map Added.callbacks = [1, 0])) ⟨1, rfl⟩ (by decide +kernel)
    obtain ⟨hfault, hended, hcallbacks⟩ := of_decide_eq_true h
    refine ⟨ts, s, hrun, hfault, hended, hcallbacks, fun hs => ?_⟩
    have hzero : 0 ∈ s.adds.map Added.callbacks := by simp [hcallbacks]
    obtain ⟨a, ha, ha0⟩ := List.mem_map.mp hzero
    have hone := hs.callbacks a ha
    rw [(hended a ha).1, (hended a ha).2, ha0] at hone
    cases hone

end HueStream.Network
