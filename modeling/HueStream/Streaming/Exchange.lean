import HueStream.Lib.Lists
import HueStream.Streaming.Starter

/-! # The requests of a call

Every part of a call moves an exchange along: it makes some requests, each with its answer, and leaves
the rest of the answers. What the answers do to the selected group is counted: each that reports it as
missing removes one group of its id. -/

namespace HueStream.Streaming

open HueStream.Data HueStream.Json HueStream.Lib

variable {ε : Context} {e e' e'' : Exchange} {level : ActivationOverrideLevel} {b b' : Bridge}
  {v : Verdict} {rs rs' : List Request} {ok : Bool} {id : String}

/-! ### Bridges -/

theorem isSupportingClipV2_congr {σ : BridgeSettings} (hsw : b'.swversion = b.swversion)
    (hmodel : b'.modelId = b.modelId) : b'.isSupportingClipV2 σ = b.isSupportingClipV2 σ := by
  unfold Bridge.isSupportingClipV2 Bridge.isValidModelId
  rw [hsw, hmodel]

/-- How many groups have the id of the selected one. -/
def selectedCount (b : Bridge) : ℕ := b.groups.countP fun g => g.id = b.selectedGroup

theorem getGroup_eq_none : b.getGroup = none ↔ selectedCount b = 0 := by
  unfold Bridge.getGroup Bridge.getGroupById selectedCount
  rw [List.find?_eq_none, List.countP_eq_zero]

theorem selectedCount_judge (v : Verdict) :
    selectedCount (b.judge v) = selectedCount b - [v].count .missing := by
  cases v with
  | missing => exact countP_eraseP _ _
  | _ => rfl

/-- Besides its groups, a verdict changes three flags of a bridge. -/
theorem judge_eq (r : Request) : b.judge r.verdict = { b with
    groups := (b.judge r.verdict).groups, isBusy := (b.judge r.verdict).isBusy
    isValidIp := b.isValidIp && [r].all (·.verdict ≠ .unreachable)
    isAuthorized := b.isAuthorized && [r].all (·.verdict ≠ .unauthorized) } := by
  cases hv : r.verdict <;> simp [Bridge.judge, Bridge.deleteGroup, hv]

/-- The ids of the groups decide how many have the selected one. -/
theorem selectedCount_congr (hids : b'.groups.map (·.id) = b.groups.map (·.id))
    (hselected : b'.selectedGroup = b.selectedGroup) : selectedCount b' = selectedCount b := by
  have hmap : ∀ b : Bridge, selectedCount b = (b.groups.map (·.id)).count b.selectedGroup := by
    intro b
    rw [selectedCount, List.count, List.countP_map]
    refine List.countP_congr fun g _ => ?_
    simp
  rw [hmap, hmap, hids, hselected]

theorem map_id_modifyGroup {f : Group → Group} (hf : ∀ g, (f g).id = g.id) :
    (b.modifyGroup id f).groups.map (·.id) = b.groups.map (·.id) :=
  map_modifyFirst fun g _ => hf g

theorem map_id_modify {f : Group → Group} (hf : ∀ g, (f g).id = g.id) (groups : List Group) (i : ℕ) :
    (groups.modify i f).map (·.id) = groups.map (·.id) := by
  induction groups generalizing i with
  | nil => cases i <;> rfl
  | cons g groups ih =>
    cases i with
    | zero => simp [hf]
    | succ i => simp [ih]

/-! ### Moves -/

/-- From `e` to `e'` the requests `rs` were made. Besides its groups, the answers may change three flags of
the bridge. -/
structure Moves (ε : Context) (e e' : Exchange) (rs : List Request) : Prop where
  bridge : ∃ groups isBusy, e'.bridge = { e.bridge with
    groups, isBusy
    isValidIp := e.bridge.isValidIp && rs.all (·.verdict ≠ .unreachable)
    isAuthorized := e.bridge.isAuthorized && rs.all (·.verdict ≠ .unauthorized) }
  requests : e'.requests = e.requests ++ rs
  answers : e.answers.map (verdict ε.atof (e.useClipV2 ε)) =
    rs.map Request.verdict ++ e'.answers.map (verdict ε.atof (e.useClipV2 ε))
  count : selectedCount e'.bridge = selectedCount e.bridge - (rs.map Request.verdict).count .missing

theorem Moves.selectedGroup (h : Moves ε e e' rs) :
    e'.bridge.selectedGroup = e.bridge.selectedGroup := by
  obtain ⟨groups, isBusy, hbridge⟩ := h.bridge
  rw [hbridge]

theorem Moves.useClipV2 (h : Moves ε e e' rs) : e'.useClipV2 ε = e.useClipV2 ε := by
  obtain ⟨groups, isBusy, hbridge⟩ := h.bridge
  unfold Exchange.useClipV2
  rw [hbridge]
  exact isSupportingClipV2_congr rfl rfl

theorem Moves.refl (e : Exchange) : Moves ε e e [] :=
  ⟨⟨e.bridge.groups, e.bridge.isBusy, by simp⟩, by simp, rfl, rfl⟩

theorem Moves.trans (h : Moves ε e e' rs) (h' : Moves ε e' e'' rs') : Moves ε e e'' (rs ++ rs') := by
  refine ⟨?_, ?_, ?_, ?_⟩
  · obtain ⟨groups, isBusy, hbridge⟩ := h.bridge
    obtain ⟨groups', isBusy', hbridge'⟩ := h'.bridge
    refine ⟨groups', isBusy', ?_⟩
    rw [hbridge', hbridge, List.all_append, List.all_append, Bool.and_assoc, Bool.and_assoc]
  · rw [h'.requests, h.requests, List.append_assoc]
  · have hanswers := h'.answers
    rw [h.useClipV2] at hanswers
    rw [h.answers, hanswers, List.map_append, List.append_assoc]
  · rw [h'.count, h.count, List.map_append, List.count_append]
    omega

/-- A change of groups that keeps their ids makes no request. -/
theorem Moves.groups (h : Moves ε e e' rs) {groups : List Group}
    (hids : groups.map (·.id) = e'.bridge.groups.map (·.id)) :
    Moves ε e { e' with bridge.groups := groups } rs := by
  refine ⟨?_, h.requests, h.answers, ?_⟩
  · obtain ⟨groups', isBusy, hbridge⟩ := h.bridge
    refine ⟨groups, isBusy, ?_⟩
    rw [hbridge]
  · rw [← h.count]
    exact selectedCount_congr hids rfl

/-- A request to a group with the verdict `v` about its answer. -/
def Request.Is (r : Request) (id : String) (activate : Bool) (v : Verdict) : Prop :=
  r.groupId = id ∧ r.activate = activate ∧ r.verdict = v

theorem executeUrl_ok {url : String} {activate : Bool}
    (h : e.executeUrl ε url id activate = .ok (ok, e')) :
    ∃ r v, r.Is id activate v ∧ Moves ε e e' [r] ∧ ok = decide (v = .ok) ∧
      e'.bridge = e.bridge.judge v := by
  unfold Exchange.executeUrl at h
  cases hanswers : e.answers with
  | nil =>
    rw [hanswers] at h
    cases h
  | cons answer answers =>
    rw [hanswers] at h
    obtain ⟨rfl, rfl⟩ := Prod.mk.inj (Except.ok.inj h)
    refine ⟨_, _, ⟨rfl, rfl, rfl⟩, ⟨?_, rfl, ?_, ?_⟩, rfl, rfl⟩
    · exact ⟨_, _, judge_eq ⟨url, id, activate, e.data ε activate, _⟩⟩
    · rw [hanswers]
      rfl
    · exact selectedCount_judge _

/-- A request that does not return waits for its answer. -/
theorem executeUrl_error {url : String} {activate : Bool} {failure : Failure}
    (h : e.executeUrl ε url id activate = .error failure) : failure = .waiting := by
  unfold Exchange.executeUrl at h
  cases hanswers : e.answers with
  | nil =>
    rw [hanswers] at h
    exact (Except.error.inj h).symm
  | cons answer answers =>
    rw [hanswers] at h
    cases h

/-- The bridge after the deactivation of a group. -/
def deactivated (b : Bridge) (id : String) (v : Verdict) : Bridge :=
  if v = .ok then (b.judge v).modifyGroup id released else b.judge v

theorem deactivateGroup_ok (h : e.deactivateGroup ε id = .ok (ok, e')) :
    ∃ r v, r.Is id false v ∧ Moves ε e e' [r] ∧ ok = decide (v = .ok) ∧
      e'.bridge = deactivated e.bridge id v := by
  unfold Exchange.deactivateGroup at h
  cases hexecute : e.executeUrl ε (e.groupUrl ε id) id false with
  | error failure =>
    rw [hexecute] at h
    cases h
  | ok r =>
    obtain ⟨done, e₁⟩ := r
    rw [hexecute] at h
    obtain ⟨r, v, hr, hmoves, rfl, hbridge⟩ := executeUrl_ok hexecute
    by_cases hv : v = .ok
    · subst hv
      obtain ⟨rfl, rfl⟩ := Prod.mk.inj (Except.ok.inj h)
      refine ⟨r, .ok, hr, hmoves.groups (map_id_modifyGroup fun _ => rfl), rfl, ?_⟩
      rw [deactivated, if_pos rfl, ← hbridge]
    · have hfalse : decide (v = .ok) = false := decide_eq_false hv
      simp only [hfalse] at h
      obtain ⟨rfl, rfl⟩ := Prod.mk.inj (Except.ok.inj h)
      refine ⟨r, v, hr, hmoves, hfalse.symm, ?_⟩
      rw [deactivated, if_neg hv, ← hbridge]

theorem deactivateGroup_error {failure : Failure} (h : e.deactivateGroup ε id = .error failure) :
    failure = .waiting := by
  unfold Exchange.deactivateGroup at h
  cases hexecute : e.executeUrl ε (e.groupUrl ε id) id false with
  | error failure' =>
    rw [hexecute] at h
    obtain rfl : failure' = failure := Except.error.inj h
    exact executeUrl_error hexecute
  | ok r =>
    rw [hexecute] at h
    obtain ⟨done, e₁⟩ := r
    cases done <;> cases h

end HueStream.Streaming
