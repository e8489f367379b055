import HueStream.Streaming.Exchange

/-! # Starting a stream

`StartStream` makes at most five requests: it may release a group of another client, activates the
selected group, and when the bridge is busy may release another group, deactivates the selected one and
activates it once more. It dereferences the selected group before the first request and after the
last. -/

namespace HueStream.Streaming

open HueStream.Data HueStream.Json HueStream.Lib

variable {ε : Context} {e e' e₁ : Exchange} {level : ActivationOverrideLevel} {b : Bridge}
  {answers : List HttpAnswer} {ok : Bool}

/-! ### Where it goes wrong -/

/-- The verdicts about the answers of a call. -/
def verdicts (ε : Context) (b : Bridge) (answers : List HttpAnswer) : List Verdict :=
  answers.map (verdict ε.atof (b.isSupportingClipV2 ε.settings))

/-- In the second version the selected group is compared with the one of another client, and there is
no selected group. -/
def NullSelected (ε : Context) (level : ActivationOverrideLevel) (b : Bridge) : Prop :=
  b.isSupportingClipV2 ε.settings = true ∧ level = .sameGroup ∧ b.getGroupsOwnedByOtherClient ≠ [] ∧
    b.getGroup = none

/-- The last answer is a success, and the answers before it have reported the selected group as missing
as often as the bridge has it. -/
def LosesGroup (b : Bridge) (vs : List Verdict) : Prop :=
  vs.getLast? = some .ok ∧ selectedCount b ≤ vs.count .missing

/-- In the second version a group of another client is released before the first attempt, the bridge is
busy all the same, and a second group is released. -/
def ReleasesTwo (ε : Context) (level : ActivationOverrideLevel) (b : Bridge) (vs : List Verdict) :
    Prop :=
  b.isSupportingClipV2 ε.settings = true ∧ level = .always ∧ [.ok, .busy, .ok] <+: vs ∧
    ∃ g ∈ b.getGroupsOwnedByOtherClient.head?,
      ∃ h ∈ (b.modifyGroup g.id released).getGroupsOwnedByOtherClient.head?,
        g.id ≠ b.selectedGroup ∧ h.id ≠ b.selectedGroup ∧ g.id ≠ h.id

/-! ### What is promised -/

/-- The ids of other groups that were deactivated. -/
def deactivatedOthers (b : Bridge) (requests : List Request) : List String :=
  (requests.filter fun r => !r.activate && r.verdict = .ok && r.groupId ≠ b.selectedGroup).map
    Request.groupId

/-- What a call promises: no null group; `true` only after a successful activation, with the selected
group active and owned; and at most one other group deactivated, where the level permits it. -/
def Keeps (level : ActivationOverrideLevel) (b : Bridge) : Except Failure (Bool × Exchange) → Prop
  | .error _ => False
  | .ok (result, e) =>
    (result = true → (∃ r ∈ e.requests.getLast?, r.activate = true ∧ r.verdict = .ok) ∧
      ∃ g ∈ e.bridge.getGroup, g.active = true ∧ g.owner = e.bridge.appId) ∧
    (∀ x ∈ deactivatedOthers b e.requests, ∀ y ∈ deactivatedOthers b e.requests, x = y) ∧
    (deactivatedOthers b e.requests ≠ [] → level = .always)

/-- The call gets all the answers it waits for, and no more. -/
def Uses : Except Failure (Bool × Exchange) → Prop
  | .error (.nullGroup e) => e.answers = []
  | .error .waiting => False
  | .ok (_, e) => e.answers = []

/-! ### The parts of a call -/

/-- The first block makes no request, or releases the first group of another client. -/
theorem releaseOther_cases {o : Except Failure Exchange} (h : e.releaseOther ε level = o)
    (ho : o ≠ .error .waiting) :
    (NullSelected ε level e.bridge ∧ o = .error (.nullGroup e)) ∨
    (¬ NullSelected ε level e.bridge ∧ o = .ok e ∧ ¬ (e.useClipV2 ε = true ∧ level = .always ∧
      e.bridge.getGroupsOwnedByOtherClient ≠ [])) ∨
    (¬ NullSelected ε level e.bridge ∧ ∃ e₁ r v, ∃ g ∈ e.bridge.getGroupsOwnedByOtherClient.head?,
      o = .ok e₁ ∧ Moves ε e e₁ [r] ∧ r.Is g.id false v ∧ e₁.bridge = deactivated e.bridge g.id v ∧
      e.useClipV2 ε = true ∧ (level = .always ∨ g.id = e.bridge.selectedGroup)) := by
  have hrelease : ∀ g : Group, (e.deactivateGroup ε g.id).map Prod.snd = o →
      ∃ e₁ r v, o = .ok e₁ ∧ Moves ε e e₁ [r] ∧ r.Is g.id false v ∧
        e₁.bridge = deactivated e.bridge g.id v := by
    intro g hg
    cases hd : e.deactivateGroup ε g.id with
    | error failure =>
      rw [hd] at hg
      rw [← hg, deactivateGroup_error hd] at ho
      exact absurd rfl ho
    | ok result =>
      obtain ⟨done, e₁⟩ := result
      rw [hd] at hg
      obtain ⟨r, v, hr, hmoves, -, hbridge⟩ := deactivateGroup_ok hd
      exact ⟨e₁, r, v, hg.symm, hmoves, hr, hbridge⟩
  unfold Exchange.releaseOther at h
  by_cases hclip : e.useClipV2 ε = true
  · rw [if_neg (by simp [hclip])] at h
    cases hothers : e.bridge.getGroupsOwnedByOtherClient with
    | nil =>
      rw [hothers] at h
      exact .inr (.inl ⟨fun hnull => hnull.2.2.1 hothers, h.symm, fun hnot => hnot.2.2 rfl⟩)
    | cons g others =>
      simp only [hothers] at h
      cases level with
      | never =>
        refine .inr (.inl ⟨fun hnull => ?_, h.symm, fun hnot => ?_⟩)
        · cases hnull.2.1
        · cases hnot.2.1
      | always =>
        obtain ⟨e₁, r, v, ho, hmoves, hr, hbridge⟩ := hrelease g h
        exact .inr (.inr ⟨(fun hnull => by cases hnull.2.1), e₁, r, v, g, rfl, ho, hmoves, hr, hbridge,
          hclip, .inl rfl⟩)
      | sameGroup =>
        cases hgroup : e.bridge.getGroup with
        | none =>
          simp only [hgroup] at h
          exact .inl ⟨⟨hclip, rfl, by simp [hothers], hgroup⟩, h.symm⟩
        | some group =>
          simp only [hgroup] at h
          have hnull : ¬ NullSelected ε .sameGroup e.bridge := fun hnull => by
            have := hnull.2.2.2
            rw [hgroup] at this
            contradiction
          have hselected : group.id = e.bridge.selectedGroup := by
            simpa using List.find?_some hgroup
          split_ifs at h with hid
          · obtain ⟨e₁, r, v, ho, hmoves, hr, hbridge⟩ := hrelease g h
            exact .inr (.inr ⟨hnull, e₁, r, v, g, rfl, ho, hmoves, hr, hbridge, hclip,
              .inr (hid.symm.trans hselected)⟩)
          · exact .inr (.inl ⟨hnull, h.symm, fun hnot => by cases hnot.2.1⟩)
  · rw [if_pos (by simp [hclip])] at h
    exact .inr (.inl ⟨fun hnull => hclip hnull.1, h.symm, fun hnot => hclip hnot.1⟩)

/-- Before the second attempt no request is made, or the first group of another client is released. -/
theorem releaseFirst_cases {o : Except Failure Exchange} (h : e.releaseFirst ε level = o)
    (ho : o ≠ .error .waiting) :
    (o = .ok e ∧ ¬ (level = .always ∧ e.bridge.getGroupsOwnedByOtherClient ≠ [])) ∨
    (level = .always ∧ ∃ e₁ r v, ∃ g ∈ e.bridge.getGroupsOwnedByOtherClient.head?,
      o = .ok e₁ ∧ Moves ε e e₁ [r] ∧ r.Is g.id false v) := by
  unfold Exchange.releaseFirst at h
  cases level with
  | never => exact .inl ⟨h.symm, fun hnot => by cases hnot.1⟩
  | sameGroup => exact .inl ⟨h.symm, fun hnot => by cases hnot.1⟩
  | always =>
    cases hothers : e.bridge.getGroupsOwnedByOtherClient with
    | nil =>
      rw [hothers] at h
      exact .inl ⟨h.symm, fun hnot => hnot.2 rfl⟩
    | cons g others =>
      simp only [hothers] at h
      refine .inr ⟨rfl, ?_⟩
      cases hd : e.deactivateGroup ε g.id with
      | error failure =>
        rw [hd] at h
        rw [← h, deactivateGroup_error hd] at ho
        exact absurd rfl ho
      | ok result =>
        obtain ⟨done, e₁⟩ := result
        rw [hd] at h
        obtain ⟨r, v, hr, hmoves, -, -⟩ := deactivateGroup_ok hd
        cases done with
        | true => exact ⟨_, r, v, g, rfl, h.symm,
          hmoves.groups (map_id_modify (f := released) (fun _ => rfl) _ _), hr⟩
        | false => exact ⟨_, r, v, g, rfl, h.symm, hmoves, hr⟩

theorem execute_cases {activate : Bool} {o : Except Failure (Bool × Exchange)}
    (h : e.execute ε activate = o) (ho : o ≠ .error .waiting) :
    ∃ e₁ r v, o = .ok (decide (v = .ok), e₁) ∧ Moves ε e e₁ [r] ∧
      r.Is e.bridge.selectedGroup activate v ∧ e₁.bridge = e.bridge.judge v := by
  cases hexecute : e.execute ε activate with
  | error failure =>
    rw [← h, hexecute, executeUrl_error hexecute] at ho
    exact absurd rfl ho
  | ok result =>
    obtain ⟨done, e₁⟩ := result
    obtain ⟨r, v, hr, hmoves, rfl, hbridge⟩ := executeUrl_ok hexecute
    exact ⟨e₁, r, v, by rw [← h, hexecute], hmoves, hr, hbridge⟩

/-- The end makes no request; it dereferences the selected group after a success. -/
theorem finish_cases {result : Bool} {o : Except Failure (Bool × Exchange)}
    (h : e.finish level result = o) :
    (result = true ∧ e.bridge.getGroup = none ∧ o = .error (.nullGroup e)) ∨
    ∃ e', o = .ok (result, e') ∧ e'.answers = e.answers ∧ e'.requests = e.requests ∧
      (∃ groups, e'.bridge = { e.bridge with groups }) ∧
      (result = true → e.bridge.getGroup ≠ none ∧
        ∃ g ∈ e'.bridge.getGroup, g.active = true ∧ g.owner = e'.bridge.appId) := by
  unfold Exchange.finish at h
  cases result with
  | true =>
    rw [if_pos rfl] at h
    cases hgroup : e.bridge.getGroup with
    | none =>
      rw [hgroup] at h
      exact .inl ⟨rfl, rfl, h.symm⟩
    | some group =>
      rw [hgroup] at h
      refine .inr ⟨_, h.symm, rfl, rfl, ⟨_, rfl⟩, fun _ => ⟨by simp, ?_⟩⟩
      obtain ⟨l₁, l₂, hgroups, hbefore, hid, hmodify⟩ :=
        modifyFirst_eq (f := fun g : Group => { g with active := true, owner := e.bridge.appId }) hgroup
      refine ⟨{ group with active := true, owner := e.bridge.appId }, ?_, rfl, rfl⟩
      change List.find? (fun g => decide (g.id = e.bridge.selectedGroup))
        (modifyFirst (fun g => decide (g.id = e.bridge.selectedGroup)) _ e.bridge.groups) = _
      have hnone : l₁.find? (fun g => decide (g.id = e.bridge.selectedGroup)) = none :=
        List.find?_eq_none.mpr fun g hg => by simp [hbefore g hg]
      rw [hmodify, List.find?_append, hnone, Option.none_or, List.find?_cons_of_pos]
      exact hid
  | false =>
    rw [if_neg Bool.false_ne_true] at h
    split_ifs at h with hbusy
    · exact .inr ⟨_, h.symm, rfl, rfl, ⟨_, rfl⟩, fun hfalse => by cases hfalse⟩
    · exact .inr ⟨_, h.symm, rfl, rfl, ⟨_, rfl⟩, fun hfalse => by cases hfalse⟩

/-! ### Groups of other clients -/

theorem deactivatedOthers_append (rs rs' : List Request) :
    deactivatedOthers b (rs ++ rs') = deactivatedOthers b rs ++ deactivatedOthers b rs' := by
  unfold deactivatedOthers
  rw [List.filter_append, List.map_append]

theorem deactivatedOthers_activate {r : Request} {id : String} {v : Verdict} (hr : r.Is id true v) :
    deactivatedOthers b [r] = [] := by
  obtain ⟨-, hactivate, -⟩ := hr
  simp [deactivatedOthers, hactivate]

theorem deactivatedOthers_selected {r : Request} {activate : Bool} {v : Verdict}
    (hr : r.Is b.selectedGroup activate v) : deactivatedOthers b [r] = [] := by
  obtain ⟨hid, -, -⟩ := hr
  simp [deactivatedOthers, hid]

theorem mem_deactivatedOthers {r : Request} {id x : String} {v : Verdict} (hr : r.Is id false v) :
    x ∈ deactivatedOthers b [r] ↔ x = id ∧ v = .ok ∧ id ≠ b.selectedGroup := by
  obtain ⟨rfl, hactivate, rfl⟩ := hr
  by_cases hother : r.verdict = .ok ∧ r.groupId ≠ b.selectedGroup
  · have hfilter : deactivatedOthers b [r] = [r.groupId] := by
      simp [deactivatedOthers, hactivate, hother.1, hother.2]
    rw [hfilter, List.mem_singleton]
    exact ⟨fun hx => ⟨hx, hother⟩, And.left⟩
  · have hfilter : deactivatedOthers b [r] = [] := by
      simpa [deactivatedOthers, hactivate] using hother
    rw [hfilter]
    exact ⟨fun hx => by simp at hx, fun hx => absurd hx.2 hother⟩

/-! ### A call -/

/-- What a call does before its last request, the activation whose answer decides: at most one group of
another client is released, or two as described by `ReleasesTwo`. -/
structure Prepares (ε : Context) (level : ActivationOverrideLevel) (b : Bridge) (rs : List Request) :
    Prop where
  single : (∀ x ∈ deactivatedOthers b rs, ∀ y ∈ deactivatedOthers b rs, x = y) ↔
    ¬ ReleasesTwo ε level b (rs.map Request.verdict)
  permitted : deactivatedOthers b rs ≠ [] → level = .always

/-- None of the requests is a successful activation. -/
def NoActivation (rs : List Request) : Prop := ∀ r ∈ rs, r.activate = true → r.verdict ≠ .ok

theorem noActivation_nil : NoActivation [] := by
  intro r hr
  cases hr

theorem NoActivation.append {rs rs' : List Request} (h : NoActivation rs) (h' : NoActivation rs') :
    NoActivation (rs ++ rs') := by
  intro r hr
  rcases List.mem_append.mp hr with hr | hr
  · exact h r hr
  · exact h' r hr

theorem noActivation_deactivate {r : Request} {id : String} {v : Verdict} (hr : r.Is id false v) :
    NoActivation [r] := by
  intro x hx htrue
  obtain rfl := List.mem_singleton.mp hx
  rw [hr.2.1] at htrue
  contradiction

theorem noActivation_failed {r : Request} {id : String} {v : Verdict} (hr : r.Is id true v)
    (hv : v ≠ .ok) : NoActivation [r] := by
  intro x hx _
  obtain rfl := List.mem_singleton.mp hx
  rwa [hr.2.2]

/-- `StartStream` after its first block. -/
def Exchange.attempts (ε : Context) (e : Exchange) (level : ActivationOverrideLevel) :
    Except Failure (Bool × Exchange) := do
  let (result, e) ← e.execute ε true
  if !result && e.bridge.isBusy && level ≠ .never then
    let (result, e) ← e.retry ε level
    e.finish level result
  else e.finish level result

theorem startStream_eq :
    e.startStream ε level = (e.releaseOther ε level).bind fun e => e.attempts ε level := rfl

/-- The second attempt may release a group, deactivates the selected one and activates it. -/
theorem retry_cases {o : Except Failure (Bool × Exchange)} (h : e.retry ε level = o)
    (ho : o ≠ .error .waiting) :
    ∃ e₁ mid e' r r' v v', o = .ok (decide (v' = .ok), e') ∧ Moves ε e e₁ mid ∧
      Moves ε e₁ e' [r, r'] ∧ r.Is e.bridge.selectedGroup false v ∧
      r'.Is e.bridge.selectedGroup true v' ∧ (v' = .ok → e'.bridge.isBusy = false) ∧
      ((mid = [] ∧ ¬ (level = .always ∧ e.bridge.getGroupsOwnedByOtherClient ≠ [])) ∨
      (level = .always ∧ ∃ r₀ v₀, ∃ g ∈ e.bridge.getGroupsOwnedByOtherClient.head?,
        mid = [r₀] ∧ r₀.Is g.id false v₀)) := by
  have hexecute : ∀ e₁ : Exchange, ∀ mid, Moves ε e e₁ mid →
      (do let (_, e) ← e₁.execute ε false; e.execute ε true) = o →
      ∃ e' r r' v v', o = .ok (decide (v' = .ok), e') ∧ Moves ε e₁ e' [r, r'] ∧
        r.Is e.bridge.selectedGroup false v ∧ r'.Is e.bridge.selectedGroup true v' ∧
        (v' = .ok → e'.bridge.isBusy = false) := by
    intro e₁ mid hmoves h
    cases hfirst : e₁.execute ε false with
    | error failure =>
      rw [hfirst] at h
      rw [← h, executeUrl_error hfirst] at ho
      exact absurd rfl ho
    | ok result =>
      rw [hfirst] at h
      obtain ⟨e₂, r, v, heq, hstep, hr, -⟩ := execute_cases hfirst (by simp)
      obtain rfl := Except.ok.inj heq
      obtain ⟨e', r', v', rfl, hstep', hr', hbridge⟩ := execute_cases (e := e₂) h ho
      rw [hmoves.selectedGroup] at hr
      rw [hstep.selectedGroup, hmoves.selectedGroup] at hr'
      refine ⟨e', r, r', v, v', rfl, hstep.trans hstep', hr, hr', fun hv => ?_⟩
      rw [hbridge, hv]
      rfl
  unfold Exchange.retry at h
  cases hrelease : e.releaseFirst ε level with
  | error failure =>
    rw [hrelease] at h
    have hwaiting : (Except.error failure : Except Failure Exchange) ≠ .error .waiting := by
      rintro ⟨⟩
      exact ho h.symm
    rcases releaseFirst_cases hrelease hwaiting with ⟨hok, -⟩ | ⟨-, e₁, r, v, g, -, hok, -⟩
    · cases hok
    · cases hok
  | ok e₁ =>
    rw [hrelease] at h
    rcases releaseFirst_cases hrelease (by simp) with ⟨hok, hnot⟩ | ⟨hlevel, e₁', r₀, v₀, g, hg, hok, hstep, hr₀⟩
    · obtain rfl := Except.ok.inj hok
      obtain ⟨e', r, r', v, v', heq, hmoves, hr, hr', hidle⟩ := hexecute e₁ [] (Moves.refl _) h
      exact ⟨e₁, [], e', r, r', v, v', heq, Moves.refl _, hmoves, hr, hr', hidle,
        .inl ⟨rfl, hnot⟩⟩
    · obtain rfl := Except.ok.inj hok
      obtain ⟨e', r, r', v, v', heq, hmoves, hr, hr', hidle⟩ := hexecute e₁ [r₀] hstep h
      exact ⟨e₁, [r₀], e', r, r', v, v', heq, hstep, hmoves, hr, hr', hidle,
        .inr ⟨hlevel, r₀, v₀, g, hg, rfl, hr₀⟩⟩

/-- After the first block the selected group is activated; when that fails on a busy bridge the second
attempt follows, unless the level is `never`. -/
theorem attempts_cases {o : Except Failure (Bool × Exchange)} (h : e.attempts ε level = o)
    (ho : o ≠ .error .waiting) :
    ∃ e₁ r v, Moves ε e e₁ [r] ∧ r.Is e.bridge.selectedGroup true v ∧
      e₁.bridge = e.bridge.judge v ∧
      ((¬ (v ≠ .ok ∧ e₁.bridge.isBusy = true ∧ level ≠ .never) ∧ e₁.finish level (decide (v = .ok)) = o) ∨
      (e₁.bridge.isBusy = true ∧ v ≠ .ok ∧ ∃ e₂ mid e' r' r'' v' v'', Moves ε e₁ e₂ mid ∧
        Moves ε e₂ e' [r', r''] ∧ r'.Is e.bridge.selectedGroup false v' ∧
        r''.Is e.bridge.selectedGroup true v'' ∧ (v'' = .ok → e'.bridge.isBusy = false) ∧
        e'.finish level (decide (v'' = .ok)) = o ∧
        ((mid = [] ∧ ¬ (level = .always ∧ e₁.bridge.getGroupsOwnedByOtherClient ≠ [])) ∨
        (level = .always ∧ ∃ r₀ v₀, ∃ g ∈ e₁.bridge.getGroupsOwnedByOtherClient.head?,
          mid = [r₀] ∧ r₀.Is g.id false v₀)))) := by
  unfold Exchange.attempts at h
  cases hfirst : e.execute ε true with
  | error failure =>
    rw [hfirst] at h
    rw [← h, executeUrl_error hfirst] at ho
    exact absurd rfl ho
  | ok result =>
    rw [hfirst] at h
    obtain ⟨e₁, r, v, heq, hmoves, hr, hbridge⟩ := execute_cases hfirst (by simp)
    obtain rfl := Except.ok.inj heq
    refine ⟨e₁, r, v, hmoves, hr, hbridge, ?_⟩
    change (if (!decide (v = .ok) && e₁.bridge.isBusy && decide (level ≠ .never)) = true then
      (e₁.retry ε level).bind fun p => p.2.finish level p.1
      else e₁.finish level (decide (v = .ok))) = o at h
    split_ifs at h with hretry
    · have hbusy : e₁.bridge.isBusy = true := by
        simp only [Bool.and_eq_true] at hretry
        exact hretry.1.2
      have hwaiting : e₁.retry ε level ≠ .error .waiting := by
        intro heq
        rw [heq] at h
        exact ho h.symm
      obtain ⟨e₂, mid, e', r', r'', v', v'', heq, hmid, hlast, hr', hr'', hidle, hcases⟩ :=
        retry_cases rfl hwaiting
      rw [heq] at h
      rw [hmoves.selectedGroup] at hr' hr''
      have hv : v ≠ .ok := by
        rintro rfl
        rw [hbridge] at hbusy
        exact absurd hbusy Bool.false_ne_true
      exact .inr ⟨hbusy, hv, e₂, mid, e', r', r'', v', v'', hmid, hlast, hr', hr'', hidle, h, hcases⟩
    · exact .inl ⟨by simpa using hretry, h⟩

/-- The requests between the two attempts. -/
theorem noActivation_mid {mid : List Request} {others : List Group} {p : Prop}
    (h : (mid = [] ∧ p) ∨ (level = .always ∧ ∃ r v, ∃ g ∈ others.head?, mid = [r] ∧ r.Is g.id false v)) :
    NoActivation mid := by
  rcases h with ⟨rfl, -⟩ | ⟨-, r, v, g, -, rfl, hr⟩
  · exact noActivation_nil
  · exact noActivation_deactivate hr

theorem judge_ok_isBusy {b' : Bridge} {v : Verdict} (h : b' = b.judge v) (hv : v = .ok) :
    b'.isBusy = false := by
  rw [h, hv]
  rfl

/-- Without a release before the first attempt at most the one before the second attempt is left. -/
theorem Prepares.of_nil {rs : List Request}
    (hnot : ¬ (b.isSupportingClipV2 ε.settings = true ∧ level = .always ∧
      b.getGroupsOwnedByOtherClient ≠ []))
    (hrs : deactivatedOthers b rs = [] ∨ level = .always ∧ ∃ id, ∀ x ∈ deactivatedOthers b rs, x = id) :
    Prepares ε level b rs := by
  refine ⟨⟨fun _ htwo => ?_, fun _ x hx y hy => ?_⟩, fun hne => ?_⟩
  · obtain ⟨hclip, hlevel, -, g, hg, -⟩ := htwo
    refine hnot ⟨hclip, hlevel, fun hnil => ?_⟩
    rw [hnil] at hg
    cases hg
  · rcases hrs with hnil | ⟨-, id, hid⟩
    · rw [hnil] at hx
      cases hx
    · exact (hid x hx).trans (hid y hy).symm
  · rcases hrs with hnil | ⟨hlevel, -⟩
    · exact absurd hnil hne
    · exact hlevel

/-- With one, nothing is deactivated after it, unless a group is released before the second attempt. -/
theorem Prepares.of_single {rs : List Request} (id : String)
    (hnot : ¬ ReleasesTwo ε level b (rs.map Request.verdict))
    (hrs : ∀ x ∈ deactivatedOthers b rs, x = id ∧ level = .always) : Prepares ε level b rs := by
  refine ⟨⟨fun _ => hnot, fun _ x hx y hy => ?_⟩, fun hne => ?_⟩
  · exact (hrs x hx).1.trans (hrs y hy).1.symm
  · obtain ⟨x, hx⟩ := List.exists_mem_of_ne_nil _ hne
    exact (hrs x hx).2

/-- With a release before the first attempt that succeeds, the second attempt follows only when the bridge
is busy, and releases the first of the other groups that are left. -/
theorem deactivated_busy {id : String} {v v' : Verdict}
    (hbusy : ((deactivated b id v).judge v').isBusy = true) (hv : v = .ok) :
    v' = .busy ∧ ((deactivated b id v).judge v').getGroupsOwnedByOtherClient =
      (b.modifyGroup id released).getGroupsOwnedByOtherClient := by
  subst hv
  cases v' with
  | busy => exact ⟨rfl, rfl⟩
  | _ => exact absurd hbusy Bool.false_ne_true

/-- With a release before each attempt two groups may be deactivated. -/
theorem Prepares.of_release {rs mid : List Request} {r : Request} {v v₁ : Verdict} {g : Group}
    (v₃ v₄ : Verdict)
    (hclip : b.isSupportingClipV2 ε.settings = true) (hg : g ∈ b.getGroupsOwnedByOtherClient.head?)
    (hr : r.Is g.id false v) (hpermit : level = .always ∨ g.id = b.selectedGroup)
    (hbusy : ((deactivated b g.id v).judge v₁).isBusy = true)
    (hmid : (mid = [] ∧ ¬ (level = .always ∧
        ((deactivated b g.id v).judge v₁).getGroupsOwnedByOtherClient ≠ [])) ∨
      (level = .always ∧ ∃ r₂ v₂,
        ∃ h ∈ ((deactivated b g.id v).judge v₁).getGroupsOwnedByOtherClient.head?,
          mid = [r₂] ∧ r₂.Is h.id false v₂))
    (hrs : deactivatedOthers b rs = deactivatedOthers b [r] ++ deactivatedOthers b mid)
    (hverdicts : rs.map Request.verdict = v :: v₁ :: mid.map Request.verdict ++ [v₃, v₄]) :
    Prepares ε level b rs := by
  rcases hmid with ⟨rfl, hnot⟩ | ⟨hlevel, r₂, v₂, h, hh, rfl, hr₂⟩
  · refine .of_single g.id (fun htwo => ?_) fun x hx => ?_
    · obtain ⟨-, hlevel, hstart, g', hg', h, hh, -⟩ := htwo
      rw [hverdicts] at hstart
      obtain rfl := Option.mem_unique hg' hg
      obtain ⟨rfl, -⟩ := List.cons_prefix_cons.mp hstart
      refine hnot ⟨hlevel, fun hnil => ?_⟩
      rw [(deactivated_busy hbusy rfl).2] at hnil
      rw [hnil] at hh
      cases hh
    · rw [hrs] at hx
      obtain ⟨rfl, -, hother⟩ := (mem_deactivatedOthers hr).mp (by simpa [deactivatedOthers] using hx)
      exact ⟨rfl, hpermit.resolve_right hother⟩
  · have hmem : ∀ x, x ∈ deactivatedOthers b rs ↔ (x = g.id ∧ v = .ok ∧ g.id ≠ b.selectedGroup) ∨
        (x = h.id ∧ v₂ = .ok ∧ h.id ≠ b.selectedGroup) := by
      intro x
      rw [hrs, List.mem_append, mem_deactivatedOthers hr, mem_deactivatedOthers hr₂]
    have hverdict : rs.map Request.verdict = [v, v₁, v₂, v₃, v₄] := by
      obtain ⟨-, -, rfl⟩ := hr₂
      exact hverdicts
    refine ⟨⟨fun hsingle htwo => ?_, fun hnot => ?_⟩, fun _ => hlevel⟩
    · obtain ⟨-, -, hstart, g', hg', h', hh', hgid, hhid, hne⟩ := htwo
      rw [hverdict] at hstart
      obtain rfl := Option.mem_unique hg' hg
      obtain ⟨rfl, htail⟩ := List.cons_prefix_cons.mp hstart
      obtain ⟨-, htail⟩ := List.cons_prefix_cons.mp htail
      obtain ⟨rfl, -⟩ := List.cons_prefix_cons.mp htail
      rw [(deactivated_busy hbusy rfl).2] at hh
      obtain rfl := Option.mem_unique hh' hh
      exact hne (hsingle _ ((hmem _).mpr (.inl ⟨rfl, rfl, hgid⟩)) _
        ((hmem _).mpr (.inr ⟨rfl, rfl, hhid⟩)))
    · have heq : v = .ok → v₂ = .ok → g.id ≠ b.selectedGroup → h.id ≠ b.selectedGroup →
          g.id = h.id := by
        rintro rfl rfl hgid hhid
        by_contra hne
        obtain ⟨rfl, hothers⟩ := deactivated_busy hbusy rfl
        rw [hothers] at hh
        exact hnot ⟨hclip, hlevel, ⟨[v₃, v₄], hverdict.symm⟩, g, hg, h, hh, hgid, hhid, hne⟩
      intro x hx y hy
      rw [hmem] at hx hy
      rcases hx with ⟨rfl, hv, hid⟩ | ⟨rfl, hv, hid⟩ <;> rcases hy with ⟨rfl, hv', hid'⟩ | ⟨rfl, hv', hid'⟩
      · rfl
      · exact heq hv hv' hid hid'
      · exact (heq hv' hv hid' hid).symm
      · rfl

/-- A call dereferences the null group, or makes its requests and ends with the answer to the last one,
which is an activation. -/
theorem startStream_cases {o : Except Failure (Bool × Exchange)} (h : e.startStream ε level = o)
    (ho : o ≠ .error .waiting) :
    (NullSelected ε level e.bridge ∧ o = .error (.nullGroup e)) ∨
    (¬ NullSelected ε level e.bridge ∧ ∃ e' rs r v, Moves ε e e' (rs ++ [r]) ∧
      r.Is e.bridge.selectedGroup true v ∧ Prepares ε level e.bridge (rs ++ [r]) ∧
      NoActivation rs ∧ (v = .ok → e'.bridge.isBusy = false) ∧
      e'.finish level (decide (v = .ok)) = o) := by
  rw [startStream_eq] at h
  cases hrelease : e.releaseOther ε level with
  | error failure =>
    rw [hrelease] at h
    have hwaiting : (Except.error failure : Except Failure Exchange) ≠ .error .waiting := by
      rintro ⟨⟩
      exact ho h.symm
    rcases releaseOther_cases hrelease hwaiting with ⟨hnull, heq⟩ | ⟨-, hok, -⟩ |
      ⟨-, e₁, r, v, g, -, hok, -⟩
    · obtain rfl := Except.error.inj heq
      exact .inl ⟨hnull, h.symm⟩
    · cases hok
    · cases hok
  | ok e₁ =>
    rw [hrelease] at h
    obtain ⟨e₂, r₁, v₁, hfirst, hr₁, hbridge, hcases⟩ := attempts_cases (e := e₁) h ho
    rcases releaseOther_cases hrelease (by simp) with ⟨-, heq⟩ | ⟨hnull, heq, hnot⟩ |
      ⟨hnull, e₁', r, v, g, hg, heq, hpre, hr, hreleased, hclip, hpermit⟩
    · cases heq
    · obtain rfl := Except.ok.inj heq
      refine .inr ⟨hnull, ?_⟩
      have hnone := deactivatedOthers_activate (b := e₁.bridge) hr₁
      rcases hcases with ⟨-, hfinish⟩ |
        ⟨-, hv₁, e₃, mid, e', r₃, r₄, v₃, v₄, hmid, hlast, hr₃, hr₄, hidle, hfinish, hothers⟩
      · exact ⟨e₂, [], r₁, v₁, hfirst, hr₁, .of_nil hnot (.inl hnone), noActivation_nil,
          judge_ok_isBusy hbridge, hfinish⟩
      · refine ⟨e', [r₁] ++ mid ++ [r₃], r₄, v₄, ?_, hr₄, ?_, ?_, hidle, hfinish⟩
        · simpa using (hfirst.trans hmid).trans hlast
        · have heq : deactivatedOthers e₁.bridge ([r₁] ++ mid ++ [r₃] ++ [r₄]) =
              deactivatedOthers e₁.bridge mid := by
            simp only [deactivatedOthers_append, hnone, deactivatedOthers_selected hr₃,
              deactivatedOthers_selected hr₄, List.nil_append, List.append_nil]
          refine .of_nil hnot ?_
          rw [heq]
          rcases hothers with ⟨rfl, -⟩ | ⟨hlevel, r₂, v₂, g, -, rfl, hr₂⟩
          · exact .inl rfl
          · exact .inr ⟨hlevel, g.id, fun x hx => ((mem_deactivatedOthers hr₂).mp hx).1⟩
        · exact ((noActivation_failed hr₁ hv₁).append (noActivation_mid hothers)).append
            (noActivation_deactivate hr₃)
    · obtain rfl := Except.ok.inj heq
      refine .inr ⟨hnull, ?_⟩
      rw [hpre.selectedGroup] at hr₁
      have hnone := deactivatedOthers_activate (b := e.bridge) hr₁
      have hsingle : ∀ x ∈ deactivatedOthers e.bridge [r], x = g.id ∧ level = .always := by
        intro x hx
        obtain ⟨rfl, -, hother⟩ := (mem_deactivatedOthers hr).mp hx
        exact ⟨rfl, hpermit.resolve_right hother⟩
      rcases hcases with ⟨-, hfinish⟩ |
        ⟨hbusy, hv₁, e₃, mid, e', r₃, r₄, v₃, v₄, hmid, hlast, hr₃, hr₄, hidle, hfinish, hothers⟩
      · refine ⟨e₂, [r], r₁, v₁, hpre.trans hfirst, hr₁, ?_, noActivation_deactivate hr,
          judge_ok_isBusy hbridge, hfinish⟩
        refine .of_single g.id (fun htwo => ?_) ?_
        · have := htwo.2.2.1.length_le
          simp at this
        · rw [deactivatedOthers_append, hnone, List.append_nil]
          exact hsingle
      · rw [hpre.selectedGroup] at hr₃ hr₄
        refine ⟨e', [r] ++ [r₁] ++ mid ++ [r₃], r₄, v₄, ?_, hr₄, ?_, ?_, hidle, hfinish⟩
        · simpa using ((hpre.trans hfirst).trans hmid).trans hlast
        · have hD : deactivatedOthers e.bridge ([r] ++ [r₁] ++ mid ++ [r₃] ++ [r₄]) =
              deactivatedOthers e.bridge [r] ++ deactivatedOthers e.bridge mid := by
            simp only [deactivatedOthers_append, hnone, deactivatedOthers_selected hr₃,
              deactivatedOthers_selected hr₄, List.append_nil]
          rw [hreleased] at hbridge
          rw [hbridge] at hbusy hothers
          have hv : r.verdict = v := hr.2.2
          have hv₁ : r₁.verdict = v₁ := hr₁.2.2
          refine .of_release r₃.verdict r₄.verdict hclip hg hr hpermit hbusy hothers hD ?_
          simp [hv, hv₁]
        · exact (((noActivation_deactivate hr).append (noActivation_failed hr₁ hv₁)).append
            (noActivation_mid hothers)).append (noActivation_deactivate hr₃)

/-- What a call that returns has done: its last request is the activation whose answer it returns, no
other one is a successful activation, and besides its groups three flags of the bridge may be changed. -/
structure Returned (ε : Context) (b : Bridge) (answers : List HttpAnswer) (result : Bool)
    (e : Exchange) : Prop where
  requests : ∃ rs r, e.requests = rs ++ [r] ∧ NoActivation rs ∧ r.Is b.selectedGroup true r.verdict ∧
    result = decide (r.verdict = .ok)
  bridge : ∃ groups isBusy, e.bridge = { b with
    groups, isBusy
    isValidIp := b.isValidIp && (verdicts ε b answers).all (· ≠ .unreachable)
    isAuthorized := b.isAuthorized && (verdicts ε b answers).all (· ≠ .unauthorized) }
  active : result = true → e.bridge.isBusy = false ∧
    ∃ g ∈ e.bridge.getGroup, g.active = true ∧ g.owner = e.bridge.appId
  last : result = true → (verdicts ε b answers).getLast? = some .ok

theorem startStream_returned {result : Bool}
    (h : (Exchange.mk b answers []).startStream ε level = .ok (result, e)) (hanswers : e.answers = []) :
    Returned ε b answers result e := by
  rcases startStream_cases h (by simp) with ⟨-, heq⟩ |
    ⟨-, e', rs, r, v, hmoves, hr, -, hrs, hidle, hfinish⟩
  · cases heq
  · rcases finish_cases (e := e') hfinish with ⟨-, -, heq⟩ |
      ⟨e'', heq, hanswers', hrequests, ⟨groups, hbridge⟩, hgroup⟩
    · cases heq
    · obtain ⟨rfl, rfl⟩ := Prod.mk.inj (Except.ok.inj heq)
      have hverdict : r.verdict = v := hr.2.2
      have hverdicts : verdicts ε b answers = (rs ++ [r]).map Request.verdict := by
        have hall := hmoves.answers
        rw [← hanswers', hanswers, List.map_nil, List.append_nil] at hall
        exact hall
      refine ⟨⟨rs, r, ?_, hrs, ?_, ?_⟩, ?_, fun hv => ⟨?_, (hgroup hv).2⟩, fun hv => ?_⟩
      · rw [hrequests, hmoves.requests]
        rfl
      · rw [hverdict]
        exact hr
      · rw [hverdict]
      · obtain ⟨groups', isBusy, hmoved⟩ := hmoves.bridge
        refine ⟨groups, isBusy, ?_⟩
        rw [hbridge, hmoved, hverdicts, List.all_map, List.all_map]
        rfl
      · rw [hbridge]
        exact hidle (of_decide_eq_true hv)
      · rw [hverdicts, List.map_append, List.map_singleton, List.getLast?_concat, hverdict,
          of_decide_eq_true hv]

/-! ### All calls -/

/-- **When a call of `StartStream` keeps its promises.** With all the answers it waits for it does exactly
when it does not compare with a null group, does not lose the selected group before a success, and does
not release two groups of other clients. -/
theorem startStream_keeps_iff
    (huses : Uses ((Exchange.mk b answers []).startStream ε level)) :
    Keeps level b ((Exchange.mk b answers []).startStream ε level) ↔
      ¬ NullSelected ε level b ∧ ¬ LosesGroup b (verdicts ε b answers) ∧
        ¬ ReleasesTwo ε level b (verdicts ε b answers) := by
  have hwaiting : (Exchange.mk b answers []).startStream ε level ≠ .error .waiting := by
    intro heq
    rw [heq] at huses
    exact huses
  rcases startStream_cases rfl hwaiting with ⟨hnull, heq⟩ |
    ⟨hnull, e', rs, r, v, hmoves, hr, hprepares, -, -, hfinish⟩
  · rw [heq]
    exact ⟨False.elim, fun h => absurd hnull h.1⟩
  · rw [← hfinish] at huses ⊢
    have hverdict : r.verdict = v := hr.2.2
    -- Nothing but the requests of the call took answers.
    have hall : e'.answers = [] → verdicts ε b answers = (rs ++ [r]).map Request.verdict := by
      intro hnil
      have hanswers := hmoves.answers
      rw [hnil, List.map_nil, List.append_nil] at hanswers
      exact hanswers
    have hlast : ((rs ++ [r]).map Request.verdict).getLast? = some v := by
      simp [hverdict]
    rcases finish_cases (rfl : e'.finish level (decide (v = .ok)) = _) with ⟨hv, hgroup, heq⟩ |
      ⟨e'', heq, hanswers, hrequests, -, hgroup⟩
    · rw [heq] at huses ⊢
      refine ⟨False.elim, fun h => absurd ⟨?_, ?_⟩ h.2.1⟩
      · rw [hall huses, hlast, of_decide_eq_true hv]
      · have hcount := hmoves.count
        rw [getGroup_eq_none.mp hgroup] at hcount
        rw [hall huses]
        change 0 = selectedCount b - _ at hcount
        omega
    · rw [heq] at huses ⊢
      have hrs : e''.requests = rs ++ [r] := hrequests.trans hmoves.requests
      rw [hall (hanswers.symm.trans huses)]
      constructor
      · rintro ⟨-, hsingle, -⟩
        rw [hrs] at hsingle
        refine ⟨hnull, ?_, hprepares.single.mp hsingle⟩
        rintro ⟨hok, hcount⟩
        obtain rfl : v = .ok := Option.some.inj (hlast.symm.trans hok)
        refine (hgroup (by simp)).1 (getGroup_eq_none.mpr ?_)
        have hleft := hmoves.count
        change _ = selectedCount b - _ at hleft
        omega
      · rintro ⟨-, -, htwo⟩
        refine ⟨fun hv => ⟨⟨r, ?_, hr.2.1, ?_⟩, (hgroup hv).2⟩, ?_, ?_⟩
        · rw [hrs, List.getLast?_append_of_ne_nil _ (List.cons_ne_nil _ _)]
          rfl
        · rw [hverdict, of_decide_eq_true hv]
        · rw [hrs]
          exact hprepares.single.mpr htwo
        · rw [hrs]
          exact hprepares.permitted

/-- A bridge of the second version with its own group selected and a group of another client, which is
released. -/
theorem startStream_keeps_released :
    let group : Group := { id := "a" }
    let others : Group := { id := "b", active := true, owner := "c" }
    let bridge : Bridge :=
      { appId := "d", swversion := "1948086000", groups := [group, others], selectedGroup := "a" }
    let answers : List HttpAnswer := [⟨true, .node []⟩, ⟨true, .node []⟩]
    Keeps .always bridge ((Exchange.mk bridge answers []).startStream {} .always) :=
  (startStream_keeps_iff (by exact rfl)).mpr
    ⟨by rintro ⟨-, ⟨⟩, -⟩, by rintro ⟨-, h⟩; revert h; decide +kernel, by
      rintro ⟨-, -, h, -⟩; revert h; decide +kernel⟩

/-- Without a selected group a success ends in a null group, and a bridge that stays busy makes the call
release two groups of other clients. -/
theorem exists_startStream_not_keeps :
    (∃ bridge : Bridge, ∃ answers : List HttpAnswer,
      let o := (Exchange.mk bridge answers []).startStream {} .never
      Uses o ∧ ¬ Keeps .never bridge o ∧ ∃ e, o = .error (.nullGroup e)) ∧
    ∃ bridge : Bridge, ∃ answers : List HttpAnswer,
      let o := (Exchange.mk bridge answers []).startStream {} .always
      ¬ Keeps .always bridge o ∧
        o.toOption.map (fun p => deactivatedOthers bridge p.2.requests) = some ["b", "c"] := by
  constructor
  · refine ⟨{}, [⟨true, .array [.node [("success", .node [])]]⟩], ?_, ?_, _, rfl⟩
    · exact rfl
    · exact id
  · let busy : JSONNode := .node [("errors", .array [.node [("http_error", .number 503 "503")]])]
    let b : Group := { id := "b", active := true, owner := "e" }
    let c : Group := { b with id := "c" }
    let groups : List Group := [{ id := "a" }, b, c]
    let bridge : Bridge := { appId := "d", swversion := "1948086000", groups, selectedGroup := "a" }
    let answers : List HttpAnswer :=
      [⟨true, .node []⟩, ⟨true, busy⟩, ⟨true, .node []⟩, ⟨true, .node []⟩, ⟨true, .node []⟩]
    have hothers : (((Exchange.mk bridge answers []).startStream {} .always).toOption.map
        fun p => deactivatedOthers bridge p.2.requests) = some ["b", "c"] := by decide +kernel
    refine ⟨bridge, answers, fun hkeeps => ?_, hothers⟩
    cases hcall : (Exchange.mk bridge answers []).startStream {} .always with
    | error failure =>
      rw [hcall] at hkeeps
      exact hkeeps
    | ok p =>
      rw [hcall] at hkeeps hothers
      have heq : deactivatedOthers bridge p.2.requests = ["b", "c"] := Option.some.inj hothers
      have hsingle := hkeeps.2.1
      rw [heq] at hsingle
      exact absurd (hsingle "b" (by simp) "c" (by simp)) (by decide)

end HueStream.Streaming
