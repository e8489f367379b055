import HueStream.Streaming.Starting

/-! # Groups reported as missing

`CheckForErrors` deletes the selected group for every answer that reports a group as missing, whichever group
the request was about. So a request about another group may cost the bridge its selected group. All else a
call changes is where it should be: three flags, and the groups its requests were about. -/

namespace HueStream.Streaming

open HueStream.Data HueStream.Json HueStream.Lib

/-- The calls of a `StreamStarter`, and the single request they are made of. -/
inductive StarterCall
  | execute (url groupId : String) (activate : Bool)
  | startStream (overrideLevel : ActivationOverrideLevel)
  | stop
  | deactivateGroup (groupId : String)

/-- A call, without what it returns. -/
def Exchange.call (ε : Context) (e : Exchange) : StarterCall → Except Failure Exchange
  | .execute url groupId activate => (e.executeUrl ε url groupId activate).map Prod.snd
  | .startStream overrideLevel => (e.startStream ε overrideLevel).map Prod.snd
  | .stop => e.stop ε
  | .deactivateGroup groupId => (e.deactivateGroup ε groupId).map Prod.snd

/-- The exchange a call returns with, or with which it ends the program. -/
def ended : Except Failure Exchange → Option Exchange
  | .ok e => some e
  | .error (.nullGroup e) => some e
  | .error .waiting => none

/-- What the requests of a call may change: flags of the bridge, the groups they were about, and of those each
answer that reports one as missing may remove one. -/
structure Framed (b : Bridge) (e : Exchange) : Prop where
  flags : ∃ groups isBusy isValidIp isAuthorized,
    e.bridge = { b with groups, isBusy, isValidIp, isAuthorized }
  others : (e.bridge.groups.filter fun g => g.id ∉ e.requests.map Request.groupId) =
    b.groups.filter fun g => g.id ∉ e.requests.map Request.groupId
  stays : ∀ id, b.groups.countP (·.id = id) ≤
    e.bridge.groups.countP (·.id = id) + e.requests.countP fun r => r.groupId = id ∧ r.verdict = .missing

/-- The selected group is there, and an answer that reports another one as missing is taken for one about
it. In `StartStream` this is the answer to the second request, about the first group of another client that
there is after the first attempt has failed on a busy bridge; the selected group is there more often than the
other answers report it as missing. -/
def TakenForSelected (ε : Context) (b : Bridge) (answers : List HttpAnswer) : StarterCall → Prop
  | .execute _ groupId _ | .deactivateGroup groupId =>
    groupId ≠ b.selectedGroup ∧ (verdicts ε b answers).head? = some .missing ∧ selectedCount b ≠ 0
  | .stop => False
  | .startStream level => level = .always ∧ ∃ v v' v'',
    [v, .missing, v', v''] <+: verdicts ε b answers ∧ v ≠ .ok ∧ (b.judge v).isBusy = true ∧
    (∃ g ∈ (b.judge v).getGroupsOwnedByOtherClient.head?, g.id ≠ b.selectedGroup) ∧
    [v, v', v''].count .missing < selectedCount b

/-- What every part of a call keeps, from the bridge `b` on. -/
structure Tracks (b : Bridge) (e : Exchange) : Prop where
  flags : ∃ groups isBusy isValidIp isAuthorized,
    e.bridge = { b with groups, isBusy, isValidIp, isAuthorized }
  others : ∀ ids : List String, (∀ r ∈ e.requests, r.groupId ∈ ids) →
    (b.selectedGroup ∈ ids ∨ (∀ r ∈ e.requests, r.verdict ≠ .missing) ∨ selectedCount b = 0) →
    (e.bridge.groups.filter fun g => g.id ∉ ids) = b.groups.filter fun g => g.id ∉ ids
  ids : (e.bridge.groups.map (·.id)).filter (· ≠ b.selectedGroup) =
    (b.groups.map (·.id)).filter (· ≠ b.selectedGroup)
  count : selectedCount e.bridge = selectedCount b - (e.requests.map Request.verdict).count .missing

variable {ε : Context} {b : Bridge} {e e' : Exchange} {answers : List HttpAnswer} {groupId : String}
  {level : ActivationOverrideLevel} {v : Verdict} {r : Request}

theorem Tracks.refl (b : Bridge) (answers : List HttpAnswer) : Tracks b ⟨b, answers, []⟩ :=
  ⟨⟨b.groups, b.isBusy, b.isValidIp, b.isAuthorized, rfl⟩, fun _ _ _ => rfl, rfl, rfl⟩

theorem Tracks.selectedGroup (h : Tracks b e) : e.bridge.selectedGroup = b.selectedGroup := by
  obtain ⟨groups, isBusy, isValidIp, isAuthorized, hbridge⟩ := h.flags
  rw [hbridge]

/-! ### One request -/

theorem judge_groups (hv : v ≠ .missing) : (b.judge v).groups = b.groups := by
  cases v with
  | missing => exact absurd rfl hv
  | _ => rfl

/-- Without the selected group there is nothing to delete. -/
theorem judge_groups_of_none (h : selectedCount b = 0) : (b.judge v).groups = b.groups := by
  by_cases hv : v = .missing
  · subst hv
    refine List.eraseP_of_forall_not fun g hg => ?_
    exact List.countP_eq_zero.mp h g hg
  · exact judge_groups hv

theorem judge_flags (b : Bridge) (v : Verdict) : ∃ groups isBusy isValidIp isAuthorized,
    b.judge v = { b with groups, isBusy, isValidIp, isAuthorized } := by
  cases v <;> exact ⟨_, _, _, _, rfl⟩

/-- An answer is judged. -/
theorem Tracks.judge (h : Tracks b e) (answers : List HttpAnswer) (r : Request) :
    Tracks b ⟨e.bridge.judge r.verdict, answers, e.requests ++ [r]⟩ := by
  refine ⟨?_, fun ids hids hsel => ?_, ?_, ?_⟩
  · obtain ⟨groups, isBusy, isValidIp, isAuthorized, hbridge⟩ := h.flags
    obtain ⟨groups', isBusy', isValidIp', isAuthorized', hjudged⟩ := judge_flags e.bridge r.verdict
    refine ⟨groups', isBusy', isValidIp', isAuthorized', ?_⟩
    change e.bridge.judge r.verdict = _
    rw [hjudged, hbridge]
  · simp only [List.forall_mem_append, List.forall_mem_singleton] at hids hsel
    have hbefore := h.others ids hids.1 (hsel.imp_right (Or.imp_left And.left))
    rw [← hbefore]
    by_cases hv : r.verdict = .missing
    · rcases hsel with hsel | ⟨-, hne⟩ | hnone
      · rw [hv]
        refine filter_eraseP fun g hg => ?_
        have hid : g.id = b.selectedGroup := by simpa [h.selectedGroup] using hg
        simpa [hid] using hsel
      · exact absurd hv hne
      · have hnone' : selectedCount e.bridge = 0 := by
          have hcount := h.count
          omega
        change (e.bridge.judge r.verdict).groups.filter _ = _
        rw [judge_groups_of_none hnone']
    · change (e.bridge.judge r.verdict).groups.filter _ = _
      rw [judge_groups hv]
  · rw [← h.ids]
    by_cases hv : r.verdict = .missing
    · change ((e.bridge.judge r.verdict).groups.map _).filter _ = _
      rw [hv, List.filter_map, List.filter_map]
      refine congrArg (List.map _) (filter_eraseP fun g hg => ?_)
      have hid : g.id = b.selectedGroup := by simpa [h.selectedGroup] using hg
      simp [hid]
    · change ((e.bridge.judge r.verdict).groups.map _).filter _ = _
      rw [judge_groups hv]
  · change selectedCount (e.bridge.judge r.verdict) = _
    rw [selectedCount_judge, h.count, List.map_append, List.count_append, List.map_singleton]
    omega

/-- Groups that a request was about may change. -/
theorem Tracks.groups (h : Tracks b e) {groups : List Group}
    (hids : groups.map (·.id) = e.bridge.groups.map (·.id))
    (hothers : ∀ ids : List String, (∀ r ∈ e.requests, r.groupId ∈ ids) →
      (groups.filter fun g => g.id ∉ ids) = e.bridge.groups.filter fun g => g.id ∉ ids) :
    Tracks b { e with bridge.groups := groups } := by
  refine ⟨?_, fun ids hreq hsel => (hothers ids hreq).trans (h.others ids hreq hsel), ?_, ?_⟩
  · obtain ⟨groups', isBusy, isValidIp, isAuthorized, hbridge⟩ := h.flags
    refine ⟨groups, isBusy, isValidIp, isAuthorized, ?_⟩
    rw [hbridge]
  · rw [← h.ids, ← hids]
  · rw [← h.count]
    exact selectedCount_congr hids rfl

theorem Tracks.modifyGroup (h : Tracks b e) (hid : groupId ∈ e.requests.map Request.groupId)
    {f : Group → Group} (hf : ∀ g, (f g).id = g.id) :
    Tracks b { e with bridge := e.bridge.modifyGroup groupId f } := by
  refine h.groups (map_id_modifyGroup hf) fun ids hreq => filter_modifyFirst fun g hg => ?_
  obtain ⟨r, hr, rfl⟩ := List.mem_map.mp hid
  have hg : g.id = r.groupId := by simpa using hg
  have hmem := hreq r hr
  simp [hf, hg, hmem]

/-- The group at an index may change too, when it has the id of a request. -/
theorem Tracks.modify (h : Tracks b e) {i : ℕ} {g : Group} (hg : e.bridge.groups[i]? = some g)
    (hid : g.id ∈ e.requests.map Request.groupId) {f : Group → Group} (hf : ∀ g, (f g).id = g.id) :
    Tracks b { e with bridge.groups := e.bridge.groups.modify i f } := by
  refine h.groups (map_id_modify hf _ i) fun ids hreq => ?_
  obtain ⟨r, hr, hrg⟩ := List.mem_map.mp hid
  have hmem := hreq r hr
  obtain ⟨l₁, l₂, hgroups, hmodify⟩ : ∃ l₁ l₂, e.bridge.groups = l₁ ++ g :: l₂ ∧
      e.bridge.groups.modify i f = l₁ ++ f g :: l₂ := by
    obtain ⟨hi, rfl⟩ := List.getElem?_eq_some_iff.mp hg
    refine ⟨e.bridge.groups.take i, e.bridge.groups.drop (i + 1), ?_, ?_⟩
    · rw [List.getElem_cons_drop, List.take_append_drop]
    · rw [List.modify_eq_take_cons_drop hi]
  rw [hmodify, hgroups, List.filter_append, List.filter_append, List.filter_cons_of_neg,
    List.filter_cons_of_neg]
  · simpa [← hrg] using hmem
  · simpa [hf, ← hrg] using hmem

/-! ### Parts of a call -/

/-- What holds of the exchange with which a part of a call ends. -/
def Ends {α : Type} (f : α → Exchange) (P : Exchange → Prop) : Except Failure α → Prop
  | .ok a => P (f a)
  | .error (.nullGroup e) => P e
  | .error .waiting => True

theorem Ends.bind {α β : Type} {f : α → Exchange} {g : β → Exchange} {P Q : Exchange → Prop}
    {x : Except Failure α} {k : α → Except Failure β} (hx : Ends f P x) (hPQ : ∀ e, P e → Q e)
    (hk : ∀ a, x = .ok a → P (f a) → Ends g Q (k a)) : Ends g Q (x >>= k) := by
  cases x with
  | ok a => exact hk a rfl hx
  | error failure =>
    cases failure with
    | nullGroup e => exact hPQ e hx
    | waiting => trivial

theorem Ends.map {α : Type} {f : α → Exchange} {P : Exchange → Prop} {x : Except Failure α}
    (hx : Ends f P x) : Ends id P (x.map f) := by
  cases x with
  | ok a => exact hx
  | error failure => cases failure <;> exact hx

theorem Ends.mono {α : Type} {f : α → Exchange} {P Q : Exchange → Prop} {x : Except Failure α}
    (hx : Ends f P x) (hPQ : ∀ e, P e → Q e) : Ends f Q x := by
  cases x with
  | ok a => exact hPQ _ hx
  | error failure =>
    cases failure with
    | nullGroup e => exact hPQ e hx
    | waiting => trivial

theorem Ends.of_ended {P : Exchange → Prop} {o : Except Failure Exchange} (h : Ends id P o)
    (he : ended o = some e) : P e := by
  cases o with
  | ok e' => exact Option.some.inj he ▸ h
  | error failure =>
    cases failure with
    | nullGroup e' => exact Option.some.inj he ▸ h
    | waiting => cases he

/-- Tracked, with requests about the groups `ids` among those made. -/
def Tracked (b : Bridge) (ids : List String) (e : Exchange) : Prop :=
  Tracks b e ∧ ids ⊆ e.requests.map Request.groupId

variable {ids : List String}

theorem Tracked.tail (h : Tracked b (groupId :: ids) e) : Tracked b ids e :=
  ⟨h.1, fun _ hi => h.2 (List.mem_cons_of_mem _ hi)⟩

theorem Tracked.executeUrl (h : Tracked b ids e) (url groupId : String) (activate : Bool) :
    Ends Prod.snd (Tracked b (groupId :: ids)) (e.executeUrl ε url groupId activate) := by
  unfold Exchange.executeUrl
  cases e.answers with
  | nil => trivial
  | cons answer answers =>
    refine ⟨h.1.judge _ ⟨url, groupId, activate, e.data ε activate, _⟩, List.cons_subset.mpr ⟨?_, ?_⟩⟩
    · simp
    · intro i hi
      have hmem := h.2 hi
      simp only [List.map_append, List.mem_append]
      exact .inl hmem

theorem Tracked.execute (h : Tracked b ids e) (activate : Bool) :
    Ends Prod.snd (Tracked b (b.selectedGroup :: ids)) (e.execute ε activate) := by
  rw [← h.1.selectedGroup]
  exact h.executeUrl _ _ activate

theorem Tracked.deactivateGroup (h : Tracked b ids e) (groupId : String) :
    Ends Prod.snd (Tracked b (groupId :: ids)) (e.deactivateGroup ε groupId) := by
  unfold Exchange.deactivateGroup
  refine (h.executeUrl _ groupId false).bind (fun _ h => h) ?_
  rintro ⟨ok, e₁⟩ - h₁
  cases ok with
  | false => exact h₁
  | true => exact ⟨h₁.1.modifyGroup (h₁.2 (by simp)) fun _ => rfl, h₁.2⟩

theorem Tracked.releaseOther (h : Tracked b ids e) (level : ActivationOverrideLevel) :
    Ends id (Tracked b ids) (e.releaseOther ε level) := by
  have hrelease : ∀ groupId, Ends id (Tracked b ids) ((e.deactivateGroup ε groupId).map Prod.snd) := by
    intro groupId
    have hdone := h.deactivateGroup (ε := ε) groupId
    exact (hdone.mono fun _ h => h.tail).map
  unfold Exchange.releaseOther
  split_ifs with hclip
  · exact h
  · cases e.bridge.getGroupsOwnedByOtherClient with
    | nil => exact h
    | cons g others =>
      cases level with
      | never => exact h
      | always => exact hrelease g.id
      | sameGroup =>
        cases e.bridge.getGroup with
        | none => exact h
        | some group =>
          dsimp only
          split_ifs with hid
          · exact hrelease g.id
          · exact h

/-- The deactivated group is the one the index is of, since its deactivation keeps the ids. -/
theorem Tracked.releaseFirst (h : Tracked b ids e) (level : ActivationOverrideLevel) :
    Ends id (Tracked b ids) (e.releaseFirst ε level) := by
  unfold Exchange.releaseFirst
  cases level with
  | never => exact h
  | sameGroup => exact h
  | always =>
    cases hothers : e.bridge.getGroupsOwnedByOtherClient with
    | nil => exact h
    | cons g others =>
      refine (h.deactivateGroup g.id).bind (fun _ h => h.tail) ?_
      rintro ⟨ok, e₁⟩ hdone h₁
      cases ok with
      | false => exact h₁.tail
      | true =>
        obtain ⟨r, v, -, -, hv, hbridge⟩ := deactivateGroup_ok hdone
        obtain rfl : v = .ok := of_decide_eq_true hv.symm
        have hfirst : e.bridge.groups.find? e.bridge.isOwnedByOther = some g := by
          rw [← List.head?_filter]
          exact congrArg List.head? hothers
        have hmap : e₁.bridge.groups.map (·.id) = e.bridge.groups.map (·.id) := by
          rw [hbridge]
          exact map_id_modifyGroup fun _ => rfl
        rw [List.find?_eq_getElem?_findIdx] at hfirst
        set i := e.bridge.groups.findIdx e.bridge.isOwnedByOther
        have hid : (e₁.bridge.groups.map (·.id))[i]? = some g.id := by
          rw [hmap, List.getElem?_map, hfirst, Option.map_some]
        rw [List.getElem?_map, Option.map_eq_some_iff] at hid
        obtain ⟨g₁, hg₁, hsame⟩ := hid
        have hmem : g₁.id ∈ e₁.requests.map Request.groupId := h₁.2 (by simp [hsame])
        exact ⟨h₁.1.modify hg₁ hmem fun _ => rfl, fun _ hi => h₁.tail.2 hi⟩

theorem Tracked.retry (h : Tracked b ids e) (level : ActivationOverrideLevel) :
    Ends Prod.snd (Tracked b ids) (e.retry ε level) := by
  unfold Exchange.retry
  refine (h.releaseFirst level).bind (fun _ h => h) ?_
  rintro e₁ - h₁
  refine (Tracked.execute h₁ false).bind (fun _ h => h.tail) ?_
  rintro ⟨ok, e₂⟩ - h₂
  exact (h₂.execute true).mono fun _ h => h.tail.tail

/-- The end changes the selected group. -/
theorem Tracked.finish (h : Tracked b ids e) (hsel : b.selectedGroup ∈ ids) (result : Bool) :
    Ends Prod.snd (Tracked b ids) (e.finish level result) := by
  have hmem : e.bridge.selectedGroup ∈ e.requests.map Request.groupId := h.1.selectedGroup ▸ h.2 hsel
  unfold Exchange.finish
  split_ifs
  · cases e.bridge.getGroup with
    | none => exact h
    | some group => exact ⟨h.1.modifyGroup hmem fun _ => rfl, h.2⟩
  · exact ⟨h.1.modifyGroup hmem fun _ => rfl, h.2⟩
  · exact h

theorem Tracked.startStream (h : Tracked b ids e) :
    Ends Prod.snd (Tracked b ids) (e.startStream ε level) := by
  unfold Exchange.startStream
  refine (h.releaseOther level).bind (fun _ h => h) ?_
  rintro e₁ - h₁
  refine (Tracked.execute h₁ true).bind (fun _ h => h.tail) ?_
  rintro ⟨result, e₂⟩ - h₂
  dsimp only at h₂ ⊢
  split_ifs
  · refine (h₂.retry level).bind (fun _ h => h.tail) ?_
    rintro ⟨result', e₃⟩ - h₃
    exact (h₃.finish (by simp) result').mono fun _ h => h.tail
  · exact (h₂.finish (by simp) result).mono fun _ h => h.tail

theorem Tracked.stop (h : Tracked b ids e) : Ends id (Tracked b ids) (e.stop ε) := by
  unfold Exchange.stop
  refine (h.execute false).bind (fun _ h => h.tail) ?_
  rintro ⟨ok, e₁⟩ - h₁
  dsimp only at h₁ ⊢
  split_ifs
  · have hmem := h₁.2 (List.mem_cons_self ..)
    rw [← h₁.1.selectedGroup] at hmem
    exact ⟨h₁.1.modifyGroup hmem fun _ => rfl, h₁.tail.2⟩
  · exact h₁.tail

theorem tracks_of_call (c : StarterCall) (h : ended ((Exchange.mk b answers []).call ε c) = some e) :
    Tracks b e := by
  have hstart : Tracked b [] ⟨b, answers, []⟩ := ⟨.refl b answers, List.nil_subset _⟩
  have hends : Ends id (Tracked b []) ((Exchange.mk b answers []).call ε c) := by
    cases c with
    | execute url groupId activate =>
      exact ((hstart.executeUrl url groupId activate).mono fun _ h => h.tail).map
    | startStream level => exact hstart.startStream.map
    | stop => exact hstart.stop
    | deactivateGroup groupId => exact ((hstart.deactivateGroup groupId).mono fun _ h => h.tail).map
  exact (hends.of_ended h).1

/-! ### What is lost -/

/-- Only answers about the selected group report one as missing, or those alone account for all that it is
there. -/
def Attributed (b : Bridge) (rs : List Request) : Prop :=
  (∀ r ∈ rs, r.verdict = .missing → r.groupId = b.selectedGroup) ∨
    selectedCount b ≤ rs.countP fun r => r.groupId = b.selectedGroup ∧ r.verdict = .missing

theorem count_missing (rs : List Request) (groupId : String) : (rs.map Request.verdict).count .missing =
    rs.countP (fun r => r.groupId = groupId ∧ r.verdict = .missing) +
      rs.countP fun r => r.groupId ≠ groupId ∧ r.verdict = .missing := by
  induction rs with
  | nil => rfl
  | cons r rs ih =>
    simp only [List.map_cons, List.count_cons, List.countP_cons, ih]
    by_cases hid : r.groupId = groupId <;> by_cases hv : r.verdict = .missing <;>
      simp [hid, hv] <;> omega

/-- Groups of other ids stay, each as often as it is there. -/
theorem Tracks.countP_eq (h : Tracks b e) (hne : groupId ≠ b.selectedGroup) :
    e.bridge.groups.countP (·.id = groupId) = b.groups.countP (·.id = groupId) := by
  have hcount : ∀ groups : List Group, groups.countP (·.id = groupId) =
      ((groups.map (·.id)).filter (· ≠ b.selectedGroup)).count groupId := by
    intro groups
    rw [List.count_filter (by simpa using hne), List.count, List.countP_map]
    refine List.countP_congr fun g _ => ?_
    simp
  rw [hcount, hcount, h.ids]

theorem Tracks.framed_iff (h : Tracks b e) : Framed b e ↔ Attributed b e.requests := by
  have hcount := h.count
  have hsplit := count_missing e.requests b.selectedGroup
  have hselected : selectedCount e.bridge = e.bridge.groups.countP (·.id = b.selectedGroup) := by
    rw [selectedCount, h.selectedGroup]
  constructor
  · rintro ⟨-, -, hstays⟩
    have hsel := hstays b.selectedGroup
    rw [← hselected] at hsel
    change selectedCount b ≤ _ at hsel
    unfold Attributed
    by_cases hzero : e.requests.countP (fun r => r.groupId ≠ b.selectedGroup ∧ r.verdict = .missing) = 0
    · left
      intro r hr hv
      by_contra hne
      exact List.countP_eq_zero.mp hzero r hr (decide_eq_true ⟨hne, hv⟩)
    · right
      omega
  · intro hattr
    refine ⟨h.flags, h.others _ (fun r hr => List.mem_map_of_mem hr) ?_, fun groupId => ?_⟩
    · by_cases hmem : b.selectedGroup ∈ e.requests.map Request.groupId
      · exact .inl hmem
      · have hnone : ∀ r ∈ e.requests, r.groupId ≠ b.selectedGroup := fun r hr hid =>
          hmem (hid ▸ List.mem_map_of_mem hr)
        right
        rcases hattr with hattr | hle
        · exact .inl fun r hr hv => hnone r hr (hattr r hr hv)
        · have hzero : e.requests.countP (fun r => r.groupId = b.selectedGroup ∧ r.verdict = .missing) = 0 := by
            rw [List.countP_eq_zero]
            intro r hr hr'
            exact hnone r hr (of_decide_eq_true hr').1
          right
          omega
    · by_cases hid : groupId = b.selectedGroup
      · subst hid
        rw [← hselected]
        change selectedCount b ≤ _
        rcases hattr with hattr | hle
        · have hzero : e.requests.countP (fun r => r.groupId ≠ b.selectedGroup ∧ r.verdict = .missing) = 0 := by
            rw [List.countP_eq_zero]
            intro r hr hr'
            obtain ⟨hne, hv⟩ := of_decide_eq_true hr'
            exact hne (hattr r hr hv)
          omega
        · omega
      · rw [h.countP_eq hid]
        exact Nat.le_add_right _ _

/-! ### The answers about another group -/

theorem verdictV2_ne_missing (atof : String → ℚ) (node : JSONNode) : verdictV2 atof node ≠ .missing := by
  unfold verdictV2
  split
  · simp
  · split
    · simp
    · split_ifs <;> simp

theorem missing_not_mem_verdicts (h : b.isSupportingClipV2 ε.settings = true) (answers : List HttpAnswer) :
    .missing ∉ verdicts ε b answers := by
  intro hmem
  obtain ⟨answer, -, hanswer⟩ := List.mem_map.mp hmem
  unfold verdict at hanswer
  simp only [h, if_true] at hanswer
  split_ifs at hanswer
  exact verdictV2_ne_missing _ _ hanswer

/-- A single request. -/
theorem attributed_singleton {v : Verdict} {activate : Bool} (hr : r.Is groupId activate v) :
    Attributed b [r] ↔ ¬ (groupId ≠ b.selectedGroup ∧ v = .missing ∧ selectedCount b ≠ 0) := by
  obtain ⟨rfl, -, rfl⟩ := hr
  unfold Attributed
  by_cases hid : r.groupId = b.selectedGroup
  · simp [hid]
  · by_cases hv : r.verdict = .missing
    · simp [hid, hv]
    · simp [hv]

theorem attributed_of_executeUrl {url : String} {activate ok : Bool}
    (h : (Exchange.mk b answers []).executeUrl ε url groupId activate = .ok (ok, e)) :
    Attributed b e.requests ↔ ¬ TakenForSelected ε b answers (.execute url groupId activate) := by
  obtain ⟨r, v, hr, hmoves, -, -⟩ := executeUrl_ok h
  have hhead : (verdicts ε b answers).head? = some v := by
    have hanswers := hmoves.answers
    change verdicts ε b answers = _ at hanswers
    rw [hanswers, List.map_singleton, hr.2.2]
    rfl
  rw [hmoves.requests, List.nil_append, attributed_singleton hr]
  simp only [TakenForSelected, hhead, Option.some.injEq]

theorem attributed_of_deactivateGroup {ok : Bool}
    (h : (Exchange.mk b answers []).deactivateGroup ε groupId = .ok (ok, e)) :
    Attributed b e.requests ↔ ¬ TakenForSelected ε b answers (.deactivateGroup groupId) := by
  obtain ⟨r, v, hr, hmoves, -, -⟩ := deactivateGroup_ok h
  have hhead : (verdicts ε b answers).head? = some v := by
    have hanswers := hmoves.answers
    change verdicts ε b answers = _ at hanswers
    rw [hanswers, List.map_singleton, hr.2.2]
    rfl
  rw [hmoves.requests, List.nil_append, attributed_singleton hr]
  simp only [TakenForSelected, hhead, Option.some.injEq]

theorem requests_of_finish {result : Bool} (h : ended ((e.finish level result).map Prod.snd) = some e') :
    e'.requests = e.requests := by
  rcases finish_cases (rfl : e.finish level result = _) with ⟨-, -, heq⟩ |
    ⟨e₁, heq, -, hrequests, -⟩
  · rw [heq] at h
    obtain rfl := Option.some.inj h
    rfl
  · rw [heq] at h
    obtain rfl := Option.some.inj h
    exact hrequests

theorem attributed_of_stop (h : ended ((Exchange.mk b answers []).stop ε) = some e) :
    Attributed b e.requests := by
  unfold Exchange.stop at h
  cases hexecute : (Exchange.mk b answers []).execute ε false with
  | error failure =>
    rw [hexecute, executeUrl_error hexecute] at h
    cases h
  | ok p =>
    rw [hexecute] at h
    obtain ⟨e₁, r, v, heq, hmoves, hr, -⟩ := execute_cases hexecute (by simp)
    obtain rfl := Except.ok.inj heq
    have hrequests : e.requests = [r] := by
      have h₁ : e₁.requests = [r] := hmoves.requests
      change ended (if (decide (v = .ok) && e₁.bridge.isValidGroupSelected) = true then _ else _) = _ at h
      split_ifs at h
      · obtain rfl := Option.some.inj h
        exact h₁
      · obtain rfl := Option.some.inj h
        exact h₁
    rw [hrequests, attributed_singleton hr]
    exact fun hnot => hnot.1 rfl

/-- The first attempt and, when it fails on a busy bridge, the second. -/
theorem attributed_of_attempts
    (h : ended (((Exchange.mk b answers []).attempts ε level).map Prod.snd) = some e) :
    Attributed b e.requests ↔ ¬ TakenForSelected ε b answers (.startStream level) := by
  have ho : (Exchange.mk b answers []).attempts ε level ≠ .error .waiting := by
    intro heq
    rw [heq] at h
    cases h
  obtain ⟨e₁, r, v, hmoves, hr, hbridge, hcases⟩ := attempts_cases rfl ho
  have hv : r.verdict = v := hr.2.2
  have hrequest : e₁.requests = [r] := hmoves.requests
  rcases hcases with ⟨hnot, hfinish⟩ |
    ⟨hbusy, hfailed, e₂, mid, e₃, r', r'', v', v'', hmid, hlast, hr', hr'', -, hfinish, hothers⟩
  · rw [← hfinish] at h
    rw [requests_of_finish h, hrequest, attributed_singleton hr]
    refine iff_of_true (fun hnot => hnot.1 rfl) ?_
    rintro ⟨rfl, w, w', w'', hstart, hw, hbusy, -⟩
    have hverdicts := hmoves.answers
    change verdicts ε b answers = _ at hverdicts
    rw [hverdicts, List.map_singleton, hv] at hstart
    obtain ⟨rfl, -⟩ := List.cons_prefix_cons.mp hstart
    exact hnot ⟨hw, hbridge ▸ hbusy, by simp⟩
  · rw [← hfinish] at h
    have hall := (hmoves.trans hmid).trans hlast
    have hrequests : e.requests = [r] ++ mid ++ [r', r''] :=
      (requests_of_finish h).trans hall.requests
    have hverdicts := hall.answers
    change verdicts ε b answers = _ ++ verdicts ε b e₃.answers at hverdicts
    have hv' : r'.verdict = v' := hr'.2.2
    have hv'' : r''.verdict = v'' := hr''.2.2
    have hid : r.groupId = b.selectedGroup := hr.1
    have hid' : r'.groupId = b.selectedGroup := hr'.1
    have hid'' : r''.groupId = b.selectedGroup := hr''.1
    -- The answers in the order of the requests.
    have hstart : ∀ w ws, w :: ws <+: verdicts ε b answers →
        w = v ∧ ws <+: mid.map Request.verdict ++ [v', v''] ++ verdicts ε b e₃.answers := by
      intro w ws hstart
      rw [hverdicts] at hstart
      simp only [List.map_append, List.map_cons, List.map_nil, hv, hv', hv'', List.append_assoc,
        List.singleton_append] at hstart
      simpa using List.cons_prefix_cons.mp hstart
    rw [hrequests]
    rcases hothers with ⟨rfl, hnone⟩ | ⟨rfl, r₀, v₀, g, hg, rfl, hr₀⟩
    · refine iff_of_true (.inl ?_) ?_
      · simp [hid, hid', hid'']
      · rintro ⟨rfl, w, w', w'', hw, -, -, ⟨g, hg, -⟩, -⟩
        obtain ⟨rfl, -⟩ := hstart _ _ hw
        refine hnone ⟨rfl, fun hnil => ?_⟩
        rw [hbridge] at hnil
        rw [hnil] at hg
        cases hg
    · obtain ⟨hid₀, -, hv₀⟩ := hr₀
      rw [hbridge] at hg
      by_cases hother : g.id ≠ b.selectedGroup ∧ v₀ = .missing
      · obtain ⟨hne, rfl⟩ := hother
        have hcount : ([r] ++ [r₀] ++ [r', r'']).countP
            (fun r => r.groupId = b.selectedGroup ∧ r.verdict = .missing) = [v, v', v''].count .missing := by
          simp [List.countP_cons, List.count_cons, hid, hid', hid'', hid₀, hne, hv, hv', hv'']
        have hleft : ¬ ∀ x ∈ [r] ++ [r₀] ++ [r', r''], x.verdict = .missing → x.groupId = b.selectedGroup :=
          fun hall => hne (hid₀ ▸ hall r₀ (by simp) hv₀)
        unfold Attributed
        rw [hcount, or_iff_right hleft, ← not_lt]
        refine not_congr ⟨fun hlt => ?_, ?_⟩
        · refine ⟨rfl, v, v', v'', ?_, hfailed, hbridge ▸ hbusy, ⟨g, hg, hne⟩, hlt⟩
          rw [hverdicts]
          simp [hv, hv₀, hv', hv'']
        · rintro ⟨-, w, w', w'', hw, -, -, -, hlt⟩
          obtain ⟨rfl, hw⟩ := hstart _ _ hw
          simp only [List.map_singleton, List.cons_append, List.cons_prefix_cons, List.nil_append] at hw
          obtain ⟨-, rfl, rfl, -⟩ := hw
          exact hlt
      · refine iff_of_true (.inl ?_) ?_
        · intro x hx hmissing
          simp only [List.mem_append, List.mem_cons, List.not_mem_nil, or_false] at hx
          rcases hx with (rfl | rfl) | rfl | rfl
          · exact hid
          · by_contra hne
            exact hother ⟨hid₀ ▸ hne, hv₀ ▸ hmissing⟩
          · exact hid'
          · exact hid''
        · rintro ⟨-, w, w', w'', hw, -, -, ⟨g', hg', hne⟩, -⟩
          obtain ⟨rfl, hw⟩ := hstart _ _ hw
          obtain rfl := Option.mem_unique hg' hg
          simp only [List.map_singleton, List.cons_append, List.cons_prefix_cons] at hw
          exact hother ⟨hne, hv₀ ▸ hw.1.symm⟩

/-- In the second version no answer reports a group as missing. -/
theorem attributed_of_startStream
    (h : ended (((Exchange.mk b answers []).startStream ε level).map Prod.snd) = some e) :
    Attributed b e.requests ↔ ¬ TakenForSelected ε b answers (.startStream level) := by
  cases hclip : b.isSupportingClipV2 ε.settings with
  | false =>
    have hrelease : (Exchange.mk b answers []).releaseOther ε level = .ok ⟨b, answers, []⟩ :=
      if_pos (by simp [Exchange.useClipV2, hclip])
    rw [startStream_eq, hrelease] at h
    exact attributed_of_attempts h
  | true =>
    have hnone := missing_not_mem_verdicts hclip answers
    have hverdicts : ∀ r ∈ e.requests, r.verdict ∈ verdicts ε b answers := by
      have ho : (Exchange.mk b answers []).startStream ε level ≠ .error .waiting := by
        intro heq
        rw [heq] at h
        cases h
      rcases startStream_cases rfl ho with ⟨-, heq⟩ | ⟨-, e', rs, r, v, hmoves, -, -, -, -, hfinish⟩
      · rw [heq] at h
        obtain rfl := Option.some.inj h
        simp
      · rw [← hfinish] at h
        have hrequests : e.requests = rs ++ [r] := (requests_of_finish h).trans hmoves.requests
        have hanswers := hmoves.answers
        change verdicts ε b answers = _ at hanswers
        intro r' hr'
        rw [hanswers, ← hrequests]
        exact List.mem_append_left _ (List.mem_map_of_mem hr')
    refine iff_of_true (.inl fun r hr hv => absurd (hv ▸ hverdicts r hr) hnone) ?_
    rintro ⟨-, v, v', v'', hstart, -⟩
    exact hnone (hstart.subset (by simp))

/-- **What a call of `StreamStarter` may change.** A call that gets its answers changes no group but those its
requests were about, and loses none but those reported as missing, exactly when no answer about another group
is taken for one about the selected group. -/
theorem call_framed_iff (c : StarterCall) (h : ended ((Exchange.mk b answers []).call ε c) = some e) :
    Framed b e ↔ ¬ TakenForSelected ε b answers c := by
  rw [(tracks_of_call c h).framed_iff]
  cases c with
  | execute url groupId activate =>
    cases hcall : (Exchange.mk b answers []).executeUrl ε url groupId activate with
    | error failure =>
      rw [Exchange.call, hcall, executeUrl_error hcall] at h
      cases h
    | ok p =>
      rw [Exchange.call, hcall] at h
      obtain rfl := Option.some.inj h
      exact attributed_of_executeUrl hcall
  | startStream level => exact attributed_of_startStream h
  | stop => exact iff_of_true (attributed_of_stop h) id
  | deactivateGroup groupId =>
    cases hcall : (Exchange.mk b answers []).deactivateGroup ε groupId with
    | error failure =>
      rw [Exchange.call, hcall, deactivateGroup_error hcall] at h
      cases h
    | ok p =>
      rw [Exchange.call, hcall] at h
      obtain rfl := Option.some.inj h
      exact attributed_of_deactivateGroup hcall

/-- A bridge of the first version with its own group `a` selected and a group `b` of another client. -/
def sharedBridge : Bridge :=
  { appId := "d", groups := [{ id := "a" }, { id := "b", active := true, owner := "c" }], selectedGroup := "a" }

/-- An error of the first version. -/
def errorAnswer (type : ℚ) (text : String) : HttpAnswer :=
  ⟨true, .array [.node [("error", .node [("type", .number type text)])]]⟩

/-- The selected group is reported as missing. -/
theorem call_framed_stop : ∃ e, ended ((Exchange.mk sharedBridge [errorAnswer 3 "3"] []).call {} .stop) = some e ∧
    Framed sharedBridge e := by
  obtain ⟨e, he⟩ : ∃ e, ended ((Exchange.mk sharedBridge [errorAnswer 3 "3"] []).call {} .stop) = some e := ⟨_, rfl⟩
  exact ⟨e, he, (call_framed_iff .stop he).mpr id⟩

/-- The bridge is busy, and the group of the other client is gone when it is to be deactivated: it is the
selected group that the bridge loses. -/
theorem exists_call_not_framed : ∃ e,
    ended ((Exchange.mk sharedBridge [errorAnswer 307 "307", errorAnswer 3 "3", errorAnswer 307 "307",
      errorAnswer 307 "307"] []).call {} (.startStream .always)) = some e ∧
    ¬ Framed sharedBridge e ∧ (e.bridge.groups.map (·.id)) = ["b"] ∧
      (e.requests.filterMap fun r => if r.verdict = .missing then some r.groupId else none) = ["b"] := by
  refine ⟨_, rfl, fun hframed => ?_, by decide +kernel, by decide +kernel⟩
  have hstays := hframed.stays "a"
  revert hstays
  decide +kernel

end HueStream.Streaming
