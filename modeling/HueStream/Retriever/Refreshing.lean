import HueStream.Retriever.Owners

/-! # Retrievers that share the flag of the white list

Any number of retrievers are created and destroyed. The flag `updatingWhiteList` is a static of
`GetOwnerName`, so it is one for all of them, while each has its own white list. The request of a
refresh is answered at any later time, whether or not the retriever is still there. -/

namespace HueStream.Retriever

open HueStream.Data HueStream.Flow HueStream.Json HueStream.Lib

variable (ε : Context)

/-! ### The answer to a request of the white list -/

/-- What `UpdateWhitelist` makes of an answer. -/
inductive WhitelistAnswer
  | whitelist (whitelist : JSONNode)
  | unauthorized
  | failed

/-- The answer with this content, or with an error in place of it. -/
def whitelistAnswer (error : Bool) (root : JSONNode) : Option WhitelistAnswer :=
  if error || root.isNull then some .failed
  else if root.isArray then
    match root.asArray.find? fun entry => entry.isAttributeSet "error" with
    | some entry =>
      some (if ((entry.getAttributeValue "error").find "type").any fun type =>
          type.asLong ε.atof = 1 then .unauthorized else .failed)
    | none => (root.find "whitelist").map fun whitelist => .whitelist whitelist.asNode
  else match root.find "whitelist" with
    | some whitelist => some (.whitelist whitelist.asNode)
    | none => some .unauthorized

/-- What an answer without a white list says about the bridge. -/
def refused (c : Cache) (isUnauthorized : Bool) : Cache :=
  { c with bridge := if isUnauthorized then { c.bridge with isAuthorized := false, isValidIp := true }
      else { c.bridge with isValidIp := false } }

/-- The callback of `UpdateWhitelist`, with what it calls when there is a white list. -/
def takeAnswer (c : Cache) (answer : WhitelistAnswer) (callback : JSONNode → Cache) : Cache :=
  match answer with
  | .whitelist whitelist => callback whitelist
  | .unauthorized => refused c true
  | .failed => refused c false

/-- `DoExecute` of a retriever that is not connected: it takes the bridge and forgets what it knows. -/
def doExecute (c : Cache) (bridge : Bridge) : Cache :=
  { c with
    bridge
    previouslySelectedGroupName := (bridge.getGroup.map Group.name).getD ""
    allDeviceMap := ∅, allLightMap := ∅, allZigbeeConnectivityMap := ∅, allZoneMap := ∅
    allEntertainment := ∅, allSceneMap := ∅, whitelist := .empty }

/-- The white list a fetch begins with. -/
def onFirstWhitelist (c : Cache) (whitelist : JSONNode) : Cache :=
  { c with whitelist, bridge := { c.bridge with isAuthorized := true, isValidIp := true } }

/-- `GetFullConfig`. -/
def getFullConfig (c : Cache) : Cache :=
  { c with bridge := { c.bridge with groups := [], zones := [] }, resourceToGet := some .device }

/-! ### The retrievers -/

/-- A request of the white list that `GetOwnerName` has started. -/
structure OwnerRequest where
  retriever : ℕ
  ecId : String
  userName : String
deriving DecidableEq

/-- The retrievers in the order of their creation, `none` for one that is destroyed; the flag they
share, and the requests `GetOwnerName` has started that are not answered. -/
structure Retrievers where
  updatingWhiteList : Bool := false
  retrievers : List (Option Cache) := []
  inFlight : List OwnerRequest := []

namespace Retrievers

/-- A retriever that is there, with the flag it shares. -/
def cacheOf (s : Retrievers) (i : ℕ) : Option Cache :=
  (s.retrievers[i]?).join.map fun c => { c with updatingWhiteList := s.updatingWhiteList }

/-- What a retriever has written to its members and to the flag. -/
def write (s : Retrievers) (i : ℕ) (c : Cache) : Retrievers :=
  { s with updatingWhiteList := c.updatingWhiteList, retrievers := s.retrievers.set i (some c) }

end Retrievers

/-- What happens to the retrievers. `told` is an item of a fetch or a change of an event, as far as it is
not the answer of a refresh; an answer comes with an error or with its content. -/
inductive Occurrence
  | created
  | destroyed (i : ℕ)
  | executed (i : ℕ) (bridge : Bridge)
  | firstAnswered (i : ℕ) (error : Bool) (root : JSONNode)
  | fetchStarted (i : ℕ)
  | told (i : ℕ) (input : Input)
  | answered (request : OwnerRequest) (error : Bool) (root : JSONNode)

/-- The answer of a refresh, which the retrievers get as an occurrence of its own. -/
def Input.isWhitelist : Input → Bool
  | .whitelist _ _ _ => true
  | _ => false

/-- The request for the owner a change names. -/
def requestOf (i : ℕ) (change : Change) : OwnerRequest :=
  ⟨i, change.node.deserializeString "id", (streamerOf change.node).getD ""⟩

namespace Retrievers

/-- A retriever is told something; where this sets the flag, a request has been started. -/
def tell (s : Retrievers) (i : ℕ) (input : Input) : Option Retrievers := do
  let c ← s.cacheOf i
  let c' ← Retriever.step ε c input
  let started := if c'.updatingWhiteList && !c.updatingWhiteList then
    ((changeOf c input).map (requestOf i)).toList else []
  some { s.write i c' with inFlight := s.inFlight ++ started }

/-- A refresh is answered; a retriever that has been destroyed is not asked any more. -/
def answer (s : Retrievers) (request : OwnerRequest) (error : Bool) (root : JSONNode) :
    Option Retrievers := do
  let s := { s with inFlight := s.inFlight.erase request }
  match s.cacheOf request.retriever with
  | none => some s
  | some c => do
    some (s.write request.retriever (takeAnswer c (← whitelistAnswer ε error root)
      (onWhitelist c request.ecId request.userName)))

def step (s : Retrievers) : Occurrence → Option Retrievers
  | .created => some { s with retrievers := s.retrievers ++ [some {}] }
  | .destroyed i => (s.cacheOf i).map fun _ => { s with retrievers := s.retrievers.set i none }
  | .executed i bridge => (s.cacheOf i).map fun c => s.write i (doExecute c bridge)
  | .firstAnswered i error root => do
    let c ← s.cacheOf i
    some (s.write i (takeAnswer c (← whitelistAnswer ε error root) (onFirstWhitelist c)))
  | .fetchStarted i => (s.cacheOf i).map fun c => s.write i (getFullConfig c)
  | .told i input => if input.isWhitelist then none else s.tell ε i input
  | .answered request error root =>
    if request ∈ s.inFlight then s.answer ε request error root else none

end Retrievers

/-- The retrievers as a machine; at first there is none. -/
def retrievers : Machine Retrievers Occurrence where
  Init s := s = {}
  step := Retrievers.step ε

/-! ### What is to hold -/

/-- The flag is set only while a refresh is in flight; and while none is, every active group whose owner
is in the white list has that owner's name. -/
structure Retrievers.Fresh (s : Retrievers) : Prop where
  refreshing : s.updatingWhiteList = true → s.inFlight ≠ []
  named : s.inFlight = [] → ∀ i, ∀ c ∈ s.cacheOf i, ∀ group ∈ c.bridge.groups,
    group.active = true → Named c.whitelist group

/-- A new owner leaves a refresh in flight. -/
def TriggersRefresh (t : Transition Retrievers Occurrence) : Prop :=
  ∀ i input, t.label = .told i input → ∀ c ∈ t.before.cacheOf i, ∀ change ∈ changeOf c input,
    namesNewOwner c change = true → t.after.inFlight ≠ []

/-- The white list of an answer. -/
def whitelistIn (error : Bool) (root : JSONNode) : Option JSONNode :=
  match whitelistAnswer ε error root with
  | some (.whitelist whitelist) => some whitelist
  | _ => none

/-- What keeps the retrievers fresh. The white list a fetch begins with names no owner of a group that is
there by another name. A refresh succeeds while its retriever is there, the group that has asked has no
other owner by then that the new list has, and the new list names no owner of another group by another
name than the group has. -/
def Retrievers.Keeps (s : Retrievers) : Occurrence → Prop
  | .firstAnswered i error root => ∀ c ∈ s.cacheOf i, ∀ whitelist ∈ whitelistIn ε error root,
    ∀ group ∈ c.bridge.groups, Named whitelist group
  | .answered request error root => ∃ c ∈ s.cacheOf request.retriever,
    ∃ whitelist ∈ whitelistIn ε error root,
      (∀ group ∈ c.bridge.getGroupById request.ecId, group.owner = "" ∨
        group.owner = request.userName ∨ whitelist.isAttributeSet group.owner = false) ∧
      ∀ group ∈ c.bridge.groups.eraseP fun g => g.id = request.ecId, Named whitelist group
  | _ => True

instance (s : Retrievers) : DecidablePred (s.Keeps ε)
  | .firstAnswered i error root => inferInstanceAs (Decidable (∀ c ∈ s.cacheOf i,
    ∀ whitelist ∈ whitelistIn ε error root, ∀ group ∈ c.bridge.groups, Named whitelist group))
  | .answered request error root => inferInstanceAs (Decidable (∃ c ∈ s.cacheOf request.retriever,
    ∃ whitelist ∈ whitelistIn ε error root,
      (∀ group ∈ c.bridge.getGroupById request.ecId, group.owner = "" ∨
        group.owner = request.userName ∨ whitelist.isAttributeSet group.owner = false) ∧
      ∀ group ∈ c.bridge.groups.eraseP fun g => g.id = request.ecId, Named whitelist group))
  | .created | .destroyed _ | .executed _ _ | .fetchStarted _ | .told _ _ =>
    inferInstanceAs (Decidable True)

variable {ε} {s s' : Retrievers} {c c' d : Cache} {i j : ℕ}

/-! ### What the steps do to one retriever -/

theorem Retrievers.cacheOf_write (h : s.cacheOf i = some c) (j : ℕ) :
    (s.write i d).cacheOf j = if j = i then some d
      else (s.cacheOf j).map fun e => { e with updatingWhiteList := d.updatingWhiteList } := by
  have hi : i < s.retrievers.length := by
    by_contra hlen
    rw [cacheOf, List.getElem?_eq_none (by omega)] at h
    cases h
  unfold cacheOf write
  split_ifs with hj
  · subst hj
    rw [List.getElem?_set_self hi]
    rfl
  · rw [List.getElem?_set_ne (Ne.symm hj), Option.map_map]
    rfl

/-- The groups of a retriever are named by its white list. -/
def AllNamed (c : Cache) : Prop := ∀ group ∈ c.bridge.groups, Named c.whitelist group

theorem finishFetch_owners (c : Cache) : (finishFetch c).bridge.groups = c.bridge.groups ∧
    (finishFetch c).whitelist = c.whitelist ∧
    (finishFetch c).updatingWhiteList = c.updatingWhiteList := by
  unfold finishFetch
  split_ifs <;> exact ⟨rfl, rfl, rfl⟩

/-- An input that is neither a change nor the answer of a refresh writes to nothing that matters here. -/
theorem owners_of_quiet {input : Input} (hinput : input.isWhitelist = false)
    (hquiet : changeOf c input = none) (h : Retriever.step ε c input = some c') :
    c'.bridge.groups = c.bridge.groups ∧ c'.whitelist = c.whitelist ∧
      c'.updatingWhiteList = c.updatingWhiteList := by
  cases input with
  | item node =>
    have hnone : c.resourceToGet = none := by simpa [changeOf] using hquiet
    simp [Retriever.step, hnone] at h
  | resourceDone =>
    simp only [Retriever.step, Option.map_eq_some_iff] at h
    obtain ⟨resource, -, rfl⟩ := h
    unfold nextResource
    split
    · exact ⟨rfl, rfl, rfl⟩
    · exact finishFetch_owners _
  | change change => simp [changeOf] at hquiet
  | streamCheck bridgeWasStreaming =>
    obtain rfl := Option.some.inj h
    exact ⟨rfl, rfl, rfl⟩
  | whitelist ecId userName whitelist => simp [Input.isWhitelist] at hinput

theorem allNamed_of_step {input : Input} (hinput : input.isWhitelist = false)
    (h : Retriever.step ε c input = some c') (hc : AllNamed c) : AllNamed c' := by
  rcases step_cases h with ⟨change, -, hhandle⟩ | ⟨hquiet, -⟩
  · exact named_of_handle hhandle hc
  · obtain ⟨hgroups, hwhitelist, -⟩ := owners_of_quiet hinput hquiet h
    unfold AllNamed
    rw [hgroups, hwhitelist]
    exact hc

theorem updatingWhiteList_of_step {input : Input} (hinput : input.isWhitelist = false)
    (h : Retriever.step ε c input = some c') :
    c'.updatingWhiteList =
      (c.updatingWhiteList || (changeOf c input).any (namesNewOwner c)) := by
  rcases step_cases h with ⟨change, hchange, hhandle⟩ | ⟨hquiet, -⟩
  · rw [updatingWhiteList_of_handle hhandle, hchange, Option.any_some]
  · rw [(owners_of_quiet hinput hquiet h).2.2, hquiet, Option.any_none, Bool.or_false]

/-- What the answer of a refresh does: it clears the flag, takes the list and names the group that has
asked. -/
theorem onWhitelist_owners (c : Cache) (ecId userName : String) (whitelist : JSONNode) :
    (onWhitelist c ecId userName whitelist).updatingWhiteList = false ∧
      (onWhitelist c ecId userName whitelist).whitelist = whitelist ∧
      ∀ group ∈ (onWhitelist c ecId userName whitelist).bridge.groups,
        group ∈ c.bridge.groups.eraseP (fun g => g.id = ecId) ∨
        ∃ old, c.bridge.getGroupById ecId = some old ∧
          group = { old with ownerName := nameOf whitelist userName } := by
  simp only [onWhitelist]
  split
  · next hnone =>
    refine ⟨rfl, rfl, fun group hgroup => .inl ?_⟩
    have hother : ∀ g ∈ c.bridge.groups, ¬ (decide (g.id = ecId)) = true := by
      simpa [Bridge.getGroupById] using hnone
    rw [List.eraseP_of_forall_not hother]
    exact hgroup
  · next old hold =>
    refine ⟨rfl, rfl, fun group hgroup => ?_⟩
    rcases mem_modifyFirst_eraseP hgroup with hgroup | ⟨_, -, rfl⟩
    · exact .inl hgroup
    · exact .inr ⟨old, hold, rfl⟩

/-! ### The invariant -/

/-- A flag that is set has its request, and all groups of all retrievers are named. -/
structure Retrievers.Sound (s : Retrievers) : Prop where
  refreshing : s.updatingWhiteList = true → s.inFlight ≠ []
  named : ∀ i, ∀ c ∈ s.cacheOf i, AllNamed c

theorem Retrievers.Sound.fresh (h : s.Sound) : s.Fresh :=
  ⟨h.refreshing, fun _ i c hc group hgroup _ => h.named i c hc group hgroup⟩

/-- What one retriever writes is all that has to be looked at. -/
theorem Retrievers.named_write (hs : ∀ i, ∀ c ∈ s.cacheOf i, AllNamed c) (hc : s.cacheOf i = some c) (hd : AllNamed d) :
    ∀ j, ∀ e ∈ (s.write i d).cacheOf j, AllNamed e := by
  intro j e he
  rw [cacheOf_write hc, Option.mem_def] at he
  split_ifs at he with hj
  · obtain rfl := Option.some.inj he
    exact hd
  · obtain ⟨e, he', rfl⟩ := Option.map_eq_some_iff.mp he
    exact hs j e he'

theorem sound_tell {input : Input} (hinput : input.isWhitelist = false)
    (h : s.tell ε i input = some s') (hs : s.Sound) :
    s'.Sound ∧ ∀ c ∈ s.cacheOf i, ∀ change ∈ changeOf c input,
      namesNewOwner c change = true → s'.updatingWhiteList = true := by
  simp only [Retrievers.tell, Option.bind_eq_bind, Option.bind_eq_some_iff, Option.some.injEq] at h
  obtain ⟨c, hc, c', hstep, rfl⟩ := h
  have hflag := updatingWhiteList_of_step hinput hstep
  have hc' : AllNamed c' := allNamed_of_step hinput hstep (hs.named i c hc)
  refine ⟨⟨fun hset => ?_, Retrievers.named_write hs.named hc hc'⟩, fun d hd change hchange hnew => ?_⟩
  · have hset : c'.updatingWhiteList = true := hset
    cases hold : c.updatingWhiteList with
    | true =>
      have hshared : s.updatingWhiteList = c.updatingWhiteList := by
        obtain ⟨e, -, rfl⟩ := Option.map_eq_some_iff.mp hc
        rfl
      have hbefore := hs.refreshing (hshared.trans hold)
      simpa [hold] using hbefore
    | false =>
      rw [hold, Bool.false_or, hset] at hflag
      obtain ⟨change, hchange, -⟩ := (Option.any_eq_true _ _).mp hflag.symm
      simp [hset, hchange]
  · obtain rfl : c = d := Option.some.inj (hc.symm.trans hd)
    show c'.updatingWhiteList = true
    rw [hflag, hchange, Option.any_some, hnew, Bool.or_true]

/-- The answer of a refresh that succeeds clears the flag and leaves the groups named. -/
theorem sound_answer {request : OwnerRequest} {error : Bool} {root : JSONNode}
    (h : s.answer ε request error root = some s') (hs : s.Sound)
    (hkeeps : s.Keeps ε (.answered request error root)) : s'.Sound := by
  obtain ⟨c, hc, whitelist, hin, hasked, hothers⟩ := hkeeps
  have hanswer : whitelistAnswer ε error root = some (.whitelist whitelist) := by
    unfold whitelistIn at hin
    split at hin
    · next wl hwl =>
      obtain rfl := Option.some.inj hin
      exact hwl
    · cases hin
  have hc' : ({ s with inFlight := s.inFlight.erase request } : Retrievers).cacheOf
      request.retriever = some c := hc
  simp only [Retrievers.answer, hc', hanswer, Option.bind_eq_bind, Option.bind_some,
    takeAnswer, Option.some.injEq] at h
  subst h
  obtain ⟨hflag, hwhitelist, hgroups⟩ :=
    onWhitelist_owners c request.ecId request.userName whitelist
  have hnamed : AllNamed (onWhitelist c request.ecId request.userName whitelist) := by
    intro group hgroup
    rw [hwhitelist]
    rcases hgroups group hgroup with hgroup | ⟨old, hold, rfl⟩
    · exact hothers group hgroup
    · intro hne hset
      rcases hasked old hold with howner | howner | howner
      · exact absurd howner hne
      · exact congrArg (nameOf whitelist) howner.symm
      · rw [howner] at hset
        cases hset
  refine ⟨fun hset => ?_, Retrievers.named_write hs.named hc' hnamed⟩
  have hset : (onWhitelist c request.ecId request.userName whitelist).updatingWhiteList = true :=
    hset
  rw [hflag] at hset
  cases hset

/-- A step that writes a cache with the flag it has read, and starts and ends no refresh. -/
theorem Retrievers.Sound.write (hs : s.Sound) (hc : s.cacheOf i = some c)
    (hflag : d.updatingWhiteList = c.updatingWhiteList) (hd : AllNamed d) : (s.write i d).Sound := by
  have hshared : s.updatingWhiteList = c.updatingWhiteList := by
    obtain ⟨e, -, rfl⟩ := Option.map_eq_some_iff.mp hc
    rfl
  exact ⟨fun hset => hs.refreshing (hshared.trans (hflag.symm.trans hset)),
    Retrievers.named_write hs.named hc hd⟩

theorem sound_of_step {l : Occurrence} (h : s.step ε l = some s') (hs : s.Sound)
    (hkeeps : s.Keeps ε l) : s'.Sound := by
  cases l with
  | created =>
    obtain rfl := Option.some.inj h
    refine ⟨hs.refreshing, fun i c hc => ?_⟩
    rcases Nat.lt_trichotomy i s.retrievers.length with hi | rfl | hi
    · rw [Option.mem_def, Retrievers.cacheOf, List.getElem?_append_left hi] at hc
      exact hs.named i c hc
    · rw [Option.mem_def, Retrievers.cacheOf, List.getElem?_concat_length] at hc
      obtain rfl := Option.some.inj hc
      exact fun group hgroup => absurd hgroup List.not_mem_nil
    · rw [Option.mem_def, Retrievers.cacheOf, List.getElem?_eq_none (by simpa using hi)] at hc
      cases hc
  | destroyed i =>
    simp only [Retrievers.step, Option.map_eq_some_iff] at h
    obtain ⟨c, hc, rfl⟩ := h
    refine ⟨hs.refreshing, fun j d hd => ?_⟩
    by_cases hj : i = j
    · subst hj
      have hnone : (s.retrievers.set i none)[i]?.join = none := by
        rw [List.getElem?_set_self']
        cases s.retrievers[i]? <;> rfl
      rw [Option.mem_def, Retrievers.cacheOf, hnone] at hd
      cases hd
    · rw [Option.mem_def, Retrievers.cacheOf, List.getElem?_set_ne hj] at hd
      exact hs.named j d hd
  | executed i bridge =>
    simp only [Retrievers.step, Option.map_eq_some_iff] at h
    obtain ⟨c, hc, rfl⟩ := h
    refine hs.write hc rfl fun group _ _ hset => ?_
    simp [doExecute, JSONNode.empty, JSONNode.isAttributeSet, JSONNode.find, JSONNode.children] at hset
  | firstAnswered i error root =>
    simp only [Retrievers.step, Option.bind_eq_bind, Option.bind_eq_some_iff, Option.some.injEq] at h
    obtain ⟨c, hc, answer, hanswer, rfl⟩ := h
    cases answer with
    | whitelist whitelist =>
      have hin : whitelistIn ε error root = some whitelist := by rw [whitelistIn, hanswer]
      exact hs.write hc rfl (hkeeps c hc whitelist hin)
    | unauthorized => exact hs.write hc rfl (hs.named i c hc)
    | failed => exact hs.write hc rfl (hs.named i c hc)
  | fetchStarted i =>
    simp only [Retrievers.step, Option.map_eq_some_iff] at h
    obtain ⟨c, hc, rfl⟩ := h
    exact hs.write hc rfl fun group hgroup => absurd hgroup List.not_mem_nil
  | told i input =>
    simp only [Retrievers.step] at h
    split_ifs at h with hinput
    exact (sound_tell (by simpa using hinput) h hs).1
  | answered request error root =>
    simp only [Retrievers.step] at h
    split_ifs at h
    exact sound_answer h hs hkeeps

/-- **The retrievers stay fresh** in a run whose steps all keep them so, and every new owner on the way
leaves a refresh in flight. -/
theorem fresh_of_keeps {ts : List (Transition Retrievers Occurrence)}
    (hrun : (retrievers ε).Run ts s) (hkeeps : ∀ t ∈ ts, t.before.Keeps ε t.label) :
    s.Fresh ∧ ∀ t ∈ ts, TriggersRefresh t := by
  have hinit : ∀ s, (retrievers ε).Init s → s.Sound := by
    rintro s rfl
    exact ⟨fun hset => absurd hset (by decide), fun i c hc => by simp [Retrievers.cacheOf] at hc⟩
  have hstep : ∀ s l s', (retrievers ε).step s l = some s' → s.Keeps ε l → s.Sound → s'.Sound :=
    fun s l s' h hk hs => sound_of_step h hs hk
  refine ⟨(hrun.invariant_of hinit hstep hkeeps).fresh, fun t ht => ?_⟩
  obtain ⟨hlast, us, hus, hbefore⟩ := hrun.reaches_before ht
  have hs : t.before.Sound :=
    hbefore.invariant_of hinit hstep fun u hu => hkeeps u (hus.subset hu)
  rintro i input hlabel c hc change hchange hnew
  rw [hlabel] at hlast
  simp only [retrievers, Retrievers.step] at hlast
  split_ifs at hlast with hinput
  obtain ⟨hs', hset⟩ := sound_tell (by simpa using hinput) hlast hs
  exact hs'.refreshing (hset c hc change hchange hnew)

/-! ### Two groups with new owners -/

/-- The content of an answer with these users and their names. -/
def usersNamed (users : List (String × String)) : JSONNode :=
  .node [("whitelist", .node (users.map fun user => (user.1, .node [("name", .string user.2)])))]

/-- An entertainment configuration that this user streams to. -/
def streamedBy (group userName : String) : Change :=
  ⟨.add, .entertainmentConfiguration, .node [("id", .string group), ("status", .string "active"),
    ("active_streamer", .node [("rid", .string userName)])]⟩

/-- A retriever that has fetched a bridge without groups and knows no user. -/
def connecting : List Occurrence :=
  [.created, .executed 0 {}, .firstAnswered 0 false (usersNamed []), .fetchStarted 0] ++
    List.replicate 8 (.told 0 .resourceDone)

theorem fresh_of_keeps_example : ∃ ts s, (retrievers {}).Run ts s ∧
    (s.Fresh ∧ ∀ t ∈ ts, TriggersRefresh t) ∧
    (s.cacheOf 0).map (fun c => c.bridge.groups.map fun g => g.ownerName) = some ["Ann"] := by
  obtain ⟨ts, s, hrun, h⟩ := Machine.exists_run (M := retrievers {}) (s := {})
    (connecting ++ [.told 0 (.change (streamedBy "group" "1")),
      .answered ⟨0, "group", "1"⟩ false (usersNamed [("1", "Ann")])])
    (fun ts s => (ts.all fun t => decide (t.before.Keeps {} t.label)) &&
      decide ((s.cacheOf 0).map (fun c => c.bridge.groups.map fun g => g.ownerName) = some ["Ann"]))
    rfl (by decide +kernel)
  rw [Bool.and_eq_true, List.all_eq_true, decide_eq_true_eq] at h
  obtain ⟨hkeeps, hname⟩ := h
  exact ⟨ts, s, hrun, fresh_of_keeps hrun fun t ht => of_decide_eq_true (hkeeps t ht), hname⟩

/-- A refresh that fails leaves the flag set for good; and of two groups that get new owners while one
refresh runs, the second stays without the name. -/
theorem exists_not_fresh :
    (∃ ts s, (retrievers {}).Run ts s ∧ s.inFlight = [] ∧ s.updatingWhiteList = true ∧ ¬ s.Fresh) ∧
    ∃ ts s, (retrievers {}).Run ts s ∧ s.inFlight = [] ∧ s.updatingWhiteList = false ∧
      ¬ s.Fresh := by
  constructor
  · obtain ⟨ts, s, hrun, h⟩ := Machine.exists_run (M := retrievers {}) (s := {})
      (connecting ++ [.told 0 (.change (streamedBy "group" "1")), .answered ⟨0, "group", "1"⟩ true .null])
      (fun _ s => decide (s.inFlight = []) && s.updatingWhiteList) rfl (by decide +kernel)
    rw [Bool.and_eq_true, decide_eq_true_eq] at h
    exact ⟨ts, s, hrun, h.1, h.2, fun hfresh => hfresh.refreshing h.2 h.1⟩
  · obtain ⟨ts, s, hrun, h⟩ := Machine.exists_run (M := retrievers {}) (s := {})
      (connecting ++ [.told 0 (.change (streamedBy "first" "1")),
        .told 0 (.change (streamedBy "second" "2")),
        .answered ⟨0, "first", "1"⟩ false (usersNamed [("1", "Ann"), ("2", "Ben")])])
      (fun _ s => decide (s.inFlight = []) && !s.updatingWhiteList && (s.cacheOf 0).any fun c =>
        c.bridge.groups.any fun group => group.active && !decide (Named c.whitelist group))
      rfl (by decide +kernel)
    rw [Bool.and_eq_true, Bool.and_eq_true, decide_eq_true_eq, Bool.not_eq_true',
      Option.any_eq_true] at h
    obtain ⟨⟨hidle, hflag⟩, c, hc, hany⟩ := h
    obtain ⟨group, hgroup, hunnamed⟩ := List.any_eq_true.mp hany
    rw [Bool.and_eq_true, Bool.not_eq_true', decide_eq_false_iff_not] at hunnamed
    exact ⟨ts, s, hrun, hidle, hflag, fun hfresh =>
      hunnamed.2 (hfresh.named hidle 0 c hc group hgroup hunnamed.1)⟩

end HueStream.Retriever
