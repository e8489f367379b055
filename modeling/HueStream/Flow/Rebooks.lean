import HueStream.Flow.Changes

/-! # The completions and the book

A completion makes the change of the book that `completionChange` tells, and so every step makes the
change that `change` tells (`handle_rebooks`). -/

namespace HueStream.Flow

open HueStream.Data HueStream.Lib

variable {σ : Settings} {ω : Answers} {s s' u : ConnectionFlow}

namespace ConnectionFlow

/-! ### What is read from the storage -/

theorem heap_allocAll_of_lt (bridges : List Bridge) {p : BridgePtr} (hp : p < s.next) :
    (s.allocAll bridges).1.heap p = s.heap p := by
  unfold allocAll
  induction bridges generalizing s with
  | nil => rfl
  | cons b l ih =>
    refine (ih (s := s.alloc b) (Nat.lt_succ_of_lt hp)).trans ?_
    exact Function.update_of_ne (Nat.ne_of_lt hp) _ _

/-- The new objects are the given bridges. -/
theorem map_heap_allocAll (bridges : List Bridge) :
    (s.allocAll bridges).2.map (s.allocAll bridges).1.heap = bridges := by
  induction bridges generalizing s with
  | nil => rfl
  | cons b l ih =>
    have hptrs : (s.allocAll (b :: l)).2 = s.next :: ((s.alloc b).allocAll l).2 := List.range'_succ ..
    have hhead := heap_allocAll_of_lt (s := s.alloc b) l (Nat.lt_succ_self s.next)
    rw [hptrs]
    show ((s.alloc b).allocAll l).1.heap s.next ::
      ((s.alloc b).allocAll l).2.map ((s.alloc b).allocAll l).1.heap = b :: l
    rw [ih, hhead]
    simp [alloc]

theorem book_adoptData (ptrs : List BridgePtr) :
    (u.adoptData ptrs).book = loadedBook .success (ptrs.map u.heap) := by
  unfold adoptData loadedBook
  rw [List.getLast?_map]
  cases ptrs.getLast? with
  | none => simp [book, activeBridge, activePtr, setPersistentData, alloc, HueStreamData.clear,
      Bridge.identity]
  | some active =>
    simp [book, activeBridge, activePtr, setPersistentData, List.map_dropLast, Function.comp_def]

/-- Another bridge is written over the active one. -/
theorem book_write_active (h : s.persistentData.bridges.Nodup) (b : Bridge) :
    (s.write s.activePtr b).book = ⟨s.book.earlier, b.identity⟩ := by
  unfold HueStreamData.bridges at h
  rw [List.nodup_append] at h
  unfold book
  congr 1
  · refine List.map_congr_left fun p hp => ?_
    have hne : p ≠ s.activePtr := h.2.2 p hp _ (by simp [activePtr])
    simp [write, Function.update_of_ne hne]
  · simp [write, activeBridge, activePtr]

/-- After a load the book is the one that was read, in new objects; the others are as they were. -/
structure Adopts (s : ConnectionFlow) (k : Book) (v : ConnectionFlow) : Prop where
  book : v.book = k
  stored : ∀ p ∈ v.persistentData.bridges, p < v.next
  nodup : v.persistentData.bridges.Nodup
  fresh : s.next ≤ v.activePtr
  next : s.next ≤ v.next
  heap : ∀ p < s.next, v.heap p = s.heap p
  saved : saves v.log = saves s.log

theorem Adopts.feedback {v : ConnectionFlow} {k : Book} (h : Adopts s k v) (id : MessageId)
    (bridges : List BridgePtr := []) : Adopts s k (v.feedback id bridges) := by
  rw [feedback_eq]
  exact ⟨h.book, h.stored, h.nodup, h.fresh, h.next, h.heap, by simp [h.saved]⟩

/-- A load that has failed clears the active bridge. -/
theorem Adopts.clear {v : ConnectionFlow} {stored : List Bridge}
    (h : Adopts s (loadedBook .success stored) v) :
    Adopts s (loadedBook .failed stored) (v.write v.activePtr v.activeBridge.clear) := by
  refine ⟨?_, h.stored, h.nodup, h.fresh, h.next, fun p hp => ?_, h.saved⟩
  · rw [book_write_active h.nodup, h.book]
    unfold loadedBook
    cases stored.getLast? <;> rfl
  · rw [← h.heap p hp]
    exact Function.update_of_ne (Nat.ne_of_lt (lt_of_lt_of_le hp h.fresh)) _ _

theorem allocAll_eq (bridges : List Bridge) :
    ∃ heap next, (s.allocAll bridges).1 = { s with heap, next } := by
  unfold allocAll
  induction bridges generalizing s with
  | nil => exact ⟨s.heap, s.next, rfl⟩
  | cons b l ih =>
    obtain ⟨heap, next, heq⟩ := ih (s := s.alloc b)
    exact ⟨heap, next, heq⟩

theorem adopts_adoptData (h : Valid s) (stored : List Bridge) :
    Adopts s (loadedBook .success stored)
      ((s.allocAll stored).1.adoptData (s.allocAll stored).2) := by
  obtain ⟨hu, hnext⟩ := h.allocAll stored
  have hle : s.next ≤ (s.allocAll stored).1.next := hnext ▸ Nat.le_add_right _ _
  have hptrs : (s.allocAll stored).2.Nodup := List.nodup_range'
  have hmem : ∀ p ∈ (s.allocAll stored).2, s.next ≤ p := fun p hp => (List.mem_range'_1.mp hp).1
  have hbook := book_adoptData (u := (s.allocAll stored).1) (s.allocAll stored).2
  rw [map_heap_allocAll] at hbook
  have hstored := (hu.adoptData fun p hp => h.lt_of_mem_allocAll hp).stored
  have hheap : ∀ p < s.next, (s.allocAll stored).1.heap p = s.heap p :=
    fun p hp => heap_allocAll_of_lt stored hp
  have hlog : (s.allocAll stored).1.log = s.log := by
    obtain ⟨heap, next, heq⟩ := allocAll_eq (s := s) stored
    rw [heq]
  generalize (s.allocAll stored).1 = u at *
  generalize (s.allocAll stored).2 = ptrs at *
  cases hlast : ptrs.getLast? with
  | none =>
    have hadopt : u.adoptData ptrs = (u.alloc {}).setPersistentData (.clear u.next) := by
      rw [adoptData, hlast]
    rw [hadopt] at hbook hstored ⊢
    refine ⟨hbook, hstored, List.nodup_singleton _, hle, hle.trans (Nat.le_succ _), fun p hp => ?_,
      congrArg saves hlog⟩
    rw [← hheap p hp]
    exact Function.update_of_ne (Nat.ne_of_lt (lt_of_lt_of_le hp hle)) _ _
  | some active =>
    have hadopt : u.adoptData ptrs = u.setPersistentData ⟨ptrs.dropLast, active⟩ := by
      rw [adoptData, hlast]
    rw [hadopt] at hbook hstored ⊢
    refine ⟨hbook, hstored, ?_, hmem _ (List.mem_of_getLast? hlast), hle, hheap, congrArg saves hlog⟩
    obtain ⟨l, rfl⟩ := List.getLast?_eq_some_iff.mp hlast
    simpa [setPersistentData, HueStreamData.bridges] using hptrs

/-- What was read is in place when the continuation of the load runs. -/
theorem loadingCompleted_eq (h : Valid s) (hstate : s.state = .loading) (callback : LoadCallback)
    (result : OperationResult) (stored : List Bridge) : ∃ v,
    Adopts s (loadedBook result stored) v ∧
      s.loadingCompleted σ callback result stored = v.runLoadCallback σ callback := by
  have hadopt := adopts_adoptData h stored
  rw [loadingCompleted, if_neg (by simp [hstate])]
  dsimp only
  cases result with
  | success =>
    rw [if_pos rfl]
    exact ⟨_, hadopt.feedback .finishLoadingBridgeConfigured _, rfl⟩
  | failed =>
    rw [if_neg (by simp)]
    exact ⟨_, (hadopt.feedback .finishLoadingNoBridgeConfigured).clear, rfl⟩

theorem rebooks_loadingCompleted (h : Valid s) {callback : LoadCallback}
    (hcb : ∀ p, callback.pointer = some p → p < s.next) (reply : Reply) :
    Rebooks σ s (s.completionChange σ reply (.load callback))
      (s.loadingCompleted σ callback reply.result reply.bridges) := by
  show Rebooks σ s (if s.state = .loading then _ else _) _
  by_cases hstate : s.state = .loading
  · rw [if_pos hstate]
    obtain ⟨v, hv, heq⟩ := loadingCompleted_eq (σ := σ) h hstate callback reply.result reply.bridges
    rw [heq]
    have hs := Leaves.refl h.stored
    have hrefl := Leaves.refl hv.stored
    cases callback with
    | finish => exact .of_leaves hs hv.saved (hv.book ▸ .load _) (hrefl.finish σ)
    | searchOrRetrieve =>
      refine .of_leaves hs hv.saved (hv.book ▸ .load _) ?_
      unfold runLoadCallback
      split_ifs
      · exact hrefl.startBridgeSearch
      · exact hrefl.startRetrieveSmallConfig _
    | retrieve bridge =>
      exact .of_leaves hs hv.saved (hv.book ▸ .load _) (hrefl.startRetrieveSmallConfig _)
    | search => exact .of_leaves hs hv.saved (hv.book ▸ .load _) hrefl.startBridgeSearch
    | setActiveAndRetrieve bridge =>
      have hb : bridge < s.next := hcb bridge rfl
      have hbook : (v.setActiveBridge σ bridge).book =
          (loadedBook reply.result reply.bridges).activate σ.bridge (s.heap bridge).identity := by
        rw [book_setActiveBridge, hv.book, hv.heap bridge hb]
      have hlog : saves (v.setActiveBridge σ bridge).log = saves s.log := hv.saved
      refine .of_leaves hs hlog (hbook ▸ .load _) ?_
      refine Leaves.startRetrieveSmallConfig (Leaves.refl fun p hp => ?_) _
      rcases mem_setActiveBridge hp with hp | rfl
      · exact hv.stored p hp
      · exact lt_of_lt_of_le hb hv.next
  · rw [if_neg hstate, loadingCompleted, if_pos hstate]
    exact (Leaves.refl h.stored).rebooks

/-! ### Searches -/

/-- Known bridges at new addresses, one of which becomes the active one. -/
theorem changes_rediscover (h : u.book = s.book) {bridges : List BridgePtr} {heap : Heap}
    {b : BridgePtr} (hb : b ∈ u.persistentData.bridges)
    (hfound : HueStreamData.isRediscovered σ.bridge u.heap bridges b = true)
    (hcred : ∀ p, (heap p).identity.credentials = (u.heap p).identity.credentials)
    (hactive : b = u.activePtr ∨ heap u.activePtr = u.heap u.activePtr) :
    s.book.Changes σ.bridge .rediscover ({ u with heap }.setActiveBridge σ b).book := by
  rw [book_setActiveBridge, ← h]
  have hever := (HueStreamData.isRediscovered_iff.mp hfound).1
  rw [Bridge.isAuthorizedForStreaming, Bool.and_eq_true] at hever
  have hmem : ∀ t : ConnectionFlow, b ∈ t.persistentData.bridges →
      (t.heap b).identity ∈ t.book.all := by
    intro t ht
    rw [all_book]
    exact List.mem_map_of_mem ht
  refine .rediscover ?_ (hmem { u with heap } hb) (hmem u hb) (hcred b) hever.1 ?_
  · rw [all_book, all_book, List.map_map, List.map_map]
    exact List.map_congr_left fun p _ => hcred p
  · rcases hactive with rfl | hsame
    · exact .inl rfl
    · exact .inr (congrArg Bridge.identity hsame)

theorem rebooks_validBridgesFound (h : Leaves s u) (bridges : List BridgePtr) :
    Rebooks σ s (if u.request ≠ .connectNew ∧ u.persistentData.bridges.any
        (HueStreamData.isRediscovered σ.bridge u.heap bridges) = true then .rediscover else .keep)
      (u.validBridgesFound σ bridges) := by
  have hend : Leaves s (if u.request = .connectBackground then
      { u.feedback .doneBridgeFound bridges with backgroundDiscoveredBridges := bridges }.finish σ
      else u.startAuthentication bridges) := by
    split_ifs
    · exact Leaves.finish σ (Leaves.silent (h.feedback .doneBridgeFound bridges))
    · exact h.startAuthentication bridges
  unfold validBridgesFound
  by_cases hrequest : u.request ≠ .connectNew
  · rw [if_pos hrequest]
    rcases u.persistentData.rediscoverKnownBridge_cases σ.bridge u.heap bridges with ⟨hany, heq⟩ | ⟨hany, heap, b, heq, hb, hfound, hcred, hactive⟩
    · rw [heq, if_neg (by simp [hany])]
      exact hend.rebooks
    · rw [heq, if_pos ⟨hrequest, hany⟩]
      dsimp only
      rw [if_pos rfl]
      have hlog : saves ({ u with heap }.setActiveBridge σ b).log = saves u.log := rfl
      refine .of_leaves h hlog (changes_rediscover h.book hb hfound hcred hactive) ?_
      refine Leaves.startRetrieveSmallConfig (Leaves.refl fun p hp => ?_) _
      rcases mem_setActiveBridge hp with hp | rfl
      · exact h.stored' p hp
      · exact h.stored' _ hb
  · rw [if_neg hrequest, if_neg (by simp_all)]
    exact hend.rebooks

theorem rebooks_bridgeSearchCompleted (h : Valid s) (reply : Reply) :
    Rebooks σ s (s.completionChange σ reply .search)
      (s.bridgeSearchCompleted σ reply.bridges) := by
  show Rebooks σ s (if (s.state = .searchingFirst ∨ s.state = .searchingRetry) ∧
    s.rediscovers σ reply.bridges then .rediscover else .keep) _
  by_cases hstate : s.state = .searchingFirst ∨ s.state = .searchingRetry
  swap
  · rw [if_neg fun hc => hstate hc.1, bridgeSearchCompleted, if_pos (not_or.mp hstate)]
    exact (Leaves.refl h.stored).rebooks
  have hu : Leaves s (s.allocAll reply.bridges).1 := (Leaves.refl h.stored).allocAll reply.bridges
  have hfound : s.rediscovers σ reply.bridges = true ↔
      (s.allocAll reply.bridges).1.request ≠ .connectNew ∧
      ((filterInvalidAndDuplicateIpAddresses (s.allocAll reply.bridges).1.heap
        (s.allocAll reply.bridges).2).any fun b =>
          ((s.allocAll reply.bridges).1.heap b).isValidModelId σ.bridge) = true ∧
      (s.allocAll reply.bridges).1.persistentData.bridges.any
        (HueStreamData.isRediscovered σ.bridge (s.allocAll reply.bridges).1.heap
          (filterInvalidAndDuplicateIpAddresses (s.allocAll reply.bridges).1.heap
            (s.allocAll reply.bridges).2)) = true := by
    have hsame : (s.allocAll reply.bridges).1.request = s.request := by
      obtain ⟨heap, next, heq⟩ := allocAll_eq (s := s) reply.bridges
      rw [heq]
    rw [hsame, hu.data]
    unfold rediscovers
    simp only [Bool.and_eq_true, decide_eq_true_eq, and_assoc]
  rw [bridgeSearchCompleted, if_neg (not_and_or.mpr (hstate.imp not_not.mpr not_not.mpr))]
  dsimp only
  generalize (s.allocAll reply.bridges).1 = u at hu hfound ⊢
  generalize filterInvalidAndDuplicateIpAddresses u.heap (s.allocAll reply.bridges).2 = bridges
    at hfound ⊢
  have hnone := hu.feedback .finishSearchingNoBridgesFound
  have hinvalid := hu.feedback .finishSearchingInvalidBridgesFound
  by_cases hvalid : (bridges.any fun b => (u.heap b).isValidModelId σ.bridge) = true
  · have hne : bridges ≠ [] := by
      rintro rfl
      cases hvalid
    have hrebooks := rebooks_validBridgesFound (σ := σ)
      (hu.feedback .finishSearchBridgesFound bridges) bridges
    rw [if_neg hne, if_pos hvalid]
    simpa [hstate, hvalid, hfound, feedback_eq] using hrebooks
  · rw [if_neg fun hc => hvalid (hfound.mp hc.2).2.1]
    refine Leaves.rebooks ?_
    split_ifs
    · exact (hnone.feedback .doneNoBridgeFound).finish σ
    · exact hnone.startBridgeSearch
    · exact (hnone.reportActionRequired σ).beginSaving σ
    · exact (hinvalid.feedback .doneNoBridgeFound).finish σ
    · exact (hinvalid.reportActionRequired σ).beginSaving σ
    · exact hinvalid.startAuthentication bridges

/-! ### Authentication, retrieval and saving -/

theorem rebooks_authorizedOrRetry (h : Leaves s u) (procedure : Option ℕ) {p : BridgePtr}
    (hp : p < s.next) :
    Rebooks σ s (if (u.heap p).isAuthorized then .authorize (s.heap p).identity else .keep)
      (u.authorizedOrRetry σ ω procedure p) := by
  unfold authorizedOrRetry
  split_ifs
  · refine Rebooks.setActive h.decremented (lt_of_lt_of_le hp h.next) ?_ fun hv => ?_
    · rw [h.decremented.identity p hp]
      exact .authorize _
    · exact ((hv.feedback .finishAuthorizingAuthorized _).stopScheduler).startRetrieveFullConfig σ ω
  · exact Leaves.rebooks h.silent

theorem rebooks_authenticationCompleted (h : Valid s) (reply : Reply) (procedure : Option ℕ)
    {p : BridgePtr} (hp : p < s.next) :
    Rebooks σ s (s.completionChange σ reply (.authenticate p))
      (s.authenticationCompleted σ ω procedure p) := by
  show Rebooks σ s (if s.state = .authenticating ∧ s.authorizes p then
    .authorize (s.heap p).identity else .keep) _
  have hs := Leaves.refl h.stored
  by_cases hstate : s.state = .authenticating
  swap
  · rw [if_neg fun hc => hstate hc.1, authenticationCompleted, if_pos hstate]
    exact hs.rebooks
  simp only [hstate, true_and]
  rw [authenticationCompleted, if_neg (not_not.mpr hstate)]
  dsimp only
  by_cases hip : (s.heap p).isValidIp = true
  · have hauth : s.authorizes p = (s.heap p).isAuthorized := by simp [authorizes, hip]
    rw [if_pos hip, hauth]
    exact rebooks_authorizedOrRetry (hs.setProcessInfo p _) procedure hp
  have hip' : (s.heap p).isValidIp = false := Bool.eq_false_iff.mpr hip
  rw [if_neg hip]
  by_cases hmany : pushlinkInvalidIpMaxRetries < s.failedTries p + 1
  · have hno : s.authorizes p = false := by
      simp only [authorizes, retriesAddress, hip', Bool.not_false, Bool.true_and, Bool.false_or,
        Bool.and_eq_false_iff, decide_eq_false_iff_not]
      omega
    rw [hno, if_neg Bool.false_ne_true, if_pos (by exact hmany)]
    refine Leaves.rebooks ?_
    split_ifs
    · exact (((hs.setProcessInfo p _).decremented.feedback
        .finishAuthorizingFailed).startBridgeSearch).stopScheduler
    · exact (hs.setProcessInfo p _).decremented
  · have hauth : s.authorizes p = (s.heap p).isAuthorized := by
      have : s.failedTries p < pushlinkInvalidIpMaxRetries := by omega
      simp [authorizes, retriesAddress, hip', this]
    rw [hauth, if_neg (show ¬ pushlinkInvalidIpMaxRetries <
      ((s.authenticationProcessesInfo.lookup p).getD {}).failedTries + 1 from hmany)]
    have hwrite := (hs.setProcessInfo p { (s.authenticationProcessesInfo.lookup p).getD {} with
      failedTries := ((s.authenticationProcessesInfo.lookup p).getD {}).failedTries + 1 }).write p
        { s.heap p with isValidIp := true } rfl
    have hsame := rebooks_authorizedOrRetry (σ := σ) (ω := ω) hwrite procedure hp
    simpa [write, setProcessInfo] using hsame

theorem rebooks_retrieveSmallConfigCompleted (h : Valid s) (reply : Reply) {p : BridgePtr}
    (hp : p < s.next) :
    Rebooks σ s (s.completionChange σ reply (.retrieveSmallConfig p))
      (s.retrieveSmallConfigCompleted σ ω reply.result p) := by
  show Rebooks σ s (if s.state = .retrieving ∧ reply.result = .success then
    .activate (s.heap p).identity else .keep) _
  have hs := Leaves.refl h.stored
  by_cases hstate : s.state = .retrieving
  swap
  · rw [if_neg fun hc => hstate hc.1, retrieveSmallConfigCompleted, if_pos hstate]
    exact hs.rebooks
  rw [retrieveSmallConfigCompleted, if_neg (not_not.mpr hstate)]
  by_cases hfailed : reply.result = .failed
  · rw [if_pos hfailed, if_neg (by simp [hfailed])]
    exact (hs.retrieveFailed σ p).rebooks
  · have hsuccess : reply.result = .success := by
      cases hr : reply.result with
      | success => rfl
      | failed => exact absurd hr hfailed
    rw [if_neg hfailed, if_pos ⟨hstate, hsuccess⟩]
    refine Rebooks.activate (hs.feedbackOn .finishRetrievingSmall p []) hp fun hv => ?_
    dsimp only
    split_ifs
    · exact hv.startBridgeSearch
    · exact hv.startRetrieveFullConfig σ ω
    · exact hv.startAuthentication _

theorem rebooks_retrieveFullConfigCompleted (h : Valid s) {reply : Reply}
    (hp : reply.bridge < s.next) :
    Rebooks σ s (s.completionChange σ reply .retrieveFullConfig)
      (s.retrieveFullConfigCompleted σ reply.result reply.bridge) := by
  show Rebooks σ s (if s.state = .retrieving then .activate (s.heap reply.bridge).identity
    else .keep) _
  have hs := Leaves.refl h.stored
  by_cases hstate : s.state = .retrieving
  swap
  · rw [if_neg hstate, retrieveFullConfigCompleted, if_pos hstate]
    exact hs.rebooks
  rw [retrieveFullConfigCompleted, if_neg (not_not.mpr hstate), if_pos hstate]
  refine Rebooks.activate hs hp fun hv => ?_
  have hrequired := hv.feedback .finishRetrievingActionRequired
  dsimp only
  by_cases hfailed : reply.result = .failed
  · rw [if_pos hfailed]
    exact hv.retrieveFailed σ _
  rw [if_neg hfailed]
  have hselect : Leaves (s.setActiveBridge σ reply.bridge)
      ((s.setActiveBridge σ reply.bridge).write (s.setActiveBridge σ reply.bridge).activePtr
        ((s.setActiveBridge σ reply.bridge).activeBridge.selectGroupIfOnlyOneOption).2) := by
    refine hv.write _ _ ?_
    unfold Bridge.selectGroupIfOnlyOneOption
    split <;> rfl
  refine Leaves.beginSaving σ ?_
  split_ifs
  · exact hrequired.reportActionRequired σ
  · exact hv.feedback .finishRetrievingReadyToStart
  · exact hselect.feedback .finishRetrievingReadyToStart
  · exact (hselect.feedback .finishRetrievingActionRequired).reportActionRequired σ

theorem rebooks_savingCompleted (h : Valid s) (hω : ω.KeepsIdentity) (r : OperationResult) :
    Rebooks σ s .keep (s.savingCompleted σ ω r) := by
  have hs := Leaves.refl h.stored
  have ht : Leaves s (if r = .success then
        s.feedback .finishSavingSaved (s.persistentData.getAllKnownBridges σ.bridge s.heap)
      else s.feedback .finishSavingFailed) := by
    split_ifs
    · exact hs.feedback .finishSavingSaved _
    · exact hs.feedback .finishSavingFailed
  unfold savingCompleted
  dsimp only
  generalize (if r = .success then
    s.feedback .finishSavingSaved (s.persistentData.getAllKnownBridges σ.bridge s.heap)
    else s.feedback .finishSavingFailed) = t at ht
  have hbusy : Leaves s t.unbusy := ht.write _ _ rfl
  refine Leaves.rebooks ?_
  split_ifs
  · exact hbusy.activateStreaming σ ω hω
  · exact (hbusy.feedback .doneCompleted).finish σ
  · exact hbusy.finish σ

theorem complete_rebooks (h : Valid s) (hω : ω.KeepsIdentity) {c : Completion}
    (hc : ∀ p, c.operation.pointer = some p → p < s.next) {reply : Reply}
    (hreply : reply.bridge < s.next) :
    Rebooks σ s (s.completionChange σ reply c.operation) (s.complete σ ω c reply) := by
  obtain ⟨op, procedure⟩ := c
  cases op with
  | load callback => exact rebooks_loadingCompleted h hc reply
  | search => exact rebooks_bridgeSearchCompleted h reply
  | authenticate p => exact rebooks_authenticationCompleted h reply procedure (hc p rfl)
  | pushLink p =>
    exact (((Leaves.refl h.stored).act (.authenticate p) rfl).issueFor procedure _).rebooks
  | retrieveSmallConfig p => exact rebooks_retrieveSmallConfigCompleted h reply (hc p rfl)
  | retrieveFullConfig => exact rebooks_retrieveFullConfigCompleted h hreply
  | save => exact rebooks_savingCompleted h hω reply.result

/-! ### A step -/

theorem rediscovers_take (c : Completion) (keep : Bool) (found : List Bridge) :
    (s.take c keep).rediscovers σ found = s.rediscovers σ found := by
  have hheap : ∀ (l : List Bridge) (t u : ConnectionFlow), t.heap = u.heap → t.next = u.next →
      (l.foldl alloc t).heap = (l.foldl alloc u).heap := by
    intro l
    induction l with
    | nil => exact fun t u h _ => h
    | cons b l ih =>
      refine fun t u h hnext => ih _ _ ?_ (congrArg (· + 1) hnext)
      simp only [alloc, h, hnext]
  have hfound := hheap found (s.take c keep) s rfl rfl
  unfold rediscovers allocAll
  dsimp only
  rw [hfound]
  rfl

theorem completionChange_take (c : Completion) (keep : Bool) (reply : Reply) (op : Operation) :
    (s.take c keep).completionChange σ reply op = s.completionChange σ reply op := by
  cases op with
  | search =>
    show (if _ ∧ (s.take c keep).rediscovers σ reply.bridges = true then _ else _) = _
    rw [rediscovers_take]
    rfl
  | load callback => rfl
  | authenticate p => rfl
  | pushLink p => rfl
  | retrieveSmallConfig p => rfl
  | retrieveFullConfig => rfl
  | save => rfl

/-- Somebody else writes an object, which may be stored. -/
theorem rebooks_write (p : BridgePtr) (b : Bridge) :
    Rebooks σ s (s.change σ (.mutate p b)) (s.write p b) := by
  have hsaved : ∃ l, saves (s.write p b).log = saves s.log ++ l ∧ ∀ bs ∈ l,
      bs.map Bridge.identity = s.book.all ∨ bs.map Bridge.identity = (s.write p b).book.all :=
    ⟨[], by simp [write], by simp⟩
  refine ⟨?_, hsaved⟩
  have hrewritten : ∀ l : List BridgePtr, Book.Rewritten (s.heap p).identity b.identity
      (l.map fun q => (s.heap q).identity) (l.map fun q => ((s.write p b).heap q).identity) := by
    intro l
    induction l with
    | nil => exact .nil
    | cons q l ih =>
      refine .cons ?_ ih
      by_cases hq : q = p
      · subst hq
        exact .inr ⟨rfl, by simp [write]⟩
      · exact .inl (by simp [write, Function.update_of_ne hq])
  show Book.Changes _ _ (if p ∈ s.persistentData.bridges then _ else _) _
  by_cases hp : p ∈ s.persistentData.bridges
  · rw [if_pos hp]
    obtain ⟨l₁, l₂, hl⟩ := List.append_of_mem hp
    refine .rewrite ?_ ?_ (hrewritten l₁) (hrewritten l₂)
    · rw [all_book, hl, List.map_append, List.map_cons]
    · have hdata : (s.write p b).persistentData = s.persistentData := rfl
      rw [all_book, hdata, hl, List.map_append, List.map_cons]
      simp [write]
  · rw [if_neg hp]
    have hsame : (s.write p b).book = s.book := by
      have hne : ∀ q ∈ s.persistentData.bridges, ((s.write p b).heap q).identity =
          (s.heap q).identity := by
        intro q hq
        have hqp : q ≠ p := fun heq => hp (heq ▸ hq)
        simp [write, Function.update_of_ne hqp]
      unfold HueStreamData.bridges at hne
      unfold book
      congr 1
      · exact List.map_congr_left fun q hq => hne q (List.mem_append.mpr (.inl hq))
      · exact hne s.persistentData.active (by simp)
    rw [hsame]
    exact .keep

/-- **The flow and the book.** A step makes the change of the book that `change` tells, and saves only
the book before it or after it. -/
theorem handle_rebooks (h : Valid s) {i : Input} (hi : s.enabled i = true) (hω : ω.KeepsIdentity) :
    Rebooks σ s (s.change σ i) (s.handle σ ω i) := by
  have hs := Leaves.refl h.stored
  cases i with
  | load => exact rebooks_of_start h fun _ _ h₁ => h₁.beginLoading _
  | connectToBridge =>
    refine rebooks_of_start h fun _ _ h₁ => ?_
    split_ifs
    · exact Leaves.startAuthentication h₁.silent _
    · exact h₁.beginLoading _
  | connectToBridgeBackground => exact rebooks_of_start h fun _ _ h₁ => h₁.beginLoading _
  | connectToBridgeWithIp ip => exact rebooks_of_start h fun _ _ h₁ => (h₁.alloc _).beginLoading _
  | connectToNewBridge => exact rebooks_doConnectToNewBridge h hω
  | setManual p =>
    refine rebooks_of_start h fun _ _ h₁ =>
      Leaves.beginLoading (Leaves.write (h₁.stopIfStreaming σ ω hω) p _ ?_) _
    rfl
  | connectoToBridgeWithIdKey id user key =>
    exact rebooks_of_start h fun _ _ h₁ => ((h₁.stopIfStreaming σ ω hω).alloc _).beginLoading _
  | reset only => exact rebooks_doReset h hω only
  | selectGroup id => exact rebooks_doSelectGroup h id
  | startStream => exact rebooks_of_start h fun _ _ h₁ => h₁.startRetrieveFullConfig σ ω
  | stopStream => exact rebooks_of_start h fun _ _ h₁ => h₁.deactivateStreaming σ ω hω
  | abort => exact rebooks_doAbort h
  | monitorEvent message =>
    simp only [enabled, Bool.and_eq_true, decide_eq_true_eq] at hi
    exact rebooks_doOnBridgeMonitorEvent h hω hi.1
  | deliver c reply keep =>
    simp only [enabled, Bool.and_eq_true, decide_eq_true_eq] at hi
    have ht : Valid (s.take c keep) := by
      refine ⟨h.stored, h.start, h.background, h.tasks, fun c' hc' => h.outstanding c' ?_⟩
      unfold take at hc'
      split_ifs at hc'
      · exact hc'
      · exact List.mem_of_mem_erase hc'
    have hrebooks := complete_rebooks (σ := σ) ht hω (h.outstanding c hi.1) hi.2
    rw [completionChange_take] at hrebooks
    exact ⟨hrebooks.changes, hrebooks.saved⟩
  | timer task => exact Leaves.rebooks (Leaves.issueFor hs.silent _ _)
  | newBridge b => exact (hs.alloc b).rebooks
  | mutate p b => exact rebooks_write p b

end ConnectionFlow

end HueStream.Flow
