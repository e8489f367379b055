import HueStream.Data.BridgeStore
import HueStream.Lib.Keyed

/-! # What the list of bridges remembers

From a fresh list on, `_bridges` holds the bridges in the order in which they became active last, the active
one at its end (`Sound`). All others were authorized for streaming, and no two have the same id. A bridge that
was authorized goes only when it is cleared or when another one with its id becomes active. When
`RediscoverKnownBridge` finds bridges, the one of them that was active most recently becomes active and all of
them get the addresses they were found at. The active bridge makes way as it does in `SetActiveBridge`, for
good when it was never authorized; nothing else goes. -/

namespace HueStream.Data

open HueStream.Lib HueStreamData

/-- A bridge at the address it was found at, if it was discovered again. -/
def readdressed (σ : BridgeSettings) (heap : Heap) (discovered : List BridgePtr) (known : BridgePtr) :
    Bridge :=
  match rediscovered σ heap discovered known with
  | none => heap known
  | some b => { heap known with ipAddress := (heap b).ipAddress, isValidIp := true }

/-- The bridges that have become active, the last one at the end. -/
def activatedBy (σ : BridgeSettings) (uses : List BridgePtr) (t : Transition BridgeStore DataCall) :
    List BridgePtr :=
  match t.label with
  | .setActiveBridge bridge => uses ++ [bridge]
  | .clearActiveBridge | .clear => uses ++ [t.before.next]
  | .rediscoverKnownBridge discovered =>
    uses ++ (uses.reverse.find? fun p =>
      p ∈ t.before.bridges && isRediscovered σ t.before.heap discovered p).toList
  | .create _ | .getActiveBridge => uses

/-- All bridges that have become active: first the one of the fresh list. -/
def activated (σ : BridgeSettings) (ts : List (Transition BridgeStore DataCall)) : List BridgePtr :=
  ts.foldl (activatedBy σ) [0]

/-- A call that ends the stay of a bridge: it is cleared, or a bridge with its id becomes active. -/
def DataCall.ends (s : BridgeStore) (p : BridgePtr) : DataCall → Prop
  | .clear => True
  | .clearActiveBridge => p = s.getActiveBridge.1
  | .setActiveBridge bridge => (s.heap p).id = (s.heap bridge).id
  | .create _ | .getActiveBridge | .rediscoverKnownBridge _ => False

/-- A bridge is discovered at some address. -/
def DataCall.HasAddresses (s : BridgeStore) : DataCall → Prop
  | .rediscoverKnownBridge discovered => ∀ b ∈ discovered, (s.heap b).ipAddress ≠ ""
  | _ => True

instance (s : BridgeStore) : DecidablePred (DataCall.HasAddresses s)
  | .rediscoverKnownBridge discovered => List.decidableBAll (fun b => (s.heap b).ipAddress ≠ "") discovered
  | .create _ | .getActiveBridge | .setActiveBridge _ | .clearActiveBridge | .clear => .isTrue trivial

namespace BridgeStore

variable (σ : BridgeSettings) (uses : List BridgePtr) (s : BridgeStore)

/-- The bridges that stay when another one becomes active. -/
def kept : List BridgePtr :=
  if (s.heap s.getActiveBridge.1).hasEverBeenAuthorizedForStreaming σ then s.bridges
  else s.bridges.dropLast

/-- What holds of the list after calls that made `uses` active. -/
structure Sound : Prop where
  last : s.bridges.getLast? = uses.getLast?
  apart : (s.bridges.map fun p => (s.heap p).id).Nodup
  ever : ∀ p ∈ s.bridges.dropLast, (s.heap p).hasEverBeenAuthorizedForStreaming σ = true
  order : s.bridges.Sublist uses.dedup
  known : ∀ p ∈ uses, p < s.next
  used : uses ≠ []

/-- What `RediscoverKnownBridge` does. -/
structure Rediscovers (discovered : List BridgePtr) (s' : BridgeStore) : Prop where
  /-- It returns whether a stored authorized bridge has the id of a discovered one. -/
  returns : (s.rediscoverKnownBridge σ discovered).1 = true ↔ ∃ p ∈ s.bridges,
    (s.heap p).isAuthorizedForStreaming σ = true ∧ ∃ b ∈ discovered, (s.heap b).id = (s.heap p).id
  nothing : (s.rediscoverKnownBridge σ discovered).1 = false → s' = s
  /-- The most recently active of these bridges is the active one. -/
  activates : (s.rediscoverKnownBridge σ discovered).1 = true →
    uses.reverse.find? (fun p => p ∈ s.bridges && isRediscovered σ s.heap discovered p) =
      some s'.getActiveBridge.1
  /-- It has gone to the end, and nothing else changes in the list but that an active bridge that was never
  authorized goes. -/
  reorders : (s.rediscoverKnownBridge σ discovered).1 = true →
    s'.bridges = (s.kept σ).erase s'.getActiveBridge.1 ++ [s'.getActiveBridge.1]
  readdresses : ∀ p ∈ s.bridges, s'.heap p = readdressed σ s.heap discovered p
  unchanged : ∀ p ∉ s.bridges, s'.heap p = s.heap p

/-! ### One call -/

variable {σ uses s} {b : Bridge} {p : BridgePtr} {discovered : List BridgePtr}

theorem Sound.exists_data (h : s.Sound σ uses) : ∃ d : HueStreamData, s.bridges = d.bridges := by
  have hp : uses.getLast? = some (uses.getLast h.used) := List.getLast?_eq_some_getLast h.used
  obtain ⟨l, hl⟩ := List.getLast?_eq_some_iff.mp (h.last.trans hp)
  exact ⟨⟨l, _⟩, hl⟩

theorem Sound.mem_lt (h : s.Sound σ uses) (hp : p ∈ s.bridges) : p < s.next :=
  h.known p (List.mem_dedup.mp (h.order.subset hp))

theorem kept_sublist : (s.kept σ).Sublist s.bridges := by
  unfold kept
  split_ifs
  · exact List.Sublist.refl _
  · exact List.dropLast_sublist _

/-- A bridge that stays when another one becomes active has been authorized. -/
theorem Sound.ever_of_mem_kept (h : s.Sound σ uses) (hp : p ∈ s.kept σ) :
    (s.heap p).hasEverBeenAuthorizedForStreaming σ = true := by
  obtain ⟨d, hd⟩ := h.exists_data
  unfold kept at hp
  split_ifs at hp with hever
  · rw [getActiveBridge_eq hd] at hever
    have hearlier : s.bridges.dropLast = d.earlier := by rw [hd, HueStreamData.bridges, List.dropLast_concat]
    rw [hd, HueStreamData.bridges, List.mem_append, List.mem_singleton] at hp
    rcases hp with hp | rfl
    · exact h.ever p (hearlier ▸ hp)
    · exact hever
  · exact h.ever p hp

theorem Sound.mem_kept_of_ever (h : s.Sound σ uses) (hp : p ∈ s.bridges)
    (hever : (s.heap p).hasEverBeenAuthorizedForStreaming σ = true) : p ∈ s.kept σ := by
  obtain ⟨d, hd⟩ := h.exists_data
  unfold kept
  rw [getActiveBridge_eq hd]
  split_ifs with hactive
  · exact hp
  · rw [hd, HueStreamData.bridges, List.dropLast_concat]
    rw [hd, HueStreamData.bridges, List.mem_append, List.mem_singleton] at hp
    rcases hp with hp | rfl
    · exact hp
    · exact absurd hever hactive

/-- A bridge becomes active. -/
theorem Sound.activate (h : s.Sound σ uses) (hp : p < s.next) :
    Sound σ (uses ++ [p]) { s with bridges := moveToEnd (fun q => (s.heap q).id) (s.kept σ) p } where
  last := by simp [moveToEnd]
  apart := nodup_moveToEnd (h.apart.sublist (kept_sublist.map _))
  ever := by
    intro q hq
    rw [moveToEnd, List.dropLast_concat] at hq
    exact h.ever_of_mem_kept (List.mem_of_mem_eraseP hq)
  order := moveToEnd_sublist_dedup (h.apart.sublist (kept_sublist.map _)) (kept_sublist.trans h.order)
  known := by
    intro q hq
    rcases List.mem_append.mp hq with hq | hq
    · exact h.known q hq
    · exact List.mem_singleton.mp hq ▸ hp
  used := by simp

theorem Sound.setActiveBridge_eq (h : s.Sound σ uses) :
    s.setActiveBridge σ p = { s with bridges := moveToEnd (fun q => (s.heap q).id) (s.kept σ) p } := by
  obtain ⟨d, hd⟩ := h.exists_data
  have hearlier : s.bridges.dropLast = d.earlier := by rw [hd, HueStreamData.bridges, List.dropLast_concat]
  rw [BridgeStore.setActiveBridge_eq hd, kept, getActiveBridge_eq hd, hearlier, hd]
  rfl

theorem create_heap_of_lt (hp : p < s.next) : (s.create b).heap p = s.heap p :=
  Function.update_of_ne (Nat.ne_of_lt hp) _ _

/-- A new bridge is in no list. -/
theorem Sound.create (h : s.Sound σ uses) (b : Bridge) : (s.create b).Sound σ uses where
  last := h.last
  apart := by
    have hsame : s.bridges.map (fun p => ((s.create b).heap p).id) = s.bridges.map fun p => (s.heap p).id :=
      List.map_congr_left fun p hp => by rw [create_heap_of_lt (h.mem_lt hp)]
    exact hsame.symm ▸ h.apart
  ever := by
    intro p hp
    rw [create_heap_of_lt (h.mem_lt (List.mem_of_mem_dropLast hp))]
    exact h.ever p hp
  order := h.order
  known p hp := Nat.lt_succ_of_lt (h.known p hp)
  used := h.used

/-- A new empty bridge takes the place of the active one, or of all. -/
theorem Sound.pushNew (h : s.Sound σ uses) {l : List BridgePtr} (hl : l.Sublist s.bridges.dropLast) :
    Sound σ (uses ++ [s.next]) (pushNew { s with bridges := l }) := by
  have hlt : ∀ p ∈ l, p < s.next := fun p hp => h.mem_lt (List.mem_of_mem_dropLast (hl.subset hp))
  have hold : ∀ p ∈ l, (s.create {}).heap p = s.heap p := fun p hp => create_heap_of_lt (hlt p hp)
  have hsub : l.Sublist s.bridges := hl.trans (List.dropLast_sublist _)
  have hnew : (s.create {}).heap s.next = {} := Function.update_self _ _ _
  refine ⟨by simp [BridgeStore.pushNew], ?_, ?_, ?_, ?_, by simp⟩
  · show ((l ++ [s.next]).map fun p => ((s.create {}).heap p).id).Nodup
    rw [List.map_append, List.map_singleton, List.nodup_append]
    have hsame : l.map (fun p => ((s.create {}).heap p).id) = l.map fun p => (s.heap p).id :=
      List.map_congr_left fun p hp => by rw [hold p hp]
    refine ⟨hsame.symm ▸ h.apart.sublist (hsub.map _), List.nodup_singleton _, ?_⟩
    intro i hi j hj
    obtain ⟨p, hp, rfl⟩ := List.mem_map.mp hi
    rw [List.mem_singleton.mp hj, hnew, hold p hp]
    have hever := h.ever p (hl.subset hp)
    simp only [Bridge.hasEverBeenAuthorizedForStreaming, Bridge.isFound, Bool.and_eq_true,
      decide_eq_true_eq] at hever
    exact hever.1.1.1.2
  · intro p hp
    rw [BridgeStore.pushNew, List.dropLast_concat] at hp
    show ((s.create {}).heap p).hasEverBeenAuthorizedForStreaming σ = true
    rw [hold p hp]
    exact h.ever p (hl.subset hp)
  · exact sublist_dedup_concat (hsub.trans h.order) fun hp => absurd (hlt _ hp) (lt_irrefl _)
  · intro p hp
    rcases List.mem_append.mp hp with hp | hp
    · exact Nat.lt_succ_of_lt (h.known p hp)
    · exact List.mem_singleton.mp hp ▸ Nat.lt_succ_self _

/-! ### The loop of `RediscoverKnownBridge` -/

theorem readdressed_id (heap : Heap) : (readdressed σ heap discovered p).id = (heap p).id := by
  unfold readdressed
  split <;> rfl

/-- After the loop over bridges of different ids all those that were discovered again have the addresses they
were found at, since a discovered bridge with the id of a stored one is that one or none of the stored. -/
theorem foldl_rediscoverStep_heap (σ : BridgeSettings) (discovered : List BridgePtr) (heap : Heap) {l : List BridgePtr}
    (hnodup : (l.map fun p => (heap p).id).Nodup) :
    (l.foldl (rediscoverStep σ discovered) (heap, none)).1 =
      fun p => if p ∈ l then readdressed σ heap discovered p else heap p := by
  induction l using List.reverseRecOn with
  | nil => simp
  | append_singleton l x ih =>
    rw [List.map_append, List.map_singleton, List.nodup_append] at hnodup
    obtain ⟨hl, -, hapart⟩ := hnodup
    have hne : ∀ p ∈ l, (heap p).id ≠ (heap x).id := fun p hp =>
      hapart _ (List.mem_map_of_mem hp) _ (by simp)
    have hx : x ∉ l := fun hx => hne x hx rfl
    rw [List.foldl_concat]
    generalize l.foldl (rediscoverStep σ discovered) (heap, none) = acc at ih
    have hheap := ih hl
    have hself : acc.1 x = heap x := by simp [hheap, hx]
    have hid : ∀ p, (acc.1 p).id = (heap p).id := by
      intro p
      rw [hheap]
      dsimp only
      split_ifs
      · exact readdressed_id heap
      · rfl
    have hfound : rediscovered σ acc.1 discovered x = rediscovered σ heap discovered x := by
      simp only [rediscovered, hself, hid]
    funext p
    unfold rediscoverStep
    rw [hfound]
    by_cases hp : p = x
    · subst hp
      rw [if_pos (by simp), readdressed]
      cases hb : rediscovered σ heap discovered p with
      | none => exact hself
      | some b =>
        have hsame : (heap b).id = (heap p).id := by
          unfold rediscovered at hb
          split_ifs at hb
          simpa using List.find?_some hb
        have hbl : b ∉ l := fun hmem => hne b hmem hsame
        simp [hheap, hx, hbl]
    · have hmem : p ∈ l ++ [x] ↔ p ∈ l := by simp [hp]
      simp only [hmem]
      cases rediscovered σ heap discovered x with
      | none => rw [hheap]
      | some b => simp only [Function.update_of_ne hp, hheap]

theorem readdressed_of_not (heap : Heap) (h : isRediscovered σ heap discovered p = false) :
    readdressed σ heap discovered p = heap p := by
  have hnone : rediscovered σ heap discovered p = none := by simpa [isRediscovered] using h
  simp [readdressed, hnone]

/-- A bridge stays authorized at the address it is found at. -/
theorem readdressed_ever (heap : Heap) (haddr : ∀ b ∈ discovered, (heap b).ipAddress ≠ "") :
    (readdressed σ heap discovered p).hasEverBeenAuthorizedForStreaming σ =
      (heap p).hasEverBeenAuthorizedForStreaming σ := by
  unfold readdressed
  cases hb : rediscovered σ heap discovered p with
  | none => rfl
  | some b =>
    unfold rediscovered at hb
    split_ifs at hb with hauth
    have hb := haddr b (List.mem_of_find?_eq_some hb)
    simp only [Bridge.isAuthorizedForStreaming, Bool.and_eq_true] at hauth
    have hne : (heap p).ipAddress ≠ "" := by
      have hfound := hauth.1
      simp only [Bridge.hasEverBeenAuthorizedForStreaming, Bridge.isFound, Bridge.isEmpty, Bool.and_eq_true,
        Bool.not_eq_true', decide_eq_false_iff_not] at hfound
      exact hfound.1.1.1.1
    simp [Bridge.hasEverBeenAuthorizedForStreaming, Bridge.isFound, Bridge.isEmpty, Bridge.isValidModelId,
      Bridge.isValidClientKey, hb, hne]

/-- Bridges that keep their ids and stay authorized. -/
theorem Sound.congr (h : s.Sound σ uses) {heap : Heap} (hid : ∀ p, (heap p).id = (s.heap p).id)
    (hever : ∀ p, (heap p).hasEverBeenAuthorizedForStreaming σ =
      (s.heap p).hasEverBeenAuthorizedForStreaming σ) : Sound σ uses { s with heap } where
  last := h.last
  apart := by simpa only [hid] using h.apart
  ever p hp := (hever p).trans (h.ever p hp)
  order := h.order
  known := h.known
  used := h.used

/-- The bridges after the loop, when discovered bridges have addresses. -/
def readdress (σ : BridgeSettings) (s : BridgeStore) (discovered : List BridgePtr) : BridgeStore :=
  { s with heap := fun p => if p ∈ s.bridges then readdressed σ s.heap discovered p else s.heap p }

theorem Sound.readdress (h : s.Sound σ uses) (haddr : ∀ b ∈ discovered, (s.heap b).ipAddress ≠ "") :
    Sound σ uses (s.readdress σ discovered) := by
  refine h.congr (fun p => ?_) fun p => ?_
  · split_ifs
    · exact readdressed_id s.heap
    · rfl
  · split_ifs
    · exact readdressed_ever s.heap haddr
    · rfl

theorem Sound.rediscoverKnownBridge_eq (h : s.Sound σ uses) (discovered : List BridgePtr) :
    s.rediscoverKnownBridge σ discovered =
      match s.bridges.reverse.find? (isRediscovered σ s.heap discovered) with
      | none => (false, s)
      | some active => (true, (s.readdress σ discovered).setActiveBridge σ active) := by
  have hnodup : (s.bridges.reverse.map fun p => (s.heap p).id).Nodup := by
    rw [List.map_reverse, List.nodup_reverse]
    exact h.apart
  have hrefl : Readdresses σ s.heap discovered s.heap := ⟨fun _ => rfl, fun _ _ => rfl⟩
  obtain ⟨-, hfound, hnone⟩ := foldl_rediscoverStep s.bridges.reverse (s.heap, none) hrefl fun _ => rfl
  have hheap := foldl_rediscoverStep_heap σ discovered s.heap hnodup
  unfold rediscoverKnownBridge
  generalize s.bridges.reverse.foldl (rediscoverStep σ discovered) (s.heap, none) = r at *
  obtain ⟨heap, found⟩ := r
  rw [Option.none_or] at hfound
  simp only at hfound hheap hnone
  rw [← hfound]
  cases found with
  | none => simp only [hnone rfl]
  | some active =>
    simp only [List.mem_reverse] at hheap
    simp only [hheap, BridgeStore.readdress]

theorem Sound.kept_readdress (h : s.Sound σ uses) (haddr : ∀ b ∈ discovered, (s.heap b).ipAddress ≠ "") :
    (s.readdress σ discovered).kept σ = s.kept σ := by
  obtain ⟨d, hd⟩ := h.exists_data
  have hsame := readdressed_ever (σ := σ) (p := d.active) s.heap haddr
  have hactive : d.active ∈ s.bridges := by simp [hd, HueStreamData.bridges]
  have hmoved : (s.readdress σ discovered).bridges = d.bridges := hd
  unfold kept
  rw [getActiveBridge_eq hd, getActiveBridge_eq hmoved]
  simp only [BridgeStore.readdress, hactive, if_true, hsame]

/-- A stored bridge that becomes active is no other one of its id. -/
theorem Sound.rediscoverKnownBridge_of_found (h : s.Sound σ uses)
    (haddr : ∀ b ∈ discovered, (s.heap b).ipAddress ≠ "")
    (hfind : s.bridges.reverse.find? (isRediscovered σ s.heap discovered) = some p) :
    s.rediscoverKnownBridge σ discovered =
      (true, { s.readdress σ discovered with bridges := (s.kept σ).erase p ++ [p] }) := by
  have hmem : p ∈ s.bridges := List.mem_reverse.mp (List.mem_of_find?_eq_some hfind)
  have hmoved : moveToEnd (fun q => ((s.readdress σ discovered).heap q).id) (s.kept σ) p =
      (s.kept σ).erase p ++ [p] := by
    refine moveToEnd_eq_erase fun q hq hsame => ?_
    have hq := kept_sublist.subset hq
    simp only [BridgeStore.readdress, hq, hmem, if_true, readdressed_id] at hsame
    exact List.inj_on_of_nodup_map h.apart hq hmem hsame
  rw [h.rediscoverKnownBridge_eq, hfind]
  simp only [(h.readdress haddr).setActiveBridge_eq, h.kept_readdress haddr, hmoved]

theorem getActiveBridge_concat {l : List BridgePtr} (h : s.bridges = l ++ [p]) :
    s.getActiveBridge.1 = p := by
  rw [getActiveBridge, h, List.getLast?_concat]

/-- What `RediscoverKnownBridge` answers, and the list after it. -/
theorem Sound.rediscovers (h : s.Sound σ uses) (haddr : ∀ b ∈ discovered, (s.heap b).ipAddress ≠ "") :
    s.Rediscovers σ uses discovered (s.rediscoverKnownBridge σ discovered).2 := by
  have hmost := find?_reverse_of_sublist_dedup (p := isRediscovered σ s.heap discovered) h.order
  have hany : (s.bridges.reverse.find? (isRediscovered σ s.heap discovered)).isSome = true ↔
      ∃ p ∈ s.bridges, isRediscovered σ s.heap discovered p = true := by simp
  simp only [isRediscovered_iff] at hany
  cases hfind : s.bridges.reverse.find? (isRediscovered σ s.heap discovered) with
  | none =>
    have heq := h.rediscoverKnownBridge_eq discovered
    rw [hfind] at heq hany
    have hfalse : (s.rediscoverKnownBridge σ discovered).1 = false := by rw [heq]
    have hsame : (s.rediscoverKnownBridge σ discovered).2 = s := by rw [heq]
    have hno : ∀ p ∈ s.bridges, isRediscovered σ s.heap discovered p = false := by
      intro p hp
      simpa using List.find?_eq_none.mp hfind p (List.mem_reverse.mpr hp)
    have habsurd : (s.rediscoverKnownBridge σ discovered).1 ≠ true := by simp [hfalse]
    rw [hsame]
    exact {
      returns := by simpa [hfalse] using hany
      nothing := fun _ => rfl
      activates := fun htrue => absurd htrue habsurd
      reorders := fun htrue => absurd htrue habsurd
      readdresses := fun p hp => (readdressed_of_not s.heap (hno p hp)).symm
      unchanged := fun _ _ => rfl }
  | some active =>
    have heq := h.rediscoverKnownBridge_of_found haddr hfind
    rw [hfind] at hany hmost
    have htrue : (s.rediscoverKnownBridge σ discovered).1 = true := by rw [heq]
    have hmoved : (s.rediscoverKnownBridge σ discovered).2.bridges = (s.kept σ).erase active ++ [active] := by
      rw [heq]
    have hheap : (s.rediscoverKnownBridge σ discovered).2.heap = (s.readdress σ discovered).heap := by
      rw [heq]
    have hactive := getActiveBridge_concat hmoved
    refine ⟨by simpa [htrue] using hany, fun hfalse => ?_, fun _ => ?_, fun _ => ?_, ?_, ?_⟩
    · rw [htrue] at hfalse
      cases hfalse
    · rw [hactive, hmost]
    · rw [hactive, hmoved]
    · intro p hp
      simp only [hheap, BridgeStore.readdress, hp, if_true]
    · intro p hp
      simp only [hheap, BridgeStore.readdress, hp, if_false]

/-! ### All calls -/

variable {s' : BridgeStore} {l : DataCall}

theorem Sound.init : Sound σ [0] (BridgeStore.pushNew {}) := by
  refine ⟨rfl, by simp [BridgeStore.pushNew], ?_, by simp [BridgeStore.pushNew], ?_, by simp⟩
  · intro p hp
    simp [BridgeStore.pushNew] at hp
  · intro p hp
    obtain rfl := List.mem_singleton.mp hp
    exact Nat.zero_lt_one

theorem Sound.clearActiveBridge_eq (h : s.Sound σ uses) :
    s.clearActiveBridge = BridgeStore.pushNew { s with bridges := s.bridges.dropLast } := by
  obtain ⟨d, hd⟩ := h.exists_data
  have hne : s.bridges.isEmpty = false := by simp [hd, HueStreamData.bridges]
  rw [clearActiveBridge, hne]
  rfl

theorem Sound.getActiveBridge_eq (h : s.Sound σ uses) :
    s.getActiveBridge.2 = s ∧ uses.getLast? = some s.getActiveBridge.1 := by
  obtain ⟨d, hd⟩ := h.exists_data
  rw [BridgeStore.getActiveBridge_eq hd, ← h.last, hd, HueStreamData.bridges, List.getLast?_concat]
  exact ⟨rfl, rfl⟩

theorem Sound.step (h : s.Sound σ uses) (hstep : (bridgeData σ).step s l = some s')
    (haddr : l.HasAddresses s) : s'.Sound σ (activatedBy σ uses ⟨s, l, s'⟩) := by
  cases l with
  | create b =>
    obtain rfl := Option.some.inj hstep
    exact h.create b
  | getActiveBridge =>
    obtain rfl := Option.some.inj hstep
    exact h.getActiveBridge_eq.1.symm ▸ h
  | setActiveBridge bridge =>
    simp only [bridgeData, Option.ite_none_right_eq_some, Option.some.injEq] at hstep
    obtain ⟨hlt, rfl⟩ := hstep
    rw [h.setActiveBridge_eq]
    exact h.activate hlt
  | clearActiveBridge =>
    obtain rfl := Option.some.inj hstep
    rw [h.clearActiveBridge_eq]
    exact h.pushNew (List.Sublist.refl _)
  | clear =>
    obtain rfl := Option.some.inj hstep
    exact h.pushNew (List.nil_sublist _)
  | rediscoverKnownBridge discovered =>
    simp only [bridgeData, Option.ite_none_right_eq_some, Option.some.injEq] at hstep
    obtain ⟨-, rfl⟩ := hstep
    have hread := h.readdress haddr
    have hmost := find?_reverse_of_sublist_dedup (p := isRediscovered σ s.heap discovered) h.order
    simp only [activatedBy, hmost]
    rw [h.rediscoverKnownBridge_eq]
    cases hfind : s.bridges.reverse.find? (isRediscovered σ s.heap discovered) with
    | none => simpa using h
    | some active =>
      have hmem : active ∈ s.bridges := List.mem_reverse.mp (List.mem_of_find?_eq_some hfind)
      have hset := hread.setActiveBridge_eq (p := active)
      simp only [hset, Option.toList_some]
      exact hread.activate (h.mem_lt hmem)

/-- A bridge that was authorized for streaming stays, or the call ends its stay. -/
theorem Sound.stays (h : s.Sound σ uses) (hstep : (bridgeData σ).step s l = some s')
    (haddr : l.HasAddresses s) (hp : p ∈ s.bridges)
    (hever : (s.heap p).hasEverBeenAuthorizedForStreaming σ = true) : p ∈ s'.bridges ∨ l.ends s p := by
  cases l with
  | create b =>
    obtain rfl := Option.some.inj hstep
    exact .inl hp
  | getActiveBridge =>
    obtain rfl := Option.some.inj hstep
    exact .inl (h.getActiveBridge_eq.1.symm ▸ hp)
  | setActiveBridge bridge =>
    simp only [bridgeData, Option.ite_none_right_eq_some, Option.some.injEq] at hstep
    obtain ⟨-, rfl⟩ := hstep
    rw [h.setActiveBridge_eq]
    by_cases hid : (s.heap p).id = (s.heap bridge).id
    · exact .inr hid
    · exact .inl (mem_moveToEnd_of_ne (h.mem_kept_of_ever hp hever) hid)
  | clearActiveBridge =>
    obtain rfl := Option.some.inj hstep
    obtain ⟨d, hd⟩ := h.exists_data
    rw [h.clearActiveBridge_eq]
    rw [hd, HueStreamData.bridges, List.mem_append, List.mem_singleton] at hp
    rcases hp with hp | rfl
    · left
      simp [BridgeStore.pushNew, hd, HueStreamData.bridges, hp]
    · right
      simp only [DataCall.ends, BridgeStore.getActiveBridge_eq hd]
  | clear => exact .inr trivial
  | rediscoverKnownBridge discovered =>
    simp only [bridgeData, Option.ite_none_right_eq_some, Option.some.injEq] at hstep
    obtain ⟨-, rfl⟩ := hstep
    have hre := h.rediscovers haddr
    left
    cases hfound : (s.rediscoverKnownBridge σ discovered).1 with
    | false => exact (hre.nothing hfound).symm ▸ hp
    | true =>
      rw [hre.reorders hfound, List.mem_append, List.mem_singleton]
      by_cases hactive : p = (s.rediscoverKnownBridge σ discovered).2.getActiveBridge.1
      · exact .inr hactive
      · exact .inl ((List.mem_erase_of_ne hactive).mpr (h.mem_kept_of_ever hp hever))

end BridgeStore

variable {σ : BridgeSettings} {ts : List (Transition BridgeStore DataCall)} {s : BridgeStore}

theorem sound_of_run (h : (bridgeData σ).Run ts s) (haddr : ∀ t ∈ ts, t.label.HasAddresses t.before) :
    s.Sound σ (activated σ ts) := by
  refine h.invariant_along (I := fun ts s => s.Sound σ (activated σ ts)) ?_ ?_ haddr
  · rintro s rfl
    exact BridgeStore.Sound.init
  · intro ts s l s' hstep haddr hsound
    rw [activated, List.foldl_concat]
    exact hsound.step hstep haddr

/-- A bridge that was authorized for streaming. -/
def knownBridge (id : String) : Bridge :=
  { id, ipAddress := "10.0.0.1", modelId := "BSB002", user := "user", isAuthorized := true
    clientKey := "0123456789abcdef0123456789abcdef" }

end HueStream.Data
