import HueStream.Data.HueStreamData
import HueStream.Lib.Keyed

/-! # The book of bridges

What the stored bridges are for: a book in which every bridge stands once, with the user and the client
key that let the program into it. An entry is an `Identity`, what is read of a bridge to tell it from
others and to decide whether it was ever authorized; the last entry is the active bridge.

A `Change` is one thing that may happen to the book, and `Book.Changes` what it does. A change loses a
bridge when it removes its user and client key without being one that may (`Change.ends`). The changes
that lose none and keep the ids apart are the ones `Change.keeps` lists (`Book.Changes.keeps_iff`). -/

namespace HueStream.Data

open HueStream.Lib

/-- What tells a bridge from others and lets the program into it. -/
structure Identity where
  id : String := ""
  modelId : String := ""
  ipAddress : String := ""
  user : String := ""
  clientKey : String := ""
deriving DecidableEq

/-- An id, with the user and the client key it is stored with. -/
structure Credentials where
  id : String
  user : String
  clientKey : String
deriving DecidableEq

/-- A user and a valid client key. -/
def Credentials.areKnown (τ : Credentials) : Bool := τ.user ≠ "" && τ.clientKey.length = 32

namespace Identity

/-- A bridge of this identity. -/
def bridge (e : Identity) : Bridge :=
  { id := e.id, modelId := e.modelId, ipAddress := e.ipAddress, user := e.user,
    clientKey := e.clientKey }

def hasEverBeenAuthorizedForStreaming (σ : BridgeSettings) (e : Identity) : Bool :=
  e.bridge.hasEverBeenAuthorizedForStreaming σ

def credentials (e : Identity) : Credentials := ⟨e.id, e.user, e.clientKey⟩

def isKnown (e : Identity) : Bool := e.credentials.areKnown

end Identity

/-- The identity of a bridge. -/
def Bridge.identity (b : Bridge) : Identity := ⟨b.id, b.modelId, b.ipAddress, b.user, b.clientKey⟩

theorem Bridge.hasEverBeenAuthorizedForStreaming_identity (σ : BridgeSettings) (b : Bridge) :
    b.identity.hasEverBeenAuthorizedForStreaming σ = b.hasEverBeenAuthorizedForStreaming σ := rfl

/-- The book of bridges. -/
structure Book where
  earlier : List Identity := []
  active : Identity := {}
deriving DecidableEq

/-- What may happen to the book. -/
inductive Change
  | keep
  /-- A bridge becomes the active one. -/
  | activate (e : Identity)
  /-- A bridge becomes the active one because the user has just authorized it. -/
  | authorize (e : Identity)
  | forgetActive
  | forgetAll
  /-- The book is read from the storage. -/
  | load (k : Book)
  /-- A search finds known bridges, at their new addresses. -/
  | rediscover
  /-- An entry is rewritten; `renewed` when this is an authorization. -/
  | rewrite (old new : Identity) (renewed : Bool)

namespace Book

variable (σ : BridgeSettings) (k : Book)

/-- All entries, the active one last. -/
def all : List Identity := k.earlier ++ [k.active]

/-- The entries that stay when another bridge becomes the active one. -/
def kept : List Identity :=
  if k.active.hasEverBeenAuthorizedForStreaming σ then k.all else k.earlier

/-- A bridge becomes the active one. -/
def activate (e : Identity) : Book := ⟨(k.kept σ).eraseP (·.id = e.id), e⟩

/-- The entries have pairwise different ids. -/
def Apart : Prop := (k.all.map Identity.id).Nodup

instance : Decidable k.Apart := inferInstanceAs (Decidable (List.Nodup _))

/-- A bridge is stored with a user and a client key. -/
def Stores (τ : Credentials) : Prop := τ ∈ k.all.map Identity.credentials

/-- Entries of the identity `old` may have been rewritten to `new`. -/
def Rewritten (old new : Identity) : List Identity → List Identity → Prop :=
  List.Forall₂ fun q q' => q' = q ∨ q = old ∧ q' = new

/-- What a change does to the book. -/
inductive Changes : Change → Book → Prop
  | keep : Changes .keep k
  | activate (e : Identity) : Changes (.activate e) (k.activate σ e)
  | authorize (e : Identity) : Changes (.authorize e) (k.activate σ e)
  | forgetActive : Changes .forgetActive { k with active := {} }
  | forgetAll : Changes .forgetAll {}
  | load (k' : Book) : Changes (.load k') k'
  | rediscover {k' : Book} {e e₀ : Identity}
      (hsame : k'.all.map Identity.credentials = k.all.map Identity.credentials)
      (hmem : e ∈ k'.all) (hold : e₀ ∈ k.all) (he : e.credentials = e₀.credentials)
      (hever : e₀.hasEverBeenAuthorizedForStreaming σ = true)
      (hactive : e = k'.active ∨ k'.active = k.active) : Changes .rediscover (k'.activate σ e)
  | rewrite {k' : Book} {old new : Identity} {renewed : Bool} {l₁ l₂ l₁' l₂' : List Identity}
      (hold : k.all = l₁ ++ old :: l₂) (hnew : k'.all = l₁' ++ new :: l₂')
      (h₁ : Rewritten old new l₁ l₁') (h₂ : Rewritten old new l₂ l₂') :
      Changes (.rewrite old new renewed) k'

end Book

namespace Change

/-- The change may end the stay of the bridge with the given id: its reset, a reset of all, a load or
an authorization of it. -/
def ends (k : Book) (id : String) : Change → Bool
  | .authorize e => e.id = id
  | .forgetActive => k.active.id = id
  | .forgetAll | .load _ => true
  | .rewrite old new renewed => renewed && old.id = id && new.id = id
  | _ => false

/-- The changes that keep the ids apart and lose no bridge. -/
def keeps (σ : BridgeSettings) (k : Book) : Change → Bool
  | .activate e =>
    (k.all.all fun q => !q.isKnown || q.id ≠ e.id || q.credentials = e.credentials) &&
      (!k.active.isKnown || k.active.hasEverBeenAuthorizedForStreaming σ ||
        k.active.credentials = e.credentials)
  | .authorize e =>
    !k.active.isKnown || k.active.hasEverBeenAuthorizedForStreaming σ || k.active.id = e.id
  | .forgetActive => k.earlier.all (·.id ≠ "")
  | .load k' => k'.Apart
  | .rediscover => !k.active.isKnown || k.active.hasEverBeenAuthorizedForStreaming σ
  | .rewrite old new renewed =>
    (k.all.all fun q => q.id = old.id || q.id ≠ new.id) &&
      (!old.isKnown || new.credentials = old.credentials || (renewed && new.id = old.id))
  | .keep | .forgetAll => true

end Change

namespace Book

variable {σ : BridgeSettings} {k k' : Book} {e : Identity} {τ : Credentials}

theorem mem_all {q : Identity} : q ∈ k.all ↔ q ∈ k.earlier ∨ q = k.active := by simp [all]

theorem stores_iff : k.Stores τ ↔ ∃ q ∈ k.all, q.credentials = τ := List.mem_map

theorem kept_sublist : (k.kept σ).Sublist k.all := by
  unfold kept
  split_ifs
  · exact List.Sublist.refl _
  · exact List.sublist_append_left _ _

theorem all_activate : (k.activate σ e).all = moveToEnd Identity.id (k.kept σ) e := rfl

/-- With its ids apart, an entry is known by its id. -/
theorem Apart.eq_of_id (h : k.Apart) {q q' : Identity} (hq : q ∈ k.all) (hq' : q' ∈ k.all)
    (hid : q.id = q'.id) : q = q' :=
  List.inj_on_of_nodup_map h hq hq' hid

theorem Apart.activate (h : k.Apart) : (k.activate σ e).Apart :=
  nodup_moveToEnd (h.sublist (kept_sublist.map _))

theorem Apart.earlier_ne (h : k.Apart) {q : Identity} (hq : q ∈ k.earlier) : q.id ≠ k.active.id := by
  have h : ((k.earlier ++ [k.active]).map Identity.id).Nodup := h
  rw [List.map_append, List.nodup_append] at h
  exact h.2.2 _ (List.mem_map_of_mem hq) _ (by simp)

theorem Apart.mem_kept_iff (h : k.Apart) {q : Identity} (hq : q ∈ k.all) :
    q ∈ k.kept σ ↔ q ≠ k.active ∨ k.active.hasEverBeenAuthorizedForStreaming σ = true := by
  unfold kept
  split_ifs with hever
  · simp [hq, hever]
  · simp only [hever, Bool.false_eq_true, or_false]
    refine ⟨fun hq => ?_, fun hne => (mem_all.mp hq).resolve_right hne⟩
    rintro rfl
    exact h.earlier_ne hq rfl

/-- **What an activation keeps.** The user and client key of an entry stay stored when they are those of
the new active bridge too, or when the entry has another id and is not dropped. -/
theorem Apart.stores_activate_iff (h : k.Apart) {q : Identity} (hq : q ∈ k.all) :
    (k.activate σ e).Stores q.credentials ↔ q.credentials = e.credentials ∨
      q.id ≠ e.id ∧ (q ≠ k.active ∨ k.active.hasEverBeenAuthorizedForStreaming σ = true) := by
  have hkept : ((k.kept σ).map Identity.id).Nodup := h.sublist (kept_sublist.map _)
  rw [stores_iff, all_activate]
  constructor
  · rintro ⟨q', hq', hcred⟩
    rcases (mem_moveToEnd hkept).mp hq' with rfl | ⟨hmem, hne⟩
    · exact .inl hcred.symm
    · obtain rfl := h.eq_of_id (kept_sublist.subset hmem) hq (congrArg Credentials.id hcred)
      exact .inr ⟨hne, (h.mem_kept_iff hq).mp hmem⟩
  · rintro (heq | ⟨hne, hstay⟩)
    · exact ⟨e, self_mem_moveToEnd, heq.symm⟩
    · exact ⟨q, mem_moveToEnd_of_ne ((h.mem_kept_iff hq).mpr hstay) hne, rfl⟩

/-! ### The changes that keep all bridges -/

/-- What no change may do: two entries of one id, or a bridge lost by a change that does not end its
stay. -/
def KeptBy (k : Book) (c : Change) (k' : Book) : Prop :=
  k'.Apart ∧ ∀ q ∈ k.all, q.isKnown = true → c.ends k q.id = false → k'.Stores q.credentials

theorem keeps_activate_iff (h : k.Apart) :
    (Change.activate e).keeps σ k = true ↔ k.KeptBy (.activate e) (k.activate σ e) := by
  simp only [Change.keeps, Bool.and_eq_true, List.all_eq_true, Bool.or_eq_true, Bool.not_eq_true',
    decide_eq_true_eq]
  constructor
  · rintro ⟨hsame, hactive⟩
    refine ⟨h.activate, fun q hq hknown _ => (h.stores_activate_iff hq).mpr ?_⟩
    by_cases hid : q.id = e.id
    · rcases hsame q hq with (hno | hne) | heq
      · simp [hknown] at hno
      · exact absurd hid hne
      · exact .inl heq
    · by_cases hq' : q = k.active
      · subst hq'
        rcases hactive with (hno | hever) | heq
        · simp [hknown] at hno
        · exact .inr ⟨hid, .inr hever⟩
        · exact .inl heq
      · exact .inr ⟨hid, .inl hq'⟩
  · rintro ⟨-, hkeep⟩
    have hkeep : ∀ q ∈ k.all, q.isKnown = true → q.credentials = e.credentials ∨
        q.id ≠ e.id ∧ (q ≠ k.active ∨ k.active.hasEverBeenAuthorizedForStreaming σ = true) :=
      fun q hq hknown => (h.stores_activate_iff hq).mp (hkeep q hq hknown rfl)
    refine ⟨fun q hq => ?_, ?_⟩
    · by_cases hknown : q.isKnown = true
      · rcases hkeep q hq hknown with heq | ⟨hne, -⟩
        · exact .inr heq
        · exact .inl (.inr hne)
      · exact .inl (.inl (by simpa using hknown))
    · by_cases hknown : k.active.isKnown = true
      · rcases hkeep k.active (mem_all.mpr (.inr rfl)) hknown with heq | ⟨-, hne | hever⟩
        · exact .inr heq
        · exact absurd rfl hne
        · exact .inl (.inr hever)
      · exact .inl (.inl (by simpa using hknown))

theorem keeps_authorize_iff (h : k.Apart) :
    (Change.authorize e).keeps σ k = true ↔ k.KeptBy (.authorize e) (k.activate σ e) := by
  simp only [Change.keeps, Bool.or_eq_true, Bool.not_eq_true', decide_eq_true_eq]
  constructor
  · intro hactive
    refine ⟨h.activate, fun q hq hknown hend => (h.stores_activate_iff hq).mpr (.inr ?_)⟩
    have hid : q.id ≠ e.id := fun heq => by simp [Change.ends, heq] at hend
    refine ⟨hid, ?_⟩
    by_cases hq' : q = k.active
    · subst hq'
      rcases hactive with (hno | hever) | heq
      · simp [hknown] at hno
      · exact .inr hever
      · exact absurd heq hid
    · exact .inl hq'
  · rintro ⟨-, hkeep⟩
    by_cases hknown : k.active.isKnown = true
    · by_cases hid : k.active.id = e.id
      · exact .inr hid
      · have hmem : k.active ∈ k.all := mem_all.mpr (.inr rfl)
        have hstore := hkeep k.active hmem hknown (by simpa [Change.ends] using Ne.symm hid)
        rcases (h.stores_activate_iff hmem).mp hstore with heq | ⟨-, hne | hever⟩
        · exact absurd (congrArg Credentials.id heq) hid
        · exact absurd rfl hne
        · exact .inl (.inr hever)
    · exact .inl (.inl (by simpa using hknown))

theorem keeps_forgetActive_iff (h : k.Apart) :
    Change.forgetActive.keeps σ k = true ↔ k.KeptBy .forgetActive { k with active := {} } := by
  have h' : ((k.earlier ++ [k.active]).map Identity.id).Nodup := h
  rw [List.map_append, List.nodup_append] at h'
  simp only [Change.keeps, List.all_eq_true, decide_eq_true_eq]
  constructor
  · intro hne
    refine ⟨?_, fun q hq _ hend => stores_iff.mpr ⟨q, ?_, rfl⟩⟩
    · show ((k.earlier ++ [({} : Identity)]).map Identity.id).Nodup
      rw [List.map_append, List.nodup_append]
      refine ⟨h'.1, List.nodup_singleton _, fun i hi j hj => ?_⟩
      obtain ⟨q, hq, rfl⟩ := List.mem_map.mp hi
      rw [List.mem_singleton.mp hj]
      exact hne q hq
    · rcases mem_all.mp hq with hq | rfl
      · exact mem_all.mpr (.inl hq)
      · simp [Change.ends] at hend
  · rintro ⟨hapart, -⟩ q hq
    exact hapart.earlier_ne (k := { k with active := {} }) hq

/-- A search that finds known bridges loses the active one when it was never authorized. -/
theorem keeps_rediscover_iff (h : k.Apart) {e₀ : Identity}
    (hsame : k'.all.map Identity.credentials = k.all.map Identity.credentials) (hmem : e ∈ k'.all)
    (hold : e₀ ∈ k.all) (he : e.credentials = e₀.credentials)
    (hever : e₀.hasEverBeenAuthorizedForStreaming σ = true)
    (hactive : e = k'.active ∨ k'.active = k.active) :
    Change.rediscover.keeps σ k = true ↔ k.KeptBy .rediscover (k'.activate σ e) := by
  have hids : k'.all.map Identity.id = k.all.map Identity.id := by
    simpa [Identity.credentials, Function.comp_def] using
      congrArg (List.map Credentials.id) hsame
  have h' : k'.Apart := by
    unfold Apart
    rwa [hids]
  have hlast : k'.active.credentials = k.active.credentials := by
    have := congrArg List.getLast? hsame
    simpa [all] using this
  have hmem₀ : k.active ∈ k.all := mem_all.mpr (.inr rfl)
  simp only [Change.keeps, Bool.or_eq_true, Bool.not_eq_true']
  constructor
  · intro hkeep
    refine ⟨h'.activate, fun q hq hknown _ => ?_⟩
    obtain ⟨q', hq', hcred⟩ : ∃ q' ∈ k'.all, q'.credentials = q.credentials := by
      refine List.mem_map.mp ?_
      rw [hsame]
      exact List.mem_map_of_mem hq
    rw [← hcred, h'.stores_activate_iff hq']
    by_cases hid : q'.id = e.id
    · exact .inl (congrArg _ (h'.eq_of_id hq' hmem hid))
    · refine .inr ⟨hid, ?_⟩
      by_cases hact : q' = k'.active
      · subst hact
        rcases hactive with rfl | hactive
        · exact absurd rfl hid
        · rcases hkeep with hno | hever
          · have hq : q = k.active := h.eq_of_id hq hmem₀ (congrArg Credentials.id (hcred.symm.trans hlast))
            rw [hq, hno] at hknown
            cases hknown
          · rw [hactive]
            exact .inr hever
      · exact .inl hact
  · rintro ⟨-, hkeep⟩
    by_cases hknown : k.active.isKnown = true
    · have hstore := hkeep _ hmem₀ hknown rfl
      rw [← hlast, h'.stores_activate_iff (mem_all.mpr (.inr rfl))] at hstore
      have hsame : k'.active.credentials = e.credentials →
          k.active.hasEverBeenAuthorizedForStreaming σ = true := by
        intro heq
        have hid : k.active.id = e₀.id :=
          congrArg Credentials.id (hlast.symm.trans (heq.trans he))
        rw [h.eq_of_id hmem₀ hold hid]
        exact hever
      rcases hstore with heq | ⟨hne, hno | hyes⟩
      · exact .inr (hsame heq)
      · exact absurd rfl hno
      · rcases hactive with rfl | hactive
        · exact absurd rfl hne
        · exact .inr (hactive ▸ hyes)
    · exact .inl (by simpa using hknown)

/-- Rewriting one entry keeps the ids apart when no other entry has the new id. -/
theorem Rewritten.nodup {l l' : List Identity} {old new : Identity} (hsame : Rewritten old new l l')
    (h : (l.map Identity.id).Nodup) (hne : ∀ q ∈ l, q.id ≠ old.id → q.id ≠ new.id) :
    (l'.map Identity.id).Nodup := by
  induction hsame with
  | nil => exact h
  | @cons q q' l l' hq hl ih =>
    rw [List.map_cons, List.nodup_cons] at h ⊢
    refine ⟨?_, ih h.2 fun x hx => hne x (by simp [hx])⟩
    intro hmem
    obtain ⟨x', hx', hid⟩ := List.mem_map.mp hmem
    obtain ⟨x, hx, hxx⟩ : ∃ x ∈ l, x' = x ∨ x = old ∧ x' = new := by
      obtain ⟨i, hi, rfl⟩ := List.getElem_of_mem hx'
      exact ⟨l.get ⟨i, hl.length_eq ▸ hi⟩, List.get_mem _ _, hl.get _ hi⟩
    have hqx : x.id ≠ q.id := fun heq => h.1 (heq ▸ List.mem_map_of_mem hx)
    rcases hq with rfl | ⟨rfl, rfl⟩
    · rcases hxx with rfl | ⟨rfl, rfl⟩
      · exact hqx hid
      · exact hne q' (by simp) hqx.symm hid.symm
    · rcases hxx with rfl | ⟨rfl, rfl⟩
      · exact hne x' (by simp [hx]) hqx hid
      · exact hqx rfl

theorem Rewritten.mem_of_ne {l l' : List Identity} {old new q : Identity}
    (hsame : Rewritten old new l l') (hq : q ∈ l) (hne : q ≠ old) : q ∈ l' := by
  induction hsame with
  | nil => exact hq
  | @cons x x' l l' hx hl ih =>
    rcases List.mem_cons.mp hq with rfl | hq
    · rcases hx with rfl | ⟨rfl, -⟩
      · exact List.mem_cons_self
      · exact absurd rfl hne
    · exact List.mem_cons_of_mem _ (ih hq)

theorem Rewritten.of_mem {l l' : List Identity} {old new q' : Identity}
    (hsame : Rewritten old new l l') (hq : q' ∈ l') : q' ∈ l ∨ old ∈ l ∧ q' = new := by
  induction hsame with
  | nil => exact .inl hq
  | @cons x x' l l' hx hl ih =>
    rcases List.mem_cons.mp hq with rfl | hq
    · rcases hx with rfl | ⟨rfl, rfl⟩
      · exact .inl List.mem_cons_self
      · exact .inr ⟨List.mem_cons_self, rfl⟩
    · rcases ih hq with hq | ⟨hold, rfl⟩
      · exact .inl (List.mem_cons_of_mem _ hq)
      · exact .inr ⟨List.mem_cons_of_mem _ hold, rfl⟩

theorem keeps_rewrite_iff (h : k.Apart) {old new : Identity} {renewed : Bool}
    {l₁ l₂ l₁' l₂' : List Identity} (hold : k.all = l₁ ++ old :: l₂)
    (hnew : k'.all = l₁' ++ new :: l₂') (h₁ : Rewritten old new l₁ l₁')
    (h₂ : Rewritten old new l₂ l₂') :
    (Change.rewrite old new renewed).keeps σ k = true ↔
      k.KeptBy (.rewrite old new renewed) k' := by
  have hsame : Rewritten old new k.all k'.all := by
    rw [hold, hnew]
    exact List.rel_append h₁ (.cons (.inr ⟨rfl, rfl⟩) h₂)
  -- no other entry has the old id
  have hother : ∀ q, q ∈ l₁ ∨ q ∈ l₂ → q.id ≠ old.id := by
    have h : ((l₁ ++ old :: l₂).map Identity.id).Nodup := hold ▸ h
    rw [List.map_append, List.map_cons, List.nodup_append, List.nodup_cons] at h
    rintro q (hq | hq)
    · exact h.2.2 _ (List.mem_map_of_mem hq) _ (by simp)
    · exact fun heq => h.2.1.1 (heq ▸ List.mem_map_of_mem hq)
  simp only [Change.keeps, Bool.and_eq_true, List.all_eq_true, Bool.or_eq_true, Bool.not_eq_true',
    decide_eq_true_eq]
  constructor
  · rintro ⟨hids, hcred⟩
    refine ⟨hsame.nodup h fun q hq hne => (hids q hq).resolve_left hne, fun q hq hknown hend => ?_⟩
    by_cases hq' : q = old
    · subst hq'
      rcases hcred with (hno | heq) | ⟨hrenewed, hid⟩
      · simp [hknown] at hno
      · exact stores_iff.mpr ⟨new, by simp [hnew], heq⟩
      · simp [Change.ends, hrenewed, hid] at hend
    · exact stores_iff.mpr ⟨q, hsame.mem_of_ne hq hq', rfl⟩
  · rintro ⟨hapart, hkeep⟩
    have h' : ((l₁' ++ new :: l₂').map Identity.id).Nodup := hnew ▸ hapart
    rw [List.map_append, List.map_cons, List.nodup_append, List.nodup_cons] at h'
    constructor
    · intro q hq
      by_cases hid : q.id = old.id
      · exact .inl hid
      · have hne : q ≠ old := fun heq => hid (heq ▸ rfl)
        rw [hold] at hq
        rcases List.mem_append.mp hq with hq | hq
        · exact .inr (h'.2.2 _ (List.mem_map_of_mem (h₁.mem_of_ne hq hne)) _ (by simp))
        · have hq := h₂.mem_of_ne ((List.mem_cons.mp hq).resolve_left hne) hne
          exact .inr fun heq => h'.2.1.1 (heq ▸ List.mem_map_of_mem hq)
    · by_cases hknown : old.isKnown = true
      · by_cases hend : renewed = true ∧ new.id = old.id
        · exact .inr hend
        · have hstore := hkeep old (by simp [hold]) hknown (by simpa [Change.ends] using hend)
          obtain ⟨q', hq', hcred⟩ := stores_iff.mp hstore
          have hid : q'.id = old.id := congrArg Credentials.id hcred
          have hnew' : q' = new := by
            rw [hnew] at hq'
            rcases List.mem_append.mp hq' with hq' | hq'
            · rcases h₁.of_mem hq' with hq | ⟨-, heq⟩
              · exact absurd hid (hother q' (.inl hq))
              · exact heq
            · rcases List.mem_cons.mp hq' with heq | hq'
              · exact heq
              · rcases h₂.of_mem hq' with hq | ⟨-, heq⟩
                · exact absurd hid (hother q' (.inr hq))
                · exact heq
          exact .inl (.inr (hnew' ▸ hcred))
      · exact .inl (.inl (by simpa using hknown))

/-- **The changes that lose nothing.** A change of a book whose ids are apart keeps them apart, and loses
no bridge before the end of its stay, exactly when `Change.keeps` lists it. -/
theorem Changes.keeps_iff {c : Change} (h : k.Changes σ c k') (hapart : k.Apart) :
    c.keeps σ k = true ↔ k.KeptBy c k' := by
  have hall : ∀ q ∈ k.all, k.Stores q.credentials := fun q hq => stores_iff.mpr ⟨q, hq, rfl⟩
  cases h with
  | keep => exact ⟨fun _ => ⟨hapart, fun q hq _ _ => hall q hq⟩, fun _ => rfl⟩
  | activate e => exact keeps_activate_iff hapart
  | authorize e => exact keeps_authorize_iff hapart
  | forgetActive => exact keeps_forgetActive_iff hapart
  | forgetAll => exact ⟨fun _ => ⟨List.nodup_singleton _, fun _ _ _ hend => by cases hend⟩, fun _ => rfl⟩
  | load =>
    exact ⟨fun hkeep => ⟨of_decide_eq_true hkeep, fun _ _ _ hend => by cases hend⟩,
      fun hkept => decide_eq_true hkept.1⟩
  | rediscover hsame hmem hold he hever hactive =>
    exact keeps_rediscover_iff hapart hsame hmem hold he hever hactive
  | rewrite hold hnew h₁ h₂ => exact keeps_rewrite_iff hapart hold hnew h₁ h₂

end Book

end HueStream.Data
