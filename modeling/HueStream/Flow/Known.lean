import HueStream.Flow.Rebooks

/-! # Known bridges stay known

`_persistentData` is to hold every bridge once, and to keep the user and the client key a bridge was
stored with until a reset, a load or a new authorization of it ends its stay. The flow is not written so:
`SetActiveBridge` removes one entry with the id of the new active bridge whatever its user and client
key, drops an active bridge that was never authorized, and other functions rewrite an id in place. The
steps that do no harm are told from the state before them (`keepsKnown`), and a run keeps the known
bridges exactly when all its steps are of these (`known_bridges_stay`). -/

namespace HueStream.Flow

open HueStream.Data HueStream.Lib

namespace ConnectionFlow

/-- The stored bridges have pairwise different ids and are pairwise different objects. -/
def StoresApart (s : ConnectionFlow) : Prop :=
  (s.persistentData.bridges.map fun p => (s.heap p).id).Nodup ∧ s.persistentData.bridges.Nodup

instance (s : ConnectionFlow) : Decidable s.StoresApart := inferInstanceAs (Decidable (_ ∧ _))

/-- A bridge is stored with this id, user and client key. -/
def Stores (s : ConnectionFlow) (τ : Credentials) : Prop :=
  ∃ p ∈ s.persistentData.bridges, (s.heap p).identity.credentials = τ

/-- The step ends the stay of the bridge with the given id: its reset, a reset of all, a load or a new
authorization of it. -/
def endsStay (σ : Settings) (s : ConnectionFlow) (i : Input) (id : String) : Bool :=
  (s.change σ i).ends s.book id

/-- The step keeps the ids of the stored bridges apart and loses no known bridge. -/
def keepsKnown (σ : Settings) (s : ConnectionFlow) (i : Input) : Bool :=
  (s.change σ i).keeps σ.bridge s.book

theorem storesApart_iff {s : ConnectionFlow} : s.StoresApart ↔ s.book.Apart := by
  have hids : (s.persistentData.bridges.map fun p => (s.heap p).id).Nodup ↔ s.book.Apart := by
    unfold Book.Apart
    rw [all_book, List.map_map]
    rfl
  rw [StoresApart, hids]
  exact ⟨fun h => h.1, fun h => ⟨h, (hids.mpr h).of_map _⟩⟩

theorem stores_iff {s : ConnectionFlow} {τ : Credentials} : s.Stores τ ↔ s.book.Stores τ := by
  rw [Book.stores_iff, all_book]
  simp [Stores]

end ConnectionFlow

variable {σ : Settings} {s s' : ConnectionFlow} {l : Input × Answers}
  {ts : List (Transition ConnectionFlow (Input × Answers))}

/-- The step keeps the stored bridges apart and loses none before the end of its stay. -/
def KeepsKnown (σ : Settings) (t : Transition ConnectionFlow (Input × Answers)) : Prop :=
  t.after.StoresApart ∧ ∀ τ : Credentials, τ.areKnown = true → t.before.Stores τ →
    t.before.endsStay σ t.label.1 τ.id = false → t.after.Stores τ

theorem step_rebooks (h : (machine σ).step s l = some s') (hs : Valid s)
    (hω : l.2.KeepsIdentity) : Rebooks σ s (s.change σ l.1) s' := by
  obtain ⟨hi, rfl⟩ : s.enabled l.1 = true ∧ s.handle σ l.2 l.1 = s' := by
    unfold machine ConnectionFlow.step at h
    simpa using h
  exact ConnectionFlow.handle_rebooks hs hi hω

/-- One step keeps the known bridges exactly when it is one of those `keepsKnown` tells. -/
theorem keepsKnown_iff {t : Transition ConnectionFlow (Input × Answers)}
    (h : (machine σ).step t.before t.label = some t.after) (hs : Valid t.before)
    (hω : t.label.2.KeepsIdentity) (hapart : t.before.StoresApart) :
    t.before.keepsKnown σ t.label.1 = true ↔ KeepsKnown σ t := by
  rw [ConnectionFlow.keepsKnown, (step_rebooks h hs hω).changes.keeps_iff
    (ConnectionFlow.storesApart_iff.mp hapart), KeepsKnown, Book.KeptBy,
    ConnectionFlow.storesApart_iff]
  refine and_congr_right fun _ => ⟨fun hkeep τ hknown hstores hend => ?_, fun hkeep q hq hknown hend => ?_⟩
  · obtain ⟨q, hq, rfl⟩ := Book.stores_iff.mp (ConnectionFlow.stores_iff.mp hstores)
    exact ConnectionFlow.stores_iff.mpr (hkeep q hq hknown hend)
  · refine ConnectionFlow.stores_iff.mp (hkeep _ hknown ?_ hend)
    exact ConnectionFlow.stores_iff.mpr (Book.stores_iff.mpr ⟨q, hq, rfl⟩)

theorem storesApart_init : ConnectionFlow.init.StoresApart := by decide

/-- Where all steps end with bridges stored apart, all steps begin so. -/
theorem storesApart_before (hrun : (machine σ).Run ts s) (hkeep : ∀ t ∈ ts, t.after.StoresApart)
    {t : Transition ConnectionFlow (Input × Answers)} (ht : t ∈ ts) : t.before.StoresApart := by
  obtain ⟨-, us, hpre, hus⟩ := hrun.reaches_before ht
  refine hus.invariant_of (C := fun s l => ∀ s', (machine σ).step s l = some s' → s'.StoresApart)
    (fun _ hinit => hinit ▸ storesApart_init) (fun _ _ _ h hc _ => hc _ h) fun u hu s' hs' => ?_
  obtain rfl := Option.some.inj ((hus.step_of_mem hu).symm.trans hs')
  exact hkeep u (hpre.subset hu)

theorem keepsKnown_run (hrun : (machine σ).Run ts s) (hω : ∀ t ∈ ts, t.label.2.KeepsIdentity) :
    (∀ t ∈ ts, t.before.keepsKnown σ t.label.1 = true) ↔ ∀ t ∈ ts, KeepsKnown σ t := by
  have hstep : ∀ t ∈ ts, t.before.StoresApart →
      (t.before.keepsKnown σ t.label.1 = true ↔ KeepsKnown σ t) := by
    intro t ht hapart
    obtain ⟨h, us, -, hus⟩ := hrun.reaches_before ht
    exact keepsKnown_iff h (valid_of_run hus) (hω t ht) hapart
  constructor
  · intro hcond
    have hapart : ∀ t ∈ ts, t.before.StoresApart := by
      intro t ht
      obtain ⟨-, us, hpre, hus⟩ := hrun.reaches_before ht
      have hinv := hus.invariant_of (I := fun s => Valid s ∧ s.StoresApart)
        (C := fun s l => l.2.KeepsIdentity ∧ s.keepsKnown σ l.1 = true)
        (fun _ hinit => hinit ▸ ⟨Valid.init, storesApart_init⟩)
        (fun s l s' h hc hs => ⟨valid_step h hs.1,
          ((keepsKnown_iff (t := ⟨s, l, s'⟩) h hs.1 hc.1 hs.2).mp hc.2).1⟩)
        fun u hu => ⟨hω u (hpre.subset hu), hcond u (hpre.subset hu)⟩
      exact hinv.2
    exact fun t ht => (hstep t ht (hapart t ht)).mp (hcond t ht)
  · intro hkeep t ht
    have hapart := storesApart_before hrun (fun t ht => (hkeep t ht).1) ht
    exact (hstep t ht hapart).mpr (hkeep t ht)

/-- **Known bridges.** In every run the steps are all of those `keepsKnown` tells exactly when in every
state the stored bridges have different ids and are different objects, and a bridge stored with a user
and a valid client key stays stored with them as long as no step ends its stay. -/
theorem known_bridges_stay (hrun : (machine σ).Run ts s) (hω : ∀ t ∈ ts, t.label.2.KeepsIdentity) :
    (∀ t ∈ ts, t.before.keepsKnown σ t.label.1 = true) ↔
      (∀ t ∈ ts, t.after.StoresApart) ∧
      ∀ stretch, stretch <:+: ts → ∀ t u, stretch.head? = some t → stretch.getLast? = some u →
        ∀ τ : Credentials, τ.areKnown = true → t.before.Stores τ →
          (∀ v ∈ stretch, v.before.endsStay σ v.label.1 τ.id = false) → u.after.Stores τ := by
  rw [keepsKnown_run hrun hω]
  constructor
  · intro hkeep
    refine ⟨fun t ht => (hkeep t ht).1, fun stretch hin t u ht hu τ hknown hstores hend => ?_⟩
    refine hrun.stretch (P := fun s => s.Stores τ) hin (fun v hv hstores => ?_) ht hu hstores
    exact (hkeep v (hin.subset hv)).2 τ hknown hstores (hend v hv)
  · rintro ⟨hapart, hstay⟩ t ht
    refine ⟨hapart t ht, fun τ hknown hstores hend => ?_⟩
    obtain ⟨before, after, rfl⟩ := List.append_of_mem ht
    exact hstay [t] ⟨before, after, by simp⟩ t t rfl rfl τ hknown hstores (by simpa using hend)

/-! ### Two known bridges -/

/-- A bridge that streams, at an address. -/
def bridgeOfUser (id ipAddress user clientKey : String) : Bridge :=
  { id, ipAddress, user, clientKey, modelId := "BSB002", isValidIp := true, isAuthorized := true }

/-- What the storage holds: two known bridges. -/
def twoKnown : List Bridge :=
  [bridgeOfUser "1" "192.168.1.2" "user1" "0123456789abcdef0123456789abcdef",
    bridgeOfUser "2" "192.168.1.3" "user2" "fedcba9876543210fedcba9876543210"]

/-- Two known bridges are loaded, and the first one is reported by the bridge monitor. -/
def loadsTwo : List (Input × Answers) :=
  [(.load, {}), (.deliver ⟨.load .finish, some 0⟩ { bridges := twoKnown } false, {}),
    (.monitorEvent ⟨.internal, .bridgeChanged, 3, []⟩, {})]

theorem keepsIdentity_of_labels {ls : List (Input × Answers)} (hls : ∀ l ∈ ls, l.2 = {})
    (h : ts.map Transition.label = ls) : ∀ t ∈ ts, t.label.2.KeepsIdentity := by
  intro t ht
  have hmem : t.label ∈ ls := h ▸ List.mem_map_of_mem ht
  rw [hls _ hmem]
  exact ⟨fun _ => rfl, fun _ => rfl⟩

set_option maxRecDepth 4000 in
theorem known_bridges_stay_two : ∃ ts s, (machine {}).Run ts s ∧
    ts.map Transition.label = loadsTwo ∧ ∀ t ∈ ts, t.after.StoresApart := by
  obtain ⟨ts, s, hrun, hlabels, hp⟩ := Machine.exists_run_along (M := machine {}) (s := .init)
    loadsTwo (fun ts _ => ts.all fun t => t.before.keepsKnown {} t.label.1) rfl (by decide)
  have hω := keepsIdentity_of_labels (by simp [loadsTwo]) hlabels
  exact ⟨ts, s, hrun, hlabels,
    ((known_bridges_stay hrun hω).mp (by simpa only [List.all_eq_true] using hp)).1⟩

/-- Two known bridges are loaded and have swapped their addresses: the one at the address of the second
bridge says that it is the first one. -/
def swapAddresses : List (Input × Answers) :=
  [(.connectToBridge, {}),
    (.deliver ⟨.load .searchOrRetrieve, some 0⟩ { bridges := twoKnown } false, {}),
    (.mutate 4 (bridgeOfUser "1" "192.168.1.3" "user2" "fedcba9876543210fedcba9876543210"), {}),
    (.deliver ⟨.retrieveSmallConfig 4, some 0⟩ {} false, {})]

set_option maxRecDepth 4000 in
/-- Two known bridges that have swapped their addresses: one object is stored twice, and what the first
bridge was stored with is lost. -/
theorem swapped_bridges_not_apart : ∃ ts s, (machine {}).Run ts s ∧
    ts.map Transition.label = swapAddresses ∧ s.persistentData.bridges = [4, 4] ∧
    ¬ s.StoresApart := by
  obtain ⟨ts, s, hrun, hlabels, hp⟩ := Machine.exists_run_along (M := machine {}) (s := .init)
    swapAddresses (fun _ s => s.persistentData.bridges = [4, 4] && !decide s.StoresApart) rfl
    (by decide)
  exact ⟨ts, s, hrun, hlabels, by simpa using hp⟩

end HueStream.Flow
