import HueStream.Flow.Known

/-! # What a reset forgets

A reset forgets the active bridge, or all of them. Afterwards the flow still holds what it has forgotten:
in the copy of the bridge the procedure has started with, in the objects its bridge monitor and its
retriever report, and in what the storage has read before. `ConnectionFlow.restores` tells, from the
state before a step, that the step brings such a mark of a bridge back. -/

namespace HueStream.Data

open HueStream.Lib

/-- By which of its credentials a bridge is recognized. -/
inductive MarkKind
  | id | user | clientKey
deriving DecidableEq

/-- By what a bridge is recognized. -/
structure Mark where
  kind : MarkKind
  text : String
deriving DecidableEq

def Credentials.read (τ : Credentials) : MarkKind → String
  | .id => τ.id
  | .user => τ.user
  | .clientKey => τ.clientKey

/-- The mark is one of these credentials; an empty text marks nothing. -/
def Credentials.bears (τ : Credentials) (m : Mark) : Bool := m.text ≠ "" && τ.read m.kind = m.text

theorem bears_empty (m : Mark) : ({} : Identity).credentials.bears m = false := by
  have hempty : ({} : Identity).credentials.read m.kind = "" := by
    cases m.kind <;> rfl
  rw [Credentials.bears, hempty, Bool.and_eq_false_iff]
  by_cases h : m.text = ""
  · exact .inl (by simp [h])
  · exact .inr (decide_eq_false (Ne.symm h))

/-- A change brings a bridge with the mark. -/
def Change.brings (m : Mark) : Change → Bool
  | .activate e | .authorize e => e.credentials.bears m
  | .load k => k.all.any (·.credentials.bears m)
  | .rewrite _ new _ => new.credentials.bears m
  | .keep | .forgetActive | .forgetAll | .rediscover => false

namespace Book

/-- An entry has the mark. -/
def holds (k : Book) (m : Mark) : Bool := k.all.any (·.credentials.bears m)

variable {σ : BridgeSettings} {k k' : Book} {c : Change} {m : Mark}

theorem holds_activate {e : Identity} (h : (k.activate σ e).holds m = true) :
    k.holds m = true ∨ e.credentials.bears m = true := by
  obtain ⟨q, hq, hm⟩ := List.any_eq_true.mp h
  rw [all_activate] at hq
  rcases mem_of_mem_moveToEnd hq with hq | rfl
  · exact .inl (List.any_eq_true.mpr ⟨q, kept_sublist.subset hq, hm⟩)
  · exact .inr hm

/-- **Where a mark comes from.** A mark the book does not hold is in it after a change exactly when the
change brings it. -/
theorem Changes.holds_iff (h : k.Changes σ c k') (hno : k.holds m = false) :
    k'.holds m = true ↔ c.brings m = true := by
  have hactive : ∀ e, (k.activate σ e).holds m = true ↔ e.credentials.bears m = true := by
    refine fun e => ⟨fun h => (holds_activate h).resolve_left (by simp [hno]), fun h => ?_⟩
    exact List.any_eq_true.mpr ⟨e, mem_all.mpr (.inr rfl), h⟩
  have hall : ∀ q ∈ k.all, q.credentials.bears m = false := by
    simpa [holds, List.any_eq_false] using hno
  cases h with
  | keep => simp [hno, Change.brings]
  | activate e => exact hactive e
  | authorize e => exact hactive e
  | forgetActive =>
    simp only [holds, all, Change.brings, List.any_append, List.any_cons, List.any_nil,
      bears_empty, Bool.or_false, Bool.false_eq_true, iff_false, Bool.not_eq_true, List.any_eq_false]
    exact fun q hq => hall q (mem_all.mpr (.inl hq))
  | forgetAll => simp [holds, all, Change.brings, bears_empty]
  | load => rfl
  | @rediscover k' e e₀ hsame hmem hold he hever hactive =>
    simp only [Change.brings, Bool.false_eq_true, iff_false, Bool.not_eq_true]
    have hno' : k'.holds m = false := by
      have hmap : ∀ l : List Identity, l.any (·.credentials.bears m) =
          (l.map Identity.credentials).any (·.bears m) := fun l => by simp [Function.comp_def]
      rw [holds, hmap, hsame, ← hmap]
      exact hno
    by_contra hyes
    rcases holds_activate (by simpa using hyes) with h | h
    · simp [hno'] at h
    · rw [he, hall e₀ hold] at h
      cases h
  | @rewrite k' old new renewed l₁ l₂ l₁' l₂' hold hnew h₁ h₂ =>
    constructor
    · intro h
      obtain ⟨q', hq', hm⟩ := List.any_eq_true.mp h
      have hsame : Rewritten old new k.all k'.all := by
        rw [hold, hnew]
        exact List.rel_append h₁ (.cons (.inr ⟨rfl, rfl⟩) h₂)
      rcases hsame.of_mem hq' with hq | ⟨-, rfl⟩
      · rw [hall q' hq] at hm
        cases hm
      · exact hm
    · exact fun h => List.any_eq_true.mpr ⟨new, by simp [hnew], h⟩

end Book

end HueStream.Data

namespace HueStream.Flow

open HueStream.Data HueStream.Lib

namespace ConnectionFlow

/-- A stored bridge has the mark. -/
def holds (s : ConnectionFlow) (m : Mark) : Bool :=
  s.persistentData.bridges.any fun p => (s.heap p).identity.credentials.bears m

/-- The step brings a bridge with the mark, and none is stored. -/
def restores (σ : Settings) (s : ConnectionFlow) (i : Input) (m : Mark) : Bool :=
  (s.change σ i).brings m && !s.holds m

theorem holds_book (s : ConnectionFlow) (m : Mark) : s.book.holds m = s.holds m := by
  rw [Book.holds, all_book]
  simp [holds, Function.comp_def]

end ConnectionFlow

/-- A user request that names, searches, loads or authenticates a bridge. -/
def Input.asksForBridge : Input → Bool
  | .load | .connectToBridge | .connectToBridgeBackground | .connectToBridgeWithIp _
  | .connectToNewBridge | .setManual _ | .connectoToBridgeWithIdKey _ _ _ => true
  | _ => false

variable {σ : Settings} {s : ConnectionFlow}
  {earlier later : List (Transition ConnectionFlow (Input × Answers))}
  {reset t : Transition ConnectionFlow (Input × Answers)} {m : Mark}

/-- The step is such a request, or a completion of the procedure of one that was made in `later`. -/
def IsAskedFor (later : List (Transition ConnectionFlow (Input × Answers)))
    (t : Transition ConnectionFlow (Input × Answers)) : Prop :=
  t.label.1.asksForBridge = true ∨ ∃ c reply keep, t.label.1 = .deliver c reply keep ∧
    ∃ u ∈ later, u.label.1.asksForBridge = true ∧ u.before.state = .idle ∧
      c.procedure = some u.before.procedures

/-- The lists of bridges a step has saved. -/
def savedBy (t : Transition ConnectionFlow (Input × Answers)) : List (List Bridge) :=
  (saves t.after.log).drop (saves t.before.log).length

/-- The step stores or saves a bridge with the mark, and none was stored. -/
def PutsBack (m : Mark) (t : Transition ConnectionFlow (Input × Answers)) : Prop :=
  t.before.holds m = false ∧ (t.after.holds m = true ∨
    ∃ bridges ∈ savedBy t, ∃ b ∈ bridges, b.identity.credentials.bears m = true)

/-- A step puts a mark back exactly when it is one that restores it. -/
theorem putsBack_iff (h : (machine σ).step t.before t.label = some t.after) (hs : Valid t.before)
    (hω : t.label.2.KeepsIdentity) : PutsBack m t ↔ t.before.restores σ t.label.1 m = true := by
  have hrebooks := step_rebooks h hs hω
  rw [PutsBack, ConnectionFlow.restores, Bool.and_eq_true, Bool.not_eq_true', and_comm]
  refine and_congr_left fun hno => ?_
  have hchange := hrebooks.changes.holds_iff ((ConnectionFlow.holds_book _ m).trans hno)
  rw [← hchange, ConnectionFlow.holds_book]
  refine ⟨fun h => h.elim id ?_, .inl⟩
  rintro ⟨bridges, hmem, b, hb, hm⟩
  obtain ⟨l, hl, hbook⟩ := hrebooks.saved
  rw [savedBy, hl, List.drop_left] at hmem
  have hany : ∀ k : Book, bridges.map Bridge.identity = k.all → k.holds m = true := by
    intro k hk
    refine List.any_eq_true.mpr ⟨b.identity, ?_, hm⟩
    rw [← hk]
    exact List.mem_map_of_mem hb
  rw [← ConnectionFlow.holds_book]
  rcases hbook bridges hmem with hk | hk
  · have hyes := hany _ hk
    rw [ConnectionFlow.holds_book, hno] at hyes
    cases hyes
  · exact hany _ hk

/-- What is left of the book after a reset. -/
theorem holds_after_reset (h : (machine σ).step t.before t.label = some t.after)
    (hs : Valid t.before) (hω : t.label.2.KeepsIdentity) {onlyActiveBridge : Bool}
    (hreset : t.label.1 = .reset onlyActiveBridge) (hidle : t.before.state = .idle) :
    t.after.holds m = true ↔ onlyActiveBridge = true ∧
      ∃ p ∈ t.before.persistentData.earlier,
        (t.before.heap p).identity.credentials.bears m = true := by
  have hchanges := (step_rebooks h hs hω).changes
  rw [hreset] at hchanges
  have hchange : t.before.change σ (.reset onlyActiveBridge) =
      if onlyActiveBridge then .forgetActive else .forgetAll := if_pos hidle
  rw [hchange] at hchanges
  rw [← ConnectionFlow.holds_book]
  cases onlyActiveBridge with
  | true =>
    rw [if_pos rfl] at hchanges
    generalize t.after.book = k' at hchanges
    cases hchanges
    simp [Book.holds, Book.all, bears_empty, ConnectionFlow.book]
  | false =>
    rw [if_neg (by simp)] at hchanges
    generalize t.after.book = k' at hchanges
    cases hchanges
    simp [Book.holds, Book.all, bears_empty]

/-- **Resets.** A reset forgets the marks of the active bridge, or of all bridges. No later step puts one
back, but for those a user has asked for, exactly when none restores it. -/
theorem reset_stays (hrun : (machine σ).Run (earlier ++ reset :: later) s)
    (hω : ∀ t ∈ reset :: later, t.label.2.KeepsIdentity) {onlyActiveBridge : Bool}
    (hreset : reset.label.1 = .reset onlyActiveBridge) (hidle : reset.before.state = .idle)
    (m : Mark) :
    (reset.after.holds m = true ↔ onlyActiveBridge = true ∧
      ∃ p ∈ reset.before.persistentData.earlier,
        (reset.before.heap p).identity.credentials.bears m = true) ∧
    ((∀ t ∈ later, ¬ IsAskedFor later t → ¬ PutsBack m t) ↔
      ∀ t ∈ later, ¬ IsAskedFor later t → t.before.restores σ t.label.1 m = false) := by
  have hstep : ∀ t ∈ reset :: later,
      (machine σ).step t.before t.label = some t.after ∧ Valid t.before := by
    intro t ht
    obtain ⟨h, us, -, hus⟩ := hrun.reaches_before (List.mem_append.mpr (.inr ht))
    exact ⟨h, valid_of_run hus⟩
  refine ⟨holds_after_reset (hstep reset (by simp)).1 (hstep reset (by simp)).2
    (hω reset (by simp)) hreset hidle, forall₂_congr fun t ht => ?_⟩
  have hmem : t ∈ reset :: later := List.mem_cons_of_mem _ ht
  rw [putsBack_iff (hstep t hmem).1 (hstep t hmem).2 (hω t hmem), Bool.not_eq_true]

/-! ### A bridge that is reset -/

/-- The active one of two known bridges is reset, and what is left is saved. -/
def resetsActive : List (Input × Answers) :=
  [(.load, {}), (.deliver ⟨.load .finish, some 0⟩ { bridges := twoKnown } false, {}),
    (.reset true, {}), (.deliver ⟨.save, some 1⟩ {} false, {})]

/-- The user of the bridge that is reset. -/
def resetUser : Mark := ⟨.user, "user2"⟩

/-- The bridge monitor reports the bridge that was reset. -/
def reportsReset : Input × Answers := (.monitorEvent ⟨.internal, .bridgeRefreshed, 4, []⟩, {})

set_option maxRecDepth 4000 in
theorem reset_stays_saved : ∃ earlier reset later s,
    (machine {}).Run (earlier ++ reset :: later) s ∧
    (earlier ++ reset :: later).map Transition.label = resetsActive ∧
    reset.before.holds resetUser = true ∧ reset.after.holds resetUser = false ∧
    ∀ t ∈ later, ¬ IsAskedFor later t → ¬ PutsBack resetUser t := by
  obtain ⟨ts, s, hrun, hlabels, hp⟩ := Machine.exists_run_along (M := machine {}) (s := .init)
    resetsActive (fun ts _ => (ts.drop 2).head?.any (fun t => t.before.state = .idle &&
      t.before.holds resetUser && !t.after.holds resetUser) &&
      (ts.drop 3).all fun t => t.before.restores {} t.label.1 resetUser = false) rfl (by decide)
  have hω := keepsIdentity_of_labels (by simp [resetsActive]) hlabels
  have hlabels' := hlabels
  simp only [resetsActive, List.map_eq_cons_iff, List.map_eq_nil_iff] at hlabels'
  obtain ⟨t₁, _, rfl, -, t₂, _, rfl, -, reset, _, rfl, hreset, t₄, _, rfl, -, rfl⟩ := hlabels'
  simp only [List.drop_succ_cons, List.drop_zero, List.head?_cons, Option.any_some, List.all_cons,
    List.all_nil, Bool.and_true, Bool.and_eq_true, decide_eq_true_eq, Bool.not_eq_true'] at hp
  have hrun' : (machine {}).Run ([t₁, t₂] ++ reset :: [t₄]) s := hrun
  have hstays := reset_stays hrun' (fun t ht => hω t (by simp_all))
    (congrArg Prod.fst hreset) hp.1.1.1 resetUser
  refine ⟨[t₁, t₂], reset, [t₄], s, hrun, hlabels, hp.1.1.2, hp.1.2, hstays.2.mpr fun t ht _ => ?_⟩
  rw [List.mem_singleton.mp ht]
  exact hp.2

set_option maxRecDepth 4000 in
/-- After the reset of a bridge the bridge monitor still reports it: it is stored and saved again. -/
theorem monitor_puts_back : ∃ earlier reset later s,
    (machine {}).Run (earlier ++ reset :: later) s ∧
    (earlier ++ reset :: later).map Transition.label = resetsActive ++ [reportsReset] ∧
    reset.before.state = .idle ∧ reset.before.activeBridge.user = "user2" ∧
    ∃ t ∈ later, t.label = reportsReset ∧ ¬ IsAskedFor later t ∧ PutsBack resetUser t := by
  obtain ⟨ts, s, hrun, hlabels, hp⟩ := Machine.exists_run_along (M := machine {}) (s := .init)
    (resetsActive ++ [reportsReset]) (fun ts _ => (ts.drop 2).head?.any (fun t =>
      t.before.state = .idle && t.before.activeBridge.user = "user2") &&
      (ts.drop 4).all fun t => !t.before.holds resetUser && t.after.holds resetUser) rfl (by decide)
  have hlabels' := hlabels
  simp only [resetsActive, List.cons_append, List.nil_append, List.map_eq_cons_iff,
    List.map_eq_nil_iff] at hlabels'
  obtain ⟨t₁, _, rfl, -, t₂, _, rfl, -, reset, _, rfl, hreset, t₄, _, rfl, -, t₅, _, rfl, ht₅, rfl⟩ :=
    hlabels'
  simp only [List.drop_succ_cons, List.drop_zero, List.head?_cons, Option.any_some, List.all_cons,
    List.all_nil, Bool.and_true, Bool.and_eq_true, decide_eq_true_eq, Bool.not_eq_true'] at hp
  refine ⟨[t₁, t₂], reset, [t₄, t₅], s, hrun, hlabels, hp.1.1, hp.1.2, t₅, by simp, ht₅, ?_, hp.2.1,
    .inl hp.2.2⟩
  rintro (hasks | ⟨c, reply, keep, hdeliver, -⟩)
  · rw [ht₅] at hasks
    cases hasks
  · rw [ht₅] at hdeliver
    cases hdeliver

end HueStream.Flow
