import HueStream.Futures.Continuations

/-! # When a future is assigned once

That the outcome of the completion stays, and that readers see it, needs that the outcomes of different
attempts do not get mixed up, and that the function of a continuation is not called when there is an exception
(`Assigned`); a step that does otherwise shows at once (`keeps_of_assignedOnce`). So a run assigns its future
once exactly when all its steps keep to that (`assignedOnce_iff`). -/

namespace HueStream.Futures

open HueStream.Lib

variable {ε α : Type*} {exceptions : FutureExceptions ε} {type : ValueType α}
  {data data' : FutureData ε α} {s s' : SharedFuture ε α} {a : Action ε α} {attempt : Attempt ε α}
  {reader : Reader ε α} {point : ReaderPoint ε α} {outcome o : Except ε α} {i : ℕ} {caught : Bool}

/-! ### The outcome -/

/-- What a reader has got through, or has seen, in a future with this data. -/
def ReaderPoint.Agrees (data : FutureData ε α) : ReaderPoint ε α → Prop
  | .posted | .checking => data.isSet = true
  | .reading => data.isSet = true ∧ data.exception = none
  | .saw outcome => data.isSet = true ∧ data.Holds outcome
  | .crashed => False
  | _ => True

/-- A future that is set has one winner, whose outcome is stored and has been seen; before, nobody has won. -/
structure Assigned (s : SharedFuture ε α) : Prop where
  unset : s.data.isSet = false → s.won = []
  set : s.data.isSet = true → ∃ outcome, s.won = [outcome] ∧ s.data.Holds outcome
  readers : ∀ reader ∈ s.readers, reader.point.Agrees s.data

theorem FutureData.Holds.unique (h : data.Holds outcome) (ho : data.Holds o) : outcome = o := by
  cases outcome with
  | ok value =>
    cases o with
    | ok value' => rw [Option.some.inj (h.2.symm.trans ho.2)]
    | error e => cases h.1.symm.trans ho
  | error e =>
    cases o with
    | ok value => cases ho.1.symm.trans h
    | error e' => rw [Option.some.inj (h.symm.trans ho)]

theorem FutureData.Holds.congr (h : data.Holds outcome) (hexception : data'.exception = data.exception)
    (hvalue : data'.value = data.value) : data'.Holds outcome := by
  cases outcome with
  | ok value => exact ⟨hexception.trans h.1, hvalue.trans h.2⟩
  | error e => exact hexception.trans h

theorem ReaderPoint.Agrees.congr (h : point.Agrees data) (hset : data'.isSet = data.isSet)
    (hexception : data'.exception = data.exception) (hvalue : data'.value = data.value) :
    point.Agrees data' := by
  cases point with
  | posted => exact hset.trans h
  | checking => exact hset.trans h
  | reading => exact ⟨hset.trans h.1, hexception.trans h.2⟩
  | saw outcome => exact ⟨hset.trans h.1, h.2.congr hexception hvalue⟩
  | crashed => exact h
  | _ => trivial

/-- In a future that is not set nobody has got anywhere. -/
theorem ReaderPoint.Agrees.of_not_set (h : point.Agrees data) (hset : data.isSet = false) :
    point.Agrees data' := by
  cases point with
  | posted => cases hset.symm.trans h
  | checking => cases hset.symm.trans h
  | reading => cases hset.symm.trans h.1
  | saw outcome => cases hset.symm.trans h.1
  | crashed => exact h.elim
  | _ => trivial

/-- A step that leaves the outcome alone. -/
theorem Assigned.congr (h : Assigned s) (hset : s'.data.isSet = s.data.isSet)
    (hexception : s'.data.exception = s.data.exception) (hvalue : s'.data.value = s.data.value)
    (hwon : s'.won = s.won) (hreaders : ∀ reader ∈ s'.readers, reader ∈ s.readers ∨
      reader.point.Agrees s'.data) : Assigned s' where
  unset hs := hwon.trans (h.unset (hset.symm.trans hs))
  set hs := by
    obtain ⟨outcome, hwins, hholds⟩ := h.set (hset.symm.trans hs)
    exact ⟨outcome, hwon.trans hwins, hholds.congr hexception hvalue⟩
  readers reader hreader := by
    rcases hreaders reader hreader with hold | hnew
    · exact (h.readers reader hold).congr hset hexception hvalue
    · exact hnew

/-- What holds of the readers after an attempt has moved on. -/
theorem Assigned.setAttempt (h : Assigned s) (hi : s.attempts[i]? = some attempt) {b : Attempt ε α}
    (hb : b.outcome = attempt.outcome) : Assigned (s.setAttempt i b) :=
  h.congr rfl rfl rfl (won_setAttempt hi hb) fun _ hreader => .inl hreader

theorem Assigned.moveReader (h : Assigned s) (hpoint : point.Agrees s.data) :
    Assigned (s.moveReader i point) := by
  refine h.congr rfl rfl rfl rfl fun reader hreader => ?_
  rcases mem_moveReader hreader with hold | hnew
  · exact .inl hold
  · exact .inr (hnew ▸ hpoint)

theorem Assigned.addReader (h : Assigned s) (hdata : s'.data.isSet = s.data.isSet)
    (hexception : s'.data.exception = s.data.exception) (hvalue : s'.data.value = s.data.value)
    (hwon : s'.won = s.won) (hs : s'.readers = s.readers ++ [reader])
    (hpoint : reader.point.Agrees s'.data) : Assigned s' := by
  refine h.congr hdata hexception hvalue hwon fun other hother => ?_
  rw [hs] at hother
  rcases List.mem_append.mp hother with hold | hnew
  · exact .inl hold
  · rw [List.mem_singleton.mp hnew]
    exact .inr hpoint

theorem Assigned.addAttempt (h : Assigned s) (hattempt : attempt.outcome = none) :
    Assigned { s with attempts := s.attempts ++ [attempt] } := by
  refine h.congr rfl rfl rfl ?_ fun _ hreader => .inl hreader
  simp [SharedFuture.won, hattempt]

/-- The outcome is stored: in a future that is set it is what is there already. -/
theorem Assigned.store (h : Assigned s) (hkeep : s.AttemptKeeps type (.storing outcome caught)) :
    Assigned { s with data := s.data.store type outcome } := by
  have hisSet : (s.data.store type outcome).isSet = s.data.isSet := by cases outcome <;> rfl
  cases hset : s.data.isSet with
  | true =>
    obtain ⟨hexception, hvalue⟩ := hkeep hset
    exact h.congr hisSet hexception hvalue rfl fun _ hreader => .inl hreader
  | false =>
    refine ⟨fun _ => h.unset hset, fun htrue => ?_, fun reader hreader => ?_⟩
    · cases hset.symm.trans (hisSet.symm.trans htrue)
    · exact (h.readers reader hreader).of_not_set hset

/-- The completion is claimed: the first one wins with its outcome, and later ones change nothing. -/
theorem Assigned.claim (h : Assigned s) (hi : s.attempts[i]? = some (.claiming outcome caught))
    (hkeep : s.AttemptKeeps type (.claiming outcome caught)) :
    Assigned ({ s with data := s.data.setAsDone }.setAttempt i (
      if !s.data.isSet then .won outcome s.data.continuations
      else if caught then .failing exceptions.promiseAlreadySet else .lost)) := by
  cases hset : s.data.isSet with
  | true =>
    have hnone : (if caught then .failing exceptions.promiseAlreadySet else .lost : Attempt ε α).outcome =
        none := by cases caught <;> rfl
    exact h.congr hset.symm rfl rfl (won_setAttempt hi hnone) fun _ hreader => .inl hreader
  | false =>
    have hwon := won_of_first (b := .won outcome s.data.continuations) hi (h.unset hset) rfl
    refine ⟨fun hfalse => ?_, fun _ => ⟨outcome, hwon, (hkeep hset).congr rfl rfl⟩, fun reader hreader => ?_⟩
    · cases hfalse
    · exact (h.readers reader hreader).of_not_set hset

theorem Assigned.advance (h : Assigned s) (hi : s.attempts[i]? = some attempt)
    (hkeep : s.AttemptKeeps type attempt) (hs : s.advance exceptions type i attempt = some s') :
    Assigned s' := by
  cases attempt with
  | task result =>
    obtain rfl := Option.some.inj hs
    cases s.canceled with
    | some e => exact h.setAttempt hi rfl
    | none => cases result <;> exact h.setAttempt hi rfl
  | failing e =>
    obtain rfl := Option.some.inj hs
    have hcancel : Assigned (s.cancelWith e) := h.congr rfl rfl rfl rfl fun _ hreader => .inl hreader
    exact hcancel.setAttempt hi rfl
  | storing outcome caught =>
    obtain rfl := Option.some.inj hs
    exact (h.store hkeep).setAttempt hi rfl
  | claiming outcome caught =>
    obtain rfl := Option.some.inj hs
    exact h.claim hi hkeep
  | won outcome continuations =>
    rcases continuations with _ | ⟨c, cs⟩
    · cases hs
    · obtain rfl := Option.some.inj hs
      have hset : s.data.isSet = true := by
        by_contra hunset
        have hwon := h.unset (Bool.eq_false_iff.mpr hunset)
        have hmem : outcome ∈ s.won := mem_won hi rfl
        rw [hwon] at hmem
        cases hmem
      have hattempt : Assigned (s.setAttempt i (.won outcome cs)) := h.setAttempt hi rfl
      have hmove : Assigned ((s.setAttempt i (.won outcome cs)).moveReader c .posted) :=
        hattempt.moveReader hset
      exact hmove.congr rfl rfl rfl rfl fun _ hreader => .inl hreader
  | lost => cases hs

/-- A reader goes on: it sees what is stored, and that is the outcome. -/
theorem Assigned.read (h : Assigned s) (hi : s.readers[i]? = some reader) (hkeep : s.ReaderKeeps type reader)
    (hs : s.read type i reader = some s') : Assigned s' := by
  have hagrees := h.readers reader (List.mem_of_getElem? hi)
  unfold SharedFuture.read at hs
  cases hpoint : reader.point with
  | posted =>
    rw [hpoint] at hs hagrees
    obtain rfl := Option.some.inj hs
    refine h.moveReader ?_
    split_ifs with hcanceled
    · trivial
    · cases type with
      | value => trivial
      | void unit unique =>
        have hexception : s.data.exception = none := hkeep hpoint rfl hcanceled
        obtain ⟨outcome, -, hholds⟩ := h.set hagrees
        refine ⟨hagrees, hexception, ?_⟩
        cases outcome with
        | ok value => rw [hholds.2, unique value]
        | error e => cases hexception.symm.trans hholds
  | waiting =>
    rw [hpoint] at hs
    dsimp only at hs
    split_ifs at hs with hset hdestroyed
    · obtain rfl := Option.some.inj hs
      exact h.moveReader hset
    · obtain rfl := Option.some.inj hs
      exact h.moveReader trivial
  | checking =>
    rw [hpoint] at hs hagrees
    obtain rfl := Option.some.inj hs
    refine h.moveReader ?_
    cases hexception : s.data.exception with
    | some e => exact ⟨hagrees, hexception⟩
    | none => exact ⟨hagrees, hexception⟩
  | reading =>
    rw [hpoint] at hs hagrees
    obtain rfl := Option.some.inj hs
    obtain ⟨hset, hexception⟩ := hagrees
    obtain ⟨outcome, -, hholds⟩ := h.set hset
    refine h.moveReader ?_
    cases outcome with
    | ok value =>
      rw [hholds.2]
      exact ⟨hset, hholds⟩
    | error e => cases hexception.symm.trans hholds
  | queued => rw [hpoint] at hs; cases hs
  | saw outcome => rw [hpoint] at hs; cases hs
  | broken => rw [hpoint] at hs; cases hs
  | canceled => rw [hpoint] at hs; cases hs
  | crashed => rw [hpoint] at hs; cases hs

theorem Assigned.thenCall (h : Assigned s) (checks : Bool) : Assigned (s.thenCall checks) := by
  unfold SharedFuture.thenCall
  split_ifs with hset
  · refine h.addReader rfl rfl rfl rfl rfl ?_
    cases hexception : s.data.exception with
    | some e => exact ⟨hset, hexception⟩
    | none => exact hset
  · exact h.addReader rfl rfl rfl rfl rfl trivial

theorem Assigned.step (h : Assigned s) (hkeep : s.Keeps type a) (hs : s.step exceptions type a = some s') :
    Assigned s' := by
  cases a with
  | setValue value =>
    obtain rfl := Option.some.inj hs
    exact h.addAttempt rfl
  | setException e =>
    obtain rfl := Option.some.inj hs
    exact h.addAttempt rfl
  | cancel =>
    obtain rfl := Option.some.inj hs
    exact h.addAttempt rfl
  | schedule result =>
    obtain rfl := Option.some.inj hs
    exact h.addAttempt rfl
  | destroyPromise =>
    obtain rfl := Option.some.inj hs
    exact h.congr rfl rfl rfl rfl fun _ hreader => .inl hreader
  | cancelManager e =>
    obtain rfl := Option.some.inj hs
    exact h.congr rfl rfl rfl rfl fun _ hreader => .inl hreader
  | thenCall checks =>
    obtain rfl := Option.some.inj hs
    exact h.thenCall checks
  | get =>
    obtain rfl := Option.some.inj hs
    exact h.addReader rfl rfl rfl rfl rfl trivial
  | proceed i =>
    obtain ⟨attempt, hi, hs⟩ := Option.bind_eq_some_iff.mp hs
    exact h.advance hi (hkeep attempt hi) hs
  | read i =>
    obtain ⟨reader, hi, hs⟩ := Option.bind_eq_some_iff.mp hs
    exact h.read hi (hkeep reader hi) hs

/-! ### What the first step that mixes outcomes shows -/

theorem read_data (hs : s.read type i reader = some s') : s'.data = s.data ∧ s'.won = s.won := by
  unfold SharedFuture.read at hs
  split at hs
  · obtain rfl := Option.some.inj hs
    exact ⟨rfl, rfl⟩
  · split_ifs at hs
    · obtain rfl := Option.some.inj hs
      exact ⟨rfl, rfl⟩
    · obtain rfl := Option.some.inj hs
      exact ⟨rfl, rfl⟩
  · obtain rfl := Option.some.inj hs
    exact ⟨rfl, rfl⟩
  · obtain rfl := Option.some.inj hs
    exact ⟨rfl, rfl⟩
  · cases hs

/-- In a future that is set an attempt that keeps to its part changes nothing that counts. -/
theorem advance_kept (hi : s.attempts[i]? = some attempt) (hkeep : s.AttemptKeeps type attempt)
    (hset : s.data.isSet = true) (hs : s.advance exceptions type i attempt = some s') :
    s'.data.exception = s.data.exception ∧ s'.data.value = s.data.value ∧ s'.won = s.won := by
  cases attempt with
  | task result =>
    obtain rfl := Option.some.inj hs
    cases s.canceled with
    | some e => exact ⟨rfl, rfl, won_setAttempt hi rfl⟩
    | none => cases result <;> exact ⟨rfl, rfl, won_setAttempt hi rfl⟩
  | failing e =>
    obtain rfl := Option.some.inj hs
    exact ⟨rfl, rfl, won_setAttempt hi rfl⟩
  | storing outcome caught =>
    obtain rfl := Option.some.inj hs
    obtain ⟨hexception, hvalue⟩ := hkeep hset
    exact ⟨hexception, hvalue, won_setAttempt hi rfl⟩
  | claiming outcome caught =>
    obtain rfl := Option.some.inj hs
    refine ⟨rfl, rfl, won_setAttempt hi ?_⟩
    rw [hset]
    cases caught <;> rfl
  | won outcome continuations =>
    rcases continuations with _ | ⟨c, cs⟩
    · cases hs
    · obtain rfl := Option.some.inj hs
      exact ⟨rfl, rfl, won_setAttempt (b := .won outcome cs) hi rfl⟩
  | lost => cases hs

theorem step_kept (hkeep : s.Keeps type a) (hset : s.data.isSet = true)
    (hs : s.step exceptions type a = some s') :
    s'.data.exception = s.data.exception ∧ s'.data.value = s.data.value ∧ s'.won = s.won := by
  have hadd : ∀ b : Attempt ε α, b.outcome = none →
      SharedFuture.won { s with attempts := s.attempts ++ [b] } = s.won := by
    intro b hb
    simp [SharedFuture.won, hb]
  cases a with
  | proceed i =>
    obtain ⟨attempt, hi, hs⟩ := Option.bind_eq_some_iff.mp hs
    exact advance_kept hi (hkeep attempt hi) hset hs
  | read i =>
    obtain ⟨reader, -, hs⟩ := Option.bind_eq_some_iff.mp hs
    obtain ⟨hdata, hwon⟩ := read_data hs
    rw [hdata]
    exact ⟨rfl, rfl, hwon⟩
  | thenCall checks =>
    obtain rfl := Option.some.inj hs
    unfold SharedFuture.thenCall
    rw [if_pos hset]
    exact ⟨rfl, rfl, rfl⟩
  | destroyPromise => obtain rfl := Option.some.inj hs; exact ⟨rfl, rfl, rfl⟩
  | cancelManager e => obtain rfl := Option.some.inj hs; exact ⟨rfl, rfl, rfl⟩
  | get => obtain rfl := Option.some.inj hs; exact ⟨rfl, rfl, rfl⟩
  | setValue value => obtain rfl := Option.some.inj hs; exact ⟨rfl, rfl, hadd _ rfl⟩
  | setException e => obtain rfl := Option.some.inj hs; exact ⟨rfl, rfl, hadd _ rfl⟩
  | cancel => obtain rfl := Option.some.inj hs; exact ⟨rfl, rfl, hadd _ rfl⟩
  | schedule result => obtain rfl := Option.some.inj hs; exact ⟨rfl, rfl, hadd _ rfl⟩

theorem assignedOnce_of_keeps (hI : Assigned s) (hA : Accounted s) (hs : s.step exceptions type a = some s')
    (hkeep : s.Keeps type a) : AssignedOnce ⟨s, a, s'⟩ := by
  have hI' := hI.step hkeep hs
  have hA' := hA.step hs
  have hwon : s'.won.length ≤ 1 ∧ ∀ outcome ∈ s'.won, s'.data.Holds outcome := by
    cases hset : s'.data.isSet with
    | true =>
      obtain ⟨outcome, hwins, hholds⟩ := hI'.set hset
      rw [hwins]
      exact ⟨le_rfl, by simpa using hholds⟩
    | false => simp [hI'.unset hset]
  refine ⟨fun hset => (step_kept hkeep hset hs).1, fun hset => (step_kept hkeep hset hs).2.1,
    fun hset => (step_kept hkeep hset hs).2.2, hwon.1, hwon.2, fun reader hreader outcome hsaw => ?_,
    fun reader hreader hcrashed => ?_, hA'.ran, hA'.continuations⟩
  · have hagrees := hI'.readers reader hreader
    rw [hsaw] at hagrees
    obtain ⟨o, hwins, hholds⟩ := hI'.set hagrees.1
    rw [hwins, hholds.unique hagrees.2]
  · have hagrees := hI'.readers reader hreader
    rw [hcrashed] at hagrees
    exact hagrees

theorem keeps_of_assignedOnce (hI : Assigned s) (hs : s.step exceptions type a = some s')
    (h : AssignedOnce ⟨s, a, s'⟩) : s.Keeps type a := by
  cases a with
  | proceed i =>
    intro attempt hi
    rw [Option.mem_def] at hi
    obtain ⟨_, heq, hs⟩ := Option.bind_eq_some_iff.mp hs
    obtain rfl := Option.some.inj (hi.symm.trans heq)
    cases attempt with
    | storing outcome caught =>
      intro hset
      obtain rfl := Option.some.inj hs
      exact ⟨h.exception hset, h.value hset⟩
    | claiming outcome caught =>
      intro hunset
      obtain rfl := Option.some.inj hs
      have hwon := won_of_first (b := .won outcome s.data.continuations) hi (hI.unset hunset) rfl
      have hstored := h.stored outcome
      simp only [hunset, Bool.not_false, if_true] at hstored
      have hmem : outcome ∈ (s.setAttempt i (.won outcome s.data.continuations)).won := by simp [hwon]
      exact (hstored hmem).congr rfl rfl
    | _ => trivial
  | read i =>
    intro reader hi hpoint hvoid hcanceled
    rw [Option.mem_def] at hi
    obtain ⟨_, heq, hs⟩ := Option.bind_eq_some_iff.mp hs
    obtain rfl := Option.some.inj (hi.symm.trans heq)
    obtain ⟨hdata, hwon⟩ := read_data hs
    cases type with
    | value => cases hvoid
    | void unit unique =>
      -- the function has been called, and has seen the value
      have hs' : s' = s.moveReader i (.saw (.ok unit)) := by
        unfold SharedFuture.read at hs
        rw [hpoint] at hs
        simp only [if_neg hcanceled] at hs
        exact (Option.some.inj hs).symm
      have hmem : { reader with point := .saw (.ok unit) } ∈ s'.readers := by
        refine List.mem_of_getElem? (i := i) ?_
        rw [hs', SharedFuture.moveReader, List.getElem?_modify, hi]
        simp
      have hseen := h.seen _ hmem _ rfl
      have hstored := h.stored (.ok unit) (by simp [hseen])
      rw [hdata] at hstored
      exact hstored.1
  | _ => trivial

/-! ### Runs -/

variable {ts : List (Transition (SharedFuture ε α) (Action ε α))}

/-- **When a future is assigned once.** In every run all transitions do their part exactly when every attempt
that stores after the completion stores what is there already, the attempt that completes the future finds its
own outcome stored, and no function of a continuation of a `Future<void>` is called on an exception. -/
theorem assignedOnce_iff (hrun : (sharedFuture exceptions type).Run ts s) :
    (∀ t ∈ ts, AssignedOnce t) ↔ ∀ t ∈ ts, t.before.Keeps type t.label := by
  refine hrun.forall_iff (I := fun s => Assigned s ∧ Accounted s) (C := fun s a => s.Keeps type a) ?_ ?_ ?_
  · rintro s rfl
    exact ⟨⟨fun _ => rfl, nofun, by simp⟩, fun _ => rfl, nofun⟩
  · rintro s a s' hs hkeep ⟨hI, hA⟩
    exact ⟨hI.step hkeep hs, hA.step hs⟩
  · rintro s a s' hs ⟨hI, hA⟩
    exact ⟨keeps_of_assignedOnce hI hs, assignedOnce_of_keeps hI hA hs⟩

/-- A continuation and a late attempt that stores the same value. -/
theorem assignedOnce_iff_example :
    ∃ ts s, (sharedFuture (α := ℕ) (⟨0, 1⟩ : FutureExceptions ℕ) .value).Run ts s ∧
      s.readers.map Reader.point = [.saw (.ok 5)] ∧ s.ran = [0] ∧ s.attempts.length = 2 ∧
      ∀ t ∈ ts, AssignedOnce t := by
  obtain ⟨ts, s, hrun, h⟩ := Machine.exists_run
    (M := sharedFuture (⟨0, 1⟩ : FutureExceptions ℕ) (.value : ValueType ℕ))
    (s := { data := { value := none } })
    [.thenCall true, .setValue 5, .proceed 0, .proceed 0, .proceed 0, .read 0, .read 0, .setValue 5,
      .proceed 1, .proceed 1, .read 0, .read 0]
    (fun ts s => (ts.all fun t => decide (t.before.Keeps .value t.label)) &&
      (decide (s.readers.map Reader.point = [.saw (.ok 5)]) && (decide (s.ran = [0]) &&
        decide (s.attempts.length = 2)))) rfl (by decide +kernel)
  simp only [Bool.and_eq_true, decide_eq_true_eq, List.all_eq_true] at h
  obtain ⟨hkeeps, hpoint, hran, hattempts⟩ := h
  exact ⟨ts, s, hrun, hpoint, hran, hattempts, (assignedOnce_iff hrun).mpr hkeeps⟩

/-- A run with two readers that have seen different outcomes. -/
theorem not_assignedOnce_of_points {t : Transition (SharedFuture ε α) (Action ε α)}
    (hrun : (sharedFuture exceptions type).Run ts s) (hlast : ts.getLast? = some t)
    (ho : .saw outcome ∈ s.readers.map Reader.point) (ho' : .saw o ∈ s.readers.map Reader.point)
    (hne : outcome ≠ o) : ¬ ∀ t ∈ ts, AssignedOnce t := by
  intro h
  have hafter := hrun.after_last hlast
  have hseen := (h _ (List.mem_of_getLast? hlast)).seen
  rw [hafter] at hseen
  obtain ⟨reader, hreader, hpoint⟩ := List.mem_map.mp ho
  obtain ⟨reader', hreader', hpoint'⟩ := List.mem_map.mp ho'
  have hwon := hseen reader hreader outcome hpoint
  rw [hseen reader' hreader' o hpoint'] at hwon
  exact hne (List.singleton_injective hwon).symm

/-- A value is set and read, then the future is canceled: the next reader sees that, and one that had just
found no exception reads a value that is no longer there. Of two values the first to complete is not the one
that is read. A continuation of a `Future<void>` that was waiting is called although there is an exception. -/
theorem exists_not_assignedOnce :
    (∃ ts s, (sharedFuture (⟨0, 1⟩ : FutureExceptions ℕ) (.value : ValueType ℕ)).Run ts s ∧
      ts.map Transition.label = [.setValue 5, .proceed 0, .proceed 0, .get, .read 0, .read 0, .read 0,
        .get, .read 1, .read 1, .cancel, .proceed 1, .proceed 1, .get, .read 2, .read 2, .read 1] ∧
      s.readers.map Reader.point = [.saw (.ok 5), .crashed, .saw (.error 0)] ∧
      ¬ ∀ t ∈ ts, AssignedOnce t) ∧
    (∃ ts s, (sharedFuture (⟨0, 1⟩ : FutureExceptions ℕ) (.value : ValueType ℕ)).Run ts s ∧
      ts.map Transition.label = [.setValue 1, .setValue 2, .proceed 0, .proceed 1, .proceed 0, .get,
        .read 0, .read 0, .read 0] ∧
      s.won = [.ok 1] ∧ s.readers.map Reader.point = [.saw (.ok 2)]) ∧
    ∃ ts s, (sharedFuture (⟨0, 1⟩ : FutureExceptions ℕ) (.void () fun _ => rfl)).Run ts s ∧
      ts.map Transition.label = [.thenCall true, .setException 7, .proceed 0, .proceed 0, .proceed 0,
        .read 0] ∧
      s.won = [.error 7] ∧ s.readers.map Reader.point = [.saw (.ok ())] := by
  have hlate := Machine.exists_run_along
    (M := sharedFuture (⟨0, 1⟩ : FutureExceptions ℕ) (.value : ValueType ℕ))
    (s := { data := { value := none } })
    [.setValue 5, .proceed 0, .proceed 0, .get, .read 0, .read 0, .read 0, .get, .read 1, .read 1, .cancel,
      .proceed 1, .proceed 1, .get, .read 2, .read 2, .read 1]
    (fun _ s => decide (s.readers.map Reader.point = [.saw (.ok 5), .crashed, .saw (.error 0)])) rfl
    (by decide +kernel)
  have htwo := Machine.exists_run_along
    (M := sharedFuture (⟨0, 1⟩ : FutureExceptions ℕ) (.value : ValueType ℕ))
    (s := { data := { value := none } })
    [.setValue 1, .setValue 2, .proceed 0, .proceed 1, .proceed 0, .get, .read 0, .read 0, .read 0]
    (fun _ s => decide (s.won = [.ok 1]) && decide (s.readers.map Reader.point = [.saw (.ok 2)])) rfl
    (by decide +kernel)
  have hvoid := Machine.exists_run_along
    (M := sharedFuture (⟨0, 1⟩ : FutureExceptions ℕ) (.void () fun _ => rfl))
    (s := { data := { value := some () } })
    [.thenCall true, .setException 7, .proceed 0, .proceed 0, .proceed 0, .read 0]
    (fun _ s => decide (s.won = [.error 7]) && decide (s.readers.map Reader.point = [.saw (.ok ())])) rfl
    (by decide +kernel)
  simp only [Bool.and_eq_true, decide_eq_true_eq] at hlate htwo hvoid
  obtain ⟨ts, s, hrun, hlabels, hpoints⟩ := hlate
  refine ⟨⟨ts, s, hrun, hlabels, hpoints, ?_⟩, htwo, hvoid⟩
  rcases ts.eq_nil_or_concat' with rfl | ⟨us, t, rfl⟩
  · cases hlabels
  · have hfirst : .saw (.ok 5) ∈ s.readers.map Reader.point := by simp [hpoints]
    have hthird : .saw (.error 0) ∈ s.readers.map Reader.point := by simp [hpoints]
    exact not_assignedOnce_of_points hrun List.getLast?_concat hfirst hthird nofun

end HueStream.Futures
