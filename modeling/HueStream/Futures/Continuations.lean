import HueStream.Futures.FutureData

/-! # The continuations of a future

What the steps of attempts and readers do to the lists they work on, and the account of the continuations:
every run keeps it (`Accounted.step`), whatever the attempts store. -/

namespace HueStream.Futures

open HueStream.Lib

variable {ε α : Type*} {exceptions : FutureExceptions ε} {type : ValueType α}
  {s s' : SharedFuture ε α} {a : Action ε α} {attempt : Attempt ε α}
  {reader : Reader ε α} {point : ReaderPoint ε α} {o : Except ε α} {i : ℕ}

/-! ### Attempts and readers -/

theorem exists_won (hi : s.attempts[i]? = some attempt) :
    ∃ pre post, s.won = pre ++ attempt.outcome.toList ++ post ∧
      ∀ b, (s.setAttempt i b).won = pre ++ b.outcome.toList ++ post := by
  obtain ⟨pre, post, hattempts, hset⟩ := exists_set hi
  refine ⟨pre.filterMap Attempt.outcome, post.filterMap Attempt.outcome, ?_, fun b => ?_⟩
  · unfold SharedFuture.won
    rw [hattempts, List.filterMap_append, List.filterMap_cons]
    cases attempt.outcome <;> simp
  · simp only [SharedFuture.won, SharedFuture.setAttempt]
    rw [hset, List.filterMap_append, List.filterMap_cons]
    cases b.outcome <;> simp

theorem won_setAttempt (hi : s.attempts[i]? = some attempt) {b : Attempt ε α}
    (h : b.outcome = attempt.outcome) : (s.setAttempt i b).won = s.won := by
  obtain ⟨pre, post, hwon, hset⟩ := exists_won hi
  rw [hset, hwon, h]

theorem won_of_first (hi : s.attempts[i]? = some attempt) (h : s.won = []) {b : Attempt ε α}
    (hb : b.outcome = some o) : (s.setAttempt i b).won = [o] := by
  obtain ⟨pre, post, hwon, hset⟩ := exists_won hi
  rw [h] at hwon
  obtain ⟨hpre, rfl⟩ := List.append_eq_nil_iff.mp hwon.symm
  obtain ⟨rfl, -⟩ := List.append_eq_nil_iff.mp hpre
  rw [hset, hb]
  rfl

theorem mem_won (hi : s.attempts[i]? = some attempt) (h : attempt.outcome = some o) : o ∈ s.won :=
  List.mem_filterMap.mpr ⟨attempt, List.mem_of_getElem? hi, h⟩

theorem count_owed (hi : s.attempts[i]? = some attempt) (b : Attempt ε α) (r : ℕ) :
    (s.setAttempt i b).owed.count r + attempt.owed.count r = s.owed.count r + b.owed.count r := by
  obtain ⟨pre, post, hattempts, hset⟩ := exists_set hi
  simp only [SharedFuture.owed, SharedFuture.setAttempt]
  rw [hset, hattempts]
  simp only [List.flatMap_append, List.flatMap_cons, List.count_append]
  omega

/-- A reader after one of them has moved. -/
theorem mem_moveReader (h : reader ∈ (s.moveReader i point).readers) :
    reader ∈ s.readers ∨ reader.point = point := by
  obtain ⟨j, hj, rfl⟩ := List.getElem_of_mem h
  simp only [SharedFuture.moveReader, List.getElem_modify]
  split_ifs with heq
  · exact .inr rfl
  · exact .inl (List.getElem_mem _)

theorem isContinuation_moveReader (r : ℕ) :
    (s.moveReader i point).isContinuation r = s.isContinuation r := by
  simp only [SharedFuture.isContinuation, SharedFuture.moveReader, List.getElem?_modify]
  cases s.readers[r]? with
  | none => rfl
  | some reader =>
    by_cases heq : i = r
    · simp [heq]
    · simp [heq]

/-- A new reader: it is a continuation when it says so, and the others are what they were. -/
theorem isContinuation_concat (hs : s'.readers = s.readers ++ [reader]) (r : ℕ) :
    (s'.isContinuation r).toNat =
      (s.isContinuation r).toNat + if reader.isContinuation then [s.readers.length].count r else 0 := by
  unfold SharedFuture.isContinuation
  rw [hs]
  rcases Nat.lt_trichotomy r s.readers.length with hlt | rfl | hlt
  · rw [List.getElem?_append_left hlt, List.count_eq_zero_of_not_mem (by simp; omega)]
    simp
  · rw [List.getElem?_concat_length, List.getElem?_eq_none le_rfl]
    cases hreader : reader.isContinuation <;> simp [hreader]
  · rw [List.getElem?_eq_none (by simp; omega), List.getElem?_eq_none hlt.le,
      List.count_eq_zero_of_not_mem (by simp; omega)]
    simp

/-! ### The continuations -/

/-- Every continuation waits, is about to be run or has been run, and none waits in a future that is set. -/
structure Accounted (s : SharedFuture ε α) : Prop where
  ran : ∀ r, s.data.continuations.count r + s.owed.count r + s.ran.count r =
    (s.isContinuation r).toNat
  continuations : s.data.isSet = true → s.data.continuations = []

/-- An attempt goes on: what it no longer owes has been run, and what it owes now has waited. -/
theorem Accounted.of_attempt (h : Accounted s) (hi : s.attempts[i]? = some attempt) (b : Attempt ε α)
    (howed : s'.owed = (s.setAttempt i b).owed) (hreaders : ∀ r, s'.isContinuation r = s.isContinuation r)
    (hcounts : ∀ r, s'.data.continuations.count r + b.owed.count r + s'.ran.count r =
      s.data.continuations.count r + attempt.owed.count r + s.ran.count r)
    (hset : s'.data.isSet = true → s'.data.continuations = []) : Accounted s' where
  ran r := by
    have hcount := count_owed hi b r
    have hran := h.ran r
    have hcounts := hcounts r
    rw [howed, hreaders]
    omega
  continuations := hset

theorem Accounted.setAttempt (h : Accounted s) (hi : s.attempts[i]? = some attempt) {b : Attempt ε α}
    (hb : b.owed = attempt.owed) : Accounted (s.setAttempt i b) :=
  h.of_attempt hi b rfl (fun _ => rfl) (fun r => by rw [hb]; rfl) h.continuations

theorem Accounted.moveReader (h : Accounted s) (i : ℕ) (point : ReaderPoint ε α) :
    Accounted (s.moveReader i point) where
  ran r := by
    rw [isContinuation_moveReader]
    exact h.ran r
  continuations := h.continuations

theorem Accounted.addAttempt (h : Accounted s) (hattempt : attempt.owed = []) :
    Accounted { s with attempts := s.attempts ++ [attempt] } where
  ran r := by
    have howed : SharedFuture.owed { s with attempts := s.attempts ++ [attempt] } = s.owed := by
      simp [SharedFuture.owed, hattempt]
    rw [howed]
    exact h.ran r
  continuations := h.continuations

theorem Accounted.advance (h : Accounted s) (hi : s.attempts[i]? = some attempt)
    (hs : s.advance exceptions type i attempt = some s') : Accounted s' := by
  cases attempt with
  | task result =>
    obtain rfl := Option.some.inj hs
    cases s.canceled with
    | some e => exact h.setAttempt hi rfl
    | none => cases result <;> exact h.setAttempt hi rfl
  | failing e =>
    obtain rfl := Option.some.inj hs
    have hcancel : Accounted (s.cancelWith e) := ⟨h.ran, h.continuations⟩
    exact hcancel.setAttempt hi rfl
  | storing outcome caught =>
    obtain rfl := Option.some.inj hs
    have hstore : Accounted { s with data := s.data.store type outcome } := by
      cases outcome <;> exact ⟨h.ran, h.continuations⟩
    exact hstore.setAttempt hi rfl
  | claiming outcome caught =>
    obtain rfl := Option.some.inj hs
    refine h.of_attempt hi _ rfl (fun _ => rfl) (fun r => ?_) fun _ => rfl
    cases hset : s.data.isSet with
    | true =>
      rw [h.continuations hset]
      cases caught <;> rfl
    | false =>
      simp only [SharedFuture.setAttempt, FutureData.setAsDone, Attempt.owed, Bool.not_false, if_true,
        List.count_nil]
      omega
  | won outcome continuations =>
    rcases continuations with _ | ⟨c, cs⟩
    · cases hs
    · obtain rfl := Option.some.inj hs
      refine h.of_attempt hi (.won outcome cs) rfl
        (isContinuation_moveReader (s := s.setAttempt i (.won outcome cs))) (fun r => ?_) h.continuations
      simp only [SharedFuture.setAttempt, SharedFuture.moveReader, Attempt.owed, List.count_append,
        List.count_cons, List.count_nil]
      omega
  | lost => cases hs

theorem Accounted.read (h : Accounted s) (hs : s.read type i reader = some s') : Accounted s' := by
  unfold SharedFuture.read at hs
  split at hs
  · obtain rfl := Option.some.inj hs
    exact h.moveReader i _
  · split_ifs at hs
    · obtain rfl := Option.some.inj hs
      exact h.moveReader i _
    · obtain rfl := Option.some.inj hs
      exact h.moveReader i _
  · obtain rfl := Option.some.inj hs
    exact h.moveReader i _
  · obtain rfl := Option.some.inj hs
    exact h.moveReader i _
  · cases hs

theorem exists_readers_thenCall (s : SharedFuture ε α) (checks : Bool) :
    ∃ point, (s.thenCall checks).readers = s.readers ++ [{ isContinuation := true, checks, point }] := by
  unfold SharedFuture.thenCall
  split_ifs
  · exact ⟨_, rfl⟩
  · exact ⟨_, rfl⟩

/-- A call of `then`: the new continuation is run or queued. -/
theorem Accounted.thenCall (h : Accounted s) (checks : Bool) : Accounted (s.thenCall checks) := by
  have hnew : ∀ r, ((s.thenCall checks).isContinuation r).toNat =
      (s.isContinuation r).toNat + [s.readers.length].count r := by
    intro r
    obtain ⟨point, hreaders⟩ := exists_readers_thenCall s checks
    exact isContinuation_concat hreaders r
  refine ⟨fun r => ?_, ?_⟩
  · have hran := h.ran r
    have howed : (s.thenCall checks).owed = s.owed := by
      unfold SharedFuture.thenCall
      split_ifs <;> rfl
    rw [hnew, howed]
    unfold SharedFuture.thenCall
    split_ifs <;> simp only [List.count_append] <;> omega
  · unfold SharedFuture.thenCall
    split_ifs with hset
    · exact h.continuations
    · intro htrue
      exact absurd htrue hset

theorem Accounted.step (h : Accounted s) (hs : s.step exceptions type a = some s') : Accounted s' := by
  cases a with
  | setValue value =>
    obtain rfl := Option.some.inj hs
    exact h.addAttempt rfl
  | setException e =>
    obtain rfl := Option.some.inj hs
    exact h.addAttempt rfl
  | cancel =>
    obtain rfl := Option.some.inj hs
    exact h.addAttempt rfl
  | schedule result =>
    obtain rfl := Option.some.inj hs
    exact h.addAttempt rfl
  | destroyPromise =>
    obtain rfl := Option.some.inj hs
    exact ⟨h.ran, h.continuations⟩
  | cancelManager e =>
    obtain rfl := Option.some.inj hs
    exact ⟨h.ran, h.continuations⟩
  | thenCall checks =>
    obtain rfl := Option.some.inj hs
    exact h.thenCall checks
  | get =>
    obtain rfl := Option.some.inj hs
    refine ⟨fun r => ?_, h.continuations⟩
    rw [isContinuation_concat rfl r]
    exact h.ran r
  | proceed i =>
    obtain ⟨attempt, hi, hs⟩ := Option.bind_eq_some_iff.mp hs
    exact h.advance hi hs
  | read i =>
    obtain ⟨reader, -, hs⟩ := Option.bind_eq_some_iff.mp hs
    exact h.read hs

end HueStream.Futures
