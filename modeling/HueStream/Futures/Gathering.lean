import HueStream.Futures.CompositeFuture

/-! # What the promise of a composite is set to

When all callbacks have run, the promise has been set once, to what the values in the order of the callbacks
make, unless there was no input: then nobody has set it (`set_of_finished`). Every run goes on to such an end
(`exists_finished`). The sequential `Future` takes the values in the order of the inputs, and also when there
are none (`set_iff`). -/

namespace HueStream.Futures

open HueStream.Lib

variable {α β σ ρ : Type*} {callback : Callback σ α ρ} {start : σ} {values : List α} {data : List α → σ}
  {out : List α → ρ} {ts : List (Transition (Callbacks σ ρ) Move)} {s : Callbacks σ ρ}

theorem handled_eq_order (hrun : (callbacks callback start values).Run ts s) : s.handled = order ts := by
  refine hrun.invariant_along (I := fun ts s => s.handled = order ts) (C := fun _ _ => True) ?_ ?_
    fun _ _ => trivial
  · intro s hs
    obtain rfl : s = { data := start } := hs
    rfl
  · intro ts s l s' h _ ih
    simp only [order, List.filterMap_append]
    cases l with
    | complete i =>
      obtain ⟨-, h⟩ := Option.ite_none_right_eq_some.mp h
      obtain rfl := Option.some.inj h
      simpa [Move.handled, order] using ih
    | handle i =>
      obtain ⟨-, h⟩ := Option.ite_none_right_eq_some.mp h
      obtain ⟨v, -, rfl⟩ := Option.map_eq_some_iff.mp h
      rw [handle_handled, ih]
      rfl
    | leave i =>
      obtain ⟨-, h⟩ := Option.ite_none_right_eq_some.mp h
      obtain rfl := Option.some.inj h
      simpa [Move.handled, order, Callbacks.setPromise] using ih

/-- **What the promise has been set to when all callbacks have run.** -/
theorem set_of_finished (hg : Gathers callback start values.length data out)
    (hrun : (callbacks callback start values).Run ts s) (hend : s.Finished values.length) :
    s.set = if values = [] then [] else [out (inOrder values (order ts))] := by
  have hI := gathered hg hrun
  obtain ⟨hlen, hleaving⟩ := hend
  have hlast := hI.last
  rw [hleaving, List.length_nil, Nat.zero_add] at hlast
  by_cases hne : values = []
  · rw [if_neg (by simp [hne])] at hlast
    rw [if_pos hne, List.length_eq_zero_iff.mp hlast]
  · rw [if_pos ⟨hne, hlen⟩] at hlast
    obtain ⟨r, hr⟩ := List.length_eq_one_iff.mp hlast
    have hout := hI.set r (by simp [hr])
    rw [if_neg hne, hr, hout, handled_eq_order hrun]

/-- The steps that are left: each input still completes, is handled, and may have to leave. -/
def remaining (n : ℕ) (s : Callbacks σ ρ) : ℕ :=
  3 * n - s.completed.length - 2 * s.handled.length + s.leaving.length

/-- Until all inputs have been handled, one that has not can complete or be handled. -/
theorem exists_unhandled (h : s.handled.length < values.length) :
    ∃ i v, values[i]? = some v ∧ i < values.length ∧ i ∉ s.handled := by
  by_contra hall
  push Not at hall
  have hsub : List.range values.length ⊆ s.handled := by
    intro i hi
    have hi := List.mem_range.mp hi
    exact hall i _ (List.getElem?_eq_getElem hi) hi
  have hlen := (List.subperm_of_subset List.nodup_range hsub).length_le
  rw [List.length_range] at hlen
  omega

/-- Until all callbacks have run something can be done, which brings the end nearer. -/
theorem exists_step (hg : Gathers callback start values.length data out) (hI : Gathered values data out s)
    (h : ¬ s.Finished values.length) :
    ∃ m s', s.step callback values m = some s' ∧ remaining values.length s' < remaining values.length s := by
  have hcompleted : s.completed.length ≤ values.length := length_le_of_lt hI.completed hI.inputs
  have hhandled := hI.handled_le
  rcases hleaving : s.leaving with _ | ⟨i, rest⟩
  · have hlt : s.handled.length < values.length := by
      have hne : s.handled.length ≠ values.length := fun heq => h ⟨heq, hleaving⟩
      omega
    obtain ⟨i, v, hv, hi, hnew⟩ := exists_unhandled hlt
    by_cases hdone : i ∈ s.completed
    · have hstep : s.step callback values (.handle i) = some (s.handle callback i v) := by
        simp [Callbacks.step, hdone, hnew, hv]
      have hI' := hI.step hg hstep
      have hlast := hI'.last
      have hle : (if values ≠ [] ∧ (s.handle callback i v).handled.length = values.length then 1 else 0) ≤ 1 := by
        split_ifs <;> omega
      refine ⟨_, _, hstep, ?_⟩
      have hlen : (s.handled ++ [i]).length = s.handled.length + 1 := by simp
      unfold remaining
      rw [handle_handled, handle_completed, hleaving, hlen, List.length_nil]
      omega
    · refine ⟨.complete i, { s with completed := s.completed ++ [i] }, by simp [Callbacks.step, hi, hdone], ?_⟩
      have hI' := hI.complete hi hdone
      have hle : (s.completed ++ [i]).length ≤ values.length := length_le_of_lt hI'.completed hI'.inputs
      have hlen : (s.completed ++ [i]).length = s.completed.length + 1 := by simp
      unfold remaining
      dsimp only
      omega
  · have hi : i ∈ s.leaving := by simp [hleaving]
    refine ⟨.leave i, _, if_pos hi, ?_⟩
    have herase := List.length_erase_of_mem hi
    have hpos := List.length_pos_of_mem hi
    simp only [remaining, Callbacks.setPromise]
    omega

/-- Every run goes on until all callbacks have run. -/
theorem exists_finished (hg : Gathers callback start values.length data out)
    (hrun : (callbacks callback start values).Run ts s) :
    ∃ us s', (callbacks callback start values).Run (ts ++ us) s' ∧ s'.Finished values.length := by
  induction hn : remaining values.length s using Nat.strong_induction_on generalizing ts s with
  | _ n ih =>
    by_cases hend : s.Finished values.length
    · exact ⟨[], s, by simpa using hrun, hend⟩
    · obtain ⟨m, s₁, hstep, hlt⟩ := exists_step hg (gathered hg hrun) hend
      obtain ⟨us, s₂, hrun₂, hend₂⟩ := ih _ (hn ▸ hlt) (hrun.step hstep) rfl
      exact ⟨⟨s, m, s₁⟩ :: us, s₂, by simpa using hrun₂, hend₂⟩

/-! ### The callbacks of the source -/

theorem respond_gathers (add : ρ → α → ρ) (initValue : ρ) (n : ℕ) :
    Gathers (respond add) { numberOfExpectedResponses := n, result := initValue } n
      (fun vs => { numberOfExpectedResponses := n, handledResponses := vs.length,
                   result := vs.foldl add initValue })
      fun vs => vs.foldl add initValue where
  start := rfl
  handle vs v _ := by
    simp [respond, beq_eq_decide]
  complete vs _ := rfl

theorem append_foldl (vs : List α) (r : List α) :
    vs.foldl (fun returnValue value => returnValue ++ [value]) r = r ++ vs := by
  induction vs generalizing r with
  | nil => simp
  | cons v vs ih => simp [ih]

theorem filter_foldl (condition : α → Bool) (vs r : List α) :
    vs.foldl (fun result value => if condition value then result ++ [value] else result) r =
      r ++ vs.filter condition := by
  induction vs generalizing r with
  | nil => simp
  | cons v vs ih =>
    rw [List.foldl_cons, ih]
    by_cases hv : condition v = true
    · simp [hv]
    · simp [hv]

theorem composite_get (values : List α) : CompositeFuture.get values = values := by
  rw [CompositeFuture.get, append_foldl, List.nil_append]

theorem sequential_thenFilter (condition : α → Bool) (container : List α) :
    Future.thenFilter condition container = container.filter condition := by
  rw [Future.thenFilter, filter_foldl, List.nil_append]

theorem addItem_gathers (n : ℕ) :
    Gathers (addItem n) ({ result := [] } : SharedData (List α)) n (fun vs => { result := vs })
      fun vs => vs where
  start := rfl
  handle vs v _ := by simp [addItem, beq_eq_decide]
  complete vs _ := rfl

theorem countItem_gathers (n : ℕ) :
    Gathers (countItem n) { result := 0 } n (fun vs => { result := vs.length }) fun _ => () where
  start := rfl
  handle vs v h := by
    have hiff : vs.length = n - 1 ↔ vs.length + 1 = n := by omega
    simp [countItem, beq_eq_decide, hiff]
  complete vs _ := rfl

/-! ### The sequential variants -/

/-- The promise has been set once, to `expected`, exactly when there are inputs and their values in the order
of the callbacks make `expected`. -/
theorem set_eq_iff (hg : Gathers callback start values.length data out)
    (hrun : (callbacks callback start values).Run ts s) (hend : s.Finished values.length) (expected : ρ) :
    s.set = [expected] ↔ values ≠ [] ∧ out (inOrder values (order ts)) = expected := by
  rw [set_of_finished hg hrun hend]
  by_cases hne : values = []
  · simp [hne]
  · simp [hne]

theorem inOrder_map (f : α → β) (values : List α) (inputs : List ℕ) :
    inOrder (values.map f) inputs = (inOrder values inputs).map f := by
  unfold inOrder
  rw [List.map_filterMap]
  exact List.filterMap_congr fun i _ => by simp

/-- **When a composite completes like the sequential variants.** For every operation and every run in which
all callbacks have come to their end: the promise has been set once, to the result of the sequential
variant, exactly when there is an input and taking the values in the order of the callbacks makes no
difference to that result. Counting takes no order, so that only the first part remains. -/
theorem set_iff (values : List α) :
    (∀ (condition : α → Bool) ts s, (CompositeFuture.thenFilter condition values).Run ts s →
      s.Finished values.length →
      (s.set = [Future.thenFilter condition values] ↔
        values ≠ [] ∧ (inOrder values (order ts)).filter condition = values.filter condition)) ∧
    (∀ (initValue : α) (binaryOperation : α → α → α) ts s,
      (CompositeFuture.thenReduce initValue binaryOperation values).Run ts s → s.Finished values.length →
      (s.set = [Future.thenReduce initValue binaryOperation values] ↔
        values ≠ [] ∧ (inOrder values (order ts)).foldl binaryOperation initValue =
          values.foldl binaryOperation initValue)) ∧
    (∀ ts s, (schedule values).Run ts s → s.Finished values.length →
      (s.set = [CompositeFuture.get values] ↔ values ≠ [] ∧ inOrder values (order ts) = values)) ∧
    (∀ (function : α → β) ts s, (Future.thenForeach function values).Run ts s →
      s.Finished values.length →
      (s.set = [CompositeFuture.get (values.map function)] ↔
        values ≠ [] ∧ (inOrder values (order ts)).map function = values.map function)) ∧
    (∀ (nestedFuture : List Unit) ts s, (scheduleVoid nestedFuture).Run ts s →
      s.Finished nestedFuture.length → (s.set = [()] ↔ nestedFuture ≠ [])) := by
  refine ⟨fun condition ts s hrun hend => ?_, fun initValue op ts s hrun hend => ?_,
    fun ts s hrun hend => ?_, fun function ts s hrun hend => ?_, fun nestedFuture ts s hrun hend => ?_⟩
  · have hset := set_eq_iff (respond_gathers _ _ _) hrun hend (values.filter condition)
    rw [filter_foldl, List.nil_append] at hset
    rw [sequential_thenFilter, hset]
  · exact set_eq_iff (respond_gathers _ _ _) hrun hend _
  · rw [composite_get]
    exact set_eq_iff (addItem_gathers _) hrun hend _
  · have hlen : s.Finished (values.map function).length := by rwa [List.length_map]
    have hset := set_eq_iff (addItem_gathers _) hrun hlen (values.map function)
    rw [composite_get, hset, inOrder_map]
    simp
  · rw [set_eq_iff (countItem_gathers _) hrun hend]
    simp

/-- Two inputs, the second of which completes first. -/
theorem set_iff_example :
    ∃ ts s, (CompositeFuture.thenFilter (fun v : ℕ => v < 3) [1, 3, 2]).Run ts s ∧ s.Finished 3 ∧
      order ts = [1, 0, 2] ∧ s.set = [Future.thenFilter (fun v : ℕ => v < 3) [1, 3, 2]] := by
  obtain ⟨ts, s, hrun, h⟩ := Machine.exists_run
    (M := CompositeFuture.thenFilter (fun v : ℕ => v < 3) [1, 3, 2])
    (s := { data := { numberOfExpectedResponses := 3, result := [] } })
    [.complete 1, .handle 1, .complete 0, .complete 2, .handle 0, .handle 2]
    (fun ts s => decide (s.Finished 3) && decide (order ts = [1, 0, 2])) rfl (by decide)
  obtain ⟨hend, horder⟩ := Bool.and_eq_true_iff.mp h
  have hend := of_decide_eq_true hend
  have horder := of_decide_eq_true horder
  refine ⟨ts, s, hrun, hend, horder, ?_⟩
  refine ((set_iff (β := ℕ) [1, 3, 2]).1 (fun v : ℕ => v < 3) ts s hrun hend).mpr ⟨by decide, ?_⟩
  rw [horder]
  decide

/-- The second of two inputs completes first, and there is no input at all. -/
theorem exists_not_set :
    (∃ ts s, (CompositeFuture.thenFilter (fun v : ℕ => v < 3) [1, 2]).Run ts s ∧
      ts.map Transition.label = [.complete 1, .handle 1, .complete 0, .handle 0] ∧
      s.Finished 2 ∧ s.set = [[2, 1]] ∧ Future.thenFilter (fun v : ℕ => v < 3) [1, 2] = [1, 2]) ∧
    (∃ ts s, (CompositeFuture.thenReduce (10 : ℕ) (fun r v => 2 * r + v) [1, 2]).Run ts s ∧
      ts.map Transition.label = [.complete 1, .handle 1, .complete 0, .handle 0] ∧
      s.Finished 2 ∧ s.set = [45] ∧ Future.thenReduce (10 : ℕ) (fun r v => 2 * r + v) [1, 2] = 44) ∧
    (∃ ts s, (Future.thenForeach (fun v : ℕ => v + 1) [1, 2]).Run ts s ∧
      ts.map Transition.label =
        [.complete 1, .handle 1, .complete 0, .handle 0, .leave 0] ∧
      s.Finished 2 ∧ s.set = [[3, 2]] ∧ CompositeFuture.get ([1, 2].map fun v : ℕ => v + 1) = [2, 3]) ∧
    ∃ ts s, (schedule ([] : List ℕ)).Run ts s ∧ s.Finished 0 ∧ s.set = [] := by
  have hfilter := Machine.exists_run_along
    (M := CompositeFuture.thenFilter (fun v : ℕ => v < 3) [1, 2])
    (s := { data := { numberOfExpectedResponses := 2, result := [] } })
    [.complete 1, .handle 1, .complete 0, .handle 0]
    (fun _ s => decide (s.Finished 2) && decide (s.set = [[2, 1]])) rfl (by decide)
  have hreduce := Machine.exists_run_along
    (M := CompositeFuture.thenReduce (10 : ℕ) (fun r v => 2 * r + v) [1, 2])
    (s := { data := { numberOfExpectedResponses := 2, result := 10 } })
    [.complete 1, .handle 1, .complete 0, .handle 0]
    (fun _ s => decide (s.Finished 2) && decide (s.set = [45])) rfl (by decide)
  have hforeach := Machine.exists_run_along
    (M := Future.thenForeach (fun v : ℕ => v + 1) [1, 2]) (s := { data := { result := [] } })
    [.complete 1, .handle 1, .complete 0, .handle 0, .leave 0]
    (fun _ s => decide (s.Finished 2) && decide (s.set = [[3, 2]])) rfl (by decide)
  simp only [Bool.and_eq_true, decide_eq_true_eq] at hfilter hreduce hforeach
  obtain ⟨ts₁, s₁, hrun₁, hlabels₁, hend₁, hset₁⟩ := hfilter
  obtain ⟨ts₂, s₂, hrun₂, hlabels₂, hend₂, hset₂⟩ := hreduce
  obtain ⟨ts₃, s₃, hrun₃, hlabels₃, hend₃, hset₃⟩ := hforeach
  refine ⟨⟨ts₁, s₁, hrun₁, hlabels₁, hend₁, hset₁, by decide⟩,
    ⟨ts₂, s₂, hrun₂, hlabels₂, hend₂, hset₂, by decide⟩,
    ⟨ts₃, s₃, hrun₃, hlabels₃, hend₃, hset₃, by decide⟩,
    [], { data := { result := [] } }, .init rfl, by decide, rfl⟩

end HueStream.Futures
