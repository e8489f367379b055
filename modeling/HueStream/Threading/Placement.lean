import HueStream.Threading.Draining

/-! # The operations the calls are about

Whatever a list or a call names is an operation there is, and an operation is in at most one call, while its
invocable runs (`Placed`). With what the calls guarantee this holds in every state of a run (`Sound`). -/

namespace HueStream.Threading

open HueStream.Lib ThreadPoolExecutor

variable {s s' : ThreadPoolExecutor} {i k o : ℕ} {op : PoolOperation} {call : PoolCall} {point : CallPoint}
  {l : PoolLabel} {ts : List (Transition ThreadPoolExecutor PoolLabel)}

/-- The invocable of an operation is running. -/
def ThreadPoolExecutor.isRunning (s : ThreadPoolExecutor) (o : ℕ) : Bool :=
  s.operations[o]?.any (·.task = .running)

/-- Lists and calls are about operations there are, and an operation that is in a call is running and in no
other call. -/
structure Placed (s : ThreadPoolExecutor) : Prop where
  listed : ∀ i ∈ s.listed, i < s.operations.length
  held : ∀ i, s.Held i → i < s.operations.length
  cancelable : ∀ (k : ℕ) (call : PoolCall), s.calls[k]? = some call → ∀ i, call.kind = .cancel i →
    s.isCancelable i = true
  running : ∀ (k : ℕ) (call : PoolCall), s.calls[k]? = some call → call.isPending = true →
    ∀ o, call.caller = some o → s.isRunning o = true
  unique : ∀ (k k' : ℕ) (call call' : PoolCall), s.calls[k]? = some call → s.calls[k']? = some call' →
    call.isPending = true → call'.isPending = true → ∀ o, call.caller = some o → call'.caller = some o → k = k'

theorem isBusy_iff : s.isBusy o = true ↔
    ∃ (k : ℕ) (call : PoolCall), s.calls[k]? = some call ∧ call.caller = some o ∧ call.isPending = true := by
  simp only [isBusy, List.any_eq_true, Bool.and_eq_true, decide_eq_true_eq, List.mem_iff_getElem?]
  constructor
  · rintro ⟨call, ⟨k, hk⟩, hcaller, hpending⟩
    exact ⟨k, call, hk, hcaller, hpending⟩
  · rintro ⟨k, call, hk, hcaller, hpending⟩
    exact ⟨call, ⟨k, hk⟩, hcaller, hpending⟩

theorem Placed.init : Placed {} := by
  refine ⟨?_, ?_, ?_, ?_, ?_⟩
  · intro i hi
    cases hi
  · rintro i ⟨k, call, hk, -⟩
    simp at hk
  · intro k call hk
    simp at hk
  · intro k call hk
    simp at hk
  · intro k k' call call' hk
    simp at hk

theorem Placed.evolve (h : Placed s) (hcalls : s'.calls = s.calls)
    (hlength : s'.operations.length = s.operations.length) (hlisted : s'.listed ⊆ s.listed)
    (hcancelable : ∀ i, s.isCancelable i = true → s'.isCancelable i = true)
    (hrunning : ∀ o, s.isRunning o = true → s.isBusy o = true → s'.isRunning o = true) : Placed s' := by
  refine ⟨fun i hi => ?_, fun i hi => ?_, fun k call hk i hkind => ?_, fun k call hk hp o hcaller => ?_, ?_⟩
  · rw [hlength]
    exact h.listed i (hlisted hi)
  · rw [hlength]
    unfold Held at hi
    rw [hcalls] at hi
    exact h.held i hi
  · rw [hcalls] at hk
    exact hcancelable i (h.cancelable k call hk i hkind)
  · rw [hcalls] at hk
    exact hrunning o (h.running k call hk hp o hcaller) (isBusy_iff.mpr ⟨k, call, hk, hcaller, hp⟩)
  · rw [hcalls]
    exact h.unique

/-- An operation is set. -/
theorem Placed.set {op' : PoolOperation} (h : Placed s) (hop : s.operations[i]? = some op)
    (hset : s'.operations = s.operations.set i op') (hcalls : s'.calls = s.calls)
    (hlisted : s'.listed ⊆ s.listed) (hcancelable : op'.isCancelable = op.isCancelable)
    (hrunning : op.task = .running → s.isBusy i = true → op'.task = .running) : Placed s' := by
  obtain ⟨hlt, -⟩ := List.getElem?_eq_some_iff.mp hop
  refine h.evolve hcalls (by rw [hset, List.length_set]) hlisted (fun j hj => ?_) fun j hj hbusy => ?_
  · unfold ThreadPoolExecutor.isCancelable at hj ⊢
    by_cases hij : i = j
    · subst hij
      rw [hset, List.getElem?_set_self hlt]
      simpa [hop, hcancelable] using hj
    · rwa [hset, List.getElem?_set_ne hij]
  · unfold isRunning at hj ⊢
    by_cases hij : i = j
    · subst hij
      rw [hset, List.getElem?_set_self hlt]
      have hrun : op.task = .running := by simpa [hop] using hj
      simpa using hrunning hrun hbusy
    · rwa [hset, List.getElem?_set_ne hij]

theorem Placed.setCanceled (h : Placed s) (i : ℕ) : Placed (s.setCanceled i) := by
  unfold ThreadPoolExecutor.setCanceled
  cases hop : s.operations[i]? with
  | none => exact h
  | some op =>
    change Placed { s with operations := s.operations.set i { op with state := .canceled } }
    have hset : ({ s with operations := s.operations.set i { op with state := .canceled } } :
        ThreadPoolExecutor).operations = s.operations.set i { op with state := .canceled } := rfl
    exact h.set hop hset rfl (List.Subset.refl _) rfl fun hrun _ => hrun

/-- A pending call goes to another point. -/
theorem Placed.goTo (h : Placed s) (hk : s.calls[k]? = some call) (hpending : call.isPending = true)
    (hoperations : s'.operations = s.operations) (hcalls : s'.calls = s.calls.set k { call with point })
    (hlisted : s'.listed ⊆ s.listed) (hheld : ∀ i ∈ point.held, i ∈ s.listed ∨ i ∈ call.point.held) :
    Placed s' := by
  have hcases : ∀ (j : ℕ) (x : PoolCall), s'.calls[j]? = some x →
      (j = k ∧ x = { call with point }) ∨ j ≠ k ∧ s.calls[j]? = some x := by
    intro j x hx
    exact getElem?_calls_set (hcalls ▸ hx)
  -- A call of `s'` was in `s`, and was pending when it is.
  have hbefore : ∀ (j : ℕ) (x : PoolCall), s'.calls[j]? = some x → ∃ y : PoolCall, s.calls[j]? = some y ∧
      y.kind = x.kind ∧ y.caller = x.caller ∧ (x.isPending = true → y.isPending = true) := by
    intro j x hx
    rcases hcases j x hx with ⟨rfl, rfl⟩ | ⟨-, hx⟩
    · exact ⟨call, hk, rfl, rfl, fun _ => hpending⟩
    · exact ⟨x, hx, rfl, rfl, id⟩
  refine ⟨fun i hi => ?_, ?_, fun j x hx i hkind => ?_, fun j x hx hp o hcaller => ?_, ?_⟩
  · rw [hoperations]
    exact h.listed i (hlisted hi)
  · rintro i ⟨j, x, hx, hi⟩
    rw [hoperations]
    rcases hcases j x hx with ⟨-, rfl⟩ | ⟨-, hx⟩
    · rcases hheld i hi with hi | hi
      · exact h.listed i hi
      · exact h.held i ⟨k, call, hk, hi⟩
    · exact h.held i ⟨j, x, hx, hi⟩
  · obtain ⟨y, hy, hykind, -, -⟩ := hbefore j x hx
    unfold ThreadPoolExecutor.isCancelable
    rw [hoperations]
    exact h.cancelable j y hy i (hykind.trans hkind)
  · obtain ⟨y, hy, -, hycaller, hyp⟩ := hbefore j x hx
    unfold isRunning
    rw [hoperations]
    exact h.running j y hy (hyp hp) o (hycaller.trans hcaller)
  · intro j j' x x' hx hx' hp hp' o hcaller hcaller'
    obtain ⟨y, hy, -, hycaller, hyp⟩ := hbefore j x hx
    obtain ⟨y', hy', -, hycaller', hyp'⟩ := hbefore j' x' hx'
    exact h.unique j j' y y' hy hy' (hyp hp) (hyp' hp') o (hycaller.trans hcaller) (hycaller'.trans hcaller')

theorem Placed.advance (h : Placed s) (hstep : s.advance k = some s') : Placed s' := by
  obtain ⟨call, s₁, point, hk, hadvances, rfl⟩ := advance_cases hstep
  have hpending := hadvances.isPending
  have hcalls := hadvances.calls
  cases hadvances with
  | close hpoint =>
    refine h.goTo hk hpending rfl rfl (List.Subset.refl _) fun i hi => ?_
    split_ifs at hi <;> cases hi
  | increment hpoint => exact h.goTo hk hpending rfl rfl (List.Subset.refl _) fun i hi => by cases hi
  | drained hpoint hnil => exact h.goTo hk hpending rfl rfl (List.Subset.refl _) fun i hi => by cases hi
  | taken hpoint hne => exact h.goTo hk hpending rfl rfl (List.nil_subset _) fun i hi => .inl hi
  | again hpoint => exact h.goTo hk hpending rfl rfl (List.Subset.refl _) fun i hi => by cases hi
  | @next i operations hpoint =>
    have hplaced : Placed (if call.kind.cancels && s.isCancelable i then s.setCanceled i else s) := by
      split_ifs
      · exact h.setCanceled i
      · exact h
    exact hplaced.goTo (hcalls ▸ hk) hpending rfl rfl (List.Subset.refl _) fun j hj => .inr (by rwa [hpoint])
  | waited hpoint hready =>
    refine h.goTo hk hpending rfl rfl (List.Subset.refl _) fun j hj => .inr ?_
    rw [hpoint]
    exact List.mem_cons_of_mem _ hj
  | decrement hpoint => exact h.goTo hk hpending rfl rfl (List.Subset.refl _) fun i hi => by cases hi
  | zero hpoint hzero => exact h.goTo hk hpending rfl rfl (List.Subset.refl _) fun i hi => by cases hi
  | @mark i hpoint =>
    exact (h.setCanceled i).goTo (hcalls ▸ hk) hpending rfl rfl (List.Subset.refl _) fun j hj => by cases hj
  | single hpoint hready => exact h.goTo hk hpending rfl rfl (List.Subset.refl _) fun i hi => by cases hi

theorem Placed.start (h : Placed s) (hstep : s.start i = some s') : Placed s' := by
  obtain ⟨op, hop, hqueued, ⟨-, rfl⟩ | rfl⟩ := start_cases hstep
  · refine h.set hop rfl rfl (List.Subset.refl _) rfl fun hrun _ => ?_
    rw [hqueued] at hrun
    cases hrun
  · exact h.set hop rfl rfl (List.Subset.refl _) rfl fun _ _ => rfl

theorem Placed.leave (h : Placed s) (hstep : s.leave i = some s') : Placed s' := by
  obtain ⟨op, hop, -, hfree, rfl⟩ := leave_cases hstep
  refine h.set hop rfl rfl List.erase_subset rfl fun _ hbusy => ?_
  rw [hfree] at hbusy
  cases hbusy

theorem Placed.finish (h : Placed s) (hstep : s.finish i = some s') : Placed s' := by
  obtain ⟨op, hop, hreturned, rfl⟩ := finish_cases hstep
  refine h.set hop rfl rfl (List.Subset.refl _) rfl fun hrun _ => ?_
  rw [hreturned] at hrun
  cases hrun

theorem Placed.execute (h : Placed s) (isCancelable : Bool) : Placed (s.execute isCancelable) := by
  unfold ThreadPoolExecutor.execute
  split_ifs
  · exact h
  · have hold : ∀ (i : ℕ) (op : PoolOperation), s.operations[i]? = some op →
        (s.operations ++ [({ isCancelable } : PoolOperation)])[i]? = some op := by
      intro i op hop
      exact (List.getElem?_append_left (List.getElem?_eq_some_iff.mp hop).1).trans hop
    refine ⟨fun i hi => ?_, fun i hi => ?_, fun k call hk i hkind => ?_, fun k call hk hp o hcaller => ?_,
      h.unique⟩
    · rw [List.length_append, List.length_singleton]
      rcases List.mem_append.mp hi with hi | hi
      · exact Nat.lt_succ_of_lt (h.listed i hi)
      · exact List.mem_singleton.mp hi ▸ Nat.lt_succ_self _
    · rw [List.length_append, List.length_singleton]
      exact Nat.lt_succ_of_lt (h.held i hi)
    · obtain ⟨op, hop, hcancelable⟩ := (Option.any_eq_true _ _).mp (h.cancelable k call hk i hkind)
      exact (Option.any_eq_true _ _).mpr ⟨op, hold i op hop, hcancelable⟩
    · obtain ⟨op, hop, hrunning⟩ := (Option.any_eq_true _ _).mp (h.running k call hk hp o hcaller)
      exact (Option.any_eq_true _ _).mpr ⟨op, hold o op hop, hrunning⟩

theorem Placed.enter {caller : Option ℕ} {kind : CallKind} (h : Placed s)
    (hstep : s.call caller kind = some s') : Placed s' := by
  unfold ThreadPoolExecutor.call at hstep
  split_ifs at hstep with hguard
  obtain rfl := Option.some.inj hstep
  simp only [Bool.and_eq_true] at hguard
  obtain ⟨hpermitted, hcaller⟩ := hguard
  have hfree : ∀ o, caller = some o → s.isRunning o = true ∧ s.isBusy o = false := by
    rintro o rfl
    simpa [isRunning] using hcaller
  refine ⟨h.listed, ?_, fun k call hk i hkind => ?_, fun k call hk hp o hc => ?_,
    fun k k' call call' hk hk' hp hp' o hc hc' => ?_⟩
  · rintro i ⟨k, call, hk, hi⟩
    rcases getElem?_calls_append hk with hk | ⟨rfl, -⟩
    · exact h.held i ⟨k, call, hk, hi⟩
    · rw [entry_held] at hi
      cases hi
  · rcases getElem?_calls_append hk with hk | ⟨rfl, -⟩
    · exact h.cancelable k call hk i hkind
    · obtain rfl : kind = .cancel i := hkind
      exact hpermitted
  · rcases getElem?_calls_append hk with hk | ⟨rfl, -⟩
    · exact h.running k call hk hp o hc
    · exact (hfree o hc).1
  · -- The caller of the new call was in no other.
    have hnone : ∀ (j : ℕ) (x : PoolCall), s.calls[j]? = some x → x.isPending = true → x.caller = some o →
        caller ≠ some o := by
      intro j x hx hxp hxc hcaller
      have hbusy := (hfree o hcaller).2
      rw [isBusy_iff.mpr ⟨j, x, hx, hxc, hxp⟩] at hbusy
      cases hbusy
    rcases getElem?_calls_append hk with hk | ⟨rfl, rfl⟩ <;> rcases getElem?_calls_append hk' with hk' | ⟨rfl, rfl⟩
    · exact h.unique k k' call call' hk hk' hp hp' o hc hc'
    · exact absurd hc' (hnone k call hk hp hc)
    · exact absurd hc (hnone k' call' hk' hp' hc')
    · rfl

/-- What holds in every state a run reaches. -/
def Sound (s : ThreadPoolExecutor) : Prop := Safe s ∧ Placed s

theorem Sound.step (h : Sound s) (hstep : threadPool.step s l = some s') : Sound s' := by
  cases l with
  | execute isCancelable =>
    obtain rfl := Option.some.inj hstep
    exact ⟨h.1.execute isCancelable, h.2.execute isCancelable⟩
  | call caller kind => exact ⟨h.1.enter hstep, h.2.enter hstep⟩
  | start i => exact ⟨h.1.start hstep, h.2.start hstep⟩
  | leave i => exact ⟨h.1.leave hstep, h.2.leave hstep⟩
  | finish i => exact ⟨h.1.finish hstep, h.2.finish hstep⟩
  | advance k => exact ⟨h.1.advance hstep fun k i call hk hkind => h.2.cancelable k call hk i hkind, h.2.advance hstep⟩

theorem sound_of_run (h : threadPool.Run ts s) : Sound s := by
  refine h.invariant ?_ fun s l s' hstep hsound => hsound.step hstep
  rintro s rfl
  exact ⟨Safe.init, Placed.init⟩

end HueStream.Threading
