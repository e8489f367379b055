import HueStream.Threading.Settling

/-! # Calls that never return

A call that is not allowed waits for its caller, directly or through the calls of other operations. Such
operations wait for each other from then on, whatever else happens (`Blocked.step`). So a thread pool serves its
callers just as long as every call from inside an operation is allowed (`pool_serves_iff`). -/

namespace HueStream.Threading

open HueStream.Lib ThreadPoolExecutor Relation

variable {s s' s₁ : ThreadPoolExecutor} {i k o p : ℕ} {op : PoolOperation} {call : PoolCall} {point : CallPoint}
  {l : PoolLabel} {ts : List (Transition ThreadPoolExecutor PoolLabel)}

/-- Each of some operations is in a call that waits for all operations, with itself, or for another one of
them. -/
def Blocked (s : ThreadPoolExecutor) : Prop :=
  ∃ P : ℕ → Prop, (∃ o, P o) ∧ ∀ o, P o → ∃ (k : ℕ) (call : PoolCall), s.calls[k]? = some call ∧
    call.isPending = true ∧ call.caller = some o ∧
    (call.kind.waits = true ∧ o < call.accepted ∨ ∃ p, call.kind = .cancel p ∧ P p)

theorem task_of_isRunning (h : s.isRunning o = true) : ∃ op, s.operations[o]? = some op ∧ op.task = .running := by
  obtain ⟨op, hop, hrunning⟩ := (Option.any_eq_true _ _).mp h
  exact ⟨op, hop, by simpa using hrunning⟩

/-- A call that waits for an operation which is running does not return. -/
theorem Advances.point_ne_returned (h : Advances s call s₁ point) (hsafe : Safe s) (hk : s.calls[k]? = some call)
    (ho : s.isRunning o = true)
    (hwaits : call.kind.waits = true ∧ o < call.accepted ∨ call.kind = .cancel o) : point ≠ .returned := by
  obtain ⟨op, hop, hrunning⟩ := task_of_isRunning ho
  have hfits := hsafe.fits k call hk
  unfold PoolCall.Fits at hfits
  cases h with
  | close hpoint =>
    rw [hpoint] at hfits
    obtain ⟨policy, hkind⟩ := hfits
    rcases hwaits with ⟨hwaits, -⟩ | hcancel
    · rw [hwaits]
      simp
    · rw [hkind] at hcancel
      cases hcancel
  | zero hpoint hzero =>
    rw [hpoint] at hfits
    rcases hwaits with ⟨-, hlt⟩ | hcancel
    · -- The call has left its caller behind, but nobody holds it.
      have hunfinished : s.Unfinished o := ⟨op, hop, by rw [hrunning]; rfl⟩
      exact absurd (hsafe.drained k call hk (.inr hpoint) o hlt hunfinished) (hsafe.not_held hzero o)
    · rw [hcancel] at hfits
      cases hfits
  | @single j hpoint hready =>
    rw [hpoint] at hfits
    rcases hwaits with ⟨hwaits, -⟩ | hcancel
    · rw [hfits] at hwaits
      cases hwaits
    · obtain rfl : j = o := CallKind.cancel.inj (hfits.symm.trans hcancel)
      simp [ThreadPoolExecutor.isReady, hop, hrunning, TaskState.isReady] at hready
  | _ => simp

/-- **Blocked operations stay blocked.** -/
theorem Blocked.step (h : Blocked s) (hsound : Sound s) (hstep : threadPool.step s l = some s') : Blocked s' := by
  obtain ⟨P, hne, hP⟩ := h
  have hrunning : ∀ o, P o → s.isRunning o = true := by
    intro o ho
    obtain ⟨k, call, hk, hpending, hcaller, -⟩ := hP o ho
    exact hsound.2.running k call hk hpending o hcaller
  refine ⟨P, hne, fun o ho => ?_⟩
  obtain ⟨k, call, hk, hpending, hcaller, hwaits⟩ := hP o ho
  rcases call_of_step hstep hk with hk' | ⟨s₁, point, hadvances, hk'⟩
  · exact ⟨k, call, hk', hpending, hcaller, hwaits⟩
  · have hpoint : point ≠ .returned := by
      rcases hwaits with hwaits | ⟨p, hkind, hp⟩
      · exact hadvances.point_ne_returned hsound.1 hk (hrunning o ho) (.inl hwaits)
      · exact hadvances.point_ne_returned hsound.1 hk (hrunning p hp) (.inr hkind)
    exact ⟨k, _, hk', by simpa [PoolCall.isPending] using hpoint, hcaller, hwaits⟩

/-- A call that is not allowed blocks its caller. -/
theorem blocked_of_not_allowed (hstep : threadPool.step s l = some s') (h : ¬ Allowed s l) : Blocked s' := by
  cases l with
  | call caller kind =>
    cases caller with
    | none => exact absurd trivial h
    | some o =>
      have hstep : s.call (some o) kind = some s' := hstep
      unfold ThreadPoolExecutor.call at hstep
      split_ifs at hstep with hguard
      obtain rfl := Option.some.inj hstep
      have hnew : (s.calls ++ [(⟨some o, kind, s.operations.length, entry kind⟩ : PoolCall)])[s.calls.length]? =
          some ⟨some o, kind, s.operations.length, entry kind⟩ := List.getElem?_concat_length
      have hpending : (⟨some o, kind, s.operations.length, entry kind⟩ : PoolCall).isPending = true := by
        cases kind <;> rfl
      by_cases hwaits : kind.waits = true
      · have hlt : o < s.operations.length := by
          simp only [Option.all_some, Bool.and_eq_true] at hguard
          obtain ⟨op, hop, -⟩ := (Option.any_eq_true _ _).mp hguard.2.1
          exact (List.getElem?_eq_some_iff.mp hop).1
        refine ⟨fun x => x = o, ⟨o, rfl⟩, ?_⟩
        rintro x rfl
        exact ⟨_, _, hnew, hpending, rfl, .inl ⟨hwaits, hlt⟩⟩
      · -- The operations on the way from the one that is canceled to the caller wait for each other.
        obtain ⟨p, rfl, hpath⟩ : ∃ p, kind = .cancel p ∧ ReflTransGen (WaitsFor s) p o := by
          by_contra hnone
          refine h ⟨by simpa using hwaits, fun p hkind hpath => hnone ⟨p, hkind, hpath⟩⟩
        refine ⟨fun x => ReflTransGen (WaitsFor s) p x ∧ ReflTransGen (WaitsFor s) x o, ⟨o, hpath, .refl⟩, ?_⟩
        rintro x ⟨hpx, hxo⟩
        rcases hxo.cases_head with rfl | ⟨y, hxy, hyo⟩
        · exact ⟨_, _, hnew, hpending, rfl, .inr ⟨p, rfl, .refl, hpath⟩⟩
        · obtain ⟨k, call, hk, hp, hcaller, hkind⟩ := id hxy
          let canceling : PoolCall := ⟨some o, .cancel p, s.operations.length, entry (.cancel p)⟩
          have hk' : (s.calls ++ [canceling])[k]? = some call := by
            rw [List.getElem?_append_left (List.getElem?_eq_some_iff.mp hk).1, hk]
          exact ⟨k, call, hk', hp, hcaller, .inr ⟨y, hkind, hpx.tail hxy, hyo⟩⟩
  | _ => exact absurd trivial h

theorem Blocked.not_settles (h : Blocked s) (hsound : Sound s) : ¬ Settles s := by
  rintro ⟨ls, us, s', -, htrail, hquiet⟩
  have hblocked := Machine.invariant_trail (I := fun s => Sound s ∧ Blocked s)
    (fun s l s' hstep hs => ⟨hs.1.step hstep, hs.2.step hs.1 hstep⟩) htrail ⟨hsound, h⟩
  obtain ⟨-, P, ⟨o, ho⟩, hP⟩ := hblocked
  obtain ⟨k, call, hk, hpending, -⟩ := hP o ho
  rw [hquiet.2 call (List.mem_of_getElem? hk)] at hpending
  cases hpending

/-! ### What a thread pool owes its callers -/

/-- The operation has finished or will never start. -/
def PoolOperation.HasEnded (op : PoolOperation) : Prop :=
  op.task = .returned ∨ op.task = .ready true ∨ op.task = .ready false ∧ op.isCancelable = true

/-- When a call from outside that waits for all operations has returned, those accepted before have ended. -/
def Waited (s : ThreadPoolExecutor) : Prop :=
  ∀ call ∈ s.calls, call.caller = none → call.kind.waits = true → call.point = .returned →
    ∀ i < call.accepted, ∃ op, s.operations[i]? = some op ∧ op.HasEnded

/-- A call of `shutdown` has returned. -/
def HasShutDown (s : ThreadPoolExecutor) : Prop :=
  ∃ call ∈ s.calls, (∃ policy, call.kind = .shutdown policy) ∧ call.point = .returned

/-- `shutdown` has set `_is_shutdown` first. -/
def Closed (s : ThreadPoolExecutor) : Prop :=
  ∀ (k : ℕ) (call : PoolCall), s.calls[k]? = some call → (∃ policy, call.kind = .shutdown policy) →
    call.point ≠ .close → s.isShutdown = true

theorem Advances.isShutdown (h : Advances s call s₁ point) :
    s₁.isShutdown = (s.isShutdown || call.point = .close) := by
  cases h with
  | next h =>
    split_ifs
    · simp [h]
    · simp [h]
  | _ => simp [*]

theorem Closed.step (h : Closed s) (hstep : threadPool.step s l = some s') : Closed s' := by
  intro k call hk hkind hpoint
  rcases calls_of_step hstep with ⟨hcalls, hsame⟩ | ⟨caller, kind, -, rfl⟩ | ⟨j, call', s₁, point, hj, hadvances, rfl⟩
  · rw [hsame]
    exact h k call (hcalls ▸ hk) hkind hpoint
  · rcases getElem?_calls_append hk with hk | ⟨rfl, -⟩
    · exact h k call hk hkind hpoint
    · obtain ⟨policy, rfl⟩ := hkind
      exact absurd rfl hpoint
  · rw [goTo_isShutdown, hadvances.isShutdown]
    rw [goTo_calls, hadvances.calls] at hk
    rcases getElem?_calls_set hk with ⟨rfl, rfl⟩ | ⟨-, hk⟩
    · by_cases hclose : call'.point = .close
      · simp [hclose]
      · rw [h k call' hj hkind hclose]
        rfl
    · rw [h k call hk hkind hpoint]
      rfl

/-- Only `execute` adds operations, and not when the executor is shut down. -/
theorem length_of_step (hstep : threadPool.step s l = some s') (h : s.isShutdown = true) :
    s'.operations.length = s.operations.length := by
  cases l with
  | execute isCancelable =>
    obtain rfl := Option.some.inj hstep
    rw [ThreadPoolExecutor.execute, if_pos h]
  | call caller kind =>
    have hstep : s.call caller kind = some s' := hstep
    unfold ThreadPoolExecutor.call at hstep
    split_ifs at hstep
    obtain rfl := Option.some.inj hstep
    rfl
  | start i =>
    obtain ⟨op, -, -, ⟨-, rfl⟩ | rfl⟩ := start_cases hstep
    · exact List.length_set ..
    · exact List.length_set ..
  | leave i =>
    obtain ⟨op, -, -, -, rfl⟩ := leave_cases hstep
    exact List.length_set ..
  | finish i =>
    obtain ⟨op, -, -, rfl⟩ := finish_cases hstep
    exact List.length_set ..
  | advance k =>
    obtain ⟨call, s₁, point, -, hadvances, rfl⟩ := advance_cases hstep
    exact hadvances.length

theorem Closed.refused (h : Closed s) (hstep : threadPool.step s l = some s') (hshutdown : HasShutDown s) :
    s'.operations.length = s.operations.length := by
  obtain ⟨call, hcall, hkind, hpoint⟩ := hshutdown
  obtain ⟨k, hk⟩ := List.mem_iff_getElem?.mp hcall
  exact length_of_step hstep (h k call hk hkind (by simp [hpoint]))

theorem Safe.waited (h : Safe s) : Waited s := by
  intro call hcall _ hwaits hpoint i hi
  obtain ⟨k, hk⟩ := List.mem_iff_getElem?.mp hcall
  have hlt : i < s.operations.length := lt_of_lt_of_le hi (h.accepted k call hk)
  have hop := List.getElem?_eq_getElem hlt
  refine ⟨_, hop, ?_⟩
  have hdone : s.operations[i].task.isDone ≠ false := fun hdone =>
    h.returned k call hk hpoint hwaits i hi ⟨_, hop, hdone⟩
  unfold PoolOperation.HasEnded
  cases htask : s.operations[i].task with
  | returned => exact .inl rfl
  | ready ran =>
    cases ran with
    | true => exact .inr (.inl rfl)
    | false => exact .inr (.inr ⟨rfl, h.canceled i _ hop (.inr htask)⟩)
  | _ =>
    rw [htask] at hdone
    exact absurd rfl hdone

/-- What a step of the executor promises. -/
structure Serves (t : Transition ThreadPoolExecutor PoolLabel) : Prop where
  waited : Waited t.after
  refused : HasShutDown t.before → t.after.operations.length = t.before.operations.length
  settles : Settles t.after

/-- **Whatever a thread pool executor owes its callers** it does in a run exactly as long as every call from
inside an operation is allowed. -/
theorem pool_serves_iff (h : threadPool.Run ts s) : (∀ t ∈ ts, Serves t) ↔ ∀ t ∈ ts, Allowed t.before t.label := by
  refine h.forall_iff (I := fun s => Sound s ∧ Closed s ∧ Sane s) ?_ ?_ ?_
  · rintro s rfl
    refine ⟨⟨Safe.init, Placed.init⟩, fun k call hk => ?_, Sane.init⟩
    simp at hk
  · rintro s l s' hstep hallowed ⟨hsound, hclosed, hsane⟩
    exact ⟨hsound.step hstep, hclosed.step hstep, hsane.step hstep hallowed⟩
  · rintro s l s' hstep ⟨hsound, hclosed, hsane⟩
    have hsound' := hsound.step hstep
    constructor
    · intro hserves
      by_contra hnot
      exact (blocked_of_not_allowed hstep hnot).not_settles hsound' hserves.settles
    · intro hallowed
      exact ⟨hsound'.1.waited, hclosed.refused hstep, (hsane.step hstep hallowed).settles hsound'⟩

/-- The first of two operations cancels the second one, and then the executor is shut down. -/
theorem exists_served : ∃ ts s, threadPool.Run ts s ∧ HasShutDown s ∧ ∀ t ∈ ts, Serves t := by
  obtain ⟨ts, s, hrun, hp⟩ := Machine.exists_run (M := threadPool) (s := {})
    ([.execute true, .execute true, .start 0, .call (some 0) (.cancel 1), .advance 0, .start 1, .advance 0, .leave 0,
      .finish 0, .call none (.shutdown .cancelAll)] ++ List.replicate 9 (.advance 1))
    (fun ts s => (s.calls.any fun call => call.kind = .shutdown .cancelAll && call.point = .returned) &&
      ts.all fun t => t.label.isInternal || t.label = .execute true || t.label = .call none (.shutdown .cancelAll) ||
        t.label = .call (some 0) (.cancel 1) && t.before.calls = []) rfl (by decide +kernel)
  simp only [Bool.and_eq_true, List.any_eq_true, List.all_eq_true, Bool.or_eq_true, decide_eq_true_eq] at hp
  obtain ⟨⟨call, hcall, hkind, hpoint⟩, hlabels⟩ := hp
  refine ⟨ts, s, hrun, ⟨call, hcall, ⟨_, hkind⟩, hpoint⟩, (pool_serves_iff hrun).mpr fun t ht => ?_⟩
  rcases hlabels t ht with ((hl | hl) | hl) | ⟨hl, hfirst⟩
  · exact allowed_of_isInternal hl
  · rw [hl]
    trivial
  · rw [hl]
    trivial
  · -- When the first operation cancels the second one, there is no other call.
    rw [hl]
    refine ⟨rfl, fun p hkind hpath => ?_⟩
    obtain rfl := CallKind.cancel.inj hkind
    rcases hpath.cases_head with heq | ⟨y, ⟨k, x, hk, -⟩, -⟩
    · cases heq
    · simp [hfirst] at hk

/-- The invocable of the only operation waits for all operations. -/
theorem exists_not_served : ∃ ts s, threadPool.Run ts s ∧ ¬ ∀ t ∈ ts, Serves t := by
  obtain ⟨ts, s, hrun, hp⟩ := Machine.exists_run (M := threadPool) (s := {})
    [.execute true, .start 0, .call (some 0) .waitAll]
    (fun ts s => ts.any fun t => t.label = .call (some 0) .waitAll) rfl (by decide +kernel)
  simp only [List.any_eq_true, decide_eq_true_eq] at hp
  obtain ⟨t, ht, hlabel⟩ := hp
  refine ⟨ts, s, hrun, fun hserves => ?_⟩
  obtain ⟨hstep, us, -, hus⟩ := hrun.reaches_before ht
  have hnot : ¬ Allowed t.before t.label := by
    rw [hlabel]
    rintro ⟨hwaits, -⟩
    cases hwaits
  exact (blocked_of_not_allowed hstep hnot).not_settles ((sound_of_run hus).step hstep) (hserves t ht).settles

end HueStream.Threading
