import HueStream.Lib.Run
import HueStream.Threading.Placement

/-! # Calls from inside an operation

A call that waits for all operations waits for the one it is made in, and so does a call that cancels an
operation that waits, through such calls, for the one it is made in. Neither ever returns (`Blocked`). Without
such calls (`Sane`), all operations come to their ends and all calls return as soon as nobody asks for anything
new (`Settles`). -/

namespace HueStream.Threading

open HueStream.Lib ThreadPoolExecutor Relation

variable {s s' s₁ : ThreadPoolExecutor} {i k o p : ℕ} {op : PoolOperation} {call : PoolCall} {point : CallPoint}
  {l : PoolLabel} {ts : List (Transition ThreadPoolExecutor PoolLabel)}

/-- The operation `o` is in a call that cancels `p`. -/
def WaitsFor (s : ThreadPoolExecutor) (o p : ℕ) : Prop :=
  ∃ (k : ℕ) (call : PoolCall), s.calls[k]? = some call ∧ call.isPending = true ∧ call.caller = some o ∧
    call.kind = .cancel p

/-- A call from inside an operation neither waits for all of them nor cancels one that waits for its caller. -/
def Allowed (s : ThreadPoolExecutor) : PoolLabel → Prop
  | .call (some o) kind => kind.waits = false ∧ ∀ p, kind = .cancel p → ¬ ReflTransGen (WaitsFor s) p o
  | _ => True

/-- The calls from inside operations wait for single ones, and none for itself. -/
structure Sane (s : ThreadPoolExecutor) : Prop where
  inside : ∀ (k : ℕ) (call : PoolCall), s.calls[k]? = some call → call.isPending = true →
    ∀ o, call.caller = some o → call.kind.waits = false
  ranked : Ranked (WaitsFor s)

/-- Everything is over. -/
def Quiet (s : ThreadPoolExecutor) : Prop :=
  (∀ i < s.operations.length, s.isReady i = true) ∧ ∀ call ∈ s.calls, call.isPending = false

/-- Without new operations and calls everything comes to its end. -/
def Settles (s : ThreadPoolExecutor) : Prop :=
  ∃ ls us s', (∀ l ∈ ls, l.isInternal = true) ∧ threadPool.trail s ls = some (us, s') ∧ Quiet s'

/-! ### What a step does to the calls -/

/-- A step leaves the calls alone, begins one or advances one. -/
theorem calls_of_step (hstep : threadPool.step s l = some s') :
    s'.calls = s.calls ∧ s'.isShutdown = s.isShutdown ∨
      (∃ caller kind, l = .call caller kind ∧
        s' = { s with calls := s.calls ++ [⟨caller, kind, s.operations.length, entry kind⟩] }) ∨
      ∃ (k : ℕ) (call : PoolCall) (s₁ : ThreadPoolExecutor) (point : CallPoint), s.calls[k]? = some call ∧
        Advances s call s₁ point ∧ s' = s₁.goTo k call point := by
  cases l with
  | execute isCancelable =>
    obtain rfl := Option.some.inj hstep
    refine .inl ?_
    unfold ThreadPoolExecutor.execute
    split_ifs <;> exact ⟨rfl, rfl⟩
  | call caller kind =>
    have hstep : s.call caller kind = some s' := hstep
    unfold ThreadPoolExecutor.call at hstep
    split_ifs at hstep
    exact .inr (.inl ⟨caller, kind, rfl, (Option.some.inj hstep).symm⟩)
  | start i =>
    obtain ⟨op, -, -, ⟨-, rfl⟩ | rfl⟩ := start_cases hstep
    · exact .inl ⟨rfl, rfl⟩
    · exact .inl ⟨rfl, rfl⟩
  | leave i =>
    obtain ⟨op, -, -, -, rfl⟩ := leave_cases hstep
    exact .inl ⟨rfl, rfl⟩
  | finish i =>
    obtain ⟨op, -, -, rfl⟩ := finish_cases hstep
    exact .inl ⟨rfl, rfl⟩
  | advance k =>
    obtain ⟨call, s₁, point, hk, hadvances, rfl⟩ := advance_cases hstep
    exact .inr (.inr ⟨k, call, s₁, point, hk, hadvances, rfl⟩)

/-- A call stays where it is, or makes its next step. -/
theorem call_of_step (hstep : threadPool.step s l = some s') (hk : s.calls[k]? = some call) :
    s'.calls[k]? = some call ∨
      ∃ s₁ point, Advances s call s₁ point ∧ s'.calls[k]? = some { call with point } := by
  rcases calls_of_step hstep with ⟨hcalls, -⟩ | ⟨caller, kind, -, rfl⟩ | ⟨j, call', s₁, point, hj, hadvances, rfl⟩
  · exact .inl (hcalls ▸ hk)
  · exact .inl ((List.getElem?_append_left (List.getElem?_eq_some_iff.mp hk).1).trans hk)
  · rw [goTo_calls, hadvances.calls]
    by_cases hjk : k = j
    · subst hjk
      obtain rfl := Option.some.inj (hk.symm.trans hj)
      exact .inr ⟨s₁, point, hadvances, getElem?_calls_set_self hk⟩
    · exact .inl (getElem?_calls_set_ne hjk hk)

/-- A pending call was pending before, or begins. -/
theorem pending_of_step (hstep : threadPool.step s l = some s') (hk : s'.calls[k]? = some call)
    (hpending : call.isPending = true) :
    l = .call call.caller call.kind ∨ ∃ call' : PoolCall, s.calls[k]? = some call' ∧ call'.isPending = true ∧
      call'.caller = call.caller ∧ call'.kind = call.kind := by
  rcases calls_of_step hstep with ⟨hcalls, -⟩ | ⟨caller, kind, rfl, rfl⟩ | ⟨j, call', s₁, point, hj, hadvances, rfl⟩
  · exact .inr ⟨call, hcalls ▸ hk, hpending, rfl, rfl⟩
  · rcases getElem?_calls_append hk with hk | ⟨rfl, -⟩
    · exact .inr ⟨call, hk, hpending, rfl, rfl⟩
    · exact .inl rfl
  · rw [goTo_calls, hadvances.calls] at hk
    rcases getElem?_calls_set hk with ⟨rfl, rfl⟩ | ⟨-, hk⟩
    · exact .inr ⟨call', hj, hadvances.isPending, rfl, rfl⟩
    · exact .inr ⟨call, hk, hpending, rfl, rfl⟩

/-! ### Sane states settle -/

theorem Sane.init : Sane {} := by
  refine ⟨fun k call hk => ?_, fun _ => 0, ?_⟩
  · simp at hk
  · rintro a b ⟨k, call, hk, -⟩
    simp at hk

theorem Sane.step (h : Sane s) (hstep : threadPool.step s l = some s') (hallowed : Allowed s l) : Sane s' := by
  constructor
  · intro k call hk hpending o hcaller
    rcases pending_of_step hstep hk hpending with rfl | ⟨call', hk', hpending', hcaller', hkind'⟩
    · rw [hcaller] at hallowed
      exact hallowed.1
    · rw [← hkind']
      exact h.inside k call' hk' hpending' o (hcaller'.trans hcaller)
  · -- The only new edge is that of a call which begins.
    have hedge : ∀ a b, WaitsFor s' a b → WaitsFor s a b ∨ l = .call (some a) (.cancel b) := by
      rintro a b ⟨k, call, hk, hpending, hcaller, hkind⟩
      rcases pending_of_step hstep hk hpending with rfl | ⟨call', hk', hpending', hcaller', hkind'⟩
      · exact .inr (by rw [hcaller, hkind])
      · exact .inl ⟨k, call', hk', hpending', hcaller'.trans hcaller, hkind'.trans hkind⟩
    by_cases hnew : ∃ o p, l = .call (some o) (.cancel p)
    · obtain ⟨o, p, rfl⟩ := hnew
      refine (h.ranked.add_edge (hallowed.2 p rfl)).mono fun a b hab => ?_
      rcases hedge a b hab with hab | hab
      · exact .inl hab
      · cases hab
        exact .inr ⟨rfl, rfl⟩
    · refine h.ranked.mono fun a b hab => ?_
      rcases hedge a b hab with hab | hab
      · exact hab
      · exact absurd ⟨a, b, hab⟩ hnew

/-- A call goes on unless it waits. -/
theorem exists_advances (hpending : call.isPending = true)
    (hready : ∀ i, i ∈ call.point.held ∨ call.point = .single i → s.isReady i = true)
    (hzero : call.point = .zero → s.waiting = 0) : ∃ s₁ point, Advances s call s₁ point := by
  cases hpoint : call.point with
  | close => exact ⟨_, _, .close hpoint⟩
  | increment => exact ⟨_, _, .increment hpoint⟩
  | take =>
    by_cases hnil : s.listed = []
    · exact ⟨_, _, .drained hpoint hnil⟩
    · exact ⟨_, _, .taken hpoint hnil⟩
  | each operations =>
    cases operations with
    | nil => exact ⟨_, _, .again hpoint⟩
    | cons i operations => exact ⟨_, _, .next hpoint⟩
  | wait i operations =>
    have hi : i ∈ call.point.held := by simp [hpoint, CallPoint.held]
    exact ⟨_, _, .waited hpoint (hready i (.inl hi))⟩
  | decrement => exact ⟨_, _, .decrement hpoint⟩
  | zero => exact ⟨_, _, .zero hpoint (hzero hpoint)⟩
  | mark i => exact ⟨_, _, .mark hpoint⟩
  | single i => exact ⟨_, _, .single hpoint (hready i (.inr hpoint))⟩
  | returned => simp [PoolCall.isPending, hpoint] at hpending

/-- Where no internal step is possible. -/
structure Stuck (s : ThreadPoolExecutor) : Prop where
  tasks : ∀ (i : ℕ) (op : PoolOperation), s.operations[i]? = some op →
    op.task.isReady = true ∨ op.task = .running ∧ s.isBusy i = true
  calls : ∀ (k : ℕ) (call : PoolCall), s.calls[k]? = some call → ∀ s₁ point, ¬ Advances s call s₁ point

theorem stuck_of_forall (h : ∀ l, l.isInternal = true → threadPool.step s l = none) : Stuck s := by
  constructor
  · intro i op hop
    cases htask : op.task with
    | queued =>
      have hstart : s.start i = none := h (.start i) rfl
      simp only [ThreadPoolExecutor.start, hop, htask, ne_eq, not_true_eq_false, if_false] at hstart
      split_ifs at hstart
    | running =>
      have hleave : s.leave i = none := h (.leave i) rfl
      simp only [ThreadPoolExecutor.leave, hop, htask, true_and] at hleave
      split_ifs at hleave with hbusy
      exact .inr ⟨rfl, by simpa using hbusy⟩
    | returned =>
      have hfinish : s.finish i = none := h (.finish i) rfl
      simp only [ThreadPoolExecutor.finish, hop, htask, if_true] at hfinish
      cases hfinish
    | ready ran => exact .inl rfl
  · intro k call hk s₁ point hadvances
    have hnone : s.advance k = none := h (.advance k) rfl
    rw [hadvances.advance hk] at hnone
    cases hnone

theorem isReady_of_task (hop : s.operations[i]? = some op) (h : op.task.isReady = true) : s.isReady i = true := by
  simpa [ThreadPoolExecutor.isReady, hop] using h

theorem exists_of_isCancelable (h : s.isCancelable i = true) : ∃ op, s.operations[i]? = some op := by
  obtain ⟨op, hop, -⟩ := (Option.any_eq_true _ _).mp h
  exact ⟨op, hop⟩

/-- In a sane state that is stuck no operation is running: one that waits for no running operation would go on. -/
theorem Stuck.not_isRunning (h : Stuck s) (hsound : Sound s) (hsane : Sane s) (o : ℕ) : ¬ s.isRunning o = true := by
  intro ho
  obtain ⟨a, ha, hlast⟩ := hsane.ranked.exists_last (P := fun o => s.isRunning o = true) ⟨o, ho⟩
  obtain ⟨op, hop, hrunning⟩ := (Option.any_eq_true _ _).mp ha
  have hrunning : op.task = .running := by simpa using hrunning
  have hbusy : s.isBusy a = true := by
    rcases h.tasks a op hop with hready | ⟨-, hbusy⟩
    · rw [hrunning] at hready
      cases hready
    · exact hbusy
  obtain ⟨k, call, hk, hcaller, hpending⟩ := isBusy_iff.mp hbusy
  have hwaits := hsane.inside k call hk hpending a hcaller
  have hfits := hsound.1.fits k call hk
  unfold PoolCall.Fits at hfits
  -- What it waits for is ready or running.
  have hready : ∀ p, call.kind = .cancel p → s.isReady p = true := by
    intro p hkind
    obtain ⟨x, hx⟩ := exists_of_isCancelable (hsound.2.cancelable k call hk p hkind)
    rcases h.tasks p x hx with hready | ⟨hrun, -⟩
    · exact isReady_of_task hx hready
    · refine absurd ?_ (hlast p ⟨k, call, hk, hpending, hcaller, hkind⟩)
      simp [isRunning, hx, hrun]
  obtain ⟨s₁, point, hadvances⟩ := exists_advances (s := s) hpending
    (fun i hi => by
      rcases hi with hi | hi
      · cases hpoint : call.point with
        | each operations =>
          rw [hpoint] at hfits
          rw [hfits] at hwaits
          cases hwaits
        | wait j operations =>
          rw [hpoint] at hfits
          rw [hfits] at hwaits
          cases hwaits
        | _ => simp [hpoint, CallPoint.held] at hi
      · rw [hi] at hfits
        exact hready i hfits)
    (fun hzero => by
      rw [hzero] at hfits
      rw [hfits] at hwaits
      cases hwaits)
  exact h.calls k call hk s₁ point hadvances

/-- **A sane state that is stuck is quiet.** -/
theorem Stuck.quiet (h : Stuck s) (hsound : Sound s) (hsane : Sane s) : Quiet s := by
  have hready : ∀ i < s.operations.length, s.isReady i = true := by
    intro i hi
    have hop := List.getElem?_eq_getElem hi
    rcases h.tasks i _ hop with hready | ⟨hrunning, -⟩
    · exact isReady_of_task hop hready
    · refine absurd ?_ (h.not_isRunning hsound hsane i)
      simp [isRunning, hop, hrunning]
  have hwaited : ∀ (k : ℕ) (call : PoolCall), s.calls[k]? = some call →
      ∀ i, i ∈ call.point.held ∨ call.point = .single i → s.isReady i = true := by
    intro k call hk i hi
    rcases hi with hi | hi
    · exact hready i (hsound.2.held i ⟨k, call, hk, hi⟩)
    · have hfits := hsound.1.fits k call hk
      unfold PoolCall.Fits at hfits
      rw [hi] at hfits
      obtain ⟨x, hx⟩ := exists_of_isCancelable (hsound.2.cancelable k call hk i hfits)
      exact hready i (List.getElem?_eq_some_iff.mp hx).1
  -- No call is active, so that the counter is zero.
  have hzero : s.waiting = 0 := by
    rw [hsound.1.count, List.countP_eq_zero]
    intro call hcall hactive
    obtain ⟨k, hk⟩ := List.mem_iff_getElem?.mp hcall
    have hpending : call.isPending = true := by
      have hne : call.point ≠ .returned := by
        intro hpoint
        rw [hpoint] at hactive
        cases hactive
      simpa [PoolCall.isPending] using hne
    obtain ⟨s₁, point, hadvances⟩ := exists_advances hpending (hwaited k call hk) fun hpoint => by
      rw [hpoint] at hactive
      cases hactive
    exact h.calls k call hk s₁ point hadvances
  refine ⟨hready, fun call hcall => ?_⟩
  obtain ⟨k, hk⟩ := List.mem_iff_getElem?.mp hcall
  by_contra hpending
  obtain ⟨s₁, point, hadvances⟩ := exists_advances (Bool.eq_true_of_not_eq_false hpending) (hwaited k call hk)
    fun _ => hzero
  exact h.calls k call hk s₁ point hadvances

/-! ### Everything comes further -/

def TaskState.weight : TaskState → ℕ
  | .queued => 3
  | .running => 2
  | .returned => 1
  | .ready _ => 0

def CallPoint.weight : CallPoint → ℕ
  | .close => 5
  | .increment => 4
  | .take => 3
  | .each operations => 4 + 2 * operations.length
  | .wait _ operations => 5 + 2 * operations.length
  | .decrement | .mark _ => 2
  | .zero | .single _ => 1
  | .returned => 0

/-- What is left to do. An operation in the list may still be taken and waited for. -/
def ThreadPoolExecutor.weight (s : ThreadPoolExecutor) : ℕ :=
  (s.operations.map (·.task.weight)).sum + 4 * s.listed.length + (s.calls.map (·.point.weight)).sum

theorem weight_setCanceled (i : ℕ) : (s.setCanceled i).weight = s.weight := by
  unfold ThreadPoolExecutor.weight
  rw [setCanceled_listed, setCanceled_calls]
  unfold ThreadPoolExecutor.setCanceled
  cases hop : s.operations[i]? with
  | none => rfl
  | some op =>
    have hsum := sum_map_set_add (·.task.weight) hop { op with state := .canceled }
    dsimp only at hsum ⊢
    omega

theorem weight_set {op' : PoolOperation} (hop : s.operations[i]? = some op)
    (hset : s'.operations = s.operations.set i op') (hcalls : s'.calls = s.calls)
    (hlisted : s'.listed.length ≤ s.listed.length) (hlt : op'.task.weight < op.task.weight) :
    s'.weight < s.weight := by
  have hsum := sum_map_set_add (·.task.weight) hop op'
  unfold ThreadPoolExecutor.weight
  rw [hset, hcalls]
  omega

theorem weight_goTo (hk : s₁.calls[k]? = some call)
    (hlt : s₁.weight + point.weight < s.weight + call.point.weight) : (s₁.goTo k call point).weight < s.weight := by
  have hsum := sum_map_set_add (·.point.weight) hk { call with point }
  unfold ThreadPoolExecutor.weight at hlt ⊢
  rw [goTo_operations, goTo_listed, goTo_calls]
  dsimp only at hsum
  omega

theorem weight_advance (hstep : s.advance k = some s') : s'.weight < s.weight := by
  obtain ⟨call, s₁, point, hk, hadvances, rfl⟩ := advance_cases hstep
  refine weight_goTo (hadvances.calls ▸ hk) ?_
  cases hadvances with
  | close hpoint =>
    rw [hpoint]
    have hle : CallPoint.weight (if call.kind.waits then .increment else .returned) ≤ 4 := by
      split_ifs <;> simp [CallPoint.weight]
    have hsame : ThreadPoolExecutor.weight { s with isShutdown := true } = s.weight := rfl
    have hclose : CallPoint.close.weight = 5 := rfl
    omega
  | increment hpoint =>
    rw [hpoint]
    exact Nat.lt_succ_self _
  | drained hpoint hnil =>
    rw [hpoint]
    exact Nat.lt_succ_self _
  | taken hpoint hne =>
    rw [hpoint]
    have hpos : 0 < s.listed.length := List.length_pos_iff.mpr hne
    simp only [ThreadPoolExecutor.weight, CallPoint.weight, List.length_nil]
    omega
  | again hpoint =>
    rw [hpoint]
    exact Nat.lt_succ_self _
  | @next i operations hpoint =>
    rw [hpoint]
    have hsame : (if call.kind.cancels && s.isCancelable i then s.setCanceled i else s).weight = s.weight := by
      split_ifs
      · exact weight_setCanceled i
      · rfl
    rw [hsame]
    simp only [CallPoint.weight, List.length_cons]
    omega
  | waited hpoint hready =>
    rw [hpoint]
    simp only [CallPoint.weight]
    omega
  | decrement hpoint =>
    rw [hpoint]
    exact Nat.lt_succ_self _
  | zero hpoint hzero =>
    rw [hpoint]
    exact Nat.lt_succ_self _
  | mark hpoint =>
    rw [hpoint, weight_setCanceled]
    exact Nat.lt_succ_self _
  | single hpoint hready =>
    rw [hpoint]
    exact Nat.lt_succ_self _

/-- **Every internal step** leaves less to do. -/
theorem weight_lt (hstep : threadPool.step s l = some s') (hl : l.isInternal = true) : s'.weight < s.weight := by
  cases l with
  | execute isCancelable => cases hl
  | call caller kind => cases hl
  | start i =>
    obtain ⟨op, hop, hqueued, ⟨-, rfl⟩ | rfl⟩ := start_cases hstep
    · refine weight_set hop rfl rfl (le_refl _) ?_
      simp [hqueued, TaskState.weight]
    · refine weight_set hop rfl rfl (le_refl _) ?_
      simp [hqueued, TaskState.weight]
  | leave i =>
    obtain ⟨op, hop, hrunning, -, rfl⟩ := leave_cases hstep
    refine weight_set hop rfl rfl (List.length_erase_le) ?_
    simp [hrunning, TaskState.weight]
  | finish i =>
    obtain ⟨op, hop, hreturned, rfl⟩ := finish_cases hstep
    refine weight_set hop rfl rfl (le_refl _) ?_
    simp [hreturned, TaskState.weight]
  | advance k => exact weight_advance hstep

theorem allowed_of_isInternal (hl : l.isInternal = true) : Allowed s l := by
  cases l with
  | call caller kind => cases hl
  | _ => trivial

/-- **Sane states settle.** -/
theorem Sane.settles (hsane : Sane s) (hsound : Sound s) : Settles s := by
  refine Machine.exists_trail (I := fun s => Sound s ∧ Sane s) ThreadPoolExecutor.weight
    (fun s hs hquiet => ?_) ⟨hsound, hsane⟩
  by_contra hnone
  refine hquiet (Stuck.quiet (stuck_of_forall fun l hl => ?_) hs.1 hs.2)
  by_contra hstep
  obtain ⟨s', hstep⟩ := Option.ne_none_iff_exists'.mp hstep
  exact hnone ⟨l, s', hl, hstep, ⟨hs.1.step hstep, hs.2.step hstep (allowed_of_isInternal hl)⟩,
    weight_lt hstep hl⟩

end HueStream.Threading
