import HueStream.Threading.ThreadPoolExecutor

/-! # Draining the list of operations

A call that waits for all operations takes the list of operations away from the others. What it has taken it
keeps until it is done, and only then is the counter decremented. So a call that finds the list empty may
leave operations behind that others have taken, but when the counter is zero no call holds any (`Safe`). -/

namespace HueStream.Threading

open HueStream.Lib

namespace ThreadPoolExecutor

/-- An operation that has not run to its end and may still do so. -/
def Unfinished (s : ThreadPoolExecutor) (i : ℕ) : Prop :=
  ∃ op, s.operations[i]? = some op ∧ op.task.isDone = false

/-- An operation that some call has taken and not waited for. -/
def Held (s : ThreadPoolExecutor) (i : ℕ) : Prop := ∃ (k : ℕ) (call : PoolCall), s.calls[k]? = some call ∧ i ∈ call.point.held

end ThreadPoolExecutor

/-- The call is at a point of its kind. -/
def PoolCall.Fits (call : PoolCall) : Prop :=
  match call.point with
  | .close => ∃ policy, call.kind = .shutdown policy
  | .mark i | .single i => call.kind = .cancel i
  | .returned => True
  | .increment | .take | .each _ | .wait _ _ | .decrement | .zero => call.kind.waits = true

open ThreadPoolExecutor

/-- What holds in every state. -/
structure Safe (s : ThreadPoolExecutor) : Prop where
  kept : ∀ i, s.Unfinished i → i ∈ s.listed ∨ s.Held i
  count : s.waiting = s.calls.countP (·.point.isActive)
  fits : ∀ (k : ℕ) (call : PoolCall), s.calls[k]? = some call → call.Fits
  accepted : ∀ (k : ℕ) (call : PoolCall), s.calls[k]? = some call → call.accepted ≤ s.operations.length
  /-- What a call has left behind is held by another one. -/
  drained : ∀ (k : ℕ) (call : PoolCall), s.calls[k]? = some call → call.point = .decrement ∨ call.point = .zero →
    ∀ i < call.accepted, s.Unfinished i → s.Held i
  returned : ∀ (k : ℕ) (call : PoolCall), s.calls[k]? = some call → call.point = .returned → call.kind.waits = true →
    ∀ i < call.accepted, ¬ s.Unfinished i
  /-- Only operations that may be canceled are, and only those may not have run. -/
  canceled : ∀ (i : ℕ) (op : PoolOperation), s.operations[i]? = some op → op.state = .canceled ∨ op.task = .ready false →
    op.isCancelable = true

variable {s s' : ThreadPoolExecutor} {i k : ℕ} {op : PoolOperation} {call : PoolCall} {point : CallPoint}

theorem Safe.init : Safe {} := by
  refine ⟨?_, rfl, ?_, ?_, ?_, ?_, ?_⟩
  · rintro i ⟨op, hop, -⟩
    simp at hop
  · intro k call hcall
    simp at hcall
  · intro k call hcall
    simp at hcall
  · intro k call hcall
    simp at hcall
  · intro k call hcall
    simp at hcall
  · intro i op hop
    simp at hop

/-! ### Operations -/

/-- Operations come further, and what is not done stays in the list. -/
theorem Safe.evolve (h : Safe s) (hcalls : s'.calls = s.calls) (hwaiting : s'.waiting = s.waiting)
    (hlength : s'.operations.length = s.operations.length)
    (hunfinished : ∀ i, s'.Unfinished i → s.Unfinished i)
    (hlisted : ∀ i ∈ s.listed, s'.Unfinished i → i ∈ s'.listed)
    (hcanceled : ∀ (i : ℕ) (op : PoolOperation), s'.operations[i]? = some op → op.state = .canceled ∨ op.task = .ready false →
      op.isCancelable = true) : Safe s' := by
  have hheld : ∀ i, s'.Held i ↔ s.Held i := by
    intro i
    unfold Held
    rw [hcalls]
  refine ⟨fun i hi => ?_, ?_, ?_, ?_, fun k call hk hp i hlt hi => ?_, fun k call hk hp hw i hlt hi => ?_,
    hcanceled⟩
  · rw [hheld]
    exact (h.kept i (hunfinished i hi)).imp_left fun hl => hlisted i hl hi
  · rw [hwaiting, hcalls]
    exact h.count
  · rw [hcalls]
    exact h.fits
  · rw [hcalls, hlength]
    exact h.accepted
  · rw [hcalls] at hk
    rw [hheld]
    exact h.drained k call hk hp i hlt (hunfinished i hi)
  · rw [hcalls] at hk
    exact h.returned k call hk hp hw i hlt (hunfinished i hi)

/-- One operation is set, and is not less done than before. -/
theorem unfinished_of_set {op' : PoolOperation} (hop : s.operations[i]? = some op)
    (hset : s'.operations = s.operations.set i op') (hdone : op'.task.isDone = false → op.task.isDone = false)
    {j : ℕ} (hj : s'.Unfinished j) : s.Unfinished j := by
  obtain ⟨x, hx, hxdone⟩ := hj
  rw [hset, List.getElem?_set] at hx
  split_ifs at hx with hij hlt
  · obtain rfl := Option.some.inj hx
    subst hij
    exact ⟨op, hop, hdone hxdone⟩
  · exact ⟨x, hx, hxdone⟩

theorem canceled_of_set {op' : PoolOperation} (h : Safe s) (hset : s'.operations = s.operations.set i op')
    (hcanceled : op'.state = .canceled ∨ op'.task = .ready false → op'.isCancelable = true) :
    ∀ (j : ℕ) (x : PoolOperation), s'.operations[j]? = some x → x.state = .canceled ∨ x.task = .ready false → x.isCancelable = true := by
  intro j x hx
  rw [hset, List.getElem?_set] at hx
  split_ifs at hx with hij hlt
  · obtain rfl := Option.some.inj hx
    exact hcanceled
  · exact h.canceled j x hx

theorem Safe.start (h : Safe s) (hstep : s.start i = some s') : Safe s' := by
  obtain ⟨op, hop, hqueued, ⟨hcanceled, rfl⟩ | rfl⟩ := start_cases hstep
  · refine h.evolve rfl rfl (List.length_set ..) (fun j hj => unfinished_of_set hop rfl (fun hd => ?_) hj)
      (fun _ hl _ => hl) (canceled_of_set h rfl fun _ => ?_)
    · cases hd
    · exact h.canceled i op hop (.inl hcanceled)
  · refine h.evolve rfl rfl (List.length_set ..) (fun j hj => unfinished_of_set hop rfl (fun _ => ?_) hj)
      (fun _ hl _ => hl) (canceled_of_set h rfl fun hor => ?_)
    · rw [hqueued]
      rfl
    · rcases hor with hor | hor <;> cases hor

theorem Safe.leave (h : Safe s) (hstep : s.leave i = some s') : Safe s' := by
  obtain ⟨op, hop, -, -, rfl⟩ := leave_cases hstep
  refine h.evolve rfl rfl (List.length_set ..) (fun j hj => unfinished_of_set hop rfl (fun hd => ?_) hj)
    (fun j hl hj => ?_) (canceled_of_set h rfl fun hor => ?_)
  · cases hd
  · refine (List.mem_erase_of_ne ?_).mpr hl
    rintro rfl
    obtain ⟨x, hx, hdone⟩ := hj
    obtain ⟨hlt, -⟩ := List.getElem?_eq_some_iff.mp hop
    simp only [List.getElem?_set_self hlt, Option.some.injEq] at hx
    subst hx
    cases hdone
  · exact h.canceled i op hop (.inl (hor.resolve_right (by simp)))

theorem Safe.finish (h : Safe s) (hstep : s.finish i = some s') : Safe s' := by
  obtain ⟨op, hop, -, rfl⟩ := finish_cases hstep
  refine h.evolve rfl rfl (List.length_set ..) (fun j hj => unfinished_of_set hop rfl (fun hd => ?_) hj)
    (fun _ hl _ => hl) (canceled_of_set h rfl fun hor => ?_)
  · cases hd
  · exact h.canceled i op hop (.inl (hor.resolve_right (by simp)))

theorem Safe.setCanceled (h : Safe s) (hi : s.isCancelable i = true) : Safe (s.setCanceled i) := by
  unfold ThreadPoolExecutor.setCanceled
  cases hop : s.operations[i]? with
  | none => exact h
  | some op =>
    have hcancelable : op.isCancelable = true := by simpa [ThreadPoolExecutor.isCancelable, hop] using hi
    change Safe { s with operations := s.operations.set i { op with state := .canceled } }
    have hset : ({ s with operations := s.operations.set i { op with state := .canceled } } :
        ThreadPoolExecutor).operations = s.operations.set i { op with state := .canceled } := rfl
    exact h.evolve rfl rfl (List.length_set ..) (fun j hj => unfinished_of_set hop hset id hj)
      (fun _ hl _ => hl) (canceled_of_set h hset fun _ => hcancelable)

/-! ### Calls -/

theorem getElem?_calls_set {call' : PoolCall} {j : ℕ} {x : PoolCall}
    (hx : (s.calls.set k call')[j]? = some x) : (j = k ∧ x = call') ∨ j ≠ k ∧ s.calls[j]? = some x := by
  rw [List.getElem?_set] at hx
  split_ifs at hx with hjk hlt
  · exact .inl ⟨hjk.symm, (Option.some.inj hx).symm⟩
  · exact .inr ⟨Ne.symm hjk, hx⟩

theorem getElem?_calls_set_self {call' : PoolCall} (hk : s.calls[k]? = some call) :
    (s.calls.set k call')[k]? = some call' :=
  List.getElem?_set_self (List.getElem?_eq_some_iff.mp hk).1

theorem getElem?_calls_set_ne {call' x : PoolCall} {j : ℕ} (hj : j ≠ k) (hx : s.calls[j]? = some x) :
    (s.calls.set k call')[j]? = some x := by rwa [List.getElem?_set_ne (Ne.symm hj)]

/-- A call goes to another point, and takes from the list what it holds then. -/
theorem Safe.goTo (h : Safe s) (point : CallPoint) (hk : s.calls[k]? = some call)
    (hoperations : s'.operations = s.operations) (hcalls : s'.calls = s.calls.set k { call with point })
    (hwaiting : s'.waiting + (if call.point.isActive then 1 else 0) =
      s.waiting + if point.isActive then 1 else 0)
    (hlisted : ∀ i ∈ s.listed, i ∈ s'.listed ∨ i ∈ point.held)
    (hheld : ∀ i ∈ call.point.held, s.Unfinished i → i ∈ point.held)
    (hfits : PoolCall.Fits { call with point })
    (hdrained : point = .decrement ∨ point = .zero → ∀ i < call.accepted, s.Unfinished i → s.Held i)
    (hreturned : point = .returned → call.kind.waits = true → ∀ i < call.accepted, ¬ s.Unfinished i) :
    Safe s' := by
  have hunfinished : ∀ i, s'.Unfinished i ↔ s.Unfinished i := by
    intro i
    unfold Unfinished
    rw [hoperations]
  have hself : s'.calls[k]? = some { call with point } := hcalls ▸ getElem?_calls_set_self hk
  have hkeep : ∀ i, s.Unfinished i → s.Held i → s'.Held i := by
    rintro i hi ⟨j, x, hx, hix⟩
    by_cases hjk : j = k
    · subst hjk
      obtain rfl := Option.some.inj (hk.symm.trans hx)
      exact ⟨j, _, hself, hheld i hix hi⟩
    · exact ⟨j, x, hcalls ▸ getElem?_calls_set_ne hjk hx, hix⟩
  have hcases : ∀ (j : ℕ) (x : PoolCall), s'.calls[j]? = some x →
      (j = k ∧ x = { call with point }) ∨ j ≠ k ∧ s.calls[j]? = some x := by
    intro j x hx
    exact getElem?_calls_set (hcalls ▸ hx)
  refine ⟨fun i hi => ?_, ?_, fun j x hx => ?_, fun j x hx => ?_, fun j x hx hp i hlt hi => ?_,
    fun j x hx hp hw i hlt hi => ?_, ?_⟩
  · rw [hunfinished] at hi
    rcases h.kept i hi with hl | hheld'
    · rcases hlisted i hl with hl | hp
      · exact .inl hl
      · exact .inr ⟨k, _, hself, hp⟩
    · exact .inr (hkeep i hi hheld')
  · have hcount := countP_set_add (fun c : PoolCall => c.point.isActive) hk { call with point }
    rw [hcalls]
    have hbefore := h.count
    dsimp only at hcount
    omega
  · rcases hcases j x hx with ⟨-, rfl⟩ | ⟨-, hx⟩
    · exact hfits
    · exact h.fits j x hx
  · rw [hoperations]
    rcases hcases j x hx with ⟨-, rfl⟩ | ⟨-, hx⟩
    · exact h.accepted k call hk
    · exact h.accepted j x hx
  · rw [hunfinished] at hi
    refine hkeep i hi ?_
    rcases hcases j x hx with ⟨-, rfl⟩ | ⟨-, hx⟩
    · exact hdrained hp i hlt hi
    · exact h.drained j x hx hp i hlt hi
  · rw [hunfinished] at hi
    rcases hcases j x hx with ⟨-, rfl⟩ | ⟨-, hx⟩
    · exact hreturned hp hw i hlt hi
    · exact h.returned j x hx hp hw i hlt hi
  · rw [hoperations]
    exact h.canceled

theorem not_unfinished_of_isReady (h : s.isReady i = true) : ¬ s.Unfinished i := by
  rintro ⟨op, hop, hdone⟩
  have hready : op.task.isReady = true := by simpa [ThreadPoolExecutor.isReady, hop] using h
  cases htask : op.task with
  | ready ran =>
    rw [htask] at hdone
    cases hdone
  | _ =>
    rw [htask] at hready
    cases hready

/-- When the counter is zero no call holds an operation. -/
theorem Safe.not_held (h : Safe s) (hzero : s.waiting = 0) (i : ℕ) : ¬ s.Held i := by
  rintro ⟨k, call, hk, hi⟩
  have hnone := List.countP_eq_zero.mp (h.count.symm.trans hzero) call (List.mem_of_getElem? hk)
  cases hp : call.point with
  | each operations => simp [hp, CallPoint.isActive] at hnone
  | wait operation operations => simp [hp, CallPoint.isActive] at hnone
  | _ => simp [hp, CallPoint.held] at hi

theorem Safe.advance (h : Safe s) (hstep : s.advance k = some s')
    (hmark : ∀ (k i : ℕ) (call : PoolCall), s.calls[k]? = some call → call.kind = .cancel i →
      s.isCancelable i = true) : Safe s' := by
  obtain ⟨call, s₁, point, hk, hadvances, rfl⟩ := advance_cases hstep
  have hfits := h.fits k call hk
  unfold PoolCall.Fits at hfits
  cases hadvances with
  | close hpoint =>
    cases hw : call.kind.waits with
    | true =>
      refine h.goTo .increment hk rfl rfl ?_ (fun i hi => .inl hi) ?_ hw ?_ ?_
      all_goals simp [hpoint, CallPoint.isActive, CallPoint.held]
    | false =>
      refine h.goTo .returned hk rfl rfl ?_ (fun i hi => .inl hi) ?_ trivial ?_ ?_
      all_goals simp [hpoint, hw, CallPoint.isActive, CallPoint.held]
  | increment hpoint =>
    rw [hpoint] at hfits
    refine h.goTo .take hk rfl rfl ?_ (fun i hi => .inl hi) ?_ hfits ?_ ?_
    all_goals simp [hpoint, CallPoint.isActive, CallPoint.held]
  | drained hpoint hnil =>
    rw [hpoint] at hfits
    refine h.goTo .decrement hk rfl rfl ?_ (fun i hi => .inl hi) ?_ hfits (fun _ i _ hi => ?_) ?_
    · simp [hpoint, CallPoint.isActive]
    · simp [hpoint, CallPoint.held]
    · -- What is not in the empty list is held by another call.
      have hkept := h.kept i hi
      rw [hnil] at hkept
      exact hkept.resolve_left List.not_mem_nil
    · simp
  | taken hpoint hne =>
    rw [hpoint] at hfits
    refine h.goTo (.each s.listed) hk rfl rfl ?_ (fun i hi => .inr hi) ?_ hfits ?_ ?_
    all_goals simp [hpoint, CallPoint.isActive, CallPoint.held]
  | again hpoint =>
    rw [hpoint] at hfits
    refine h.goTo .take hk rfl rfl ?_ (fun i hi => .inl hi) ?_ hfits ?_ ?_
    all_goals simp [hpoint, CallPoint.isActive, CallPoint.held]
  | @next i operations hpoint =>
    rw [hpoint] at hfits
    have hsafe : Safe (if call.kind.cancels && s.isCancelable i then s.setCanceled i else s) := by
      split_ifs with hcancels
      · simp only [Bool.and_eq_true] at hcancels
        exact h.setCanceled hcancels.2
      · exact h
    have hk' : (if call.kind.cancels && s.isCancelable i then s.setCanceled i else s).calls[k]? = some call := by
      split_ifs
      · simpa using hk
      · exact hk
    refine hsafe.goTo (.wait i operations) hk' rfl rfl ?_ (fun i hi => .inl hi)
      (fun j hj _ => by rwa [hpoint] at hj) hfits ?_ ?_
    all_goals simp [hpoint, CallPoint.isActive]
  | @waited i operations hpoint hready =>
    rw [hpoint] at hfits
    refine h.goTo (.each operations) hk rfl rfl ?_ (fun i hi => .inl hi) (fun j hj hun => ?_) hfits ?_ ?_
    · simp [hpoint, CallPoint.isActive]
    · rw [hpoint, CallPoint.held, List.mem_cons] at hj
      rcases hj with rfl | hj
      · exact absurd hun (not_unfinished_of_isReady hready)
      · exact hj
    · simp
    · simp
  | decrement hpoint =>
    rw [hpoint] at hfits
    have hpos : 0 < s.waiting := by
      rw [h.count, List.countP_pos_iff]
      exact ⟨call, List.mem_of_getElem? hk, by simp [hpoint, CallPoint.isActive]⟩
    refine h.goTo .zero hk rfl rfl ?_ (fun i hi => .inl hi) ?_ hfits
      (fun _ => h.drained k call hk (.inl hpoint)) ?_
    · simp only [goTo_waiting, hpoint, CallPoint.isActive, if_true, Bool.false_eq_true, if_false]
      omega
    · simp [hpoint, CallPoint.held]
    · simp
  | zero hpoint hzero =>
    refine h.goTo .returned hk rfl rfl ?_ (fun i hi => .inl hi) ?_ trivial ?_
      (fun _ _ i hlt hi => ?_)
    · simp [hpoint, CallPoint.isActive]
    · simp [hpoint, CallPoint.held]
    · simp
    · exact h.not_held hzero i (h.drained k call hk (.inr hpoint) i hlt hi)
  | @mark i hpoint =>
    rw [hpoint] at hfits
    have hsafe := h.setCanceled (hmark k i call hk hfits)
    have hk' : (s.setCanceled i).calls[k]? = some call := by simpa using hk
    refine hsafe.goTo (.single i) hk' rfl rfl ?_ (fun i hi => .inl hi) ?_ hfits ?_ ?_
    all_goals simp [hpoint, CallPoint.isActive, CallPoint.held]
  | single hpoint hready =>
    rw [hpoint] at hfits
    refine h.goTo .returned hk rfl rfl ?_ (fun i hi => .inl hi) ?_ trivial ?_ ?_
    all_goals simp [hpoint, hfits, CallKind.waits, CallPoint.isActive, CallPoint.held]

/-- A new operation is in the list, and no call began after it. -/
theorem Safe.execute (h : Safe s) (isCancelable : Bool) : Safe (s.execute isCancelable) := by
  unfold ThreadPoolExecutor.execute
  split_ifs
  · exact h
  · have hold : ∀ i < s.operations.length, ({ s with
        operations := s.operations ++ [{ isCancelable }], listed := s.listed ++ [s.operations.length] } :
          ThreadPoolExecutor).Unfinished i → s.Unfinished i := by
      rintro i hi ⟨op, hop, hdone⟩
      exact ⟨op, by rwa [List.getElem?_append_left hi] at hop, hdone⟩
    refine ⟨fun i hi => ?_, h.count, h.fits, fun k call hk => ?_, fun k call hk hp i hlt hi => ?_,
      fun k call hk hp hw i hlt hi => ?_, fun i op hop hor => ?_⟩
    · rcases lt_or_ge i s.operations.length with hlt | hge
      · exact (h.kept i (hold i hlt hi)).imp_left (List.mem_append_left _)
      · obtain ⟨op, hop, -⟩ := hi
        obtain ⟨hlt, -⟩ := List.getElem?_eq_some_iff.mp hop
        rw [List.length_append, List.length_singleton] at hlt
        obtain rfl : i = s.operations.length := by omega
        exact .inl (by simp)
    · have hle := h.accepted k call hk
      simp only [List.length_append, List.length_singleton]
      omega
    · exact h.drained k call hk hp i hlt (hold i (lt_of_lt_of_le hlt (h.accepted k call hk)) hi)
    · exact h.returned k call hk hp hw i hlt (hold i (lt_of_lt_of_le hlt (h.accepted k call hk)) hi)
    · rcases lt_or_ge i s.operations.length with hlt | hge
      · rw [List.getElem?_append_left hlt] at hop
        exact h.canceled i op hop hor
      · rw [List.getElem?_append_right hge, List.getElem?_singleton] at hop
        split_ifs at hop
        obtain rfl := Option.some.inj hop
        rcases hor with hor | hor <;> cases hor

theorem entry_held (kind : CallKind) : (entry kind).held = [] := by
  cases kind <;> rfl

theorem entry_isActive (kind : CallKind) : (entry kind).isActive = false := by
  cases kind <;> rfl

theorem getElem?_calls_append {call' x : PoolCall} {j : ℕ} (hx : (s.calls ++ [call'])[j]? = some x) :
    s.calls[j]? = some x ∨ x = call' ∧ j = s.calls.length := by
  rcases lt_or_ge j s.calls.length with hlt | hge
  · rw [List.getElem?_append_left hlt] at hx
    exact .inl hx
  · rw [List.getElem?_append_right hge, List.getElem?_singleton] at hx
    split_ifs at hx with hzero
    exact .inr ⟨(Option.some.inj hx).symm, by omega⟩

/-- A call that begins holds nothing and has not returned. -/
theorem Safe.enter {caller : Option ℕ} {kind : CallKind} (h : Safe s) (hstep : s.call caller kind = some s') :
    Safe s' := by
  unfold ThreadPoolExecutor.call at hstep
  split_ifs at hstep
  obtain rfl := Option.some.inj hstep
  have hheld : ∀ i, s.Held i → ({ s with calls := s.calls ++
      [⟨caller, kind, s.operations.length, entry kind⟩] } : ThreadPoolExecutor).Held i := by
    rintro i ⟨k, call, hk, hi⟩
    exact ⟨k, call, (List.getElem?_append_left (List.getElem?_eq_some_iff.mp hk).1).trans hk, hi⟩
  refine ⟨fun i hi => (h.kept i hi).imp_right (hheld i), ?_, fun k call hk => ?_, fun k call hk => ?_,
    fun k call hk hp i hlt hi => ?_, fun k call hk hp hw i hlt hi => ?_, h.canceled⟩
  · rw [List.countP_append, ← h.count]
    simp [entry_isActive]
  · rcases getElem?_calls_append hk with hk | ⟨rfl, -⟩
    · exact h.fits k call hk
    · cases kind with
      | shutdown policy => exact ⟨policy, rfl⟩
      | _ => exact rfl
  · rcases getElem?_calls_append hk with hk | ⟨rfl, -⟩
    · exact h.accepted k call hk
    · exact le_refl _
  · rcases getElem?_calls_append hk with hk | ⟨rfl, -⟩
    · exact hheld i (h.drained k call hk hp i hlt hi)
    · cases kind <;> rcases hp with hp | hp <;> cases hp
  · rcases getElem?_calls_append hk with hk | ⟨rfl, -⟩
    · exact h.returned k call hk hp hw i hlt hi
    · cases kind <;> cases hp

end HueStream.Threading
