import HueStream.Threading.Bookkeeping

/-! # Clearing the list of an executor

What a call of `clear` knows of the tickets it has closed, and what follows when a call returns.

* `nothing_starts_after_shutdown`: after `shutdown` has returned nothing is accepted and no ticket of the
  executor starts.
* `accepted_are_over`: when a call that clears the list returns to a caller outside of the queue, what was
  accepted before has run or never starts. -/

namespace HueStream.Threading

open HueStream.Lib

variable {Θ : Type} {θ θ' : Θ} {ticket n : ℕ}

/-! ### What a call knows -/

namespace ExecutorPoint

/-- The tickets a call has closed. -/
def closed : ExecutorPoint → List (Option ℕ)
  | .lock closed | .sweep closed _ _ | .next closed _ | .back closed _ _ => closed
  | _ => []

/-- What a call is still to close in its pass. -/
def todo : ExecutorPoint → List Cleanup
  | .next _ todo | .back _ _ todo => todo
  | _ => []

end ExecutorPoint

/-- The points of `execute`. -/
def ExecutorPoint.executes : ExecutorPoint → Bool
  | .checkClosing | .createTicket | .post _ | .posted _ | .discardTicket _ | .discarded _ => true
  | _ => false

/-- The function is `execute`, and does not clear the list. -/
def ExecutorFunction.executes : ExecutorFunction → Bool
  | .execute _ => true
  | _ => false

/-- The queue does not have the ticket any more, if there is one. -/
def Tickets.Gone (k : Tickets) (ticket : Option ℕ) : Prop :=
  ∀ n, ticket = some n → k.registered n = false ∧ n < k.created

/-- **What a call knows** of the tickets it has closed and of the list. -/
structure ExecutorCall.Knows (c : ExecutorCall) (s : QueueExecutor Θ) (θ : Θ) : Prop where
  closed : ∀ n, some n ∈ c.point.closed → n < s.queue.created ∧ s.queue.Served c.below n
  back : ∀ closed n todo, c.point = .back closed (some n) todo → n < s.queue.created ∧
    (s.queue.Served c.below n ∨ InQueueWith (s.queue.threads θ) c.below n)
  swept : ∀ closed kept rest, c.point = .sweep closed kept rest →
    (kept ++ rest).Sublist s.tickets ∧
      ∀ info ∈ s.tickets, info ∈ kept ∨ info ∈ rest ∨ s.queue.Gone info.ticket
  todo : ∀ a ∈ c.point.todo, ∀ n, a.ticket = some n → ∃ info ∈ s.accepted, info.ticket = some n ∧
    (a = .discard (some n) → info.waitOnCleanup = false)
  closing : c.function = .shutdown → c.point ≠ .close → s.closing = true
  before : ∀ info ∈ c.before, info ∈ s.accepted
  fits : c.point.executes = c.function.executes

/-- What holds in every state of the executor, its queue and its callers. -/
structure Executing (s : QueueExecutor Θ) : Prop where
  tracked : Tracked s.queue
  formed : ∀ θ, Formed (s.queue.threads θ) (s.sync = some θ) (s.calls θ)
  book : Bookkept s
  knows : ∀ θ, ∀ c ∈ s.calls θ, c.Knows s θ

section Steps

variable [DecidableEq Θ] {s s' : QueueExecutor Θ} {l : ExecutorLabel Θ} {c : ExecutorCall}
  {calls : List ExecutorCall}

theorem onTicket_step {label : ℕ → QueueLabel Θ} {ticket : Option ℕ} {q : OperationalQueue Θ}
    (h : s.onTicket label ticket = some q) : q = s.queue ∨ ∃ label, Step s.queue label q := by
  rcases onTicket_cases h with ⟨-, hq⟩ | ⟨n, -, hstep⟩
  · exact .inl hq
  · exact .inr ⟨_, hstep⟩

theorem queue_of_step (h : ExecutorStep s l s') :
    s'.queue = s.queue ∨ ∃ label, Step s.queue label s'.queue := by
  cases h with
  | queue _ hstep | finish _ hstep => exact .inr ⟨_, hstep⟩
  | call | move | swept => exact .inl rfl
  | create _ _ hstep => exact .inr ⟨_, hstep⟩
  | post _ _ _ _ hq | ask _ _ _ hq => exact onTicket_step hq

theorem accepted_of_step (h : ExecutorStep s l s') : s.accepted.Sublist s'.accepted := by
  cases h with
  | post => exact List.sublist_append_left _ _
  | _ => exact .refl _

theorem closing_of_step (h : ExecutorStep s l s') (hclosing : s.closing = true) :
    s'.closing = true := by
  cases h with
  | move _ _ hmove =>
    cases hmove with
    | close => rfl
    | _ => exact hclosing
  | _ => exact hclosing

/-- The list changes where the mutex is free, or where a call that holds it has swept the list. -/
theorem tickets_of_step (h : ExecutorStep s l s') : s'.tickets = s.tickets ∨ s.sync = none ∨
    ∃ θ c calls, l = .go θ ∧ s.calls θ = c :: calls ∧ c.point.locks = true := by
  cases h with
  | finish _ _ _ htickets => exact htickets.imp_right fun h => .inl h.1
  | @swept θ c calls _ _ hinner hpoint =>
    refine .inr (.inr ⟨θ, c, calls, rfl, hinner.calls, ?_⟩)
    rw [hpoint]
    rfl
  | post _ _ hsync => exact .inr (.inl hsync)
  | _ => exact .inl rfl

/-- A call that does not act keeps what it knows. -/
theorem ExecutorCall.Knows.mono (h : c.Knows s θ) (htracked : Tracked s.queue)
    (hstep : ExecutorStep s l s') (htickets : c.point.locks = true → s'.tickets = s.tickets) :
    c.Knows s' θ := by
  have haccepted := accepted_of_step hstep
  refine ⟨fun n hn => ?_, fun closed n todo hpoint => ?_, fun closed kept rest hpoint => ?_,
    fun a ha n hn => ?_, fun hfunction hpoint => closing_of_step hstep (h.closing hfunction hpoint),
    fun info hinfo => haccepted.subset (h.before info hinfo), h.fits⟩
  · obtain ⟨hlt, hserved⟩ := h.closed n hn
    rcases queue_of_step hstep with hqueue | ⟨label, hqueue⟩
    · rw [hqueue]
      exact ⟨hlt, hserved⟩
    · exact ⟨hlt.trans_le (created_of_step hqueue), hserved.of_step hqueue hlt⟩
  · obtain ⟨hlt, hserved⟩ := h.back closed n todo hpoint
    rcases queue_of_step hstep with hqueue | ⟨label, hqueue⟩
    · rw [hqueue]
      exact ⟨hlt, hserved⟩
    · refine ⟨hlt.trans_le (created_of_step hqueue), ?_⟩
      rcases hserved with hserved | hin
      · exact .inl (hserved.of_step hqueue hlt)
      · exact (htracked.inQueueWith_of_step hqueue hlt hin).symm
  · obtain ⟨hsub, hall⟩ := h.swept closed kept rest hpoint
    rw [htickets (by rw [hpoint]; rfl)]
    refine ⟨hsub, fun info hinfo => (hall info hinfo).imp_right (.imp_right fun hgone => ?_)⟩
    intro n hn
    obtain ⟨hregistered, hlt⟩ := hgone n hn
    rcases queue_of_step hstep with hqueue | ⟨label, hqueue⟩
    · rw [hqueue]
      exact ⟨hregistered, hlt⟩
    · exact ⟨unregistered_of_step hqueue hlt hregistered, hlt.trans_le (created_of_step hqueue)⟩
  · obtain ⟨info, hinfo, hinfo'⟩ := h.todo a ha n hn
    exact ⟨info, haccepted.subset hinfo, hinfo'⟩

omit [DecidableEq Θ] in
/-- A call that has closed nothing, and is in no pass. -/
theorem ExecutorCall.Knows.plain (hclosed : c.point.closed = []) (htodo : c.point.todo = [])
    (hback : ∀ closed n todo, c.point ≠ .back closed n todo)
    (hswept : ∀ closed kept rest, c.point ≠ .sweep closed kept rest)
    (hclosing : c.function = .shutdown → c.point ≠ .close → s.closing = true)
    (hbefore : ∀ info ∈ c.before, info ∈ s.accepted)
    (hfits : c.point.executes = c.function.executes) : c.Knows s θ where
  closed := by simp [hclosed]
  back closed n todo hpoint := absurd hpoint (hback closed n todo)
  swept closed kept rest hpoint := absurd hpoint (hswept closed kept rest)
  todo := by simp [htodo]
  closing := hclosing
  before := hbefore
  fits := hfits

omit [DecidableEq Θ] in
theorem not_inQueueWith_self (frames : List Frame) : ¬ InQueueWith frames frames n := by
  rintro ⟨above, frame, heq, -⟩
  have hlength := congrArg List.length heq
  simp at hlength
  omega

omit [DecidableEq Θ] in
/-- The call that goes on by itself knows the same, or what it has learned. -/
theorem Executing.knows_of_move (h : Executing s) (hinner : Innermost s θ c calls)
    {point next : ExecutorPoint} {sync : Option Θ} {closing : Bool} (hpoint : c.point = point)
    (hmove : Moves s θ point sync closing (some next)) {calls' : Θ → List ExecutorCall} :
    ({ c with point := next } : ExecutorCall).Knows { s with sync, closing, calls := calls' } θ := by
  have hc : c.Knows s θ := h.knows θ c (hinner.calls ▸ List.mem_cons_self)
  have hclosing : c.function = .shutdown → closing = true := by
    intro hfunction
    have hsame (hne : point ≠ .close) : s.closing = true := hc.closing hfunction (hpoint ▸ hne)
    cases hmove with
    | close => rfl
    | _ => exact hsame (by simp)
  have hlt : ∀ info ∈ s.tickets, ∀ n, info.ticket = some n → n < s.queue.created := by
    intro info hinfo n hn
    exact h.book.created n (.inl (h.book.known info (h.book.listed.subset hinfo) n hn))
  have hclosed := hc.closed
  have hback := hc.back
  have hswept := hc.swept
  have htodo := hc.todo
  have hfits : next.executes = c.function.executes := by
    rw [← hc.fits, hpoint]
    cases hmove <;> rfl
  rw [hpoint] at hclosed hback hswept htodo
  cases hmove with
  | accept | noTicket | refuse | close =>
    exact .plain rfl rfl (by simp) (by simp) (fun hfunction _ => hclosing hfunction) hc.before hfits
  | @lock closed =>
    refine ⟨hclosed, by simp, ?_, by simp [ExecutorPoint.todo], fun hfunction _ => hclosing hfunction,
      hc.before, hfits⟩
    rintro _ _ _ heq
    cases heq
    exact ⟨.refl _, fun info hinfo => .inr (.inl hinfo)⟩
  | @keep closed kept infos info hticket =>
    refine ⟨hclosed, by simp, ?_, by simp [ExecutorPoint.todo], fun hfunction _ => hclosing hfunction,
      hc.before, hfits⟩
    rintro _ _ _ heq
    cases heq
    obtain ⟨hsub, hall⟩ := hswept closed kept (info :: infos) rfl
    refine ⟨by simpa using hsub, fun info' hinfo' => ?_⟩
    rcases hall info' hinfo' with hmem | hmem | hgone
    · exact .inl (List.mem_append_left _ hmem)
    · rcases List.mem_cons.mp hmem with rfl | hmem
      · exact .inl (List.mem_append_right _ (List.mem_singleton_self _))
      · exact .inr (.inl hmem)
    · exact .inr (.inr hgone)
  | @drop closed kept infos info hticket =>
    refine ⟨hclosed, by simp, ?_, by simp [ExecutorPoint.todo], fun hfunction _ => hclosing hfunction,
      hc.before, hfits⟩
    rintro _ _ _ heq
    cases heq
    obtain ⟨hsub, hall⟩ := hswept closed kept (info :: infos) rfl
    refine ⟨(List.Sublist.append_left (List.sublist_cons_self _ _) _).trans hsub,
      fun info' hinfo' => ?_⟩
    rcases hall info' hinfo' with hmem | hmem | hgone
    · exact .inl hmem
    · rcases List.mem_cons.mp hmem with rfl | hmem
      · refine .inr (.inr fun n hn => ⟨?_, hlt info' hinfo' n hn⟩)
        simpa [Tickets.hasTicket, hn] using hticket
      · exact .inr (.inl hmem)
    · exact .inr (.inr hgone)
  | @again closed =>
    exact ⟨hclosed, by simp, by simp, by simp [ExecutorPoint.todo], fun hfunction _ => hclosing hfunction,
      hc.before, hfits⟩
  | @back closed ticket todo =>
    refine ⟨fun n hn => ?_, by simp, by simp, htodo, fun hfunction _ => hclosing hfunction, hc.before, hfits⟩
    rcases List.mem_append.mp hn with hn | hn
    · exact hclosed n hn
    · obtain rfl := List.mem_singleton.mp hn
      obtain ⟨hn, hserved⟩ := hback closed n todo rfl
      rw [hinner.active] at hserved
      exact ⟨hn, hserved.resolve_right (not_inQueueWith_self _)⟩

theorem mem_cleanups {policy : OperationType} {tickets : List TicketInfo} {a : Cleanup}
    (h : a ∈ cleanups policy tickets) : ∃ info ∈ tickets, a.ticket = info.ticket ∧
      (∀ ticket, a = .discard ticket → info.waitOnCleanup = false) := by
  rcases List.mem_append.mp h with h | h
  · obtain ⟨info, hinfo, rfl⟩ := List.mem_map.mp h
    obtain ⟨hmem, hcond⟩ := List.mem_filter.mp hinfo
    rw [Bool.and_eq_true, Bool.not_eq_true'] at hcond
    exact ⟨info, List.mem_reverse.mp hmem, rfl, fun _ _ => hcond.1⟩
  · obtain ⟨info, hinfo, rfl⟩ := List.mem_map.mp h
    exact ⟨info, (List.mem_filter.mp hinfo).1, rfl, by simp⟩

omit [DecidableEq Θ] in
/-- A call that has swept the list closes what is left. -/
theorem Executing.knows_of_swept (h : Executing s) (hinner : Innermost s θ c calls)
    {closed : List (Option ℕ)} {kept : List TicketInfo} {next : ExecutorPoint}
    (hpoint : c.point = .sweep closed kept [])
    (hnext : sweepEnd c.function.policy closed kept = some next) {calls' : Θ → List ExecutorCall} :
    ({ c with point := next } : ExecutorCall).Knows
      { s with tickets := kept, sync := none, calls := calls' } θ := by
  have hc : c.Knows s θ := h.knows θ c (hinner.calls ▸ List.mem_cons_self)
  obtain ⟨hsub, -⟩ := hc.swept closed kept [] hpoint
  rw [List.append_nil] at hsub
  have hclosed := hc.closed
  rw [hpoint] at hclosed
  dsimp only [sweepEnd] at hnext
  split_ifs at hnext
  obtain rfl := Option.some.inj hnext
  refine ⟨hclosed, by simp, by simp, fun a ha n hn => ?_,
    fun hfunction _ => hc.closing hfunction (by simp [hpoint]), hc.before, by rw [← hc.fits, hpoint]; rfl⟩
  obtain ⟨info, hinfo, hticket, hdiscard⟩ := mem_cleanups ha
  refine ⟨info, h.book.listed.subset (hsub.subset (List.mem_filter.mp hinfo).1), ?_, hdiscard _⟩
  rw [← hticket, hn]

/-- A call asks the queue for a ticket: it is served, or the queue is at it. -/
theorem Executing.served_of_ask (h : Executing s) (hinner : Innermost s θ c calls)
    {q : OperationalQueue Θ} (hlt : n < s.queue.created)
    (hstep : s.queue.step (.discardTicket θ n) = some q ∨ s.queue.step (.waitTicket θ n) = some q) :
    q.Served c.below n ∨ InQueueWith (q.threads θ) c.below n := by
  rcases hstep with hstep | hstep
  · cases step_cases hstep with
    | nothing hnothing =>
      obtain ⟨hregistered, -⟩ := hnothing θ n rfl
      exact .inl (h.tracked.served_of_unregistered hregistered hlt)
    | discardRunning =>
      refine .inr ⟨[], .lookup n, ?_, rfl⟩
      rw [OperationalQueue.setFrames_self, hinner.active]
      rfl
    | remove =>
      refine .inr ⟨[], .signal n, ?_, rfl⟩
      rw [OperationalQueue.setFrames_self, hinner.active]
      rfl
  · simp only [OperationalQueue.step] at hstep
    split_ifs at hstep
    cases hstep
    refine .inr ⟨[], .lookup n, ?_, rfl⟩
    rw [OperationalQueue.push, OperationalQueue.setFrames_self, hinner.active]
    rfl

/-- What a call knows that has asked the queue. -/
theorem Executing.knows_of_ask (h : Executing s) (hinner : Innermost s θ c calls)
    {label : ℕ → QueueLabel Θ} {ticket : Option ℕ} {point next : ExecutorPoint}
    {q : OperationalQueue Θ} (hpoint : c.point = point) (hasks : Asks θ point label ticket next)
    (hq : s.onTicket label ticket = some q) {calls' : Θ → List ExecutorCall} :
    ({ c with point := next } : ExecutorCall).Knows { s with queue := q, calls := calls' } θ := by
  have hc : c.Knows s θ := h.knows θ c (hinner.calls ▸ List.mem_cons_self)
  have hserved : ∀ n, n < s.queue.created ∧ s.queue.Served c.below n →
      n < q.created ∧ q.Served c.below n := by
    rintro n ⟨hlt, hn⟩
    rcases onTicket_step hq with rfl | ⟨label, hstep⟩
    · exact ⟨hlt, hn⟩
    · exact ⟨hlt.trans_le (created_of_step hstep), hn.of_step hstep hlt⟩
  have hcreated : s.queue.created ≤ q.created := by
    rcases onTicket_step hq with rfl | ⟨label, hstep⟩
    · exact le_rfl
    · exact created_of_step hstep
  have hclosed := hc.closed
  have htodo := hc.todo
  have hclosing : point ≠ .close → c.function = .shutdown → s.closing = true :=
    fun hne hfunction => hc.closing hfunction (hpoint ▸ hne)
  have hfits : next.executes = c.function.executes := by
    rw [← hc.fits, hpoint]
    cases hasks <;> rfl
  rw [hpoint] at hclosed htodo
  have hback (a : Cleanup) (ha : a ∈ point.todo) (hticket : a.ticket = ticket)
      (hlabel : label = .discardTicket θ ∨ label = .waitTicket θ) :
      ∀ n, ticket = some n → n < q.created ∧
        (q.Served c.below n ∨ InQueueWith (q.threads θ) c.below n) := by
    rintro n rfl
    obtain ⟨info, hinfo, hinfo', -⟩ := htodo a ha n hticket
    have hlt := h.book.created n (.inl (h.book.known info hinfo n hinfo'))
    refine ⟨hlt.trans_le hcreated, h.served_of_ask hinner hlt ?_⟩
    rcases hlabel with rfl | rfl
    · exact .inl hq
    · exact .inr hq
  cases hasks with
  | late =>
    exact .plain rfl rfl (by simp) (by simp) (fun hfunction _ => hclosing (by simp) hfunction) hc.before
      hfits
  | discard closed ticket todo =>
    refine ⟨fun n hn => hserved n (hclosed n hn), ?_, by simp,
      fun a ha => htodo a (List.mem_cons_of_mem _ ha), fun hfunction _ => hclosing (by simp) hfunction,
      hc.before, hfits⟩
    rintro _ n _ heq
    cases heq
    exact hback _ List.mem_cons_self rfl (.inl rfl) n rfl
  | wait closed ticket todo =>
    refine ⟨fun n hn => hserved n (hclosed n hn), ?_, by simp,
      fun a ha => htodo a (List.mem_cons_of_mem _ ha), fun hfunction _ => hclosing (by simp) hfunction,
      hc.before, hfits⟩
    rintro _ n _ heq
    cases heq
    exact hback _ List.mem_cons_self rfl (.inr rfl) n rfl

/-! ### Every step -/

/-- The innermost call of the thread goes on to `next`, or has returned. -/
structure GoesOn (s s' : QueueExecutor Θ) (θ : Θ) (c : ExecutorCall) (calls : List ExecutorCall)
    (next : Option ExecutorPoint) : Prop where
  inner : Innermost s θ c calls
  calls : s'.calls = Function.update s.calls θ (c.continue calls next)
  threads : ∀ θ', θ' ≠ θ → s'.queue.threads θ' = s.queue.threads θ'
  sync : s'.sync = s.sync ∨ s.sync = none ∨ c.point.locks = true

namespace GoesOn

variable {next : Option ExecutorPoint} (hgo : GoesOn s s' θ c calls next)
include hgo

theorem calls_self : s'.calls θ = c.continue calls next := by
  rw [hgo.calls, Function.update_self]

theorem calls_of_ne (hθ : θ' ≠ θ) : s'.calls θ' = s.calls θ' := by
  rw [hgo.calls, Function.update_of_ne hθ]

theorem awaits_of_mem (h : Executing s) {c' : ExecutorCall} (hc : c' ∈ calls) :
    c'.point.awaits = true := by
  have hformed := h.formed θ
  rw [hgo.inner.calls] at hformed
  cases hformed with
  | call _ _ hcalls => exact hcalls c' hc

theorem sync_of_locks (h : Executing s) (hlocks : c.point.locks = true) : s.sync = some θ :=
  (h.formed θ).locks_of_mem (hgo.inner.calls ▸ List.mem_cons_self) hlocks

theorem fresh_self (h : Executing s) : s'.fresh θ = next.bind ExecutorPoint.fresh := by
  unfold QueueExecutor.fresh
  rw [hgo.calls_self]
  cases next with
  | some point => rfl
  | none =>
    cases hcalls : calls with
    | nil => simp [ExecutorCall.continue]
    | cons c' calls' =>
      have hawaits := hgo.awaits_of_mem h (show c' ∈ calls by simp [hcalls])
      simp only [ExecutorCall.continue, List.head?_cons, Option.bind_some, Option.bind_none]
      generalize c'.point = point at hawaits
      cases point <;> simp [ExecutorPoint.fresh, ExecutorPoint.awaits] at hawaits ⊢

theorem fresh_of_ne (hθ : θ' ≠ θ) : s'.fresh θ' = s.fresh θ' := by
  unfold QueueExecutor.fresh
  rw [hgo.calls_of_ne hθ]

theorem formed (h : Executing s)
    (hat : ∀ point, next = some point →
      ({ c with point } : ExecutorCall).IsAt (s'.queue.threads θ))
    (hlocks : ∀ point, next = some point → point.locks = true → s'.sync = some θ) (θ' : Θ) :
    Formed (s'.queue.threads θ') (s'.sync = some θ') (s'.calls θ') := by
  rcases eq_or_ne θ' θ with rfl | hθ
  · have hformed := h.formed θ'
    rw [hgo.inner.calls] at hformed
    rw [hgo.calls_self]
    exact hformed.continue hat hlocks
  · rw [hgo.calls_of_ne hθ, hgo.threads θ' hθ]
    refine (h.formed θ').mono fun _ hsync => ?_
    rcases hgo.sync with hsame | hnone | hc
    · rwa [hsame]
    · rw [hnone] at hsync
      cases hsync
    · rw [hgo.sync_of_locks h hc] at hsync
      exact absurd (Option.some.inj hsync).symm hθ

theorem knows (h : Executing s) (hstep : ExecutorStep s (.go θ) s')
    (hnew : ∀ point, next = some point → ({ c with point } : ExecutorCall).Knows s' θ) (θ' : Θ)
    (c' : ExecutorCall) (hc' : c' ∈ s'.calls θ') : c'.Knows s' θ' := by
  have hmono (hmem : c' ∈ s.calls θ') (hfree : c'.point.locks = true → θ' ≠ θ) : c'.Knows s' θ' := by
    refine (h.knows θ' c' hmem).mono h.tracked hstep fun hlocks => ?_
    have hsync := (h.formed θ').locks_of_mem hmem hlocks
    rcases tickets_of_step hstep with hsame | hnone | ⟨θ'', c'', calls'', heq, hcalls, hlocks'⟩
    · exact hsame
    · rw [hnone] at hsync
      cases hsync
    · cases heq
      obtain ⟨rfl, -⟩ := List.cons.inj (hgo.inner.calls.symm.trans hcalls)
      rw [hgo.sync_of_locks h hlocks'] at hsync
      exact absurd (Option.some.inj hsync).symm (hfree hlocks)
  rcases eq_or_ne θ' θ with rfl | hθ
  · have hbelow (hmem : c' ∈ calls) : c'.Knows s' θ' := by
      refine hmono (hgo.inner.calls ▸ List.mem_cons_of_mem _ hmem) fun hlocks => ?_
      exact absurd hlocks (not_locks_of_awaits (hgo.awaits_of_mem h hmem))
    rw [hgo.calls_self] at hc'
    cases hnext : next with
    | none =>
      rw [hnext] at hc'
      exact hbelow hc'
    | some point =>
      rw [hnext] at hc'
      rcases List.mem_cons.mp hc' with rfl | hmem
      · exact hnew point hnext
      · exact hbelow hmem
  · rw [hgo.calls_of_ne hθ] at hc'
    exact hmono hc' fun _ => hθ

end GoesOn

theorem Executing.of_tracked (h : Executing s) (hstep : ExecutorStep s l s') : Tracked s'.queue := by
  rcases queue_of_step hstep with hqueue | ⟨label, hqueue⟩
  · rw [hqueue]
    exact h.tracked
  · exact h.tracked.of_step hqueue

/-- Another thread than the acting one does not see what the executor does in the queue. -/
theorem onTicket_threads {label : ℕ → QueueLabel Θ} {ticket : Option ℕ} {q : OperationalQueue Θ}
    (h : s.onTicket label ticket = some q) (hlabel : ∀ n, (label n).thread = θ) (hθ : θ' ≠ θ) :
    q.threads θ' = s.queue.threads θ' := by
  rcases onTicket_cases h with ⟨-, rfl⟩ | ⟨n, -, hstep⟩
  · rfl
  · exact hstep.threads_of_ne (by rwa [hlabel n])

/-- The code above the queue, or the queue itself. -/
theorem Executing.of_below (h : Executing s) {label : QueueLabel Θ} (hstep : ExecutorStep s l s')
    (hqueue : Step s.queue label s'.queue) (hidle : s.isActive label.thread = false)
    (hcalls : s'.calls = s.calls) (hsync : s'.sync = s.sync)
    (htickets : s'.tickets = s.tickets ∨ s.sync = none) (hbook : Bookkept s') : Executing s' := by
  refine ⟨h.of_tracked hstep, fun θ => ?_, hbook, fun θ c hc => ?_⟩
  · rw [hcalls, hsync]
    exact (h.formed θ).of_queue hqueue hidle
  · rw [hcalls] at hc
    refine (h.knows θ c hc).mono h.tracked hstep fun hlocks => ?_
    have hlocked := (h.formed θ).locks_of_mem hc hlocks
    refine htickets.resolve_right fun hnone => ?_
    rw [hnone] at hlocked
    cases hlocked

/-- The function of a ticket is over. -/
theorem Executing.of_finish (h : Executing s) {q : OperationalQueue Θ} {tickets : List TicketInfo}
    (hidle : s.isActive θ = false) (hqueue : Step s.queue (.finish θ) q)
    (hrunning : s.queue.running θ = some ticket)
    (htickets : tickets = s.tickets ∨ s.sync = none ∧
      tickets = s.tickets.filter fun info => info.ticket ≠ some ticket) :
    Executing { s.complete ticket with queue := q, tickets } := by
  have hstep : ExecutorStep s (.throw θ) { s.complete ticket with queue := q, tickets } :=
    .finish hidle hqueue hrunning htickets
  refine h.of_below hstep hqueue hidle rfl rfl (htickets.imp_right And.left) ?_
  have hcompleted : ∀ n, s.completed n = true → (s.complete ticket).completed n = true := by
    intro n hn
    rcases eq_or_ne n ticket with rfl | hne
    · simp [QueueExecutor.complete]
    · simpa [QueueExecutor.complete, hne] using hn
  have hself : (s.complete ticket).completed ticket = true := by simp [QueueExecutor.complete]
  refine h.book.of_queue h.tracked hqueue rfl rfl ?_ (fun info hinfo => ?_) hcompleted (fun n hn => ?_)
    (fun n hn => hn) (by simp) ?_ (by simp) fun θ n hn => hn
  · rcases htickets with rfl | ⟨-, rfl⟩
    · exact .refl _
    · exact List.filter_sublist
  · rcases htickets with rfl | ⟨-, rfl⟩
    · exact .inl hinfo
    · by_cases hticket : info.ticket = some ticket
      · refine .inr fun n hn => .inl ?_
        obtain rfl : ticket = n := by simpa [hticket] using hn
        exact hself
      · exact .inl (List.mem_filter.mpr ⟨hinfo, by simpa using hticket⟩)
  · rcases eq_or_ne n ticket with rfl | hne
    · obtain ⟨wait, rest, hframes⟩ := running_iff.mp hrunning
      have hruns : s.queue.Runs θ n := ⟨wait, by simp [hframes]⟩
      exact .inr (h.tracked.tickets.mem_started (h.tracked.mem_stack_of_runs hruns))
    · exact .inl (by simpa [QueueExecutor.complete, hne] using hn)
  · rintro θ' n heq hn -
    cases heq
    obtain rfl := Option.some.inj (hrunning.symm.trans hn)
    exact hself

/-- A function of the executor is called. -/
theorem Executing.of_call (h : Executing s) {function : ExecutorFunction}
    (huser : s.queue.atUser θ = true) (hidle : s.isActive θ = false) :
    Executing (s.setCalls θ
      (⟨function, s.queue.threads θ, s.accepted, QueueExecutor.entry function⟩ :: s.calls θ)) := by
  have hstep : ExecutorStep s (.call θ function) _ := .call huser hidle
  have hawaits : ∀ c ∈ s.calls θ, c.point.awaits = true := by
    intro c hc
    rcases (h.formed θ).of_mem hc with hawaits | hhead
    · exact hawaits
    · have hformed := h.formed θ
      generalize hcalls : s.calls θ = calls at hformed hhead hc
      cases hformed with
      | none => cases hc
      | @call c' calls hat =>
        obtain rfl := Option.some.inj hhead
        rcases hat with hawaits | heq | ⟨-, hframes⟩
        · exact hawaits
        · simp [QueueExecutor.isActive, hcalls, heq] at hidle
        · simp [OperationalQueue.atUser, hframes] at huser
  have hentry : (QueueExecutor.entry function).locks = false ∧
      (QueueExecutor.entry function).fresh = none := by cases function <;> exact ⟨rfl, rfl⟩
  refine ⟨h.tracked, fun θ' => ?_, ?_, fun θ' c hc => ?_⟩
  · rcases eq_or_ne θ' θ with rfl | hθ
    · simp only [QueueExecutor.setCalls, Function.update_self]
      exact .call (.inr (.inl rfl)) (by simp [hentry.1]) hawaits
    · simp only [QueueExecutor.setCalls, Function.update_of_ne hθ]
      exact h.formed θ'
  · refine h.book.of_calls h.tracked rfl rfl rfl rfl rfl rfl (fun θ' n hn => ?_) θ
    rcases eq_or_ne θ' θ with rfl | hθ
    · simp [QueueExecutor.fresh, QueueExecutor.setCalls, hentry.2] at hn
    · simpa only [QueueExecutor.fresh, QueueExecutor.setCalls, Function.update_of_ne hθ] using hn
  · have hold (hmem : c ∈ s.calls θ') : c.Knows _ θ' :=
      (h.knows θ' c hmem).mono h.tracked hstep fun _ => rfl
    rcases eq_or_ne θ' θ with rfl | hθ
    · simp only [QueueExecutor.setCalls, Function.update_self] at hc
      rcases List.mem_cons.mp hc with rfl | hmem
      · refine ⟨?_, ?_, ?_, ?_, ?_, fun info hinfo => hinfo, by cases function <;> rfl⟩ <;>
          cases function <;> simp [QueueExecutor.entry, ExecutorPoint.closed, ExecutorPoint.todo]
      · exact hold hmem
    · simp only [QueueExecutor.setCalls, Function.update_of_ne hθ] at hc
      exact hold hc

theorem Executing.of_move (h : Executing s) {point : ExecutorPoint} {next : Option ExecutorPoint}
    {sync : Option Θ} {closing : Bool} (hinner : Innermost s θ c calls) (hpoint : c.point = point)
    (hmove : Moves s θ point sync closing next) :
    Executing ({ s with sync, closing }.setCalls θ (c.continue calls next)) := by
  have hstep : ExecutorStep s (.go θ) _ := .move hinner hpoint hmove
  have hgo : GoesOn s ({ s with sync, closing }.setCalls θ (c.continue calls next)) θ c calls next := by
    refine ⟨hinner, rfl, fun _ _ => rfl, ?_⟩
    rw [hpoint]
    cases hmove with
    | posted => exact .inr (.inr rfl)
    | lock hsync => exact .inr (.inl hsync)
    | _ => exact .inl rfl
  refine ⟨h.tracked, hgo.formed h (fun _ _ => .inr (.inl hinner.active)) ?_, ?_, hgo.knows h hstep ?_⟩
  · rintro point' rfl hlocks
    have hlocked : point.locks = true → s.sync = some θ := fun hlocks =>
      hgo.sync_of_locks h (by rw [hpoint, hlocks])
    cases hmove with
    | lock => rfl
    | keep | drop => exact hlocked rfl
    | _ => cases hlocks
  · refine h.book.of_calls h.tracked rfl rfl rfl rfl rfl rfl (fun θ' n hn => ?_) θ
    rcases eq_or_ne θ' θ with rfl | hθ
    · rw [hgo.fresh_self h] at hn
      simp only [QueueExecutor.fresh, hinner.calls, List.head?_cons, Option.bind_some, hpoint]
      cases hmove with
      | refuse => exact hn
      | _ => cases hn
    · rwa [hgo.fresh_of_ne hθ] at hn
  · rintro point' rfl
    exact h.knows_of_move hinner hpoint hmove

theorem Executing.of_swept (h : Executing s) {closed : List (Option ℕ)} {kept : List TicketInfo}
    (hinner : Innermost s θ c calls) (hpoint : c.point = .sweep closed kept []) :
    Executing ({ s with tickets := kept, sync := none }.setCalls θ
      (c.continue calls (sweepEnd c.function.policy closed kept))) := by
  have hstep : ExecutorStep s (.go θ) _ := .swept hinner hpoint
  have hgo : GoesOn s ({ s with tickets := kept, sync := none }.setCalls θ
      (c.continue calls (sweepEnd c.function.policy closed kept))) θ c calls
      (sweepEnd c.function.policy closed kept) :=
    ⟨hinner, rfl, fun _ _ => rfl, .inr (.inr (by rw [hpoint]; rfl))⟩
  have hc : c.Knows s θ := h.knows θ c (hinner.calls ▸ List.mem_cons_self)
  obtain ⟨hsub, hall⟩ := hc.swept closed kept [] hpoint
  rw [List.append_nil] at hsub
  have hnext : ∀ point, sweepEnd c.function.policy closed kept = some point →
      ∃ todo, point = .next closed todo := by
    intro point heq
    dsimp only [sweepEnd] at heq
    split_ifs at heq
    exact ⟨_, (Option.some.inj heq).symm⟩
  refine ⟨h.tracked, hgo.formed h (fun _ _ => .inr (.inl hinner.active)) ?_, ?_, hgo.knows h hstep ?_⟩
  · intro point heq hlocks
    obtain ⟨todo, rfl⟩ := hnext point heq
    cases hlocks
  · refine h.book.of_queue h.tracked (.nothing (l := .go θ) (by simp)) rfl rfl hsub
      (fun info hinfo => ?_) (fun n hn => hn) (fun n hn => .inl hn) (fun n hn => hn) (by simp) (by simp)
      (by simp) fun θ' n hn => ?_
    · rcases hall info hinfo with hmem | hmem | hgone
      · exact .inl hmem
      · cases hmem
      · exact .inr fun n hn => .inr (hgone n hn).1
    · rcases eq_or_ne θ' θ with rfl | hθ
      · rw [hgo.fresh_self h] at hn
        obtain ⟨point, heq, hfresh⟩ := Option.bind_eq_some_iff.mp hn
        obtain ⟨todo, rfl⟩ := hnext point heq
        cases hfresh
      · rwa [hgo.fresh_of_ne hθ] at hn
  · intro point heq
    exact h.knows_of_swept hinner hpoint heq

theorem Executing.of_create (h : Executing s) (hinner : Innermost s θ c calls)
    (hpoint : c.point = .createTicket)
    (hqueue : Step s.queue (.createTicket θ) (s.queue.setTickets s.queue.register)) :
    Executing ({ s with
      queue := s.queue.setTickets s.queue.register
      owned := Function.update s.owned s.queue.created true }.setCalls θ
        (c.continue calls (some (.post (some s.queue.created))))) := by
  have hstep : ExecutorStep s (.go θ) _ := .create hinner hpoint hqueue
  have hgo : GoesOn s ({ s with
      queue := s.queue.setTickets s.queue.register
      owned := Function.update s.owned s.queue.created true }.setCalls θ
        (c.continue calls (some (.post (some s.queue.created))))) θ c calls
      (some (.post (some s.queue.created))) := ⟨hinner, rfl, fun _ _ => rfl, .inl rfl⟩
  have hc : c.Knows s θ := h.knows θ c (hinner.calls ▸ List.mem_cons_self)
  refine ⟨h.of_tracked hstep, hgo.formed h (fun _ _ => .inr (.inl hinner.active)) ?_, ?_,
    hgo.knows h hstep ?_⟩
  · rintro point heq hlocks
    cases heq
    cases hlocks
  · exact h.book.of_create h.tracked rfl rfl rfl rfl rfl rfl (hgo.fresh_self h)
      fun θ' hθ => hgo.fresh_of_ne hθ
  · rintro point heq
    cases heq
    exact .plain rfl rfl (by simp) (by simp)
      (fun hfunction _ => hc.closing hfunction (by simp [hpoint])) hc.before
      (by rw [← hc.fits, hpoint]; rfl)

theorem Executing.of_post (h : Executing s) {ticket : Option ℕ} {q : OperationalQueue Θ}
    (hinner : Innermost s θ c calls) (hpoint : c.point = .post ticket) (hsync : s.sync = none)
    (hopen : s.closing = false) (hq : s.onTicket (.scheduleTicket θ) ticket = some q) :
    Executing ({ s.list ⟨ticket, c.function.waitOnCleanup⟩ with
      queue := q, sync := some θ }.setCalls θ (c.continue calls (some (.posted ticket)))) := by
  have hstep : ExecutorStep s (.go θ) _ := .post hinner hpoint hsync hopen hq
  have hgo : GoesOn s ({ s.list ⟨ticket, c.function.waitOnCleanup⟩ with
      queue := q, sync := some θ }.setCalls θ (c.continue calls (some (.posted ticket)))) θ c calls
      (some (.posted ticket)) :=
    ⟨hinner, rfl, fun θ' hθ => onTicket_threads hq (fun _ => rfl) hθ, .inr (.inl hsync)⟩
  have hc : c.Knows s θ := h.knows θ c (hinner.calls ▸ List.mem_cons_self)
  refine ⟨h.of_tracked hstep, hgo.formed h ?_ fun _ _ _ => rfl, ?_, hgo.knows h hstep ?_⟩
  · rintro point heq
    cases heq
    rcases onTicket_cases hq with ⟨-, rfl⟩ | ⟨n, rfl, hqueue⟩
    · exact .inr (.inl hinner.active)
    · rcases schedule_threads hqueue with hframes | hframes
      · exact .inr (.inl (hframes.trans hinner.active))
      · refine .inr (.inr ⟨⟨_, rfl⟩, hframes.trans ?_⟩)
        rw [hinner.active]
  · refine h.book.of_post (fun n hn => ?_) (fun hn => ?_) ?_ rfl rfl rfl rfl rfl (hgo.fresh_self h)
      fun θ' hθ => hgo.fresh_of_ne hθ
    · subst hn
      exact step_cases hq
    · subst hn
      exact (Option.some.inj hq).symm
    · simp [QueueExecutor.fresh, hinner.calls, hpoint, ExecutorPoint.fresh]
  · rintro point heq
    cases heq
    refine .plain rfl rfl (by simp) (by simp)
      (fun hfunction _ => hc.closing hfunction (by simp [hpoint])) (fun info hinfo => ?_)
      (by rw [← hc.fits, hpoint]; rfl)
    exact List.mem_append_left _ (hc.before info hinfo)

theorem Executing.of_ask (h : Executing s) {label : ℕ → QueueLabel Θ} {ticket : Option ℕ}
    {point next : ExecutorPoint} {q : OperationalQueue Θ} (hinner : Innermost s θ c calls)
    (hpoint : c.point = point) (hasks : Asks θ point label ticket next)
    (hq : s.onTicket label ticket = some q) :
    Executing ({ s with queue := q }.setCalls θ (c.continue calls (some next))) := by
  have hstep : ExecutorStep s (.go θ) _ := .ask hinner hpoint hasks hq
  have hthread : ∀ n, (label n).thread = θ := by
    intro n
    cases hasks <;> rfl
  have hawaits : next.awaits = true ∧ next.locks = false ∧ next.fresh = none := by
    cases hasks <;> exact ⟨rfl, rfl, rfl⟩
  have hgo : GoesOn s ({ s with queue := q }.setCalls θ (c.continue calls (some next))) θ c calls
      (some next) := ⟨hinner, rfl, fun θ' hθ => onTicket_threads hq hthread hθ, .inl rfl⟩
  have hc : c.Knows s θ := h.knows θ c (hinner.calls ▸ List.mem_cons_self)
  refine ⟨h.of_tracked hstep, hgo.formed h ?_ ?_, ?_, hgo.knows h hstep ?_⟩
  · rintro point' heq
    cases heq
    exact .inl hawaits.1
  · rintro point' heq hlocks
    cases heq
    rw [hawaits.2.1] at hlocks
    cases hlocks
  · have hfresh : ∀ θ' m, ({ s with queue := q }.setCalls θ (c.continue calls (some next))).fresh θ' =
        some m → θ' ≠ θ ∧ s.fresh θ' = some m := by
      intro θ' m hm
      rcases eq_or_ne θ' θ with rfl | hθ
      · rw [hgo.fresh_self h, Option.bind_some, hawaits.2.2] at hm
        cases hm
      · rw [hgo.fresh_of_ne hθ] at hm
        exact ⟨hθ, hm⟩
    have hfresh' : ∀ θ' m, ({ s with queue := q }.setCalls θ (c.continue calls (some next))).fresh θ' =
        some m → s.fresh θ' = some m := fun θ' m hm => (hfresh θ' m hm).2
    rcases onTicket_cases hq with ⟨-, rfl⟩ | ⟨n, rfl, hqueue⟩
    · exact h.book.of_calls h.tracked rfl rfl rfl rfl rfl rfl hfresh' θ
    · refine h.book.of_queue h.tracked hqueue rfl rfl (.refl _) (fun info hinfo => .inl hinfo)
        (fun m hm => hm) (fun m hm => .inl hm) (fun m hm => hm) ?_ ?_ ?_ hfresh'
      · rintro θ' m heq
        cases hasks <;> cases heq
      · rintro θ' m heq
        cases hasks <;> cases heq
      · rintro θ' m heq
        refine .inr ?_
        have htodo := hc.todo
        rw [hpoint] at htodo
        cases hasks with
        | late =>
          cases heq
          have hself : s.fresh θ = some n := by
            simp [QueueExecutor.fresh, hinner.calls, hpoint, ExecutorPoint.fresh]
          refine ⟨fun info hinfo hn => absurd hn ((h.book.fresh θ n hself).2.2.2 info hinfo),
            fun θ' hn => ?_⟩
          obtain ⟨hθ, hn⟩ := hfresh θ' n hn
          exact hθ (h.book.apart θ' θ n hn hself)
        | discard closed ticket todo =>
          cases heq
          obtain ⟨info', hinfo', hn', hwait⟩ := htodo (.discard (some n)) List.mem_cons_self n rfl
          refine ⟨fun info hinfo hn => ?_, fun θ' hn => ?_⟩
          · rw [h.book.info_unique hinfo hinfo' hn hn']
            exact hwait rfl
          · exact (h.book.fresh θ' n (hfresh θ' n hn).2).2.2.2 info' hinfo' hn'
        | wait => cases heq
  · rintro point' heq
    cases heq
    exact h.knows_of_ask hinner hpoint hasks hq

/-- **The executor keeps what it knows** in every step. -/
theorem Executing.of_step (h : Executing s) (hstep : ExecutorStep s l s') : Executing s' := by
  cases hstep with
  | queue hidle hqueue hschedule hfinish hdiscard hcanceled =>
    have hstep : ExecutorStep s _ _ := .queue hidle hqueue hschedule hfinish hdiscard hcanceled
    refine h.of_below hstep hqueue hidle rfl rfl (.inl rfl) ?_
    refine h.book.of_queue h.tracked hqueue rfl rfl (.refl _) (fun info hinfo => .inl hinfo)
      (fun n hn => hn) (fun n hn => .inl hn) hcanceled hschedule (fun θ n hlabel hrunning howned => ?_)
      (fun θ n hlabel => .inl (hdiscard θ n hlabel)) fun θ n hn => hn
    rw [hfinish θ n hlabel hrunning] at howned
    cases howned
  | finish hidle hqueue hrunning htickets => exact h.of_finish hidle hqueue hrunning htickets
  | call huser hidle => exact h.of_call huser hidle
  | move hinner hpoint hmove => exact h.of_move hinner hpoint hmove
  | swept hinner hpoint => exact h.of_swept hinner hpoint
  | create hinner hpoint hqueue => exact h.of_create hinner hpoint hqueue
  | post hinner hpoint hsync hopen hq => exact h.of_post hinner hpoint hsync hopen hq
  | ask hinner hpoint hasks hq => exact h.of_ask hinner hpoint hasks hq

/-! ### When a call returns -/

/-- What a call that clears the list leaves when it returns: what the queue still has of the list is
served. -/
structure Cleared (s s' : QueueExecutor Θ) (c : ExecutorCall) : Prop where
  queue : s'.queue = s.queue
  owned : s'.owned = s.owned
  completed : s'.completed = s.completed
  canceled : s'.canceled = s.canceled
  closing : s'.closing = s.closing
  point : c.point ≠ .close
  served : ∀ info ∈ s.tickets, ∀ n, info.ticket = some n → s.queue.registered n = true →
    s.queue.Served c.below n

theorem Executing.cleared_of_return (h : Executing s) (hstep : ExecutorStep s (.go θ) s')
    (hcalls : s.calls θ = c :: calls) (hreturn : s'.calls θ = calls)
    (hclears : c.function.executes = false) : Cleared s s' c := by
  have hc : c.Knows s θ := h.knows θ c (hcalls ▸ List.mem_cons_self)
  have hgone : calls ≠ c :: calls := fun heq => by simpa using congrArg List.length heq
  have hgoes {c' : ExecutorCall} {calls' : List ExecutorCall} {point : ExecutorPoint}
      (hinner : Innermost s θ c' calls')
      (heq : Function.update s.calls θ (c'.continue calls' (some point)) θ = calls) : False := by
    obtain ⟨rfl, rfl⟩ := List.cons.inj (hcalls.symm.trans hinner.calls)
    rw [Function.update_self] at heq
    simpa [ExecutorCall.continue] using congrArg List.length heq
  generalize hl : ExecutorLabel.go θ = l at hstep
  cases hstep with
  | queue | call => cases hl
  | finish => exact absurd (hreturn.symm.trans hcalls) hgone
  | create hinner =>
    cases hl
    exact (hgoes hinner hreturn).elim
  | post hinner =>
    cases hl
    exact (hgoes hinner hreturn).elim
  | ask hinner =>
    cases hl
    exact (hgoes hinner hreturn).elim
  | @move θ' c' calls' sync closing point next hinner hpoint hmove =>
    cases hl
    cases next with
    | some point' => exact (hgoes hinner hreturn).elim
    | none =>
      obtain ⟨rfl, rfl⟩ := List.cons.inj (hcalls.symm.trans hinner.calls)
      rw [← hc.fits, hpoint] at hclears
      cases hmove <;> cases hclears
  | @swept θ' c' calls' closed kept hinner hpoint =>
    cases hl
    obtain ⟨rfl, rfl⟩ := List.cons.inj (hcalls.symm.trans hinner.calls)
    obtain ⟨-, hall⟩ := hc.swept closed kept [] hpoint
    have hclosed := hc.closed
    rw [hpoint] at hclosed
    refine ⟨rfl, rfl, rfl, rfl, rfl, by simp [hpoint], fun info hinfo n hn hregistered => ?_⟩
    have hkept : info ∈ kept := by
      rcases hall info hinfo with hmem | hmem | hgone
      · exact hmem
      · cases hmem
      · rw [(hgone n hn).1] at hregistered
        cases hregistered
    by_cases hmem : info.ticket ∈ closed
    · exact (hclosed n (hn ▸ hmem)).2
    · have hnext : sweepEnd c.function.policy closed kept ≠ none := by
        simp only [sweepEnd, List.isEmpty_iff, List.filter_eq_nil_iff, ne_eq, ite_eq_left_iff,
          reduceCtorEq, imp_false, not_not]
        exact fun hall => hall info hkept (by simpa using hmem)
      obtain ⟨point, hpoint'⟩ := Option.ne_none_iff_exists'.mp hnext
      rw [hpoint'] at hreturn
      exact (hgoes hinner hreturn).elim

/-- Nothing of the executor will start any more. -/
def QueueExecutor.Down (s : QueueExecutor Θ) : Prop :=
  s.closing = true ∧ ∀ n ∈ s.queue.processingQueue, s.owned n = true →
    s.queue.stopProcessingRequested = true

omit [DecidableEq Θ] in
theorem Executing.down_of_cleared (h : Executing s) (hc : c.Knows s θ) (hcleared : Cleared s s' c)
    (hfunction : c.function = .shutdown) : s'.Down := by
  refine ⟨hcleared.closing.trans (hc.closing hfunction hcleared.point), fun n hn howned => ?_⟩
  rw [hcleared.queue] at hn ⊢
  rw [hcleared.owned] at howned
  have hconsistent := h.tracked.tickets
  have hregistered := hconsistent.queued n hn
  have hscheduled : s.queue.wasScheduled n = true :=
    (hconsistent.scheduled n).mpr (hconsistent.order.subset (List.mem_append_right _ hn))
  obtain ⟨info, hinfo, hticket⟩ := h.book.scheduled n howned hscheduled
  rcases h.book.accounted info hinfo n hticket hregistered with hmem | hdone
  · rcases (hcleared.served info hmem n hticket hregistered).1 with hstop | hspent
    · exact hstop
    · exact absurd hn hspent.1
  · exact absurd hn (hconsistent.not_queued (h.book.ended n hdone))

theorem QueueExecutor.Down.of_step (hdown : s.Down) (h : Executing s) (hstep : ExecutorStep s l s') :
    s'.Down := by
  refine ⟨closing_of_step hstep hdown.1, fun n hn howned => ?_⟩
  have hold (hqueue : n ∈ s.queue.processingQueue) (howned : s.owned n = true) :
      s'.queue.stopProcessingRequested = true := by
    have hstop := hdown.2 n hqueue howned
    rcases queue_of_step hstep with heq | ⟨label, heq⟩
    · rw [heq, hstop]
    · exact (stop_of_step heq).elim (fun hsame => hsame.trans hstop) fun ⟨_, _, hnot⟩ => by
        rw [hstop] at hnot
        cases hnot
  cases hstep with
  | queue _ hqueue hschedule =>
    rcases queued_of_step hqueue hn with hn | ⟨θ, hlabel⟩
    · exact hold hn howned
    · have hnot := hschedule θ n hlabel
      rw [show s.owned n = true from howned] at hnot
      cases hnot
  | finish _ hqueue => exact hold ((queued_of_step hqueue hn).resolve_right (by simp)) howned
  | call | move | swept => exact hold hn howned
  | create =>
    have hlt := h.tracked.tickets.known n (h.tracked.tickets.queued n hn)
    exact hold hn (by simpa [QueueExecutor.setCalls, hlt.ne] using howned)
  | post _ _ _ hopen =>
    rw [hdown.1] at hopen
    cases hopen
  | ask _ _ hasks hq =>
    rcases onTicket_cases hq with ⟨-, rfl⟩ | ⟨m, -, hqueue⟩
    · exact hold hn howned
    · refine hold ((queued_of_step hqueue hn).resolve_right ?_) howned
      rintro ⟨θ, heq⟩
      cases hasks <;> cases heq

/-- No ticket of the executor starts, and none is accepted. -/
theorem QueueExecutor.Down.nothing (hdown : s.Down) (hstep : ExecutorStep s l s') :
    s'.accepted = s.accepted ∧
      ∀ n, s.owned n = true → n ∈ s'.queue.started → n ∈ s.queue.started := by
  refine ⟨?_, fun n howned hn => ?_⟩
  · cases hstep with
    | post _ _ _ hopen =>
      rw [hdown.1] at hopen
      cases hopen
    | _ => rfl
  · rcases queue_of_step hstep with heq | ⟨label, heq⟩
    · rwa [heq] at hn
    · by_contra hnew
      obtain ⟨hqueue, hstop⟩ := queued_of_started heq hnew hn
      rw [hdown.2 n hqueue howned] at hstop
      cases hstop

omit [DecidableEq Θ] in
/-- What is accepted when a call that came from outside returns: its function is over, or it never starts;
what is not cancelable was discarded through its operation then. -/
theorem Executing.over_of_cleared (h : Executing s) (hc : c.Knows s θ) (hcleared : Cleared s s' c)
    (houtside : c.below = []) {info : TicketInfo} (hinfo : info ∈ c.before) (hn : info.ticket = some n) :
    s'.completed n = true ∨ s'.queue.Spent n ∧ n ∉ s'.queue.started ∧
      (info.waitOnCleanup = true → s'.canceled n = true) := by
  rw [hcleared.queue, hcleared.completed, hcleared.canceled]
  have hinfo := hc.before info hinfo
  have howned := h.book.known info hinfo n hn
  by_cases hdone : s.completed n = true
  · exact .inl hdone
  have hregistered : s.queue.registered n = false := by
    by_contra hnot
    rw [Bool.not_eq_false] at hnot
    have hmem := (h.book.accounted info hinfo n hn hnot).resolve_right hdone
    rw [(hcleared.served info hmem n hn hnot).2 houtside] at hnot
    cases hnot
  have hstarted : n ∉ s.queue.started := by
    intro hstarted
    obtain ⟨θ, hruns⟩ := (h.book.running n howned hstarted).resolve_left hdone
    rw [h.tracked.tickets.running n (h.tracked.mem_stack_of_runs hruns)] at hregistered
    cases hregistered
  have hlt := h.book.created n (.inl howned)
  refine .inr ⟨h.tracked.spent_of_unregistered hregistered hlt, hstarted, fun hwait => ?_⟩
  rcases h.book.kept info hinfo n hn hwait with hnot | hnot | hcanceled
  · rw [hregistered] at hnot
    cases hnot
  · exact absurd hnot hstarted
  · exact hcanceled

end Steps

/-! ### Every run -/

/-- The innermost call of the thread, where it returns in this transition. -/
def returned [DecidableEq Θ] (t : Transition (QueueExecutor Θ) (ExecutorLabel Θ)) (θ : Θ) :
    Option ExecutorCall :=
  match t.label, t.before.calls θ with
  | .go θ', c :: calls => if θ' = θ ∧ t.after.calls θ = calls then some c else none
  | _, _ => none

section Runs

variable [DecidableEq Θ] {s s' : QueueExecutor Θ} {c : ExecutorCall}
  {t : Transition (QueueExecutor Θ) (ExecutorLabel Θ)}
  {ts us vs : List (Transition (QueueExecutor Θ) (ExecutorLabel Θ))}

theorem returned_cases (h : returned t θ = some c) :
    t.label = .go θ ∧ ∃ calls, t.before.calls θ = c :: calls ∧ t.after.calls θ = calls := by
  unfold returned at h
  split at h
  · rename_i θ' c' calls hlabel hcalls
    split_ifs at h with hreturn
    obtain ⟨rfl, hafter⟩ := hreturn
    cases h
    exact ⟨hlabel, calls, hcalls, hafter⟩
  · cases h

theorem Executing.init (h : (queueExecutor Θ).Init s) : Executing s := by
  obtain ⟨hreachable, heq⟩ := h
  have htracked : Tracked s.queue ∧ ∀ n, s.queue.wasScheduled n = true → n < s.queue.created := by
    refine hreachable.invariant (I := fun q => Tracked q ∧ ∀ n, q.wasScheduled n = true → n < q.created)
      ?_ ?_
    · rintro _ rfl
      exact ⟨.init, by simp⟩
    · rintro q l q' hstep ⟨htracked, hlt⟩
      have hstep := step_cases hstep
      refine ⟨htracked.of_step hstep, fun n hn => ?_⟩
      have hcreated := created_of_step hstep
      rcases scheduled_of_step hstep hn with hn | hn
      · exact (hlt n hn).trans_le hcreated
      · exact hn.trans_le hcreated
  rw [heq]
  refine ⟨htracked.1, fun θ => .none, ?_, by simp⟩
  exact ⟨.refl _, .nil, by simp, fun n hn => htracked.2 n (by simpa using hn), by simp, by simp, by simp,
    by simp, by simp, by simp [QueueExecutor.fresh], by simp [QueueExecutor.fresh]⟩

theorem Executing.of_run (h : (queueExecutor Θ).Run ts s) : Executing s :=
  h.invariant (fun _ => Executing.init) fun _ _ _ hstep hs => hs.of_step (executor_cases hstep)

/-- A transition in which a call that clears the list returns. -/
theorem cleared_of_run (h : (queueExecutor Θ).Run ts s) (hts : ts = us ++ t :: vs)
    (hreturn : returned t θ = some c) (hclears : c.function.executes = false) :
    Executing t.before ∧ Executing t.after ∧ c.Knows t.before θ ∧ Cleared t.before t.after c := by
  obtain ⟨hrun, hstep⟩ := h.of_split hts
  have hbefore := Executing.of_run hrun
  obtain ⟨hlabel, calls, hcalls, hafter⟩ := returned_cases hreturn
  have hstep := executor_cases hstep
  have hafter' := hbefore.of_step hstep
  rw [hlabel] at hstep
  exact ⟨hbefore, hafter', hbefore.knows θ c (hcalls ▸ List.mem_cons_self),
    hbefore.cleared_of_return hstep hcalls hafter hclears⟩

/-- **After `shutdown` has returned nothing starts.** In every run: when a call of `shutdown` has returned,
by whatever thread and from whatever ticket it was made, no function is accepted any more, and no ticket
of the executor starts. -/
theorem nothing_starts_after_shutdown (h : (queueExecutor Θ).Run ts s) (hts : ts = us ++ t :: vs)
    (hreturn : returned t θ = some c) (hshutdown : c.function = .shutdown) :
    ∀ v ∈ vs, v.after.accepted = v.before.accepted ∧
      ∀ n, v.before.owned n = true → n ∈ v.after.queue.started → n ∈ v.before.queue.started := by
  intro v hv
  obtain ⟨hbefore, hafter, hc, hcleared⟩ := cleared_of_run h hts hreturn (by rw [hshutdown]; rfl)
  have hdown := (h.before_of_mem_rest hts (P := fun s => Executing s ∧ s.Down)
    ⟨hafter, hbefore.down_of_cleared hc hcleared hshutdown⟩ (fun s l s' hstep hs =>
      ⟨hs.1.of_step (executor_cases hstep), hs.2.of_step hs.1 (executor_cases hstep)⟩) hv).2
  exact hdown.nothing (executor_cases (h.step_of_mem (t := v) (by simp [hts, hv])))

/-- A function is accepted, and `shutdown` discards it before the pool begins the loop. -/
theorem nothing_starts_after_shutdown_example : ∃ ts s us t vs, (queueExecutor Bool).Run ts s ∧
    s.accepted.length = 1 ∧ s.queue.tasks = 0 ∧ ts = us ++ t :: vs ∧
    ∀ v ∈ vs, v.after.accepted = v.before.accepted ∧
      ∀ n, v.before.owned n = true → n ∈ v.after.queue.started → n ∈ v.before.queue.started := by
  obtain ⟨ts, s, hrun, h⟩ := Machine.exists_run (M := queueExecutor Bool) (s := {})
    [.call true (.execute .cancelable), .go true, .go true, .go true, .queue (.go true), .go true,
      .call false .shutdown, .go false, .go false, .go false, .go false, .go false, .queue (.go false),
      .go false, .go false, .go false, .go false, .go false, .queue (.begin true), .queue (.go true)]
    (fun ts s => decide (s.accepted.length = 1 ∧ s.queue.tasks = 0) &&
      ts[17]?.any fun t => (returned t false).any fun c => c.function = .shutdown)
    ⟨⟨[], .init rfl⟩, rfl⟩ (by decide)
  obtain ⟨hs, h⟩ := Bool.and_eq_true_iff.mp h
  obtain ⟨haccepted, htasks⟩ := of_decide_eq_true hs
  obtain ⟨t, hts, h⟩ := split_of_any h
  obtain ⟨c, hreturn, hshutdown⟩ := (Option.any_eq_true _ _).mp h
  exact ⟨ts, s, _, t, _, hrun, haccepted, htasks, hts,
    nothing_starts_after_shutdown hrun hts hreturn (by simpa using hshutdown)⟩

/-- **What was accepted is over.** In every run: when a call of `shutdown`, `cancel_all` or `wait_all` that
was made outside of the queue returns, the function of each ticket accepted before the call is over, or it
was discarded and never starts; one that is not cancelable was then discarded through its operation. -/
theorem accepted_are_over (h : (queueExecutor Θ).Run ts s) (hts : ts = us ++ t :: vs)
    (hreturn : returned t θ = some c) (hclears : c.function.executes = false) (houtside : c.below = []) :
    ∀ info ∈ c.before, ∀ n, info.ticket = some n → t.after.completed n = true ∨
      n ∉ t.after.queue.started ∧ (info.waitOnCleanup = true → t.after.canceled n = true) ∧
        ∀ v ∈ vs, n ∈ v.after.queue.started → n ∈ v.before.queue.started := by
  intro info hinfo n hn
  obtain ⟨hbefore, hafter, hc, hcleared⟩ := cleared_of_run h hts hreturn hclears
  rcases hbefore.over_of_cleared hc hcleared houtside hinfo hn with hdone | ⟨hspent, hstarted, hcanceled⟩
  · exact .inl hdone
  refine .inr ⟨hstarted, hcanceled, fun v hv hv' => ?_⟩
  have hspent := h.before_of_mem_rest hts (P := fun s => s.queue.Spent n) hspent (fun s l s' hstep hs => by
    rcases queue_of_step (executor_cases hstep) with heq | ⟨label, heq⟩
    · rwa [heq]
    · exact spent_of_step hs heq) hv
  rcases queue_of_step (executor_cases (h.step_of_mem (t := v) (by simp [hts, hv]))) with heq | ⟨label, heq⟩
  · rwa [heq] at hv'
  · by_contra hnew
    exact hspent.1 (queued_of_started heq hnew hv').1

/-- A function that is not cancelable runs while `cancel_all` waits for it. -/
theorem accepted_are_over_example : ∃ ts s us t vs c, (queueExecutor Bool).Run ts s ∧
    ts = us ++ t :: vs ∧ returned t false = some c ∧ c.function = .cancelAll ∧ c.before = [⟨some 0, true⟩] ∧
    ∀ info ∈ c.before, ∀ n, info.ticket = some n → t.after.completed n = true ∨
      n ∉ t.after.queue.started ∧ (info.waitOnCleanup = true → t.after.canceled n = true) ∧
        ∀ v ∈ vs, n ∈ v.after.queue.started → n ∈ v.before.queue.started := by
  obtain ⟨ts, s, hrun, h⟩ := Machine.exists_run (M := queueExecutor Bool) (s := {})
    [.call true (.execute .nonCancelable), .go true, .go true, .go true, .queue (.go true), .go true,
      .call false .cancelAll, .go false, .go false, .go false, .go false, .queue (.go false),
      .queue (.go false), .queue (.begin true), .queue (.go true), .queue (.go true), .queue (.go true),
      .queue (.finish true), .queue (.go true), .queue (.go true), .queue (.go false), .go false,
      .go false, .go false, .go false]
    (fun ts _ => ts[24]?.any fun t => (returned t false).any fun c : ExecutorCall =>
      decide (c.function = .cancelAll ∧ c.before = [⟨some 0, true⟩] ∧ c.below = []))
    ⟨⟨[], .init rfl⟩, rfl⟩ (by decide)
  obtain ⟨t, hts, h⟩ := split_of_any h
  obtain ⟨c, hreturn, h⟩ := (Option.any_eq_true _ _).mp h
  obtain ⟨hfunction, hcbefore, houtside⟩ := of_decide_eq_true h
  exact ⟨ts, s, _, t, _, c, hrun, hts, hreturn, hfunction, hcbefore,
    accepted_are_over hrun hts hreturn (by rw [hfunction]; rfl) houtside⟩

end Runs

end HueStream.Threading
