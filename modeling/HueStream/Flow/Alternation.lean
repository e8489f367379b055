import HueStream.Flow.Inversion

/-! # Procedures start and finish in turn

The messages that start and finish a user procedure alternate, each finish answers the start before
it, and what the flow says in between carries the same request. The invariant that carries this
through a run ties the procedure that is open in the transcript to `_request` (`Mid`), and `_request`
to the state (`Settled`): in `Idle` it is internal, so that no procedure is open. -/

namespace HueStream.Flow

open HueStream.Data HueStream.Lib

/-! ### Reading the transcript -/

/-- The procedure that is open after a message. -/
def openAfter (o : Option RequestType) (x : Sent) : Option RequestType :=
  match x.message.id with
  | .userProcedureStarted => some x.message.requestType
  | .userProcedureFinished => none
  | _ => o

/-- The request of the procedure that was started and not finished yet. -/
def openProcedure (l : List Sent) : Option RequestType := l.foldl openAfter none

/-- A message may come after `before`: a procedure starts when none is open, the one that is open
finishes, and anything else the flow says while one is open carries its request. -/
def InOrder (before : List Sent) (x : Sent) : Prop :=
  match x.message.id with
  | .userProcedureStarted => openProcedure before = none
  | .userProcedureFinished => openProcedure before = some x.message.requestType
  | _ => x.own = true → ∀ r, openProcedure before = some r → x.message.requestType = r

@[simp] theorem openProcedure_nil : openProcedure [] = none := rfl

@[simp] theorem openProcedure_concat (l : List Sent) (x : Sent) :
    openProcedure (l ++ [x]) = openAfter (openProcedure l) x := by
  simp [openProcedure]

theorem openAfter_of_not_bracket {o : Option RequestType} {x : Sent}
    (h : x.message.id.isBracket = false) : openAfter o x = o := by
  unfold openAfter
  split
  · next hid => simp [hid, MessageId.isBracket] at h
  · next hid => simp [hid, MessageId.isBracket] at h
  · rfl

theorem openProcedure_append {l ms : List Sent} (h : ∀ x ∈ ms, x.message.id.isBracket = false) :
    openProcedure (l ++ ms) = openProcedure l := by
  induction ms using List.reverseRecOn with
  | nil => rw [List.append_nil]
  | append_singleton ms x ih =>
    rw [← List.append_assoc, openProcedure_concat, openAfter_of_not_bracket (h x (by simp)),
      ih fun y hy => h y (by simp [hy])]

theorem inOrder_of_not_bracket {l : List Sent} {x : Sent} (h : x.message.id.isBracket = false)
    (hreq : x.own = true → ∀ r, openProcedure l = some r → x.message.requestType = r) :
    InOrder l x := by
  unfold InOrder
  split
  · next hid => simp [hid, MessageId.isBracket] at h
  · next hid => simp [hid, MessageId.isBracket] at h
  · exact hreq

/-! ### The invariant -/

/-- The open procedure of a request: internal ones are not announced. -/
def RequestType.announced (r : RequestType) : Option RequestType :=
  if r = .internal then none else some r

variable {σ : Settings} {n : ℕ} {s s' : ConnectionFlow}

/-- Within a procedure: the transcript is in order, and the open procedure is the one of
`_request`. -/
structure Mid (s : ConnectionFlow) : Prop where
  inOrder : Always InOrder (sent s.log)
  opened : openProcedure (sent s.log) = s.request.announced

/-- Between two steps. -/
structure Settled (s : ConnectionFlow) : Prop extends Mid s where
  idle : s.state = .idle → s.request = .internal
  noProcedure : s.state = .idle → s.current = none

theorem Speaks.mid (h : Speaks n s s') (hs : Mid s) : Mid s' := by
  obtain ⟨ids, hspeak, hbr, -⟩ := h
  obtain ⟨ms, hms, rfl, hreq⟩ := hspeak.sent
  have hbr : ∀ x ∈ ms, x.message.id.isBracket = false := fun x hx =>
    hbr _ (List.mem_map_of_mem hx)
  constructor
  · rw [hms]
    refine hs.inOrder.append fun m₁ x m₂ hm => ?_
    have hx : x ∈ ms := by simp [hm]
    refine inOrder_of_not_bracket (hbr x hx) fun hown r hr => ?_
    rw [openProcedure_append fun y hy => hbr y (by simp [hm, hy]), hs.opened] at hr
    rw [hreq x hx hown]
    unfold RequestType.announced at hr
    split_ifs at hr
    exact Option.some.inj hr
  · rw [hms, openProcedure_append hbr, hs.opened, hspeak.request]

theorem Finishes.settled (h : Finishes n s s') (hs : Mid s) : Settled s' := by
  obtain ⟨s₁, hspeaks, -, hsent⟩ := h.speaks
  have hmid := hspeaks.mid hs
  have hopen : openProcedure (sent s₁.log) = s.request.announced := by
    rw [hmid.opened, hspeaks.request]
  have hdone : s'.request.announced = none := by rw [h.request]; rfl
  unfold RequestType.announced at hopen
  split_ifs at hsent hopen with hint
  · rw [List.append_nil] at hsent
    exact ⟨⟨hsent ▸ hmid.inOrder, by rw [hsent, hopen, hdone]⟩, fun _ => h.request,
      fun _ => h.current⟩
  · refine ⟨⟨?_, ?_⟩, fun _ => h.request, fun _ => h.current⟩
    · rw [hsent, always_concat]
      exact ⟨hmid.inOrder, hopen⟩
    · rw [hsent, openProcedure_concat, hdone]
      rfl

/-- However a handler ends, it leaves the flow settled. -/
theorem Outcome.settled (h : Outcome n s s') (hs : Mid s) : Settled s' := by
  have hbusy : ∀ {n}, Speaks n s s' → s'.state ≠ .idle → Settled s' := fun hspeaks hstate =>
    ⟨hspeaks.mid hs, fun hidle => absurd hidle hstate, fun hidle => absurd hidle hstate⟩
  rcases h with h | h | h | h
  · exact hbusy h.speaks h.idle
  · exact hbusy h.speaks (by simp [h.state])
  · exact hbusy h.speaks (by simp [h.state])
  · exact h.settled hs

theorem mid_of_start {request : RequestType} (h : s.start request = some s') (hs : Settled s) :
    Mid s' := by
  obtain ⟨hidle, -, hreq, -, -, hsent⟩ := ConnectionFlow.start_eq_some h
  have hclosed : openProcedure (sent s.log) = none := by rw [hs.opened, hs.idle hidle]; rfl
  split_ifs at hsent with hint
  · rw [List.append_nil] at hsent
    exact ⟨hsent ▸ hs.inOrder, by rw [hsent, hclosed, hreq, hint]; rfl⟩
  · refine ⟨?_, ?_⟩
    · rw [hsent, always_concat]
      exact ⟨hs.inOrder, hclosed⟩
    · rw [hsent, openProcedure_concat, hreq, RequestType.announced, if_neg hint]
      rfl

theorem settled_init : Settled ConnectionFlow.init :=
  ⟨⟨always_nil, rfl⟩, fun _ => rfl, fun _ => rfl⟩

/-- One step keeps the flow settled. -/
theorem settled_step {l : Input × Answers} (h : s.step σ l = some s') (hs : Settled s) :
    Settled s' := by
  unfold ConnectionFlow.step at h
  split_ifs at h with henabled
  obtain rfl := Option.some.inj h
  rcases ConnectionFlow.handle_cases σ l.2 henabled with ⟨hspeaks, hstate⟩ | ⟨-, -, hend⟩ |
    ⟨c, reply, keep, -, -, -, hout⟩ | ⟨request, s₁, hstart, -, n, hout⟩
  · refine ⟨hspeaks.mid hs.toMid, fun hidle => ?_, fun hidle => ?_⟩
    · exact hspeaks.request.trans (hs.idle (hstate ▸ hidle))
    · exact hspeaks.current.trans (hs.noProcedure (hstate ▸ hidle))
  · exact hend.settled hs.toMid
  · exact hout.settled hs.toMid
  · exact hout.settled (mid_of_start hstart hs)

theorem settled_of_run {ts : List (Transition ConnectionFlow (Input × Answers))}
    (h : (machine σ).Run ts s) : Settled s :=
  h.invariant (by rintro s rfl; exact settled_init) fun _ _ _ hstep hs => settled_step hstep hs

/-- **Procedures alternate.** In every run, with late and duplicate completions, the messages that
start and finish a procedure come in turn, with the same request, and what the flow says in between
carries it; and whenever the flow is in `Idle`, the request is internal and no procedure is open. -/
theorem procedures_alternate {ts : List (Transition ConnectionFlow (Input × Answers))}
    (h : (machine σ).Run ts s) :
    Always InOrder (sent s.log) ∧
      (s.state = .idle → s.request = .internal ∧ openProcedure (sent s.log) = none) := by
  have hs := settled_of_run h
  refine ⟨hs.inOrder, fun hidle => ⟨hs.idle hidle, ?_⟩⟩
  rw [hs.opened, hs.idle hidle]
  rfl

/-- A connect that is aborted while it searches, and whose search completes afterwards. -/
theorem procedures_alternate_aborted : ∃ ts s, (machine {}).Run ts s ∧
    ((sent s.log).map (·.message.id) = [.userProcedureStarted, .startLoading,
      .finishLoadingNoBridgeConfigured, .startSearching, .doneAborted, .userProcedureFinished] ∧
      s.state = .idle) ∧
    Always InOrder (sent s.log) ∧
      (s.state = .idle → s.request = .internal ∧ openProcedure (sent s.log) = none) := by
  obtain ⟨ts, s, hrun, hp⟩ := Machine.exists_run (M := machine {}) (s := .init)
    [(.connectToBridge, {}),
      (.deliver ⟨.load .searchOrRetrieve, some 0⟩ { result := .failed } false, {}),
      (.abort, {}), (.deliver ⟨.search, some 0⟩ {} false, {})]
    (fun _ s => (sent s.log).map (·.message.id) = [.userProcedureStarted, .startLoading,
      .finishLoadingNoBridgeConfigured, .startSearching, .doneAborted, .userProcedureFinished] ∧
      s.state = .idle) rfl (by decide)
  exact ⟨ts, s, hrun, by simpa using hp, procedures_alternate hrun⟩

end HueStream.Flow
