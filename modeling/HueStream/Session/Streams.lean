import HueStream.Lib.Lists
import HueStream.Session.FromCache

/-! # The event stream

The id of the event stream is kept when it is opened, at the end of a fetch, and the stream before is
not cancelled then: it was when the fetch was started, if the retriever was connected. So there is one
stream at most, and it can be cancelled, as long as no fetch is started beside another one or beside a
stream that was opened while the retriever was disconnected. The buffer is never emptied; what a
stream leaves there, the next one finds. -/

namespace HueStream.Session

open HueStream.Data HueStream.Flow HueStream.Lib BridgeConfigRetriever

variable {isValid : List Char → Bool} {s s' : BridgeConfigRetriever} {id : ℕ} {input : Input}
  {t : Transition BridgeConfigRetriever Input} {ts : List (Transition BridgeConfigRetriever Input)}

/-- What the input delivers on a stream. -/
def Input.bytesOn (id : ℕ) : Input → Option (List Char)
  | .chunk id' bytes _ => if id' = id then some bytes else none
  | _ => none

/-- What was received on a stream, piece by piece. -/
def received (id : ℕ) (ts : List (Transition BridgeConfigRetriever Input)) : List (List Char) :=
  ts.filterMap fun t => t.label.bytesOn id

/-- One event stream at most is open, and it is the one that `Abort` cancels. -/
def OwnStream (s : BridgeConfigRetriever) : Prop :=
  s.streams.length ≤ 1 ∧ ∀ r ∈ s.streams, s.eventRequestId = some r.1

/-- What a stream delivers is read as a fresh reader of this stream alone would read it: the buffer it
is appended to is the one that reader has. -/
def ReadAlone (isValid : List Char → Bool) (before : List (Transition BridgeConfigRetriever Input))
    (t : Transition BridgeConfigRetriever Input) : Prop :=
  ∀ id bytes, t.label.bytesOn id = some bytes →
    t.before.responseEvent = (feed isValid [] (received id before)).2

/-- The inputs that keep the streams apart: a fetch is started while no other is under way and no
stream stays open beside it, and when a fetch is complete the stream before has left nothing. -/
def keepsStreams (s : BridgeConfigRetriever) : Input → Bool
  | .execute bridge => s.busy || s.connected && !s.isOther bridge ||
      s.fetches.isEmpty && (s.connected || s.streams.isEmpty)
  | .refresh => s.busy || s.refreshing || !s.connected || s.fetches.isEmpty
  | .answer (_, .fetch stage _) answer =>
    s.destroyed || !s.completesFetch stage answer || s.responseEvent.isEmpty
  | _ => true

/-! ### What was received -/

theorem received_concat (id : ℕ) : received id (ts ++ [t]) =
    received id ts ++ (t.label.bytesOn id).toList := by
  unfold received
  rw [List.filterMap_append]
  cases h : t.label.bytesOn id <;> simp [h]

/-- Nothing was received on a stream that is yet to be opened. -/
def Past (ts : List (Transition BridgeConfigRetriever Input)) (n : ℕ) : Prop :=
  ∀ id, n ≤ id → received id ts = []

theorem Past.mono {n m : ℕ} (h : Past ts n) (hle : n ≤ m) : Past ts m :=
  fun id hid => h id (hle.trans hid)

theorem le_nextRequest_asking (asks : Bool) : s.nextRequest ≤ (s.asking asks).nextRequest := by
  rcases asking_cases s asks with heq | heq
  · rw [heq]
  · rw [heq]
    exact Nat.le_succ _

theorem le_nextRequest_onEvents (outcomes : List EventOutcome) :
    s.nextRequest ≤ (outcomes.foldl onEvent s).nextRequest := by
  induction outcomes generalizing s with
  | nil => exact le_rfl
  | cons outcome outcomes ih =>
    exact (le_nextRequest_asking (s := s) outcome.asksOwner).trans (ih (s := s.onEvent outcome))

theorem nextRequest_abort : s.abort.nextRequest = s.nextRequest := by rw [abort_eq]

theorem nextRequest_ready : s.ready.nextRequest = s.nextRequest := by
  unfold ready
  split_ifs
  · exact nextRequest_abort
  · rfl

/-- Request ids only grow. -/
theorem le_nextRequest_of_step (hstep : s.step isValid input = some s') :
    s.nextRequest ≤ s'.nextRequest := by
  rw [BridgeConfigRetriever.step] at hstep
  split_ifs at hstep with henabled
  cases input with
  | execute bridge =>
    rcases execute_cases hstep with ⟨-, rfl⟩ | ⟨-, -, -, current, -, rfl⟩ | ⟨-, -, rfl⟩
    · exact le_rfl
    · exact le_rfl
    · show s.nextRequest ≤ s.ready.nextRequest + 1
      rw [nextRequest_ready]
      exact Nat.le_succ _
  | refresh =>
    rcases refresh_cases hstep with ⟨-, rfl⟩ | ⟨-, -, rfl⟩ | ⟨-, -, -, bridge, rfl⟩
    · exact le_rfl
    · exact le_rfl
    · show s.nextRequest ≤ s.abort.nextRequest + 1
      rw [nextRequest_abort]
      exact Nat.le_succ _
  | disconnected =>
    obtain rfl := Option.some.inj hstep
    rcases onBridgeDisconnect_cases s with ⟨-, heq⟩ | ⟨-, heq⟩
    · rw [heq]
    · rw [heq]
      exact nextRequest_abort.ge
  | bridgeChanged bridge =>
    obtain rfl := Option.some.inj hstep
    exact le_rfl
  | destroy =>
    obtain rfl := Option.some.inj hstep
    exact nextRequest_abort.ge
  | chunk id bytes outcome =>
    obtain rfl := Option.some.inj hstep
    split_ifs
    · exact le_rfl
    · rcases onChunk_cases (s := s) isValid bytes outcome with
        ⟨⟨responseEvent, heq⟩, -⟩ | ⟨-, responseEvent, outcomes, heq⟩
      · rw [heq]
      · rw [heq]
        exact le_nextRequest_onEvents (s := { s with responseEvent }) outcomes
  | answer r answer =>
    obtain ⟨id, request⟩ := r
    simp only [handle] at hstep
    split_ifs at hstep
    · obtain rfl := Option.some.inj hstep
      cases request <;> exact le_rfl
    · cases hfetch : request.isFetch with
      | true =>
        cases request with
        | fetch stage call =>
          rcases onAnswer_fetch_cases hstep with
            ⟨next, bridge, resourceToGet, asks, rfl⟩ | ⟨-, bridge, rfl⟩ | ⟨-, asks, rfl⟩
          · exact (le_nextRequest_asking (s := s.close (id, .fetch stage call)) asks).trans
              (Nat.le_succ _)
          · exact le_rfl
          · obtain ⟨_, _, heq⟩ := complete_cases
              ({ (s.close (id, .fetch stage call)).asking asks with resourceToGet := none })
            rw [heq]
            exact (le_nextRequest_asking (s := s.close (id, .fetch stage call)) asks).trans
              (Nat.le_succ _)
        | _ => simp [Request.isFetch] at hfetch
      | false =>
        rcases onAnswer_outside_cases id hfetch hstep with
          ⟨-, bridge, updatingWhiteList, rfl⟩ | ⟨-, bridge, rfl⟩
        · exact le_rfl
        · exact le_rfl

theorem Past.step (h : Past ts s.nextRequest) (hindex : s.WellIndexed)
    (hstep : s.step isValid input = some s') : Past (ts ++ [⟨s, input, s'⟩]) s'.nextRequest := by
  intro id hid
  rw [received_concat, h id ((le_nextRequest_of_step hstep).trans hid), List.nil_append]
  cases input with
  | chunk id' bytes outcome =>
    have hne : id' ≠ id := by
      rintro rfl
      have hmem : (id', Request.eventStream) ∈ s.requests := by
        rw [BridgeConfigRetriever.step] at hstep
        split_ifs at hstep with henabled
        simpa [enabled] using henabled
      have hlt := hindex.lt _ hmem
      have hle := (le_nextRequest_of_step hstep).trans hid
      omega
    simp [Input.bytesOn, hne]
  | _ => rfl

/-! ### The stream that is open -/

/-- The stream that is open is the one to cancel, nothing is fetched meanwhile, and the buffer is the
one a fresh reader of it has. -/
structure Listening (isValid : List Char → Bool)
    (ts : List (Transition BridgeConfigRetriever Input)) (s : BridgeConfigRetriever)
    (r : ℕ × Request) : Prop where
  alone : s.streams = [r]
  known : s.eventRequestId = some r.1
  alive : s.destroyed = false
  idle : s.fetches = []
  read : s.responseEvent = (feed isValid [] (received r.1 ts)).2

/-- One fetch at most is under way, and either no stream is open, or the one that should be. -/
structure StreamInvariant (isValid : List Char → Bool)
    (ts : List (Transition BridgeConfigRetriever Input)) (s : BridgeConfigRetriever) : Prop where
  one : s.fetches.length ≤ 1
  stream : s.streams = [] ∨ ∃ r, Listening isValid ts s r

namespace StreamInvariant

theorem ownStream (h : StreamInvariant isValid ts s) : OwnStream s := by
  rcases h.stream with hnone | ⟨r, hr⟩
  · refine ⟨?_, fun r hr => ?_⟩
    · rw [hnone]
      exact Nat.zero_le _
    · rw [hnone] at hr
      exact absurd hr List.not_mem_nil
  · refine ⟨?_, fun r' hr' => ?_⟩
    · rw [hr.alone]
      exact le_rfl
    · rw [hr.alone, List.mem_singleton] at hr'
      rw [hr']
      exact hr.known

/-- `Abort` closes the stream. -/
theorem streams_abort (h : StreamInvariant isValid ts s) : s.abort.streams = [] := by
  rw [BridgeConfigRetriever.streams_abort]
  rcases h.stream with hnone | ⟨r, hr⟩
  · rw [hnone]
    rfl
  · rw [hr.alone, hr.known]
    simp

/-- No stream is open. -/
theorem quiet (hone : s.fetches.length ≤ 1) (hnone : s.streams = []) : StreamInvariant isValid ts s :=
  ⟨hone, .inl hnone⟩

/-- What a step that reads nothing leaves as it is. -/
theorem congr (h : StreamInvariant isValid ts s) (hbytes : ∀ id, t.label.bytesOn id = none)
    (hfetches : s'.fetches = s.fetches) (hstreams : s'.streams = s.streams)
    (hid : s'.eventRequestId = s.eventRequestId) (hbuffer : s'.responseEvent = s.responseEvent)
    (halive : s'.destroyed = s.destroyed) : StreamInvariant isValid (ts ++ [t]) s' := by
  refine ⟨hfetches ▸ h.one, ?_⟩
  rcases h.stream with hnone | ⟨r, hr⟩
  · exact .inl (hstreams.trans hnone)
  · refine .inr ⟨r, hstreams.trans hr.alone, hid.trans hr.known, halive.trans hr.alive,
      hfetches.trans hr.idle, ?_⟩
    rw [hbuffer, hr.read, received_concat, hbytes]
    simp

end StreamInvariant

/-! ### Steps -/

theorem foldl_onEvent (outcomes : List EventOutcome) :
    (outcomes.foldl onEvent s).fetches = s.fetches ∧
      (outcomes.foldl onEvent s).streams = s.streams ∧
      (outcomes.foldl onEvent s).eventRequestId = s.eventRequestId ∧
      (outcomes.foldl onEvent s).responseEvent = s.responseEvent ∧
      (outcomes.foldl onEvent s).destroyed = s.destroyed := by
  induction outcomes generalizing s with
  | nil => exact ⟨rfl, rfl, rfl, rfl, rfl⟩
  | cons outcome outcomes ih =>
    obtain ⟨hfetches, hstreams, hid, hbuffer, hdestroyed⟩ := ih (s := s.onEvent outcome)
    exact ⟨hfetches.trans (fetches_asking _), hstreams.trans (streams_asking _),
      hid.trans (eventRequestId_asking _), hbuffer.trans (responseEvent_asking _),
      hdestroyed.trans (destroyed_asking _)⟩

/-- What delivers bytes is the stream that is listened to. -/
theorem StreamInvariant.listening (h : StreamInvariant isValid ts s)
    (hmem : (id, Request.eventStream) ∈ s.requests) :
    Listening isValid ts s (id, .eventStream) := by
  have hstream : (id, Request.eventStream) ∈ s.streams := mem_streams.mpr ⟨hmem, rfl⟩
  rcases h.stream with hnone | ⟨r, hr⟩
  · rw [hnone] at hstream
    exact absurd hstream List.not_mem_nil
  · have halone := hr.alone
    rw [halone, List.mem_singleton] at hstream
    exact hstream ▸ hr

/-- A piece of the stream is read. -/
theorem Listening.onChunk (h : Listening isValid ts s (id, .eventStream)) (bytes : List Char)
    (outcome : List Char → EventOutcome)
    (hbytes : t.label.bytesOn id = some bytes) :
    Listening isValid (ts ++ [t]) (s.onChunk isValid bytes outcome) (id, .eventStream) := by
  rw [onChunk_eq]
  obtain ⟨hfetches, hstreams, hid, hbuffer, hdestroyed⟩ := foldl_onEvent
    (s := { s with responseEvent := (readEvents isValid (s.responseEvent ++ bytes)).2 })
    ((readEvents isValid (s.responseEvent ++ bytes)).1.map outcome)
  refine ⟨hstreams.trans h.alone, hid.trans h.known, hdestroyed.trans h.alive,
    hfetches.trans h.idle, hbuffer.trans ?_⟩
  rw [received_concat, hbytes, Option.toList_some, feed_concat, ← h.read]

/-- The streams a fetch is started beside. -/
theorem streams_ready (h : StreamInvariant isValid ts s)
    (hapart : s.connected = true ∨ s.streams = []) : s.ready.streams = [] := by
  unfold ready
  split_ifs with hconnected
  · exact h.streams_abort
  · exact hapart.resolve_left hconnected

theorem streamInvariant_start {bridge : Bridge} {call : Option ℕ} (hfetches : s.fetches = [])
    (hstreams : s.streams = []) : StreamInvariant isValid ts (s.start bridge call) := by
  refine StreamInvariant.quiet ?_ ?_
  · rw [fetches_start_of_idle hfetches]
    exact le_rfl
  · refine (streams_request _).trans ?_
    show s.streams ++ _ = _
    rw [hstreams]
    rfl

/-- A fetch is answered. -/
theorem streamInvariant_fetch {stage : Stage} {call : Option ℕ} {answer : Answer}
    (h : StreamInvariant isValid ts s) (hpast : Past ts s.nextRequest)
    (halive : s.destroyed = false) (hr : (id, .fetch stage call) ∈ s.requests)
    (hkeeps : keepsStreams s (.answer (id, .fetch stage call) answer) = true)
    (hbytes : ∀ id, t.label.bytesOn id = none)
    (hanswer : (s.close (id, .fetch stage call)).onAnswer (.fetch stage call) answer = some s') :
    StreamInvariant isValid (ts ++ [t]) s' := by
  have hclose := fetches_close_of_mem h.one hr rfl
  have hquiet : s.streams = [] := by
    rcases h.stream with hnone | ⟨r, hr'⟩
    · exact hnone
    · have hmem : (id, Request.fetch stage call) ∈ s.fetches := mem_fetches.mpr ⟨hr, rfl⟩
      rw [hr'.idle] at hmem
      exact absurd hmem List.not_mem_nil
  have hstreams : (s.close (id, .fetch stage call)).streams = [] := by
    rw [streams_close, if_neg (by simp)]
    exact hquiet
  rcases onAnswer_fetch_cases hanswer with
    ⟨next, bridge, resourceToGet, asks, rfl⟩ | ⟨-, bridge, rfl⟩ | ⟨hcompletes, asks, rfl⟩
  · refine StreamInvariant.quiet ?_ ?_
    · refine (congrArg List.length (fetches_request _)).trans_le ?_
      show (((s.close _).asking asks).fetches ++ _).length ≤ 1
      rw [fetches_asking, hclose]
      exact le_rfl
    · refine (streams_request _).trans ?_
      show ((s.close _).asking asks).streams ++ _ = _
      rw [streams_asking, hstreams]
      rfl
  · refine StreamInvariant.quiet ?_ hstreams
    show (s.close (id, .fetch stage call)).fetches.length ≤ 1
    rw [hclose]
    exact Nat.zero_le _
  · obtain ⟨_, _, heq⟩ := complete_cases
      ({ (s.close (id, .fetch stage call)).asking asks with resourceToGet := none })
    rw [heq]
    have hfetches : ((s.close (id, .fetch stage call)).asking asks).fetches = [] :=
      (fetches_asking asks).trans hclose
    have hnext : s.nextRequest ≤ ((s.close (id, .fetch stage call)).asking asks).nextRequest :=
      le_nextRequest_asking (s := s.close (id, .fetch stage call)) asks
    refine ⟨?_, .inr ⟨(((s.close (id, .fetch stage call)).asking asks).nextRequest, .eventStream),
      ?_, rfl, (destroyed_asking asks).trans halive, ?_, ?_⟩⟩
    · refine (congrArg List.length (fetches_request _)).trans_le ?_
      show (((s.close _).asking asks).fetches ++ _).length ≤ 1
      rw [hfetches]
      exact Nat.zero_le _
    · refine (streams_request _).trans ?_
      show ((s.close _).asking asks).streams ++ _ = _
      rw [streams_asking, hstreams]
      rfl
    · refine (fetches_request _).trans ?_
      show ((s.close _).asking asks).fetches ++ _ = _
      rw [hfetches]
      rfl
    · show ((s.close _).asking asks).responseEvent = _
      rw [responseEvent_asking, received_concat, hbytes, hpast _ hnext]
      have hlast : s.completesFetch stage answer = true := hcompletes
      rw [keepsStreams, halive, hlast] at hkeeps
      exact List.isEmpty_iff.mp hkeeps

theorem length_fetches_close_le (r : ℕ × Request) : (s.close r).fetches.length ≤ s.fetches.length := by
  rw [fetches_close]
  split_ifs
  · exact List.length_erase_le
  · exact le_rfl

/-- An answer that comes after the destruction. -/
theorem streamInvariant_late (h : StreamInvariant isValid ts s) (hdestroyed : s.destroyed = true)
    (r : ℕ × Request) (hfetches : s'.fetches = (s.close r).fetches)
    (hstreams : s'.streams = (s.close r).streams) : StreamInvariant isValid (ts ++ [t]) s' := by
  have hquiet : s.streams = [] := by
    rcases h.stream with hnone | ⟨r', hr'⟩
    · exact hnone
    · have halive := hr'.alive
      rw [hdestroyed] at halive
      contradiction
  refine StreamInvariant.quiet ?_ ?_
  · rw [hfetches]
    exact (length_fetches_close_le r).trans h.one
  · rw [hstreams, streams_close, hquiet]
    split_ifs <;> rfl

/-- An answer to something else than a fetch. -/
theorem streamInvariant_outside {request : Request} {answer : Answer}
    (h : StreamInvariant isValid ts s) (hfetch : request.isFetch = false)
    (hmem : (id, request) ∈ s.requests) (hbytes : ∀ id, t.label.bytesOn id = none)
    (hanswer : (s.close (id, request)).onAnswer request answer = some s') :
    StreamInvariant isValid (ts ++ [t]) s' := by
  have hclose : (s.close (id, request)).fetches = s.fetches := by
    rw [fetches_close, if_neg (by simp [hfetch])]
  obtain ⟨hfetches, hstreams, hid, hbuffer, hdestroyed⟩ :
      s'.fetches = (s.close (id, request)).fetches ∧
        s'.streams = (s.close (id, request)).streams ∧ s'.eventRequestId = s.eventRequestId ∧
          s'.responseEvent = s.responseEvent ∧ s'.destroyed = s.destroyed := by
    rcases onAnswer_outside_cases id hfetch hanswer with
      ⟨-, bridge, updatingWhiteList, rfl⟩ | ⟨-, bridge, rfl⟩
    · exact ⟨rfl, rfl, rfl, rfl, rfl⟩
    · exact ⟨rfl, rfl, rfl, rfl, rfl⟩
  cases request with
  | fetch stage call => simp [Request.isFetch] at hfetch
  | ownerName =>
    refine h.congr hbytes (hfetches.trans hclose) (hstreams.trans ?_) hid hbuffer hdestroyed
    rw [streams_close, if_neg (by simp)]
  | eventStream =>
    refine StreamInvariant.quiet ?_ ?_
    · rw [hfetches, hclose]
      exact h.one
    · rw [hstreams, streams_close, if_pos rfl, (h.listening hmem).alone]
      simp

theorem StreamInvariant.abort (h : StreamInvariant isValid ts s) (hindex : s.WellIndexed)
    (hfetches : s'.fetches = s.abort.fetches) (hstreams : s'.streams = s.abort.streams) :
    StreamInvariant isValid (ts ++ [t]) s' := by
  refine StreamInvariant.quiet ?_ (hstreams.trans h.streams_abort)
  rw [hfetches, fetches_abort hindex]
  exact h.one

/-- **What a step keeps**: the stream that is open is the one to cancel, and it is read alone. -/
theorem streamInvariant_step (hindex : s.WellIndexed) (hpast : Past ts s.nextRequest)
    (h : StreamInvariant isValid ts s) (hkeeps : keepsStreams s input = true)
    (hstep : s.step isValid input = some s') :
    StreamInvariant isValid (ts ++ [⟨s, input, s'⟩]) s' := by
  rw [BridgeConfigRetriever.step] at hstep
  split_ifs at hstep with henabled
  cases input with
  | execute bridge =>
    rcases execute_cases hstep with
      ⟨-, rfl⟩ | ⟨-, -, -, current, -, rfl⟩ | ⟨hbusy, hother, rfl⟩
    · exact h.congr (fun _ => rfl) rfl rfl rfl rfl rfl
    · exact h.congr (fun _ => rfl) rfl rfl rfl rfl rfl
    · -- it is no answer from the cache, so nothing is fetched and no stream stays open
      have hcached : (s.connected && !s.isOther bridge) = false := by
        cases hconnected : s.connected with
        | false => rfl
        | true =>
          rw [hother hconnected]
          rfl
      rw [keepsStreams, hbusy, hcached, Bool.false_or, Bool.false_or, Bool.and_eq_true,
        List.isEmpty_iff, Bool.or_eq_true, List.isEmpty_iff] at hkeeps
      refine streamInvariant_start ?_ ?_
      · show s.ready.fetches = []
        rw [fetches_ready hindex]
        exact hkeeps.1
      · exact streams_ready h hkeeps.2
  | refresh =>
    rcases refresh_cases hstep with ⟨-, rfl⟩ | ⟨-, -, rfl⟩ | ⟨hbusy, hfirst, hconnected, bridge, rfl⟩
    · exact h.congr (fun _ => rfl) rfl rfl rfl rfl rfl
    · exact h.congr (fun _ => rfl) rfl rfl rfl rfl rfl
    · rw [keepsStreams, hbusy, hfirst, hconnected, Bool.false_or, Bool.false_or, Bool.not_true,
        Bool.false_or, List.isEmpty_iff] at hkeeps
      refine streamInvariant_start ?_ h.streams_abort
      show s.abort.fetches = []
      rw [fetches_abort hindex]
      exact hkeeps
  | disconnected =>
    obtain rfl := Option.some.inj hstep
    rcases onBridgeDisconnect_cases s with ⟨-, heq⟩ | ⟨-, heq⟩
    · rw [heq]
      exact h.congr (fun _ => rfl) rfl rfl rfl rfl rfl
    · rw [heq]
      exact h.abort hindex rfl rfl
  | bridgeChanged bridge =>
    obtain rfl := Option.some.inj hstep
    exact h.congr (fun _ => rfl) rfl rfl rfl rfl rfl
  | destroy =>
    obtain rfl := Option.some.inj hstep
    exact h.abort hindex rfl rfl
  | chunk id bytes outcome =>
    have hopen : (id, Request.eventStream) ∈ s.requests := by simpa [enabled] using henabled
    have hlistening := h.listening hopen
    rw [handle, hlistening.alive] at hstep
    obtain rfl := Option.some.inj hstep
    have hread := hlistening.onChunk
      (t := ⟨s, .chunk id bytes outcome, s.onChunk isValid bytes outcome⟩) bytes outcome
      (by simp [Input.bytesOn])
    refine ⟨?_, .inr ⟨_, hread⟩⟩
    rw [if_neg Bool.false_ne_true, hread.idle]
    exact Nat.zero_le _
  | answer r answer =>
    obtain ⟨id, request⟩ := r
    have hmem : (id, request) ∈ s.requests := by simpa [enabled] using henabled
    rw [handle] at hstep
    cases hdestroyed : s.destroyed with
    | true =>
      rw [if_pos hdestroyed] at hstep
      obtain rfl := Option.some.inj hstep
      refine streamInvariant_late h hdestroyed (id, request) ?_ ?_
      · cases request <;> rfl
      · cases request <;> rfl
    | false =>
      rw [hdestroyed, if_neg Bool.false_ne_true] at hstep
      cases hfetch : request.isFetch with
      | true =>
        cases request with
        | fetch stage call =>
          exact streamInvariant_fetch h hpast hdestroyed hmem hkeeps (fun _ => rfl) hstep
        | _ => simp [Request.isFetch] at hfetch
      | false => exact streamInvariant_outside h hfetch hmem (fun _ => rfl) hstep

/-- **One event stream at most is open, it is the one to cancel, and each is read as if it were
alone**, in every run whose steps keep the streams apart. -/
theorem streams_apart (hrun : (session isValid).Run ts s)
    (hkeeps : ∀ t ∈ ts, keepsStreams t.before t.label = true) :
    OwnStream s ∧ Always (ReadAlone isValid) ts := by
  have hinvariant : s.WellIndexed ∧ Past ts s.nextRequest ∧ StreamInvariant isValid ts s ∧
      Always (ReadAlone isValid) ts := by
    induction hrun with
    | init h =>
      obtain rfl := h
      refine ⟨WellIndexed.init, fun id _ => rfl, StreamInvariant.quiet ?_ rfl, always_nil⟩
      exact Nat.zero_le _
    | @step ts s s' input hrun hstep ih =>
      obtain ⟨hindex, hpast, h, hread⟩ := ih fun t ht => hkeeps t (List.mem_append_left _ ht)
      have hkeep := hkeeps ⟨s, input, s'⟩ (by simp)
      refine ⟨hindex.step hstep, hpast.step hindex hstep,
        streamInvariant_step hindex hpast h hkeep hstep, always_concat.mpr ⟨hread, ?_⟩⟩
      intro id bytes hbytes
      cases input with
      | chunk id' bytes' outcome =>
        have hid : id' = id := by
          by_contra hne
          simp [Input.bytesOn, hne] at hbytes
        subst hid
        refine (h.listening ?_).read
        replace hstep : s.step isValid (.chunk id' bytes' outcome) = some s' := hstep
        rw [BridgeConfigRetriever.step] at hstep
        split_ifs at hstep with henabled
        simpa [enabled] using henabled
      | _ => contradiction
  exact ⟨hinvariant.2.2.1.ownStream, hinvariant.2.2.2⟩

set_option maxRecDepth 4000 in
/-- A stream that delivers an event in two pieces. -/
theorem streams_apart_listening : ∃ ts s, (session fun p => p = ['[', ']']).Run ts s ∧
    s.streams ≠ [] ∧ OwnStream s ∧ Always (ReadAlone fun p => p = ['[', ']']) ts := by
  obtain ⟨ts, s, hrun, h⟩ := Machine.exists_run (M := session fun p => p = ['[', ']']) (s := {})
    (.execute {} :: wholeFetch 0 0 ++
      [.chunk 10 ['d', 'a', 't', 'a', ':', ' ', '['] fun _ => {}, .chunk 10 [']'] fun _ => {}])
    (fun ts s => decide (s.streams ≠ []) && ts.all fun t => keepsStreams t.before t.label)
    rfl (by decide)
  rw [Bool.and_eq_true, decide_eq_true_eq, List.all_eq_true] at h
  exact ⟨ts, s, hrun, h.1, streams_apart hrun h.2⟩

/-- The last transition delivers bytes on a stream that a fresh reader of the stream would read an
event from, and the retriever reads none. -/
def missesEvent (isValid : List Char → Bool)
    (ts : List (Transition BridgeConfigRetriever Input)) : Bool :=
  match ts.getLast? with
  | some ⟨s, .chunk id bytes _, _⟩ =>
    (readEvents isValid (s.responseEvent ++ bytes)).1 = [] &&
      (readEvents isValid ((feed isValid [] (received id ts.dropLast)).2 ++ bytes)).1 ≠ []
  | _ => false

set_option maxRecDepth 8000 in
/-- A disconnect in the middle of a fetch does not keep its end from opening a stream, and the next
call opens another one. A stream that is cut in the middle of an event leaves the beginning of it in
the buffer, and the first event of the next stream is not read. -/
theorem exists_two_streams_and_missed_event :
    (∃ ts s, (session fun _ => true).Run ts s ∧ s.streams.length = 2) ∧
    ∃ ts s, (session fun p => p = ['[', ']']).Run ts s ∧
      ¬ Always (ReadAlone fun p => p = ['[', ']']) ts ∧ missesEvent (fun p => p = ['[', ']']) ts := by
  constructor
  · obtain ⟨ts, s, hrun, h⟩ := Machine.exists_run (M := session fun _ => true) (s := {})
      (.execute {} :: .disconnected :: wholeFetch 0 0 ++ .execute {} :: wholeFetch 11 1)
      (fun _ s => s.streams.length = 2) rfl (by decide)
    exact ⟨ts, s, hrun, of_decide_eq_true h⟩
  · obtain ⟨ts, s, hrun, h⟩ := Machine.exists_run (M := session fun p => p = ['[', ']']) (s := {})
      (.execute {} :: wholeFetch 0 0 ++
        .chunk 10 ['d', 'a', 't', 'a', ':', ' ', '['] (fun _ => {}) :: .disconnected :: .execute {} ::
          wholeFetch 11 1 ++
        [.chunk 21 ['i', 'd', ':', ' ', '\n', 'd', 'a', 't', 'a', ':', ' ', '[', ']'] fun _ => {}])
      (fun ts _ => missesEvent (fun p => p = ['[', ']']) ts) rfl (by decide)
    refine ⟨ts, s, hrun, fun halways => ?_, h⟩
    unfold missesEvent at h
    split at h
    · next b id bytes outcome a hlast =>
      rw [Bool.and_eq_true, decide_eq_true_eq, decide_eq_true_eq] at h
      have hread := halways.last hlast id bytes (by simp [Input.bytesOn])
      rw [← hread] at h
      exact h.2 h.1
    · contradiction

end HueStream.Session
