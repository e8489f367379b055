import HueStream.Methods.BridgeDiscoveryIpscanPreCheck
import Mathlib.Data.List.Nodup
import Mathlib.Data.List.Range
import Mathlib.Data.List.Perm.Lattice
import Mathlib.Tactic

/-! # Every address is tried once, and what is connected is found

What a scan has done by the head of a round is said in closed form (`Inv`): the sockets in the working set
are those that no `select` has decided about yet, in the order of their creation, and the addresses
returned are those of the sockets found connected so far. The descriptors that are open are those of the
working set at every moment between two steps (`Tidy`). -/

namespace HueStream.Methods.IpscanPreCheck

/-! ### What is said about the events -/

/-- The sockets that were opened, with the round. -/
def openings (es : List Event) : List (ℕ × AsyncSocket) :=
  es.filterMap fun
    | .opened round s => some (round, s)
    | _ => none

/-- The calls of the callback. -/
def reports (es : List Event) : List String :=
  es.filterMap fun
    | .reported ip => some ip
    | _ => none

/-- The descriptors that are open after the events. -/
def openAfter (es : List Event) : List ℕ :=
  es.foldl
    (fun fds e =>
      match e with
      | .opened _ s => fds ++ [s.fd]
      | .closed fd => fds.erase fd
      | .reported _ => fds)
    []

/-- At no moment are more than `maxActiveSockets` sockets open. -/
def Bounded (es : List Event) : Prop := ∀ fs, fs <+: es → (openAfter fs).length ≤ maxActiveSockets

@[simp] theorem openings_append (es fs : List Event) : openings (es ++ fs) = openings es ++ openings fs :=
  List.filterMap_append

@[simp] theorem reports_append (es fs : List Event) : reports (es ++ fs) = reports es ++ reports fs :=
  List.filterMap_append

@[simp] theorem openings_closed (ss : List AsyncSocket) : openings (ss.map (.closed ·.fd)) = [] := by
  simp [openings, List.filterMap_map]

@[simp] theorem reports_closed (ss : List AsyncSocket) : reports (ss.map (.closed ·.fd)) = [] := by
  simp [reports, List.filterMap_map]

@[simp] theorem openings_reported (ips : List String) : openings (ips.map .reported) = [] := by
  simp [openings, List.filterMap_map]

@[simp] theorem reports_reported (ips : List String) : reports (ips.map .reported) = ips := by
  simp [reports, List.filterMap_map]

theorem openAfter_opened (es : List Event) (round : ℕ) (s : AsyncSocket) :
    openAfter (es ++ [.opened round s]) = openAfter es ++ [s.fd] := by
  simp [openAfter, List.foldl_append]

theorem openAfter_closed (es : List Event) (fd : ℕ) :
    openAfter (es ++ [.closed fd]) = (openAfter es).erase fd := by
  simp [openAfter, List.foldl_append]

theorem openAfter_reported (es : List Event) (ips : List String) :
    openAfter (es ++ ips.map .reported) = openAfter es := by
  simp [openAfter, List.foldl_append, List.foldl_map]

theorem openAfter_closedAll (es : List Event) (ss : List AsyncSocket) :
    openAfter (es ++ ss.map (.closed ·.fd)) = (openAfter es).diff (ss.map AsyncSocket.fd) := by
  simp [openAfter, List.foldl_append, List.foldl_map, List.diff_eq_foldl]

theorem Bounded.concat {es : List Event} {e : Event} (hes : Bounded es)
    (he : (openAfter (es ++ [e])).length ≤ maxActiveSockets) : Bounded (es ++ [e]) := by
  intro fs hfs
  rcases List.prefix_concat_iff.mp hfs with rfl | hfs
  · exact he
  · exact hes fs hfs

/-- Closing and reporting open nothing. -/
theorem Bounded.append {es fs : List Event} (hes : Bounded es) (hfs : openings fs = []) :
    Bounded (es ++ fs) := by
  induction fs generalizing es with
  | nil => simpa using hes
  | cons e fs ih =>
    rw [List.append_cons]
    have hlast : (openAfter es).length ≤ maxActiveSockets := hes es List.prefix_rfl
    cases e with
    | opened round s => simp [openings] at hfs
    | closed fd =>
      refine ih (hes.concat ?_) hfs
      rw [openAfter_closed]
      exact (List.length_erase_le).trans hlast
    | reported ip =>
      refine ih (hes.concat ?_) hfs
      rw [show [Event.reported ip] = [ip].map .reported from rfl, openAfter_reported]
      exact hlast

/-! ### The open descriptors -/

/-- The open descriptors are those of the working set. -/
structure Tidy (s : Scan) : Prop where
  isOpen : openAfter s.events = s.activeSockets.map AsyncSocket.fd
  numbered : ∀ a ∈ s.activeSockets, a.fd < s.created
  distinct : (s.activeSockets.map AsyncSocket.fd).Nodup
  few : s.activeSockets.length ≤ maxActiveSockets
  bounded : Bounded s.events

theorem tidy_start (ips : List String) : Tidy (start ips) where
  isOpen := rfl
  numbered := by simp [start]
  distinct := by simp [start]
  few := by simp [start]
  bounded fs hfs := by
    obtain rfl : fs = [] := List.prefix_nil.mp hfs
    simp [openAfter]

/-- A new socket enters the working set. -/
theorem Tidy.opened {s : Scan} (hs : Tidy s) (hroom : s.activeSockets.length < maxActiveSockets) (round : ℕ)
    {socket : AsyncSocket} (hfd : socket.fd = s.created) (ips : List String) :
    Tidy
      { s with
        ips, activeSockets := s.activeSockets ++ [socket], created := s.created + 1,
        events := s.events ++ [.opened round socket] } where
  isOpen := by simp [openAfter_opened, hs.isOpen]
  numbered a ha := by
    rcases List.mem_append.mp ha with ha | ha
    · have := hs.numbered a ha
      simp only
      omega
    · obtain rfl := List.mem_singleton.mp ha
      simp [hfd]
  distinct := by
    have hnew : socket.fd ∉ s.activeSockets.map AsyncSocket.fd := by
      intro hmem
      obtain ⟨a, ha, heq⟩ := List.mem_map.mp hmem
      have := hs.numbered a ha
      omega
    rw [List.map_append, List.map_singleton]
    exact List.nodup_append_comm.mp (by simpa using ⟨by simpa using hnew, hs.distinct⟩)
  few := by simpa using hroom
  bounded := hs.bounded.concat (by simpa [openAfter_opened, hs.isOpen] using hroom)

/-- A new socket that could not start to connect is closed at once. -/
theorem Tidy.skipped {s : Scan} (hs : Tidy s) (hroom : s.activeSockets.length < maxActiveSockets)
    (round : ℕ) {socket : AsyncSocket} (hfd : socket.fd = s.created) (ips : List String) :
    Tidy
      { s with
        ips, created := s.created + 1,
        events := s.events ++ [.opened round socket] ++ [.closed socket.fd] } where
  isOpen := by
    have hnew : socket.fd ∉ openAfter s.events := by
      rw [hs.isOpen]
      intro hmem
      obtain ⟨a, ha, heq⟩ := List.mem_map.mp hmem
      have := hs.numbered a ha
      omega
    rw [openAfter_closed, openAfter_opened, List.erase_append_right _ hnew]
    simp [hs.isOpen]
  numbered a ha := Nat.lt_succ_of_lt (hs.numbered a ha)
  distinct := hs.distinct
  few := hs.few
  bounded := ((hs.opened hroom round hfd ips).bounded).append (by simp [openings])

theorem Tidy.withIps {s : Scan} (hs : Tidy s) (ips : List String) : Tidy { s with ips } :=
  ⟨hs.isOpen, hs.numbered, hs.distinct, hs.few, hs.bounded⟩

theorem Tidy.addSockets {s : Scan} (hs : Tidy s) (round : ℕ) (attempt : ℕ → Option Attempt) (i : ℕ)
    (ips : List String) : Tidy (addSockets round attempt i ips s) := by
  induction ips generalizing i s with
  | nil => exact hs.withIps []
  | cons ip ips ih =>
    unfold IpscanPreCheck.addSockets
    split_ifs with hroom
    · cases attempt i with
      | none => exact hs.withIps (ip :: ips)
      | some a =>
        dsimp only
        split_ifs
        · exact ih (hs.skipped hroom round rfl s.ips) (i + 1)
        · exact ih (hs.opened hroom round rfl s.ips) (i + 1)
    · exact hs.withIps (ip :: ips)

/-- The sockets with new statuses. -/
theorem Tidy.check {s : Scan} (hs : Tidy s) {f : AsyncSocket → AsyncSocket} (hf : ∀ a, (f a).fd = a.fd) :
    Tidy { s with activeSockets := s.activeSockets.map f } where
  isOpen := by simp [hs.isOpen, hf]
  numbered a ha := by
    obtain ⟨b, hb, rfl⟩ := List.mem_map.mp ha
    simpa [hf] using hs.numbered b hb
  distinct := by simpa [Function.comp_def, hf] using hs.distinct
  few := by simpa using hs.few
  bounded := hs.bounded

theorem Tidy.report {s : Scan} (hs : Tidy s) : Tidy (report s) where
  isOpen := (openAfter_reported _ _).trans hs.isOpen
  numbered := hs.numbered
  distinct := hs.distinct
  few := hs.few
  bounded := hs.bounded.append (openings_reported _)

theorem Tidy.purge {s : Scan} (hs : Tidy s) : Tidy (purge s) where
  isOpen := by
    have hinj := List.inj_on_of_nodup_map hs.distinct
    simp only [IpscanPreCheck.purge]
    rw [openAfter_closedAll, hs.isOpen, hs.distinct.sdiff_eq_filter, List.filter_map]
    congr 1
    refine List.filter_congr fun a ha => ?_
    have hgone : a.fd ∈ (s.activeSockets.filter (·.status ≠ .connecting)).map AsyncSocket.fd ↔
        a.status ≠ .connecting := by
      simp only [List.mem_map, List.mem_filter, decide_eq_true_eq]
      constructor
      · rintro ⟨b, ⟨hb, hstatus⟩, heq⟩
        rwa [← hinj hb ha heq]
      · exact fun hstatus => ⟨a, ⟨ha, hstatus⟩, rfl⟩
    exact decide_eq_decide.mpr ((not_congr hgone).trans not_not)
  numbered a ha := hs.numbered a (List.mem_of_mem_filter ha)
  distinct := (List.filter_sublist.map AsyncSocket.fd).nodup hs.distinct
  few := (List.length_filter_le _ _).trans hs.few
  bounded := hs.bounded.append (openings_closed _)

/-! ### What a round decides about a socket -/

/-- The status a `select` gives a socket: readable or exceptional is an error, then writable is connected,
then the deadline counts. -/
def verdict (round : Round) (s : AsyncSocket) : Option SocketStatus :=
  round.select.bind fun ready =>
    if (ready s.fd).except || (ready s.fd).read then some .connectionError
    else if (ready s.fd).write then some .connected
    else if s.timeout < (ready s.fd).now then some .connectionError
    else none

/-- A socket after the `select` of a round. -/
def judged (round : Round) (s : AsyncSocket) : AsyncSocket :=
  { s with status := (verdict round s).getD s.status }

variable {round : Round} {s : AsyncSocket}

theorem verdict_cases (round : Round) (s : AsyncSocket) : verdict round s = none ∨
    verdict round s = some .connected ∨ verdict round s = some .connectionError := by
  unfold verdict
  cases round.select with
  | none => simp
  | some ready =>
    simp only [Option.bind_some]
    split_ifs <;> simp

theorem checkSockets_eq (round : Round) (ss : List AsyncSocket) :
    checkSockets round.select ss = ss.map (judged round) := by
  cases hselect : round.select with
  | none =>
    have hsame : judged round = id := by
      funext s
      simp [judged, verdict, hselect]
    simp [checkSockets, hsame]
  | some ready =>
    refine List.map_congr_left fun s _ => ?_
    simp only [checkSocket, judged, verdict, hselect, Option.bind_some]
    split_ifs <;> rfl

theorem judged_of_none (h : verdict round s = none) : judged round s = s := by
  simp [judged, h]

/-- Statuses of sockets in the working set before the `select`. -/
def Fresh (s : AsyncSocket) : Prop := s.status = .connecting ∨ s.status = .connected

theorem judged_connecting_iff :
    (judged round s).status = .connecting ↔ s.status = .connecting ∧ verdict round s = none := by
  rcases verdict_cases round s with h | h | h <;> simp [judged, h]

theorem judged_connected_iff : (judged round s).status = .connected ↔
    verdict round s = some .connected ∨ verdict round s = none ∧ s.status = .connected := by
  rcases verdict_cases round s with h | h | h <;> simp [judged, h]

/-! ### What is pending and what is found -/

section Runs

variable (env : ℕ → Round)

/-- At the head of round `n` nothing is decided about the socket, opened in round `x.1`. -/
def Pending (n : ℕ) (x : ℕ × AsyncSocket) : Prop :=
  x.2.status = .connecting ∧ ∀ j < n, x.1 ≤ j → verdict (env j) x.2 = none

/-- The socket is found connected before round `n`: it was connected at once and the `select` of its round
did not say otherwise, or the first `select` that decides about it says so. -/
def FoundBy (n : ℕ) (x : ℕ × AsyncSocket) : Prop :=
  (x.1 < n ∧ x.2.status = .connected ∧ verdict (env x.1) x.2 ≠ some .connectionError) ∨
  (x.2.status = .connecting ∧ ∃ m < n, x.1 ≤ m ∧ verdict (env m) x.2 = some .connected ∧
    ∀ j < m, x.1 ≤ j → verdict (env j) x.2 = none)

/-- The socket is found connected. -/
def Found (x : ℕ × AsyncSocket) : Prop := ∃ n, FoundBy env n x

instance (n : ℕ) (x : ℕ × AsyncSocket) : Decidable (Pending env n x) :=
  inferInstanceAs (Decidable (_ ∧ ∀ j < n, _ → _))

instance (n : ℕ) (x : ℕ × AsyncSocket) : Decidable (FoundBy env n x) :=
  inferInstanceAs (Decidable (_ ∨ _ ∧ ∃ m < n, _ ∧ _ ∧ ∀ j < m, _ → _))

variable {env} {n : ℕ} {x : ℕ × AsyncSocket}

theorem pending_succ (hx : x.1 ≤ n) :
    Pending env (n + 1) x ↔ Pending env n x ∧ verdict (env n) x.2 = none := by
  constructor
  · rintro ⟨hstatus, hnone⟩
    exact ⟨⟨hstatus, fun j hj => hnone j (by omega)⟩, hnone n (by omega) hx⟩
  · rintro ⟨⟨hstatus, hnone⟩, hn⟩
    refine ⟨hstatus, fun j hj hxj => ?_⟩
    rcases Nat.lt_succ_iff_lt_or_eq.mp hj with hj | rfl
    · exact hnone j hj hxj
    · exact hn

theorem pending_new (o : AsyncSocket) :
    Pending env (n + 1) (n, o) ↔ o.status = .connecting ∧ verdict (env n) o = none := by
  rw [pending_succ (x := (n, o)) le_rfl]
  simp only [Pending, and_congr_left_iff, and_iff_left_iff_imp]
  intro _ _ j hj hnj
  omega

theorem foundBy_succ (hx : x.1 < n) : FoundBy env (n + 1) x ↔
    FoundBy env n x ∨ Pending env n x ∧ verdict (env n) x.2 = some .connected := by
  constructor
  · rintro (⟨-, hfound⟩ | ⟨hstatus, m, hm, hxm, hv, hnone⟩)
    · exact Or.inl (Or.inl ⟨hx, hfound⟩)
    · rcases Nat.lt_succ_iff_lt_or_eq.mp hm with hm | rfl
      · exact Or.inl (Or.inr ⟨hstatus, m, hm, hxm, hv, hnone⟩)
      · exact Or.inr ⟨⟨hstatus, hnone⟩, hv⟩
  · rintro ((⟨-, hfound⟩ | ⟨hstatus, m, hm, hfound⟩) | ⟨⟨hstatus, hnone⟩, hv⟩)
    · exact Or.inl ⟨by omega, hfound⟩
    · exact Or.inr ⟨hstatus, m, by omega, hfound⟩
    · exact Or.inr ⟨hstatus, n, by omega, hx.le, hv, hnone⟩

theorem foundBy_new {o : AsyncSocket} (ho : Fresh o ∨ o.status = .unexpectedError) :
    FoundBy env (n + 1) (n, o) ↔
      o.status ≠ .unexpectedError ∧ (judged (env n) o).status = .connected := by
  have hold : ¬ FoundBy env n (n, o) := by
    rintro (⟨hlt, -⟩ | ⟨-, m, hm, hnm, -⟩)
    · exact absurd hlt (lt_irrefl _)
    · exact absurd hnm (not_le.mpr hm)
  rw [judged_connected_iff]
  constructor
  · rintro (⟨-, hstatus, hv⟩ | ⟨hstatus, m, hm, hnm, hv, -⟩)
    · refine ⟨fun h => by simp [h] at hstatus, ?_⟩
      rcases verdict_cases (env n) o with h | h | h
      · exact Or.inr ⟨h, hstatus⟩
      · exact Or.inl h
      · exact absurd h hv
    · obtain rfl : m = n := by simp only at hnm; omega
      exact ⟨fun h => by simp [h] at hstatus, Or.inl hv⟩
  · rintro ⟨hknown, hv⟩
    rcases ho with (hstatus | hstatus) | hstatus
    · have hconnected : verdict (env n) o = some .connected := by simpa [hstatus] using hv
      exact Or.inr ⟨hstatus, n, by omega, le_rfl, hconnected, fun j hj hnj => absurd hnj (by simpa using hj)⟩
    · refine Or.inl ⟨by simp, hstatus, ?_⟩
      rcases hv with hv | ⟨hv, -⟩ <;> simp [hv]
    · exact absurd hstatus hknown

/-- What is pending has not been found. -/
theorem not_foundBy_of_pending (hx : Pending env n x) : ¬ FoundBy env n x := by
  rintro (⟨-, hstatus, -⟩ | ⟨-, m, hm, hxm, hv, -⟩)
  · simp [hx.1] at hstatus
  · simp [hx.2 m hm hxm] at hv

theorem FoundBy.mono {m : ℕ} (hx : FoundBy env m x) (hmn : m ≤ n) : FoundBy env n x := by
  rcases hx with ⟨hlt, hfound⟩ | ⟨hstatus, k, hk, hfound⟩
  · exact Or.inl ⟨by omega, hfound⟩
  · exact Or.inr ⟨hstatus, k, by omega, hfound⟩

/-- Once nothing is pending, all that is ever found has been found. -/
theorem found_iff (hx : x.1 < n) (hpending : ¬ Pending env n x) : Found env x ↔ FoundBy env n x := by
  refine ⟨?_, fun hfound => ⟨n, hfound⟩⟩
  rintro ⟨m, ⟨-, hfound⟩ | ⟨hstatus, k, hk, hxk, hv, hnone⟩⟩
  · exact Or.inl ⟨hx, hfound⟩
  · by_cases hkn : k < n
    · exact Or.inr ⟨hstatus, k, hkn, hxk, hv, hnone⟩
    · exact absurd ⟨hstatus, fun j hj => hnone j (by omega)⟩ hpending

end Runs

/-! ### What a round does -/

theorem asyncConnect_cases (a : Attempt) : asyncConnect a = .connecting ∨ asyncConnect a = .connected ∨
    asyncConnect a = .unexpectedError := by
  unfold asyncConnect
  split_ifs <;> simp

/-- The inner loop has opened the sockets `news`, and put those that could start to connect into the working
set. -/
structure Added (n : ℕ) (ips : List String) (s s' : Scan) (news : List AsyncSocket) : Prop where
  tried : news.map AsyncSocket.ip ++ s'.ips = ips
  active : s'.activeSockets = s.activeSockets ++ news.filter (·.status ≠ .unexpectedError)
  returned : s'.returnValue = s.returnValue
  opened : openings s'.events = openings s.events ++ news.map (n, ·)
  reported : reports s'.events = reports s.events
  created : s'.created = s.created + news.length
  numbered : news.map AsyncSocket.fd = List.range' s.created news.length
  status : ∀ a ∈ news, Fresh a ∨ a.status = .unexpectedError

theorem added_nil (n : ℕ) (ips : List String) (s : Scan) : Added n ips s { s with ips } [] where
  tried := rfl
  active := by simp
  returned := rfl
  opened := by simp
  reported := rfl
  created := rfl
  numbered := rfl
  status := by simp

section Cons

variable {n : ℕ} {ips : List String} {s s' : Scan} {socket : AsyncSocket} {news : List AsyncSocket}

/-- Before the sockets `news` one was opened and closed at once. -/
theorem Added.skipped (hstatus : socket.status = .unexpectedError) (hfd : socket.fd = s.created)
    (hadded : Added n ips
      { s with
        created := s.created + 1, events := s.events ++ [.opened n socket] ++ [.closed socket.fd] } s' news) :
    Added n (socket.ip :: ips) s s' (socket :: news) where
  tried := congrArg (socket.ip :: ·) hadded.tried
  active := by rw [hadded.active, List.filter_cons_of_neg (by simp [hstatus])]
  returned := hadded.returned
  opened := by
    rw [hadded.opened]
    simp [openings]
  reported := by
    rw [hadded.reported]
    simp [reports]
  created := by
    rw [hadded.created, List.length_cons]
    exact Nat.add_right_comm _ _ _
  numbered := by
    rw [List.map_cons, hadded.numbered, hfd]
    rfl
  status := List.forall_mem_cons.mpr ⟨Or.inr hstatus, hadded.status⟩

/-- Before the sockets `news` one entered the working set. -/
theorem Added.entered (hstatus : Fresh socket) (hfd : socket.fd = s.created)
    (hadded : Added n ips
      { s with
        activeSockets := s.activeSockets ++ [socket], created := s.created + 1,
        events := s.events ++ [.opened n socket] } s' news) :
    Added n (socket.ip :: ips) s s' (socket :: news) where
  tried := congrArg (socket.ip :: ·) hadded.tried
  active := by
    have hknown : socket.status ≠ .unexpectedError := by
      rcases hstatus with hstatus | hstatus <;> simp [hstatus]
    rw [hadded.active, List.filter_cons_of_pos (by simpa using hknown), List.append_assoc]
    rfl
  returned := hadded.returned
  opened := by
    rw [hadded.opened]
    simp [openings]
  reported := by
    rw [hadded.reported]
    simp [reports]
  created := by
    rw [hadded.created, List.length_cons]
    exact Nat.add_right_comm _ _ _
  numbered := by
    rw [List.map_cons, hadded.numbered, hfd]
    rfl
  status := List.forall_mem_cons.mpr ⟨Or.inl hstatus, hadded.status⟩

end Cons

theorem exists_added (n : ℕ) (attempt : ℕ → Option Attempt) (i : ℕ) (ips : List String) (s : Scan) :
    ∃ news, Added n ips s (addSockets n attempt i ips s) news := by
  induction ips generalizing i s with
  | nil => exact ⟨[], added_nil n [] s⟩
  | cons ip ips ih =>
    unfold addSockets
    split_ifs with hroom
    · cases attempt i with
      | none => exact ⟨[], added_nil n (ip :: ips) s⟩
      | some a =>
        dsimp only
        split_ifs with hskip
        · obtain ⟨news, hadded⟩ := ih (i + 1) _
          have hstatus : (AsyncSocket.mk s.created ip (asyncConnect a)
              (a.now + httpConnectTimeout * 1000)).status = .unexpectedError := hskip
          exact ⟨_, Added.skipped hstatus rfl hadded⟩
        · obtain ⟨news, hadded⟩ := ih (i + 1) _
          have hfresh : Fresh ⟨s.created, ip, asyncConnect a, a.now + httpConnectTimeout * 1000⟩ := by
            rcases asyncConnect_cases a with hstatus | hstatus | hstatus
            · exact Or.inl hstatus
            · exact Or.inr hstatus
            · exact absurd hstatus hskip
          exact ⟨_, Added.entered hfresh rfl hadded⟩
    · exact ⟨[], added_nil n (ip :: ips) s⟩

/-- Two disjoint selections from a list. -/
theorem filter_or_perm {α : Type} {p q : α → Prop} [DecidablePred p] [DecidablePred q] (l : List α)
    (hpq : ∀ a ∈ l, p a → ¬ q a) :
    (l.filter fun a => p a ∨ q a).Perm (l.filter (p ·) ++ l.filter (q ·)) := by
  induction l with
  | nil => simp
  | cons a l ih =>
    have hperm := ih fun b hb => hpq b (by simp [hb])
    by_cases hp : p a
    · have hq := hpq a (by simp) hp
      simpa [List.filter_cons, hp, hq] using hperm
    · by_cases hq : q a
      · simp only [List.filter_cons, hp, hq, or_true, decide_true, if_true, decide_false,
          Bool.false_eq_true, if_false]
        exact (hperm.cons a).trans List.perm_middle.symm
      · simpa [List.filter_cons, hp, hq] using hperm

/-- What the scan has done by the head of round `n`. -/
structure Inv (env : ℕ → Round) (ips : List String) (n : ℕ) (s : Scan) : Prop where
  tried : (openings s.events).map (·.2.ip) ++ s.ips = ips.reverse
  numbered : (openings s.events).map (·.2.fd) = List.range s.created
  earlier : ∀ x ∈ openings s.events, x.1 < n
  active : s.activeSockets = ((openings s.events).filter fun x => Pending env n x).map Prod.snd
  returned : s.returnValue.Perm (((openings s.events).filter fun x => FoundBy env n x).map (·.2.ip))
  reported : reports s.events = s.returnValue

theorem inv_start (env : ℕ → Round) (ips : List String) : Inv env ips 0 (start ips) where
  tried := rfl
  numbered := rfl
  earlier := by simp [start, openings]
  active := rfl
  returned := by simp [start, openings]
  reported := rfl

section Step

variable {env : ℕ → Round} {ips : List String} {n : ℕ} {s s' : Scan} {news : List AsyncSocket}

/-- The working set after the purge: what was pending and still is. -/
theorem Inv.active_succ (hs : Inv env ips n s) (hadded : Added n s.ips s s' news) :
    (s'.activeSockets.map (judged (env n))).filter (·.status = .connecting) =
      ((openings s'.events).filter fun x => Pending env (n + 1) x).map Prod.snd := by
  have hkeep : (s'.activeSockets.map (judged (env n))).filter (·.status = .connecting) =
      s'.activeSockets.filter fun a => a.status = .connecting ∧ verdict (env n) a = none := by
    rw [List.filter_map]
    have hid : ∀ a ∈ s'.activeSockets.filter ((fun a => decide (a.status = .connecting)) ∘ judged (env n)),
        judged (env n) a = a := by
      intro a ha
      have hstatus := (List.mem_filter.mp ha).2
      simp only [Function.comp_apply, decide_eq_true_eq, judged_connecting_iff] at hstatus
      exact judged_of_none hstatus.2
    rw [List.map_congr_left hid, List.map_id']
    exact List.filter_congr fun a _ => decide_eq_decide.mpr judged_connecting_iff
  rw [hkeep, hadded.active, hadded.opened, List.filter_append, List.filter_append, List.map_append]
  congr 1
  · rw [hs.active, List.filter_map, List.filter_filter]
    congr 1
    refine List.filter_congr fun x hx => ?_
    have hpending : Pending env (n + 1) x ↔ Pending env n x ∧ verdict (env n) x.2 = none :=
      pending_succ (hs.earlier x hx).le
    simp only [Function.comp_apply, hpending]
    by_cases hx : Pending env n x
    · simp [hx, hx.1]
    · simp [hx]
  · rw [List.filter_map, List.map_map, List.filter_filter]
    simp only [Function.comp_def, List.map_id', pending_new]
    refine List.filter_congr fun a _ => ?_
    by_cases hstatus : a.status = .connecting <;> simp [hstatus]

/-- What the round reports: what it decides to be connected. -/
theorem Inv.returned_succ (hs : Inv env ips n s) (hadded : Added n s.ips s s' news) :
    (s'.returnValue ++ ((s'.activeSockets.map (judged (env n))).filter (·.status = .connected)).map
        AsyncSocket.ip).Perm
      (((openings s'.events).filter fun x => FoundBy env (n + 1) x).map (·.2.ip)) := by
  have hround : ((s'.activeSockets.map (judged (env n))).filter (·.status = .connected)).map AsyncSocket.ip =
      (s'.activeSockets.filter fun a => (judged (env n) a).status = .connected).map AsyncSocket.ip := by
    rw [List.filter_map, List.map_map]
    rfl
  have hold : ((openings s.events).filter fun x => FoundBy env (n + 1) x).Perm
      (((openings s.events).filter fun x => FoundBy env n x) ++
        (openings s.events).filter fun x => Pending env n x ∧ (judged (env n) x.2).status = .connected) := by
    refine List.Perm.trans ?_ (filter_or_perm _ fun x _ hfound hx => not_foundBy_of_pending hx.1 hfound)
    refine List.Perm.of_eq (List.filter_congr fun x hx => decide_eq_decide.mpr ?_)
    rw [foundBy_succ (hs.earlier x hx), judged_connected_iff]
    refine or_congr_right (and_congr_right fun hx => ?_)
    simp [hx.1]
  have hnew : ((news.map (n, ·)).filter fun x => FoundBy env (n + 1) x).map (·.2.ip) =
      ((news.filter (·.status ≠ .unexpectedError)).filter
        fun a => (judged (env n) a).status = .connected).map AsyncSocket.ip := by
    rw [List.filter_map, List.map_map, List.filter_filter]
    refine congrArg (List.map AsyncSocket.ip) (List.filter_congr fun a ha => ?_)
    simp [foundBy_new (hadded.status a ha), Bool.and_comm]
  rw [hround, hadded.active, hadded.opened, hadded.returned, List.filter_append, List.filter_append,
    List.map_append, List.map_append, hnew, ← List.append_assoc]
  refine List.Perm.append_right _ ((List.Perm.append_right _ hs.returned).trans ?_)
  refine List.Perm.trans ?_ (hold.map _).symm
  rw [List.map_append, hs.active, List.filter_map, List.map_map, List.filter_filter]
  refine List.Perm.of_eq (congrArg _ (congrArg _ (List.filter_congr fun x _ => ?_)))
  simp [Bool.and_comm]

theorem openings_scanRound (n : ℕ) (round : Round) (s : Scan) :
    openings (scanRound n round s).events = openings (addSockets n round.attempt 0 s.ips s).events := by
  simp [scanRound, purge, report, -List.map_map]

theorem Inv.step (hs : Inv env ips n s) : Inv env ips (n + 1) (scanRound n (env n) s) := by
  obtain ⟨news, hadded⟩ := exists_added n (env n).attempt 0 s.ips s
  have hopened := openings_scanRound n (env n) s
  constructor
  · rw [hopened, hadded.opened, List.map_append, List.append_assoc, ← hs.tried]
    simp only [List.map_map]
    exact congrArg _ hadded.tried
  · rw [hopened, hadded.opened, List.map_append, hs.numbered, List.map_map]
    have hcreated : (scanRound n (env n) s).created = s.created + news.length := hadded.created
    rw [hcreated, List.range_eq_range', List.range_eq_range', ← List.range'_append_1, Nat.zero_add]
    exact congrArg _ hadded.numbered
  · rw [hopened, hadded.opened]
    intro x hx
    rcases List.mem_append.mp hx with hx | hx
    · exact Nat.lt_succ_of_lt (hs.earlier x hx)
    · obtain ⟨a, -, rfl⟩ := List.mem_map.mp hx
      exact Nat.lt_succ_self n
  · rw [hopened, ← hs.active_succ hadded, ← checkSockets_eq]
    rfl
  · rw [hopened]
    have hreturned := hs.returned_succ hadded
    rw [← checkSockets_eq] at hreturned
    exact hreturned
  · have hreports : reports (scanRound n (env n) s).events =
        reports (addSockets n (env n).attempt 0 s.ips s).events ++
          ((checkSockets (env n).select (addSockets n (env n).attempt 0 s.ips s).activeSockets).filter
            (·.status = .connected)).map AsyncSocket.ip := by
      simp [scanRound, purge, report, -List.map_map]
    rw [hreports, hadded.reported, hs.reported, ← hadded.returned]
    rfl

theorem Tidy.step (hs : Tidy s) (round : Round) : Tidy (scanRound n round s) := by
  have hchecked := (hs.addSockets n round.attempt 0 s.ips).check (f := judged round) fun _ => rfl
  rw [← checkSockets_eq] at hchecked
  exact hchecked.report.purge

end Step

/-! ### Whole scans -/

/-- The state at the head of round `n`. -/
def scanAt (env : ℕ → Round) (ips : List String) : ℕ → Scan
  | 0 => start ips
  | n + 1 => scanRound n (env n) (scanAt env ips n)

section Whole

variable {env : ℕ → Round} {ips : List String}

theorem inv_scanAt (n : ℕ) : Inv env ips n (scanAt env ips n) := by
  induction n with
  | zero => exact inv_start env ips
  | succ n ih => exact ih.step

theorem tidy_scanAt (n : ℕ) : Tidy (scanAt env ips n) := by
  induction n with
  | zero => exact tidy_start ips
  | succ n ih => exact ih.step (env n)

/-- Nothing is left to do. -/
def Done (s : Scan) : Prop := s.ips = [] ∧ s.activeSockets = []

theorem scanLoop_eq_some (hstop : ∀ n, (env n).stoppedByUser = false) {fuel n : ℕ} {s : Scan}
    (h : scanLoop env fuel n (scanAt env ips n) = some s) :
    ∃ m, Done (scanAt env ips m) ∧ s = finish (scanAt env ips m) := by
  induction fuel generalizing n with
  | zero => simp [scanLoop] at h
  | succ fuel ih =>
    unfold scanLoop at h
    split_ifs at h with hdone
    · have hs : finish (scanAt env ips n) = s := by simpa using h
      refine ⟨n, ?_, hs.symm⟩
      simpa [hstop, Done] using hdone
    · exact ih (n := n + 1) h

theorem exists_scanLoop (hstop : ∀ n, (env n).stoppedByUser = false) {n k : ℕ}
    (hdone : Done (scanAt env ips (n + k))) : ∃ fuel s, scanLoop env fuel n (scanAt env ips n) = some s := by
  induction k generalizing n with
  | zero =>
    refine ⟨1, finish (scanAt env ips n), ?_⟩
    have hnow : Done (scanAt env ips n) := hdone
    simp [scanLoop, hnow.1, hnow.2]
  | succ k ih =>
    obtain ⟨fuel, s, hs⟩ := ih (n := n + 1) (by rwa [Nat.add_right_comm])
    by_cases hnow : Done (scanAt env ips n)
    · exact ⟨1, finish (scanAt env ips n), by simp [scanLoop, hnow.1, hnow.2]⟩
    · refine ⟨fuel + 1, s, ?_⟩
      unfold scanLoop
      rw [if_neg]
      · exact hs
      · simpa [hstop, Done] using hnow

/-! ### Progress -/

/-- The sockets that the `select` of round `n` is asked about. -/
def workingSet (env : ℕ → Round) (ips : List String) (n : ℕ) : List AsyncSocket :=
  (addSockets n (env n).attempt 0 (scanAt env ips n).ips (scanAt env ips n)).activeSockets

/-- From round `n` on sockets can be created, and every socket in the working set is answered or found timed
out by a `select` some time. -/
structure Responsive (env : ℕ → Round) (ips : List String) (n : ℕ) : Prop where
  created : ∀ m ≥ n, ∀ i, ((env m).attempt i).isSome
  answered : ∀ m ≥ n, ∀ a ∈ workingSet env ips m, ∃ k ≥ m, verdict (env k) a ≠ none

/-- What is left to do: addresses that wait and sockets in the working set. -/
def weight (s : Scan) : ℕ := s.ips.length + s.activeSockets.length

theorem addSockets_full {n : ℕ} {attempt : ℕ → Option Attempt} (hattempt : ∀ i, (attempt i).isSome)
    (i : ℕ) (ips : List String) (s : Scan) : (addSockets n attempt i ips s).ips = [] ∨
      maxActiveSockets ≤ (addSockets n attempt i ips s).activeSockets.length := by
  induction ips generalizing i s with
  | nil => exact Or.inl rfl
  | cons ip ips ih =>
    unfold addSockets
    split_ifs with hroom
    · obtain ⟨a, ha⟩ := Option.isSome_iff_exists.mp (hattempt i)
      simp only [ha]
      split_ifs
      · exact ih (i + 1) _
      · exact ih (i + 1) _
    · exact Or.inr (not_lt.mp hroom)

theorem scanAt_succ_active (n : ℕ) : (scanAt env ips (n + 1)).activeSockets =
    ((workingSet env ips n).map (judged (env n))).filter (·.status = .connecting) := by
  rw [← checkSockets_eq]
  rfl

theorem scanAt_succ_ips (n : ℕ) : (scanAt env ips (n + 1)).ips =
    (addSockets n (env n).attempt 0 (scanAt env ips n).ips (scanAt env ips n)).ips := rfl

/-- Filling the working set leaves no more to do than before. -/
theorem length_workingSet_le (n : ℕ) : (scanAt env ips (n + 1)).ips.length +
    (workingSet env ips n).length ≤ weight (scanAt env ips n) := by
  obtain ⟨news, hadded⟩ := exists_added n (env n).attempt 0 (scanAt env ips n).ips (scanAt env ips n)
  have htried := congrArg List.length hadded.tried
  have hactive := congrArg List.length hadded.active
  have hfilter := List.length_filter_le (fun a => decide (a.status ≠ .unexpectedError)) news
  rw [scanAt_succ_ips]
  simp only [List.length_append, List.length_map] at htried hactive
  simp only [workingSet, weight]
  omega

theorem weight_succ_le (n : ℕ) : weight (scanAt env ips (n + 1)) ≤ weight (scanAt env ips n) := by
  have hset : (scanAt env ips (n + 1)).ips.length + (workingSet env ips n).length ≤ weight (scanAt env ips n) :=
    length_workingSet_le n
  have hfilter := List.length_filter_le (fun a => decide (a.status = .connecting))
    ((workingSet env ips n).map (judged (env n)))
  rw [List.length_map, ← scanAt_succ_active] at hfilter
  simp only [weight] at hset ⊢
  omega

/-- A socket about which the round decides leaves less to do. -/
theorem weight_succ_lt {n : ℕ} {a : AsyncSocket} (ha : a ∈ workingSet env ips n)
    (hdecided : (judged (env n) a).status ≠ .connecting) :
    weight (scanAt env ips (n + 1)) < weight (scanAt env ips n) := by
  have hset : (scanAt env ips (n + 1)).ips.length + (workingSet env ips n).length ≤ weight (scanAt env ips n) :=
    length_workingSet_le n
  have hfilter : (((workingSet env ips n).map (judged (env n))).filter (·.status = .connecting)).length <
      ((workingSet env ips n).map (judged (env n))).length :=
    List.length_filter_lt_length_iff_exists.mpr
      ⟨judged (env n) a, List.mem_map_of_mem ha, by simpa using hdecided⟩
  rw [List.length_map, ← scanAt_succ_active] at hfilter
  simp only [weight] at hset ⊢
  omega

/-- A socket that no round decides about stays in the working set. -/
theorem mem_workingSet_succ {n : ℕ} {a : AsyncSocket} (ha : a ∈ workingSet env ips n)
    (hpending : (judged (env n) a).status = .connecting) : a ∈ workingSet env ips (n + 1) := by
  have hsame : judged (env n) a = a := judged_of_none (judged_connecting_iff.mp hpending).2
  have hactive : a ∈ (scanAt env ips (n + 1)).activeSockets := by
    rw [scanAt_succ_active]
    refine List.mem_filter.mpr ⟨List.mem_map.mpr ⟨a, ha, hsame⟩, ?_⟩
    rw [hsame] at hpending
    simpa using hpending
  obtain ⟨news, hadded⟩ := exists_added (n + 1) (env (n + 1)).attempt 0 (scanAt env ips (n + 1)).ips
    (scanAt env ips (n + 1))
  unfold workingSet
  rw [hadded.active]
  exact List.mem_append_left _ hactive

theorem exists_done {n : ℕ} (hresponsive : Responsive env ips n) : ∃ m, Done (scanAt env ips m) := by
  classical
  by_contra hnever
  -- the least weight from round `n` on, and a round that has it
  have hexists : ∃ w, ∃ m ≥ n, weight (scanAt env ips m) = w := ⟨_, n, le_rfl, rfl⟩
  obtain ⟨m, hm, hweight⟩ := Nat.find_spec hexists
  have hleast : ∀ k ≥ n, Nat.find hexists ≤ weight (scanAt env ips k) :=
    fun k hk => Nat.find_min' hexists ⟨k, hk, rfl⟩
  have hupper : ∀ k, weight (scanAt env ips (m + k)) ≤ Nat.find hexists := by
    intro k
    induction k with
    | zero => exact hweight.le
    | succ k ih => exact (weight_succ_le (m + k)).trans ih
  have hundecided : ∀ k, ∀ a ∈ workingSet env ips (m + k), (judged (env (m + k)) a).status = .connecting := by
    intro k a ha
    by_contra hdecided
    have hlt := weight_succ_lt ha hdecided
    have hge := hleast (m + k + 1) (by omega)
    have hle := hupper k
    omega
  cases hset : workingSet env ips m with
  | nil =>
    refine hnever ⟨m + 1, ?_, ?_⟩
    · rcases addSockets_full (hresponsive.created m hm) 0 (scanAt env ips m).ips (scanAt env ips m) with h | h
      · exact h
      · have hempty : maxActiveSockets ≤ (workingSet env ips m).length := h
        simp [hset, maxActiveSockets] at hempty
    · rw [scanAt_succ_active, hset]
      rfl
  | cons a rest =>
    have hstays : ∀ k, a ∈ workingSet env ips (m + k) := by
      intro k
      induction k with
      | zero => simp [hset]
      | succ k ih => exact mem_workingSet_succ ih (hundecided k a ih)
    obtain ⟨k, hk, hverdict⟩ := hresponsive.answered m hm a (by simp [hset])
    obtain ⟨d, rfl⟩ := Nat.exists_eq_add_of_le hk
    exact hverdict (judged_connecting_iff.mp (hundecided d a (hstays d))).2

/-! ### The result of a scan -/

open Classical in
/-- The sockets found connected, in the order of their creation. -/
noncomputable def connectedSockets (env : ℕ → Round) (s : Scan) : List (ℕ × AsyncSocket) :=
  (openings s.events).filter fun x => Found env x

/-- What holds of a scan that has ended. -/
structure Scanned (env : ℕ → Round) (ips : List String) (s : Scan) : Prop where
  /-- There is a socket for every address, from the last to the first. -/
  tried : (openings s.events).map (·.2.ip) = ips.reverse
  distinct : ((openings s.events).map (·.2.fd)).Nodup
  /-- The addresses of the sockets found connected are returned. -/
  returned : s.returnValue.Perm ((connectedSockets env s).map (·.2.ip))
  reported : reports s.events = s.returnValue
  few : Bounded s.events
  closed : openAfter s.events = []

theorem scanned_of_done {n : ℕ} (hdone : Done (scanAt env ips n)) :
    Scanned env ips (finish (scanAt env ips n)) := by
  have hinv : Inv env ips n (scanAt env ips n) := inv_scanAt n
  have htidy : Tidy (scanAt env ips n) := tidy_scanAt n
  have hevents : (finish (scanAt env ips n)).events = (scanAt env ips n).events := by
    simp [finish, hdone.2]
  constructor
  · rw [hevents, ← hinv.tried, hdone.1, List.append_nil]
  · rw [hevents, hinv.numbered]
    exact List.nodup_range
  · have hfound : connectedSockets env (finish (scanAt env ips n)) =
        (openings (scanAt env ips n).events).filter fun x => FoundBy env n x := by
      unfold connectedSockets
      rw [hevents]
      refine List.filter_congr fun x hx => decide_eq_decide.mpr (found_iff (hinv.earlier x hx) ?_)
      intro hpending
      have hmem : x.2 ∈ (scanAt env ips n).activeSockets := by
        rw [hinv.active]
        exact List.mem_map_of_mem (List.mem_filter.mpr ⟨hx, by simpa using hpending⟩)
      simp [hdone.2] at hmem
    rw [hfound]
    exact hinv.returned
  · rw [hevents]
    exact hinv.reported
  · rw [hevents]
    exact htidy.bounded
  · rw [hevents, htidy.isOpen, hdone.2]
    rfl

end Whole

/-- All sockets start to connect, and every second `select` fails; the others find the first socket
connected and all others readable. -/
def exampleRound (n : ℕ) : Round where
  stoppedByUser := false
  attempt _ := some ⟨0, true, true, false, true⟩
  select := if n % 2 = 0 then none else some fun fd => ⟨fd ≠ 0, true, false, 0⟩

end HueStream.Methods.IpscanPreCheck
