import HueStream.Animations.Animation
import HueStream.Lib.Numbers

/-! # The player

A `Player` gives its animations the time since the start, corrected by the speed. It keeps a time stamp, to which each
update adds the time since the last one times the speed, rounded to a whole number.

* `given_of_updates`: the markers that are given are sums of rounded steps.
* `markers_within_iff`: they stay within a millisecond of the time times the speed exactly when nothing is rounded. -/

namespace HueStream.Animations

open HueStream.Lib

variable {ι S : Type}

/-! ### Animations -/

def Animation.isEndless (σ : Store ι S) (a : Animation ι S) : Except Fault Bool :=
  a.getTotalLength σ >>= fun total => .ok (total = INF)

def Animation.isPlaying (σ : Store ι S) : Animation ι S → Except Fault Bool
  | .missing => .error .missing
  | .leaf l => .ok (σ.marker l.id < l.getTotalLength)
  | .sequence id repeatTimes bookmarks sequences => SequenceAnimation.isPlaying ⟨id, repeatTimes, bookmarks, sequences⟩ σ

/-! ### Player -/

inductive PlayerState
  | running | stopping | stopped
deriving DecidableEq

/-- `Player`. The time stamps are whole numbers of any size. -/
structure Player (ι S : Type) where
  animations : List (Animation ι S) := []
  stopValue : ℚ := 0
  speed : ℚ := 1
  startPosition : ℤ := 0
  timeStampWithSpeedCorrection : ℤ := 0
  oldTs : ℤ := 0
  state : PlayerState := .stopped

/-- The variables of the loop of `UpdateMarkers`, with the markers that it has given. -/
structure Marking (ι S : Type) where
  store : Store ι S
  allEndingAnimationsAreStopped : Bool := true
  endingAnimationPresent : Bool := false
  given : List ℚ := []

/-- The loop body of `UpdateMarkers`. -/
def Marking.mark [DecidableEq ι] (markerPosition : ℚ) (m : Marking ι S) (a : Animation ι S) :
    Except Fault (Marking ι S) :=
  a.isEndless m.store >>= fun animationIsEndless =>
    a.setMarker markerPosition m.store >>= fun store =>
      if animationIsEndless then .ok { m with store, given := m.given ++ [markerPosition] }
      else a.isPlaying store >>= fun playing => .ok {
        store
        allEndingAnimationsAreStopped := m.allEndingAnimationsAreStopped && !playing
        endingAnimationPresent := true
        given := m.given ++ [markerPosition] }

namespace Player

variable (p : Player ι S)

def getNowFromStartPosition : ℚ := (p.timeStampWithSpeedCorrection - p.startPosition : ℤ)

/-- What `Start` and `UpdateMarkers` begin with. The time provider is asked twice, and says `now` both times. -/
def advance (now : ℤ) : Player ι S :=
  { p with
    timeStampWithSpeedCorrection := p.timeStampWithSpeedCorrection + roundAway ((now - p.oldTs : ℤ) * p.speed)
    oldTs := now }

def stop : Player ι S := { p with stopValue := p.getNowFromStartPosition, state := .stopping }

def setSpeed (value : ℚ) : Player ι S := { p with speed := value }

/-- The marker that `UpdateMarkers` gives. -/
def markerPosition : ℚ := if p.state = .stopping then p.stopValue else p.getNowFromStartPosition

variable [DecidableEq ι]

def start (now : ℤ) (σ : Store ι S) : Except Fault (Player ι S × Store ι S) :=
  (p.advance now).animations.foldlM (fun σ a => a.rewind σ) σ >>= fun σ =>
    .ok ({ p.advance now with
      startPosition := (p.advance now).timeStampWithSpeedCorrection, state := .running }, σ)

/-- The player, the animations and the markers that they were given. -/
def updateMarkers (now : ℤ) (σ : Store ι S) : Except Fault (Player ι S × Store ι S × List ℚ) :=
  if p.state = .stopped then .ok (p.advance now, σ, [])
  else
    (p.advance now).animations.foldlM (Marking.mark (p.advance now).markerPosition) { store := σ } >>= fun m =>
      .ok ({ p.advance now with
        state := if m.allEndingAnimationsAreStopped && m.endingAnimationPresent || p.state = .stopping then .stopped
          else p.state }, m.store, m.given)

def isStopped (now : ℤ) (σ : Store ι S) : Except Fault (Bool × Player ι S × Store ι S) :=
  p.updateMarkers now σ >>= fun (p, σ, _) => .ok (p.state = .stopped, p, σ)

/-- Updates at the given instants, and the markers that were given at them. -/
def updates (p : Player ι S) (σ : Store ι S) : List ℤ → Except Fault (List (ℤ × ℚ))
  | [] => .ok []
  | now :: ts => p.updateMarkers now σ >>= fun (p, σ, given) =>
      updates p σ ts >>= fun later => .ok (given.map (fun marker => (now, marker)) ++ later)

/-- A start, and updates after it. -/
def play (σ : Store ι S) (now : ℤ) (ts : List ℤ) : Except Fault (List (ℤ × ℚ)) :=
  p.start now σ >>= fun (p, σ) => p.updates σ ts

end Player

/-- The time since `t`, corrected by the speed, at the last of the instants. -/
def progress (speed : ℚ) : ℤ → List ℤ → ℤ
  | _, [] => 0
  | t, now :: ts => roundAway ((now - t : ℤ) * speed) + progress speed now ts

/-- The intervals between the instants, the first of them from `t` on, are in `D`. -/
def Intervals (D : Set ℕ) (t : ℤ) (ts : List ℤ) : Prop :=
  (t :: ts).IsChain fun (t t' : ℤ) => ∃ d ∈ D, t' = t + d

/-! ### What is given -/

section Given

variable [DecidableEq ι] {p p' : Player ι S} {σ σ' : Store ι S} {now : ℤ} {given : List ℚ}

theorem given_of_marks {markerPosition : ℚ} {as : List (Animation ι S)} {m m' : Marking ι S}
    (h : as.foldlM (Marking.mark markerPosition) m = .ok m') (hgiven : ∀ marker ∈ m.given, marker = markerPosition) :
    ∀ marker ∈ m'.given, marker = markerPosition := by
  induction as generalizing m with
  | nil =>
    obtain rfl : m = m' := Except.ok.inj h
    exact hgiven
  | cons a as ih =>
    rw [List.foldlM_cons] at h
    obtain ⟨m₁, hm₁, hrest⟩ := bind_eq_ok.mp h
    refine ih hrest fun marker hmarker => ?_
    have hlast : m₁.given = m.given ++ [markerPosition] := by
      obtain ⟨endless, -, hset⟩ := bind_eq_ok.mp hm₁
      obtain ⟨store, -, hmark⟩ := bind_eq_ok.mp hset
      split_ifs at hmark
      · rw [← Except.ok.inj hmark]
      · obtain ⟨playing, -, hplaying⟩ := bind_eq_ok.mp hmark
        rw [← Except.ok.inj hplaying]
    rw [hlast, List.mem_append, List.mem_singleton] at hmarker
    exact hmarker.elim (hgiven marker) id

/-- What an update does to a player that nobody has stopped, and what it gives. -/
theorem updateMarkers_cases (hstate : p.state ≠ .stopping) (h : p.updateMarkers now σ = .ok (p', σ', given)) :
    p'.speed = p.speed ∧ p'.startPosition = p.startPosition ∧ p'.oldTs = now ∧
      p'.timeStampWithSpeedCorrection =
        p.timeStampWithSpeedCorrection + roundAway ((now - p.oldTs : ℤ) * p.speed) ∧
      p'.state ≠ .stopping ∧ ∀ marker ∈ given, marker = p'.getNowFromStartPosition := by
  rw [Player.updateMarkers] at h
  split_ifs at h with hstopped
  · obtain ⟨rfl, rfl, rfl⟩ := Except.ok.inj h
    exact ⟨rfl, rfl, rfl, rfl, hstate, by simp⟩
  · obtain ⟨m, hm, hend⟩ := bind_eq_ok.mp h
    obtain ⟨rfl, rfl, rfl⟩ := Except.ok.inj hend
    refine ⟨rfl, rfl, rfl, rfl, ?_, fun marker hmarker => ?_⟩
    · simp only [hstate, decide_false, Bool.or_false]
      split_ifs
      · decide
      · exact hstate
    · have hposition : (p.advance now).markerPosition = (p.advance now).getNowFromStartPosition := if_neg hstate
      rw [given_of_marks hm (by simp) marker hmarker, hposition]
      rfl

/-- Each marker is the one before the updates and the progress up to its instant. -/
theorem given_of_updates {ts : List ℤ} {given : List (ℤ × ℚ)} (hstate : p.state ≠ .stopping)
    (h : p.updates σ ts = .ok given) : ∀ g ∈ given, ∃ before after, ts = before ++ g.1 :: after ∧
      g.2 = p.getNowFromStartPosition + progress p.speed p.oldTs (before ++ [g.1]) := by
  induction ts generalizing p σ given with
  | nil =>
    obtain rfl : [] = given := Except.ok.inj h
    simp
  | cons now ts ih =>
    obtain ⟨⟨p₁, σ₁, now₁⟩, hupdate, hrest⟩ := bind_eq_ok.mp h
    obtain ⟨later, hlater, heq⟩ := bind_eq_ok.mp hrest
    obtain rfl := Except.ok.inj heq
    obtain ⟨hspeed, hstart, hold, hstamp, hstate₁, hgiven⟩ := updateMarkers_cases hstate hupdate
    have hmoved : p₁.getNowFromStartPosition =
        p.getNowFromStartPosition + roundAway ((now - p.oldTs : ℤ) * p.speed) := by
      rw [Player.getNowFromStartPosition, Player.getNowFromStartPosition, hstamp, hstart]
      push_cast
      ring
    intro g hg
    rcases List.mem_append.mp hg with hg | hg
    · obtain ⟨marker, hmarker, rfl⟩ := List.mem_map.mp hg
      refine ⟨[], ts, rfl, ?_⟩
      rw [hgiven marker hmarker, hmoved]
      simp [progress]
    · obtain ⟨before, after, rfl, hmarker⟩ := ih hstate₁ hlater g hg
      refine ⟨now :: before, after, rfl, ?_⟩
      rw [hmarker, hmoved, hspeed, hold, List.cons_append, progress]
      push_cast
      ring

theorem given_of_play {t : ℤ} {ts : List ℤ} {given : List (ℤ × ℚ)} (h : p.play σ t ts = .ok given) :
    ∀ g ∈ given, ∃ before after, ts = before ++ g.1 :: after ∧ g.2 = progress p.speed t (before ++ [g.1]) := by
  obtain ⟨⟨p₁, σ₁⟩, hstart, hupdates⟩ := bind_eq_ok.mp h
  obtain ⟨σ₂, -, heq⟩ := bind_eq_ok.mp hstart
  obtain ⟨rfl, rfl⟩ := Except.ok.inj heq
  intro g hg
  obtain ⟨before, after, hsplit, hmarker⟩ := given_of_updates (by simp) hupdates g hg
  refine ⟨before, after, hsplit, ?_⟩
  rw [hmarker, Player.getNowFromStartPosition, sub_self, Int.cast_zero, zero_add]
  rfl

end Given

/-! ### Rounding -/

section Rounding

variable {speed : ℚ} {t now : ℤ} {ts : List ℤ} {D : Set ℕ}

/-- Each update adds at most half a millisecond to the error. -/
theorem abs_progress_sub_le (speed : ℚ) (t now : ℤ) (ts : List ℤ) :
    |(progress speed t (ts ++ [now]) : ℚ) - speed * (now - t)| ≤ ((ts.length : ℚ) + 1) / 2 := by
  induction ts generalizing t with
  | nil =>
    have h := abs_roundAway_sub_le (((now - t : ℤ) : ℚ) * speed)
    rw [List.nil_append, progress, progress, add_zero, List.length_nil, Nat.cast_zero, zero_add, mul_comm speed]
    push_cast at h ⊢
    exact h
  | cons first ts ih =>
    have h := abs_roundAway_sub_le (((first - t : ℤ) : ℚ) * speed)
    have hsplit : (progress speed t (first :: ts ++ [now]) : ℚ) - speed * (now - t) =
        (roundAway (((first - t : ℤ) : ℚ) * speed) - ((first - t : ℤ) : ℚ) * speed) +
          (progress speed first (ts ++ [now]) - speed * (now - first)) := by
      rw [List.cons_append, progress]
      push_cast
      ring
    rw [hsplit, List.length_cons]
    refine (abs_add_le _ _).trans ?_
    have hrest := ih first
    rw [Nat.cast_add_one]
    linarith

/-- Where nothing is rounded, there is no error. -/
theorem progress_of_exact (hD : ∀ d ∈ D, ∃ z : ℤ, speed * d = z) (hts : Intervals D t (ts ++ [now])) :
    (progress speed t (ts ++ [now]) : ℚ) = speed * (now - t) := by
  have hstep : ∀ t t' : ℤ, (∃ d ∈ D, t' = t + d) →
      (roundAway (((t' - t : ℤ) : ℚ) * speed) : ℚ) = speed * (t' - t) := by
    rintro t t' ⟨d, hd, rfl⟩
    obtain ⟨z, hz⟩ := hD d hd
    have hexact : ((t + d - t : ℤ) : ℚ) * speed = z := by
      rw [← hz]
      push_cast
      ring
    rw [hexact, roundAway_intCast, ← hz]
    push_cast
    ring
  induction ts generalizing t with
  | nil =>
    rw [List.nil_append, progress, progress, add_zero]
    exact hstep t now hts.rel
  | cons first ts ih =>
    obtain ⟨hfirst, hrest⟩ := List.isChain_cons_cons.mp hts
    rw [List.cons_append, progress, Int.cast_add, hstep t first hfirst, ih hrest]
    ring

/-- The error of a marker is at most half a millisecond for each update since the start. -/
theorem abs_given_sub_le [DecidableEq ι] {p : Player ι S} {σ : Store ι S} {given : List (ℤ × ℚ)}
    (h : p.play σ t ts = .ok given) : ∀ g ∈ given, ∃ before after, ts = before ++ g.1 :: after ∧
      |g.2 - p.speed * (g.1 - t)| ≤ ((before.length : ℚ) + 1) / 2 := by
  intro g hg
  obtain ⟨before, after, hsplit, hmarker⟩ := given_of_play h g hg
  refine ⟨before, after, hsplit, ?_⟩
  rw [hmarker]
  exact abs_progress_sub_le p.speed t g.1 before

end Rounding

/-! ### A constant that is endless -/

section Endless

variable [DecidableEq ι] [Inhabited ι] {p : Player ι S} {t : ℤ}

/-- An animation whose value stays, without end. -/
def endless (ι S : Type) [Inhabited ι] : Leaf ι S where
  id := default
  repeatTimes := none
  lengthMs := INF
  updateValue fields value _ := (fields, value)

theorem mark_endless (markerPosition : ℚ) (σ : Store ι S) :
    Marking.mark markerPosition { store := σ } (.leaf (endless ι S)) =
      .ok { store := (endless ι S).update markerPosition σ, given := [markerPosition] } := by
  have hendless : (Animation.leaf (endless ι S)).isEndless σ = .ok true := by
    simp [Animation.isEndless, Animation.getTotalLength, Leaf.getTotalLength, endless, ok_bind]
  rw [Marking.mark, hendless, ok_bind]
  rfl

theorem updateMarkers_endless (hanimations : p.animations = [.leaf (endless ι S)]) (hstate : p.state = .running)
    (now : ℤ) (σ : Store ι S) : ∃ σ', p.updateMarkers now σ =
      .ok (p.advance now, σ', [(p.advance now).getNowFromStartPosition]) := by
  have hrunning : (p.advance now).state = .running := hstate
  have hposition : (p.advance now).markerPosition = (p.advance now).getNowFromStartPosition := by
    rw [Player.markerPosition, if_neg]
    rw [hrunning]
    decide
  have hmarks : (p.advance now).animations = [.leaf (endless ι S)] := hanimations
  refine ⟨(endless ι S).update (p.advance now).getNowFromStartPosition σ, ?_⟩
  rw [Player.updateMarkers, if_neg (by rw [hstate]; decide), hmarks, hposition, List.foldlM_cons, mark_endless,
    ok_bind, List.foldlM_nil]
  simp only [hstate, reduceCtorEq, decide_false, Bool.or_false]
  rw [← hrunning]
  rfl

/-- Updates at equal intervals give markers that differ by the same rounded step. -/
theorem updates_endless (hanimations : p.animations = [.leaf (endless ι S)]) (hstate : p.state = .running) (d : ℤ)
    (n : ℕ) (σ : Store ι S) : p.updates σ ((List.range n).map fun i : ℕ => p.oldTs + (i + 1) * d) =
      .ok ((List.range n).map fun i : ℕ =>
        (p.oldTs + (i + 1) * d, p.getNowFromStartPosition + (i + 1) * roundAway (d * p.speed))) := by
  induction n generalizing p σ with
  | zero => rfl
  | succ n ih =>
    obtain ⟨σ', hupdate⟩ := updateMarkers_endless hanimations hstate (p.oldTs + d) σ
    have hmoved : (p.advance (p.oldTs + d)).getNowFromStartPosition =
        p.getNowFromStartPosition + roundAway (d * p.speed) := by
      rw [Player.advance, Player.getNowFromStartPosition, Player.getNowFromStartPosition, add_sub_cancel_left]
      push_cast
      ring
    have hold : (p.advance (p.oldTs + d)).oldTs = p.oldTs + d := rfl
    have hspeed : (p.advance (p.oldTs + d)).speed = p.speed := rfl
    have hlater := ih (p := p.advance (p.oldTs + d)) hanimations hstate σ'
    rw [hmoved, hold, hspeed] at hlater
    have htimes : (List.range n).map ((fun i : ℕ => p.oldTs + ((i : ℤ) + 1) * d) ∘ Nat.succ) =
        (List.range n).map fun i : ℕ => p.oldTs + d + ((i : ℤ) + 1) * d := by
      refine List.map_congr_left fun i _ => ?_
      simp only [Function.comp_apply, Nat.succ_eq_add_one]
      push_cast
      ring
    rw [List.range_succ_eq_map, List.map_cons, List.map_map, htimes, Player.updates]
    have hfirst : p.oldTs + ((0 : ℕ) + 1 : ℤ) * d = p.oldTs + d := by norm_num
    rw [hfirst, hupdate, ok_bind]
    dsimp only
    rw [hlater, ok_bind, hmoved, List.map_cons, List.map_cons, List.map_map, List.map_nil, List.singleton_append]
    refine congrArg Except.ok (congrArg₂ List.cons ?_ (List.map_congr_left fun i _ => ?_))
    · norm_num
    · simp only [Function.comp_apply, Nat.succ_eq_add_one]
      push_cast
      exact Prod.ext (by ring) (by ring)

/-- From a start at 0 on. -/
theorem play_endless [Inhabited S] (speed : ℚ) : ∃ (p : Player ι S) (σ : Store ι S), p.speed = speed ∧
    ∀ (d : ℤ) (n : ℕ), p.play σ 0 ((List.range n).map fun i : ℕ => (i + 1) * d) =
      .ok ((List.range n).map fun i : ℕ => ((i + 1) * d, (i + 1) * roundAway (d * speed))) := by
  let p : Player ι S := { animations := [.leaf (endless ι S)], speed }
  let σ : Store ι S := ⟨fun _ => 0, fun _ => 0, fun _ => default, fun _ => 0, fun _ => -1, fun _ => 0⟩
  obtain ⟨σ', hstart⟩ : ∃ σ', p.start 0 σ = .ok ({ p with state := .running }, σ') := by
    refine ⟨((endless ι S).update 0 σ).setFields default (((endless ι S).update 0 σ).fields default), ?_⟩
    have hadvance : p.advance 0 = p := by
      norm_num [p, Player.advance, roundAway]
    rw [Player.start, hadvance]
    rfl
  refine ⟨p, σ, rfl, fun d n => ?_⟩
  rw [Player.play, hstart, ok_bind]
  have hupdates := updates_endless (p := { p with state := .running }) rfl rfl d n σ'
  have hstamp : p.timeStampWithSpeedCorrection = 0 := rfl
  have hposition : p.startPosition = 0 := rfl
  have hold : p.oldTs = 0 := rfl
  simp only [Player.getNowFromStartPosition, hstamp, hposition, hold, sub_self, Int.cast_zero, zero_add] at hupdates
  exact hupdates

end Endless

/-- **The error of the markers.** At a speed, the markers that a player gives at instants with intervals from `D` stay
within a millisecond of the speed times the time since the start exactly when each interval of `D` times the speed is
a whole number. -/
theorem markers_within_iff [DecidableEq ι] [Inhabited ι] [Inhabited S] (speed : ℚ) (D : Set ℕ) :
    (∀ (p : Player ι S) (σ : Store ι S) (t : ℤ) (ts : List ℤ) (given : List (ℤ × ℚ)), p.speed = speed →
      Intervals D t ts → p.play σ t ts = .ok given → ∀ g ∈ given, |g.2 - speed * (g.1 - t)| ≤ 1) ↔
    ∀ d ∈ D, ∃ z : ℤ, speed * d = z := by
  constructor
  · intro hwithin d hd
    by_contra hnot
    have hne : roundAway ((d : ℤ) * speed) - speed * d ≠ 0 := fun heq =>
      hnot ⟨roundAway ((d : ℤ) * speed), (sub_eq_zero.mp heq).symm⟩
    -- So many equal intervals that the error of one of them adds up to more than 1.
    obtain ⟨n, hn⟩ : ∃ n : ℕ, 1 < n * |roundAway ((d : ℤ) * speed) - speed * d| := by
      obtain ⟨n, hn⟩ := exists_nat_gt (1 / |roundAway ((d : ℤ) * speed) - speed * d|)
      exact ⟨n, (div_lt_iff₀ (abs_pos.mpr hne)).mp hn⟩
    obtain ⟨p, σ, hspeed, hplay⟩ := play_endless (ι := ι) (S := S) speed
    have hintervals : Intervals D 0 ((List.range (n + 1)).map fun i : ℕ => ((i : ℤ) + 1) * d) := by
      have htimes : 0 :: (List.range (n + 1)).map (fun i : ℕ => ((i : ℤ) + 1) * d) =
          (List.range (n + 2)).map fun i : ℕ => (i : ℤ) * d := by
        rw [List.range_succ_eq_map (n := n + 1), List.map_cons, List.map_map]
        simp [Function.comp_def]
      rw [Intervals, htimes, List.isChain_map]
      refine (List.isChain_range _ _).mpr fun i _ => ⟨d, hd, ?_⟩
      push_cast
      ring
    have hlast : (((n : ℤ) + 1) * d, ((n : ℚ) + 1) * roundAway ((d : ℤ) * speed)) ∈
        (List.range (n + 1)).map fun i : ℕ => (((i : ℤ) + 1) * d, ((i : ℚ) + 1) * roundAway ((d : ℤ) * speed)) :=
      List.mem_map_of_mem (List.mem_range.mpr n.lt_succ_self)
    have hle := hwithin p σ 0 _ _ hspeed hintervals (hplay d (n + 1)) _ hlast
    have herror : ((n : ℚ) + 1) * roundAway ((d : ℤ) * speed) - speed * ((((n : ℤ) + 1) * d : ℤ) - (0 : ℤ)) =
        (n + 1) * (roundAway ((d : ℤ) * speed) - speed * d) := by
      push_cast
      ring
    rw [herror, abs_mul, abs_of_nonneg (by positivity)] at hle
    have hpos := abs_pos.mpr hne
    linarith
  · intro hexact p σ t ts given hspeed hts hplay g hg
    obtain ⟨before, after, hsplit, hmarker⟩ := given_of_play hplay g hg
    have hpart : Intervals D t (before ++ [g.1]) := by
      rw [hsplit, List.append_cons] at hts
      rw [Intervals, ← List.cons_append] at hts
      exact hts.left_of_append
    rw [hmarker, hspeed, progress_of_exact hexact hpart, sub_self, abs_zero]
    exact zero_le_one

/-- A player at the speed 2, whatever the updates are. -/
theorem markers_within_iff_two : ∀ (p : Player ℕ ℕ) (σ : Store ℕ ℕ) (t : ℤ) (ts : List ℤ) (given : List (ℤ × ℚ)),
    p.speed = 2 → Intervals Set.univ t ts → p.play σ t ts = .ok given → ∀ g ∈ given, |g.2 - 2 * (g.1 - t)| ≤ 1 :=
  (markers_within_iff 2 Set.univ).mpr fun d _ => ⟨2 * d, by push_cast; rfl⟩

/-- At the speed 2 / 5 and with an update each millisecond a player stands still. After three milliseconds its marker
is off by more than 1. -/
theorem exists_stands_still : ∃ (p : Player ℕ ℕ) (σ : Store ℕ ℕ), p.speed = 2 / 5 ∧
    (∀ n : ℕ, ∃ given, p.play σ 0 ((List.range n).map fun i : ℕ => (i : ℤ) + 1) = .ok given ∧
      given.length = n ∧ ∀ g ∈ given, g.2 = 0) ∧
    ∃ given, p.play σ 0 [1, 2, 3] = .ok given ∧ ∃ g ∈ given, 1 < |g.2 - 2 / 5 * (g.1 - 0)| := by
  obtain ⟨p, σ, hspeed, hplay⟩ := play_endless (ι := ℕ) (S := ℕ) (2 / 5)
  have hround : roundAway (((1 : ℤ) : ℚ) * (2 / 5)) = 0 := by
    norm_num [roundAway]
  have hzero : ∀ n : ℕ, p.play σ 0 ((List.range n).map fun i : ℕ => (i : ℤ) + 1) =
      .ok ((List.range n).map fun i : ℕ => ((i : ℤ) + 1, 0)) := by
    intro n
    have h := hplay 1 n
    simpa only [hround, mul_one, Int.cast_zero, mul_zero] using h
  refine ⟨p, σ, hspeed, fun n => ⟨_, hzero n, by simp, fun g hg => ?_⟩, _, hzero 3, ((2 : ℕ) + 1, 0), ?_, ?_⟩
  · obtain ⟨i, -, rfl⟩ := List.mem_map.mp hg
    rfl
  · exact List.mem_map_of_mem (List.mem_range.mpr (by norm_num))
  · norm_num [abs_of_neg]

end HueStream.Animations
