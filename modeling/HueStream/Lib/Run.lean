import HueStream.Lib.Lists
import Mathlib.Data.List.Chain
import Mathlib.Logic.Relation
import Mathlib.Order.WellFounded

/-! # Runs of a machine

A machine is a partial step function on states, driven by labels, with its initial states. A run is
kept with all its transitions, so that one can speak about what happened on the way as well as about
the state reached. The induction over a run is done here, once for each of its forms:

* a property every step preserves holds in every state reached (`Run.invariant`);
* a property the steps preserve that meet a condition holds in every state reached by a run whose
  steps all meet it (`Run.invariant_of`), and so does one that speaks of the transitions made so far as
  well (`Run.invariant_along`);
* a property that is lost for good at the first step failing a condition holds at the end of a run
  exactly when every step meets it (`Run.good_iff`);
* a property of transitions that amounts to a condition as long as it is met holds of all of a run exactly
  when every step meets the condition (`Run.forall_iff`);
* a property that the first step failing a condition destroys holds after every step exactly when every
  step meets it (`Run.forall_after_iff`);
* every transition of a run starts in a state that a run reaches (`Run.reaches_before`);
* a property that the transitions of a stretch preserve holds at its end when it holds at its beginning
  (`Run.stretch`);
* a property that a transition establishes and the steps preserve holds before all transitions that
  follow it (`Run.before_of_mem_rest`, `Run.before_of_mem_rest_of`);
* a weight that no step raises bounds how many of the steps that lower it follow (`Run.countP_rest_le`,
  `Run.rest_le_of`);
* a weight that some step decreases as long as a goal is not met leads to the goal (`exists_trail`). -/

namespace HueStream.Lib

/-- A transition of a run: the state before, the label and the state after. -/
structure Transition (S L : Type*) where
  before : S
  label : L
  after : S

/-- A machine: its initial states, and its step, which is `none` when a label is refused. -/
structure Machine (S L : Type*) where
  Init : S → Prop
  step : S → L → Option S

namespace Machine

variable {S L : Type*} (M : Machine S L)

/-- `M.Run ts s`: the machine has made the transitions `ts`, in this order, and is in `s`. -/
inductive Run : List (Transition S L) → S → Prop
  | init {s : S} (h : M.Init s) : Run [] s
  | step {ts : List (Transition S L)} {s s' : S} {l : L} (hrun : Run ts s)
      (h : M.step s l = some s') : Run (ts ++ [⟨s, l, s'⟩]) s'

/-- A state some run reaches. -/
def Reachable (s : S) : Prop := ∃ ts, M.Run ts s

variable {M} {ts : List (Transition S L)} {s : S} {t : Transition S L} {I : S → Prop}

theorem Run.invariant_of {C : S → L → Prop} (h : M.Run ts s) (hinit : ∀ s, M.Init s → I s)
    (hstep : ∀ s l s', M.step s l = some s' → C s l → I s → I s')
    (hC : ∀ t ∈ ts, C t.before t.label) : I s := by
  induction h with
  | init h => exact hinit _ h
  | @step ts s s' l _ h ih =>
    exact hstep _ _ _ h (hC ⟨s, l, s'⟩ (by simp)) (ih fun t ht => hC t (by simp [ht]))

theorem Run.invariant (h : M.Run ts s) (hinit : ∀ s, M.Init s → I s)
    (hstep : ∀ s l s', M.step s l = some s' → I s → I s') : I s :=
  h.invariant_of (C := fun _ _ => True) hinit (fun s l s' hs _ => hstep s l s' hs) fun _ _ => trivial

theorem Reachable.invariant (h : M.Reachable s) (hinit : ∀ s, M.Init s → I s)
    (hstep : ∀ s l s', M.step s l = some s' → I s → I s') : I s := by
  obtain ⟨ts, h⟩ := h
  exact h.invariant hinit hstep

/-- A property of the state and of the transitions that have led to it. -/
theorem Run.invariant_along {I : List (Transition S L) → S → Prop} {C : S → L → Prop} (h : M.Run ts s)
    (hinit : ∀ s, M.Init s → I [] s)
    (hstep : ∀ ts s l s', M.step s l = some s' → C s l → I ts s → I (ts ++ [⟨s, l, s'⟩]) s')
    (hC : ∀ t ∈ ts, C t.before t.label) : I ts s := by
  induction h with
  | init h => exact hinit _ h
  | @step ts s s' l _ h ih =>
    exact hstep _ _ _ _ h (hC ⟨s, l, s'⟩ (by simp)) (ih fun t ht => hC t (by simp [ht]))

/-- A property `G` that is lost for good at the first step that fails the condition `C`: it holds at
the end of a run exactly when every step meets the condition. -/
theorem Run.good_iff {G : S → Prop} {C : S → L → Prop} (h : M.Run ts s)
    (hinit : ∀ s, M.Init s → I s) (hgood : ∀ s, I s → G s)
    (hkeep : ∀ s l s', M.step s l = some s' → C s l → I s → I s')
    (hlose : ∀ s l s', M.step s l = some s' → ¬ C s l → I s → ¬ G s')
    (hback : ∀ s l s', M.step s l = some s' → G s' → G s) :
    G s ↔ ∀ t ∈ ts, C t.before t.label := by
  refine ⟨fun hG => ?_, fun hC => hgood s (h.invariant_of hinit hkeep hC)⟩
  induction h with
  | init => simp
  | @step ts s s' l hrun hstep ih =>
    have hC := ih (hback _ _ _ hstep hG)
    intro t ht
    rcases List.mem_append.mp ht with ht | ht
    · exact hC t ht
    · obtain rfl := List.mem_singleton.mp ht
      by_contra hnot
      exact hlose _ _ _ hstep hnot (hrun.invariant_of hinit hkeep hC) hG

/-- A property `G` of transitions that under the invariant amounts to a condition `C`, where the steps that
meet `C` keep the invariant: all transitions of a run have it exactly when every step meets the
condition. -/
theorem Run.forall_iff {G : Transition S L → Prop} {C : S → L → Prop} (h : M.Run ts s)
    (hinit : ∀ s, M.Init s → I s) (hkeep : ∀ s l s', M.step s l = some s' → C s l → I s → I s')
    (hiff : ∀ s l s', M.step s l = some s' → I s → (G ⟨s, l, s'⟩ ↔ C s l)) :
    (∀ t ∈ ts, G t) ↔ ∀ t ∈ ts, C t.before t.label := by
  induction h with
  | init => simp
  | @step ts s s' l hrun hstep ih =>
    rw [List.forall_mem_append, List.forall_mem_append, ih, List.forall_mem_singleton,
      List.forall_mem_singleton]
    refine and_congr_right fun hC => ?_
    have hI : I s := hrun.invariant_of hinit hkeep hC
    exact hiff s l s' hstep hI

/-- A property `G` that a state of the invariant has and that the first step failing the condition `C`
destroys: it holds after every step of a run exactly when every step meets the condition. -/
theorem Run.forall_after_iff {G : S → Prop} {C : S → L → Prop} (h : M.Run ts s)
    (hinit : ∀ s, M.Init s → I s) (hgood : ∀ s, I s → G s)
    (hkeep : ∀ s l s', M.step s l = some s' → C s l → I s → I s')
    (hlose : ∀ s l s', M.step s l = some s' → ¬ C s l → I s → ¬ G s') :
    (∀ t ∈ ts, G t.after) ↔ ∀ t ∈ ts, C t.before t.label := by
  refine h.forall_iff (G := fun t => G t.after) hinit hkeep fun s l s' hstep hI => ?_
  constructor
  · intro hG
    by_contra hnot
    exact hlose s l s' hstep hnot hI hG
  · intro hC
    exact hgood s' (hkeep s l s' hstep hC hI)

/-- A transition of a run is a step, and the run up to it reaches the state it starts in. -/
theorem Run.reaches_before (h : M.Run ts s) (ht : t ∈ ts) :
    M.step t.before t.label = some t.after ∧ ∃ us, us <+: ts ∧ M.Run us t.before := by
  induction h with
  | init => simp at ht
  | @step ts s s' l hrun hstep ih =>
    rcases List.mem_append.mp ht with ht | ht
    · obtain ⟨h, us, hus, hrun⟩ := ih ht
      exact ⟨h, us, hus.trans (List.prefix_append _ _), hrun⟩
    · obtain rfl := List.mem_singleton.mp ht
      exact ⟨hstep, ts, List.prefix_append _ _, hrun⟩

theorem Run.step_of_mem (h : M.Run ts s) (ht : t ∈ ts) : M.step t.before t.label = some t.after :=
  (h.reaches_before ht).1

/-- A run up to one of its transitions is a run. -/
theorem Run.of_split {us vs : List (Transition S L)} (h : M.Run ts s) (hts : ts = us ++ t :: vs) :
    M.Run us t.before ∧ M.step t.before t.label = some t.after := by
  induction h generalizing vs with
  | init => simp at hts
  | @step ts s s' l hrun hstep ih =>
    rcases split_concat hts with ⟨rfl, rfl, rfl⟩ | ⟨vs, -, hbefore⟩
    · exact ⟨hrun, hstep⟩
    · exact ih hbefore

theorem Run.after_last (h : M.Run ts s) (ht : ts.getLast? = some t) : t.after = s := by
  cases h with
  | init => cases ht
  | step hrun hstep =>
    rw [List.getLast?_concat] at ht
    obtain rfl := Option.some.inj ht
    rfl

/-- Every transition of a run starts where the one before it has ended. -/
theorem Run.isChain (h : M.Run ts s) : ts.IsChain fun t u => t.after = u.before := by
  induction h with
  | init => exact .nil
  | @step ts s s' l hrun hstep ih =>
    refine List.isChain_append.mpr ⟨ih, .singleton _, fun t ht u hu => ?_⟩
    obtain rfl : u = ⟨s, l, s'⟩ := by simpa using hu.symm
    exact hrun.after_last ht

/-- A property that every transition of a stretch of a run preserves holds at its end when it holds at
its beginning. -/
theorem Run.stretch {P : S → Prop} {us : List (Transition S L)} (h : M.Run ts s) (hus : us <:+: ts)
    (hstep : ∀ t ∈ us, P t.before → P t.after) {t u : Transition S L} (ht : us.head? = some t)
    (hu : us.getLast? = some u) (hP : P t.before) : P u.after := by
  have hchain := h.isChain.infix hus
  clear hus h
  induction us generalizing t with
  | nil => cases ht
  | cons t' us ih =>
    obtain rfl := Option.some.inj ht
    have hafter := hstep t' (by simp) hP
    cases us with
    | nil =>
      obtain rfl := Option.some.inj hu
      exact hafter
    | cons v us =>
      rw [List.isChain_cons_cons] at hchain
      rw [List.getLast?_cons_cons] at hu
      exact ih (fun t ht => hstep t (by simp [ht])) rfl hu (hchain.1 ▸ hafter) hchain.2

/-- A property that holds after one transition of a run and that the steps preserve that meet a condition
holds before every transition that follows it when those meet the condition. -/
theorem Run.before_of_mem_rest_of {P : S → Prop} {C : S → L → Prop} {us vs : List (Transition S L)}
    {d v : Transition S L} (h : M.Run ts s) (hts : ts = us ++ d :: vs) (hd : P d.after)
    (hstep : ∀ s l s', M.step s l = some s' → C s l → P s → P s') (hC : ∀ v ∈ vs, C v.before v.label)
    (hv : v ∈ vs) : P v.before := by
  suffices hs : P s ∧ ∀ v ∈ vs, P v.before from hs.2 v hv
  clear hv
  induction h generalizing vs with
  | init => simp at hts
  | @step ts s s' l hrun hl ih =>
    rcases split_concat hts with ⟨-, rfl, rfl⟩ | ⟨vs, rfl, hbefore⟩
    · exact ⟨hd, by simp⟩
    · obtain ⟨hs, hvs⟩ := ih hbefore fun v hv => hC v (by simp [hv])
      refine ⟨hstep s l s' hl (hC ⟨s, l, s'⟩ (by simp)) hs, fun v hv => ?_⟩
      rcases List.mem_append.mp hv with hv | hv
      · exact hvs v hv
      · obtain rfl := List.mem_singleton.mp hv
        exact hs

/-- A property that every step preserves and that holds after one transition of a run holds before every
transition that follows it. -/
theorem Run.before_of_mem_rest {P : S → Prop} {us vs : List (Transition S L)} {d v : Transition S L}
    (h : M.Run ts s) (hts : ts = us ++ d :: vs) (hd : P d.after)
    (hstep : ∀ s l s', M.step s l = some s' → P s → P s') (hv : v ∈ vs) : P v.before :=
  h.before_of_mem_rest_of (C := fun _ _ => True) hts hd (fun s l s' hs _ => hstep s l s' hs)
    (fun _ _ => trivial) hv

/-- A weight that no step raises and that some steps lower bounds how many of them follow a transition, as
long as the steps meet a condition. -/
theorem Run.rest_le_of {p : L → Bool} {C : S → L → Prop} (weight : S → ℕ) {us vs : List (Transition S L)}
    (h : M.Run ts s) (hts : ts = us ++ t :: vs) (ht : I t.after)
    (hstep : ∀ s l s', M.step s l = some s' → C s l → I s →
      I s' ∧ weight s' + (if p l then 1 else 0) ≤ weight s)
    (hC : ∀ v ∈ vs, C v.before v.label) :
    I s ∧ vs.countP (fun v => p v.label) + weight s ≤ weight t.after := by
  induction h generalizing vs with
  | init => simp at hts
  | @step ts s s' l hrun hl ih =>
    rcases split_concat hts with ⟨-, rfl, rfl⟩ | ⟨vs, rfl, hbefore⟩
    · exact ⟨ht, by simp⟩
    · obtain ⟨hs, hle⟩ := ih hbefore fun v hv => hC v (by simp [hv])
      obtain ⟨hs', hle'⟩ := hstep s l s' hl (hC ⟨s, l, s'⟩ (by simp)) hs
      refine ⟨hs', ?_⟩
      rw [List.countP_append, List.countP_singleton]
      dsimp only
      omega

theorem Run.countP_rest_le {p : L → Bool} (weight : S → ℕ) {us vs : List (Transition S L)}
    (h : M.Run ts s) (hts : ts = us ++ t :: vs) (ht : I t.after)
    (hstep : ∀ s l s', M.step s l = some s' → I s → I s' ∧ weight s' + (if p l then 1 else 0) ≤ weight s) :
    vs.countP (fun v => p v.label) + weight s ≤ weight t.after :=
  (h.rest_le_of (C := fun _ _ => True) weight hts ht (fun s l s' hs _ => hstep s l s' hs)
    fun _ _ => trivial).2

/-! ### Following a list of labels -/

variable (M)

/-- The transitions a list of labels causes and the state it leads to. -/
def trail : S → List L → Option (List (Transition S L) × S)
  | s, [] => some ([], s)
  | s, l :: ls => (M.step s l).bind fun s' =>
    (trail s' ls).map fun r => (⟨s, l, s'⟩ :: r.1, r.2)

variable {M}

theorem Run.append_trail {ls : List L} {us : List (Transition S L)} {s' : S} (h : M.Run ts s)
    (hls : M.trail s ls = some (us, s')) : M.Run (ts ++ us) s' := by
  induction ls generalizing ts s us with
  | nil =>
    obtain ⟨rfl, rfl⟩ := by simpa [trail] using hls
    simpa using h
  | cons l ls ih =>
    simp only [trail, Option.bind_eq_some_iff, Option.map_eq_some_iff, Prod.exists,
      Prod.mk.injEq] at hls
    obtain ⟨s₁, hs₁, vs, s₂, hvs, rfl, rfl⟩ := hls
    simpa using ih (h.step hs₁) hvs

theorem run_of_trail {ls : List L} {s' : S} (hs : M.Init s) (h : M.trail s ls = some (ts, s')) :
    M.Run ts s' := by
  simpa using (Run.init hs).append_trail h

theorem trail_labels {ls : List L} {us : List (Transition S L)} {s' : S}
    (hls : M.trail s ls = some (us, s')) : us.map Transition.label = ls := by
  induction ls generalizing s us with
  | nil =>
    obtain ⟨rfl, rfl⟩ := by simpa [trail] using hls
    rfl
  | cons l ls ih =>
    simp only [trail, Option.bind_eq_some_iff, Option.map_eq_some_iff, Prod.exists,
      Prod.mk.injEq] at hls
    obtain ⟨s₁, -, vs, s₂, hvs, rfl, rfl⟩ := hls
    rw [List.map_cons, ih hvs]

/-- A property the steps preserve holds at the end of a trail. -/
theorem invariant_trail {ls : List L} {us : List (Transition S L)} {s' : S}
    (hstep : ∀ s l s', M.step s l = some s' → I s → I s') (hls : M.trail s ls = some (us, s')) (hs : I s) :
    I s' := by
  induction ls generalizing s us with
  | nil =>
    obtain ⟨rfl, rfl⟩ := by simpa [trail] using hls
    exact hs
  | cons l ls ih =>
    simp only [trail, Option.bind_eq_some_iff, Option.map_eq_some_iff, Prod.exists,
      Prod.mk.injEq] at hls
    obtain ⟨s₁, hs₁, vs, s₂, hvs, rfl, rfl⟩ := hls
    exact ih hvs (hstep s l s₁ hs₁ hs)

/-- When some step among `P` decreases a weight and keeps the invariant as long as `G` does not hold, steps
among `P` lead to `G`. -/
theorem exists_trail {P : L → Prop} {G : S → Prop} (weight : S → ℕ)
    (hstep : ∀ s, I s → ¬ G s → ∃ l s', P l ∧ M.step s l = some s' ∧ I s' ∧ weight s' < weight s) (hs : I s) :
    ∃ ls us s', (∀ l ∈ ls, P l) ∧ M.trail s ls = some (us, s') ∧ G s' := by
  induction hw : weight s using Nat.strong_induction_on generalizing s with
  | _ w ih =>
    by_cases hG : G s
    · exact ⟨[], [], s, by simp, rfl, hG⟩
    · obtain ⟨l, s₁, hl, hs₁, hI, hlt⟩ := hstep s hs hG
      obtain ⟨ls, us, s', hls, htrail, hG⟩ := ih (weight s₁) (hw ▸ hlt) hI rfl
      refine ⟨l :: ls, ⟨s, l, s₁⟩ :: us, s', ?_, ?_, hG⟩
      · rintro l' hl'
        rcases List.mem_cons.mp hl' with rfl | hl'
        · exact hl
        · exact hls l' hl'
      · simp [trail, hs₁, htrail]

/-- A run along given labels, with what can be computed about it. -/
theorem exists_run_along (ls : List L) (p : List (Transition S L) → S → Bool) (hs : M.Init s)
    (h : (M.trail s ls).any (fun r => p r.1 r.2) = true) :
    ∃ ts s', M.Run ts s' ∧ ts.map Transition.label = ls ∧ p ts s' = true := by
  obtain ⟨⟨ts, s'⟩, htrail, hp⟩ := (Option.any_eq_true _ _).mp h
  exact ⟨ts, s', run_of_trail hs htrail, trail_labels htrail, hp⟩

/-- A run that exists by following labels, with what can be computed about it. -/
theorem exists_run (ls : List L) (p : List (Transition S L) → S → Bool) (hs : M.Init s)
    (h : (M.trail s ls).any (fun r => p r.1 r.2) = true) :
    ∃ ts s', M.Run ts s' ∧ p ts s' = true := by
  obtain ⟨⟨ts, s'⟩, htrail, hp⟩ := (Option.any_eq_true _ _).mp h
  exact ⟨ts, s', run_of_trail hs htrail, hp⟩

end Machine

end HueStream.Lib

/-! ### Relations with a rank

A relation is ranked when it only goes from higher ranks to lower ones, so that no path along it is endless.
It stays ranked when an edge is added that closes no cycle (`Ranked.add_edge`). -/

namespace HueStream.Lib

open Relation

variable {α : Type*} {r r' : α → α → Prop} {P : α → Prop} {o p : α}

/-- Some rank decreases along the relation. -/
def Ranked (r : α → α → Prop) : Prop := ∃ rank : α → ℕ, ∀ a b, r a b → rank b < rank a

theorem Ranked.mono (h : Ranked r) (hsub : ∀ a b, r' a b → r a b) : Ranked r' := by
  obtain ⟨rank, hrank⟩ := h
  exact ⟨rank, fun a b hab => hrank a b (hsub a b hab)⟩

/-- Where a property holds somewhere, it holds somewhere for the last time. -/
theorem Ranked.exists_last (h : Ranked r) (hP : ∃ a, P a) : ∃ a, P a ∧ ∀ b, r a b → ¬ P b := by
  obtain ⟨rank, hrank⟩ := h
  obtain ⟨a, ha, hmin⟩ := (measure rank).wf.has_min {a | P a} hP
  exact ⟨a, ha, fun b hab hb => hmin b hb (hrank a b hab)⟩

/-- **An edge that closes no cycle** keeps a relation ranked: what reaches its beginning is lifted above
its end. -/
theorem Ranked.add_edge (h : Ranked r) (hp : ¬ ReflTransGen r p o) :
    Ranked fun a b => r a b ∨ a = o ∧ b = p := by
  classical
  obtain ⟨rank, hrank⟩ := h
  refine ⟨fun a => if ReflTransGen r a o then rank a + rank p + 1 else rank a, fun a b hab => ?_⟩
  rcases hab with hab | ⟨rfl, rfl⟩
  · have hlt := hrank a b hab
    have hback : ReflTransGen r b o → ReflTransGen r a o := fun hb => .head hab hb
    dsimp only
    split_ifs with hb ha ha
    · omega
    · exact absurd (hback hb) ha
    · omega
    · exact hlt
  · have hself : ReflTransGen r a a := .refl
    simp only [hp, hself, if_true, if_false]
    omega

end HueStream.Lib
