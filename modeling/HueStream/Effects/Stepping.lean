import HueStream.Effects.SequenceEffect

/-! # Steps through the areas

The list of areas is that of the last look up, and only the check for colors guards the remainder by its length.

* `sequenceList_after`: which areas are in the list.
* `calls_right`: when the calls of a run are right.
* `exists_not_right`: a remainder by 0, an area that is left out, and a step at the end of the counter. -/

namespace HueStream.Effects.SequenceEffect

open HueStream.Data

variable {e : SequenceEffect} {group : Option (List Light)} {mode : SequenceMode}

/-! ### Looking up -/

/-- The effect with an area at the end of its list if there is a light in it. -/
def withArea (e : SequenceEffect) (area : Area) : SequenceEffect :=
  { e with sequenceList := e.sequenceList ++ if occupied e.group area = true then [area] else [] }

theorem addArea_run (area : Area) (e : SequenceEffect) :
    (addArea area).run e = (occupied e.group area, e.withArea area) := by
  obtain ⟨sequenceList, bri, colors, stepCount, mode, group⟩ := e
  cases group with
  | none =>
    simp only [withArea, occupied, Option.any_none, Bool.false_eq_true, if_false, List.append_nil]
    rfl
  | some lights =>
    have hrun : (addArea area).run ⟨sequenceList, bri, colors, stepCount, mode, some lights⟩ =
        (if (lights.any fun light => area.isInArea light.position) = true then
          do
            modify fun e : SequenceEffect => { e with sequenceList := e.sequenceList ++ [area] }
            return lights.any fun light => area.isInArea light.position
        else return lights.any fun light => area.isInArea light.position : StateM SequenceEffect Bool).run
          ⟨sequenceList, bri, colors, stepCount, mode, some lights⟩ := by rfl
    rw [hrun]
    unfold withArea occupied
    dsimp only [Option.any_some]
    split_ifs with hfound
    · rfl
    · rw [List.append_nil]
      rfl

theorem run_addArea (area : Area) (rest : StateM SequenceEffect Unit) (e : SequenceEffect) :
    (do discard (addArea area); rest : StateM SequenceEffect Unit).run e = rest.run (e.withArea area) := by
  change rest.run ((addArea area).run e).2 = _
  rw [addArea_run]

/-- An area that stands in for another one without lights. -/
theorem run_unless (area other : Area) (rest : StateM SequenceEffect Unit) (e : SequenceEffect) :
    (do
      unless ← addArea area do
        discard (addArea other)
      rest : StateM SequenceEffect Unit).run e =
      rest.run (e.withArea (if occupied e.group area = true then area else other)) := by
  have hrun : (do
      unless ← addArea area do
        discard (addArea other)
      rest : StateM SequenceEffect Unit).run e =
      (if ((addArea area).run e).1 = true then rest else do discard (addArea other); rest).run
        ((addArea area).run e).2 := by
    simp only [bind]
    rfl
  rw [hrun, addArea_run]
  dsimp only
  by_cases hfound : occupied e.group area = true
  · rw [if_pos hfound, if_pos hfound]
  · have hsame : e.withArea area = e := by simp [withArea, hfound]
    rw [if_neg hfound, if_neg hfound, run_addArea, hsame]

theorem foldl_withArea (areas : List Area) (e : SequenceEffect) : areas.foldl withArea e =
    { e with sequenceList := e.sequenceList ++ areas.filter (occupied e.group) } := by
  induction areas generalizing e with
  | nil => simp
  | cons area areas ih =>
    rw [List.foldl_cons, ih]
    by_cases harea : occupied e.group area = true
    · simp [withArea, harea]
    · simp [withArea, harea]

/-- The list that is made for a group and a mode. -/
def listFor (group : Option (List Light)) (mode : SequenceMode) : List Area :=
  if mode = .all then [.All] else nonEmpty group mode

/-- `SetMode` makes the list of the areas with lights. -/
theorem run_setMode (e : SequenceEffect) (mode : SequenceMode) :
    ((setMode mode).run e).2 = { e with mode, sequenceList := listFor e.group mode } := by
  have hareas : mode ≠ .all → ((setMode mode).run e).2 =
      (candidates e.group mode).foldl withArea { e with mode, sequenceList := [] } := by
    intro hmode
    cases mode with
    | all => exact absurd rfl hmode
    | last => rfl
    | frontBack =>
      change (StateT.run (do discard (addArea _); discard (addArea _)) _).2 = _
      rw [run_addArea]
      change ((addArea _).run _).2 = _
      rw [addArea_run]
      rfl
    | leftRight =>
      change (StateT.run (do discard (addArea _); discard (addArea _); discard (addArea _)) _).2 = _
      rw [run_addArea, run_addArea]
      change ((addArea _).run _).2 = _
      rw [addArea_run]
      rfl
    | round =>
      change (StateT.run (do
        discard (addArea _)
        unless ← addArea _ do
          discard (addArea _)
        discard (addArea _)
        discard (addArea _)
        discard (addArea _)
        discard (addArea _)
        discard (addArea _)
        discard (addArea _)) _).2 = _
      rw [run_addArea, run_unless, run_addArea, run_addArea, run_addArea, run_addArea, run_addArea]
      change ((addArea _).run _).2 = _
      rw [addArea_run]
      rfl
  by_cases hmode : mode = .all
  · subst hmode
    rfl
  · rw [hareas hmode, foldl_withArea, listFor, if_neg hmode, nonEmpty, List.nil_append]

theorem after_concat (ops : List Op) (op : Op) : after (ops ++ [op]) = op.run (after ops) := by
  rw [after, List.foldl_append]
  rfl

/-- The list is that of the group and the mode at the last look up, and the mode has stayed since. -/
theorem sequenceList_after (ops : List Op) :
    (after ops).sequenceList = listFor (after (lastLookup ops)).group (after (lastLookup ops)).mode ∧
      (after ops).mode = (after (lastLookup ops)).mode := by
  induction ops using List.reverseRecOn with
  | nil => exact ⟨rfl, rfl⟩
  | append_singleton ops op ih =>
    cases hlooks : op.looksUp with
    | true =>
      have hlast : lastLookup (ops ++ [op]) = ops ++ [op] := by
        rw [lastLookup, List.rdropWhile_concat_neg _ _ _ (by simp [hlooks])]
      rw [hlast, after_concat]
      cases op with
      | setMode mode =>
        rw [Op.run, run_setMode]
        exact ⟨rfl, rfl⟩
      | updateGroup group =>
        have hrun : (Op.updateGroup group).run (after ops) =
            ((setMode (after ops).mode).run { after ops with group }).2 := rfl
        rw [hrun, run_setMode]
        exact ⟨rfl, rfl⟩
      | addColor => cases hlooks
      | step => cases hlooks
      | getColor => cases hlooks
      | addLight => cases hlooks
    | false =>
      have hlast : lastLookup (ops ++ [op]) = lastLookup ops := by
        rw [lastLookup, List.rdropWhile_concat_pos _ _ _ (by simp [hlooks])]
        rfl
      have hkeeps : (op.run (after ops)).sequenceList = (after ops).sequenceList ∧
          (op.run (after ops)).mode = (after ops).mode := by
        cases op with
        | setMode => cases hlooks
        | updateGroup => cases hlooks
        | _ => exact ⟨rfl, rfl⟩
      rw [hlast, after_concat, hkeeps.1, hkeeps.2]
      exact ih

/-! ### Remainders -/

theorem remainder_of_pos {a b : ℕ} (h : b ≠ 0) : remainder a b = some (a % b) := if_neg h

theorem exists_getElem?_mod {α : Type} {l : List α} (hne : l ≠ []) (a : ℕ) : ∃ x, l[a % l.length]? = some x := by
  have hlt : a % l.length < l.length := Nat.mod_lt _ (List.length_pos_of_ne_nil hne)
  exact ⟨l[a % l.length], List.getElem?_eq_getElem hlt⟩

theorem length_ne_zero {α : Type} {l : List α} (hne : l ≠ []) : l.length ≠ 0 := fun h => hne (List.length_eq_zero_iff.mp h)

/-- With colors, the remainder is the one by the length of the list. -/
theorem getColor_defined_iff (light : Light) :
    (∃ color, e.getColor light = some color) ↔ e.colors = [] ∨ e.sequenceList ≠ [] := by
  by_cases hcolors : e.colors = []
  · simp [getColor, hcolors]
  · have hlength := length_ne_zero hcolors
    rw [getColor, if_neg hlength, or_iff_right hcolors]
    by_cases hareas : e.sequenceList = []
    · simp [activeArea, remainder, hareas]
    · obtain ⟨area, harea⟩ := exists_getElem?_mod hareas e.stepCount
      obtain ⟨color, hcolor⟩ := exists_getElem?_mod hcolors e.stepCount
      refine iff_of_true ?_ hareas
      have hactive : e.activeArea = some area := by
        rw [activeArea, remainder_of_pos (length_ne_zero hareas)]
        exact harea
      have hcurrent : e.getCurrentStepColor = some (color.applyBrightness e.bri) := by
        rw [getCurrentStepColor, if_neg hlength, remainder_of_pos hlength]
        change (e.colors[e.stepCount % e.colors.length]?.bind _) = _
        rw [hcolor]
        rfl
      rw [hactive]
      change ∃ color, (if area.isInArea light.position = true then e.getCurrentStepColor else some {}) = some color
      split_ifs
      · exact ⟨_, hcurrent⟩
      · exact ⟨{}, rfl⟩

theorem listFor_ne_nil : listFor group mode ≠ [] ↔
    mode = .all ∨ ∃ area ∈ candidates group mode, occupied group area = true := by
  unfold listFor
  split_ifs with hmode
  · simp [hmode]
  · rw [or_iff_right hmode, nonEmpty, Ne, List.filter_eq_nil_iff]
    push Not
    rfl

/-- The remainders go on by one as long as the counter does, or where its range is a multiple of the divisor. -/
theorem step_mod {s n : ℕ} (h : s + 1 < 2 ^ 64 ∨ n ∣ 2 ^ 64) : (s + 1) % 2 ^ 64 % n = (s % n + 1) % n := by
  rw [Nat.mod_add_mod]
  rcases h with hlt | hdvd
  · rw [Nat.mod_eq_of_lt hlt]
  · exact Nat.mod_mod_of_dvd (s + 1) hdvd

/-! ### Runs -/

/-- A step advances where the areas in the list are those with lights, and the counter does. -/
theorem advances_step (hareas : nonEmpty e.group e.mode ≠ [] → e.sequenceList = nonEmpty e.group e.mode)
    (hcount : e.stepCount + 1 < 2 ^ 64 ∨ (e.colors = [] ∨ e.colors.length ∣ 2 ^ 64) ∧
      (nonEmpty e.group e.mode = [] ∨ (nonEmpty e.group e.mode).length ∣ 2 ^ 64)) : Advances e e.step := by
  refine ⟨fun hne => ?_, fun hne => ?_⟩
  · have hlist := hareas hne
    have hpos : 0 < (nonEmpty e.group e.mode).length := List.length_pos_of_ne_nil hne
    have hnext : (e.stepCount + 1) % 2 ^ 64 % (nonEmpty e.group e.mode).length =
        (e.stepCount % (nonEmpty e.group e.mode).length + 1) % (nonEmpty e.group e.mode).length :=
      step_mod (hcount.imp_right fun h => h.2.resolve_left hne)
    refine ⟨e.stepCount % (nonEmpty e.group e.mode).length, Nat.mod_lt _ hpos, ?_, ?_⟩
    · rw [activeArea, hlist, remainder_of_pos hpos.ne']
      rfl
    · have hsteps : e.step.activeArea = (remainder ((e.stepCount + 1) % 2 ^ 64) e.sequenceList.length).bind fun i =>
          e.sequenceList[i]? := rfl
      rw [hsteps, hlist, remainder_of_pos hpos.ne', hnext]
      rfl
  · have hnext : (e.stepCount + 1) % 2 ^ 64 % e.colors.length = (e.stepCount % e.colors.length + 1) % e.colors.length :=
      step_mod (hcount.imp_right fun h => h.1.resolve_left hne)
    have hsteps : remainder e.step.stepCount e.step.colors.length =
        remainder ((e.stepCount + 1) % 2 ^ 64) e.colors.length := rfl
    rw [hsteps, remainder_of_pos (length_ne_zero hne), remainder_of_pos (length_ne_zero hne), hnext]
    rfl

/-- **The calls of a run are right**: `GetColor` exactly where there are no colors or an area of the mode had a light at
the last look up, and a step where the areas with lights are still the same and the counter goes on. -/
theorem calls_right (before : List Op) :
    (∀ light, Op.Right (after before) (.getColor light) ↔ (Op.getColor light).Fits before) ∧
      ∀ op : Op, op.Fits before → op.Right (after before) := by
  have hget : ∀ light, Op.Right (after before) (.getColor light) ↔ (Op.getColor light).Fits before := by
    intro light
    obtain ⟨hlist, -⟩ := sequenceList_after before
    change (∃ color, (after before).getColor light = some color) ↔ _
    rw [getColor_defined_iff, hlist, listFor_ne_nil]
    exact Iff.rfl
  refine ⟨hget, fun op hfits => ?_⟩
  cases op with
  | getColor light => exact (hget light).mpr hfits
  | step =>
    obtain ⟨hsame, hcount⟩ := hfits
    obtain ⟨hlist, hmode⟩ := sequenceList_after before
    refine advances_step (fun hne => ?_) hcount
    by_cases hall : (after before).mode = .all
    · have hcandidates : candidates (after before).group .all = [.All] := rfl
      rw [hlist, ← hmode, listFor, if_pos hall]
      rw [hall, nonEmpty, hcandidates] at hne ⊢
      have hoccupied : occupied (after before).group .All = true := by
        by_contra hnone
        exact hne (by simp [hnone])
      simp [hoccupied]
    · rw [hlist, ← hmode, listFor, if_neg hall, hsame.resolve_left hall, hmode]
  | _ => trivial

/-! ### Examples -/

def exampleLight (x : ℚ) : Light := { position := { x } }

/-- A light on the left and one on the right. -/
def exampleCalls : List Op :=
  [.setMode .leftRight, .addColor (Color.ofRGB 1 0 0), .updateGroup (some [exampleLight (-1), exampleLight 1])]

theorem calls_right_example : Op.Right (after exampleCalls) .step :=
  (calls_right exampleCalls).2 .step ⟨.inr (by decide +kernel), .inl (by decide +kernel)⟩

theorem after_replicate (ops : List Op) (n : ℕ) (h : (after ops).stepCount < 2 ^ 64) :
    after (ops ++ List.replicate n .step) =
      { after ops with stepCount := ((after ops).stepCount + n) % 2 ^ 64 } := by
  induction n with
  | zero =>
    rw [List.replicate_zero, List.append_nil, Nat.add_zero, Nat.mod_eq_of_lt h]
  | succ n ih =>
    rw [List.replicate_succ', ← List.append_assoc, after_concat, ih, Op.run, step, Nat.mod_add_mod]
    rfl

/-- Without a light in an area of the mode there is a remainder by 0. A light that is added later has an area that the
steps leave out, and after 2 ^ 64 steps three areas do not go on by one. -/
theorem exists_not_right :
    ¬ Op.Right (after [.setMode .round, .addColor (Color.ofRGB 1 0 0)]) (.getColor {}) ∧
      ¬ Op.Right (after [.setMode .leftRight, .updateGroup (some [exampleLight (-1)]), .addLight (exampleLight 1)]) .step ∧
      ¬ Op.Right (after ([.setMode .leftRight,
        .updateGroup (some [exampleLight (-1), exampleLight 0, exampleLight 1])] ++
          List.replicate (2 ^ 64 - 1) .step)) .step := by
  refine ⟨?_, ?_, ?_⟩
  · rintro ⟨color, hcolor⟩
    have hnone : (after [.setMode .round, .addColor (Color.ofRGB 1 0 0)]).getColor {} = none := by decide +kernel
    rw [hnone] at hcolor
    cases hcolor
  · intro h
    obtain ⟨i, hi, hactive, hnext⟩ := h.area (by decide +kernel)
    revert i
    decide +kernel
  · rw [after_replicate _ _ (by decide +kernel)]
    intro h
    obtain ⟨i, hi, hactive, hnext⟩ := h.area (by decide +kernel)
    revert i
    decide +kernel

end HueStream.Effects.SequenceEffect
