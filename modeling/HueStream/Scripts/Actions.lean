import HueStream.Lib.Run
import HueStream.Scripts.RoundTrip

/-! # The list of the actions

A script holds its actions in a list object that is not its own alone: `SetActions` takes over the list it is
given, clears it and adds its elements again. Whatever calls there were, the list is the stable sort of
what the script was given (`stablySorted_run`), and a list that is sorted stays as it is. -/

namespace HueStream.Scripts

open HueStream.Lib

variable {E : Type}

/-- `ActionListPtr`: a shared pointer to a list. -/
abbrev ActionListPtr := ℕ

/-- The list objects, and the one a script holds. -/
structure Sharing (E : Type) where
  lists : ActionListPtr → List (Action E)
  actions : ActionListPtr

namespace Sharing

/-- The script with the actions its list has. -/
def script (s : Sharing E) : LightScript E := { actions := s.lists s.actions }

/-- `AddAction`. -/
def addAction (s : Sharing E) (newAction : Action E) : Sharing E :=
  { s with lists := Function.update s.lists s.actions (s.script.addAction newAction).actions }

/-- `UpdateActions`. -/
def updateActions (s : Sharing E) : Sharing E :=
  let actionsCopy := s.lists s.actions
  actionsCopy.foldl addAction { s with lists := Function.update s.lists s.actions [] }

/-- `SetActions`. -/
def setActions (s : Sharing E) (actions : ActionListPtr) : Sharing E :=
  updateActions { s with actions }

end Sharing

/-- What is done with a script, and with the lists of its callers. -/
inductive Call (E : Type)
  | addAction (newAction : Action E)
  | setActions (actions : ActionListPtr)
  /-- A caller changes a list which is not that of the script. -/
  | fill (list : ActionListPtr) (content : List (Action E))

/-- A new script, with an empty list, and calls. -/
def sharing : Machine (Sharing E) (Call E) where
  Init s := s.lists s.actions = []
  step s
    | .addAction newAction => some (s.addAction newAction)
    | .setActions actions => some (s.setActions actions)
    | .fill list content =>
      if list = s.actions then none else some { s with lists := Function.update s.lists list content }

/-- What the script was given, after one more call. -/
def givenBy (given : List (Action E)) (t : Transition (Sharing E) (Call E)) : List (Action E) :=
  match t.label with
  | .addAction newAction => given ++ [newAction]
  | .setActions actions => t.before.lists actions
  | .fill .. => given

/-- What the script was given: the list it was handed last, and the actions added since. -/
def given (ts : List (Transition (Sharing E) (Call E))) : List (Action E) := ts.foldl givenBy []

theorem given_concat (ts : List (Transition (Sharing E) (Call E))) (t : Transition (Sharing E) (Call E)) :
    given (ts ++ [t]) = givenBy (given ts) t := by
  rw [given, List.foldl_append]
  rfl

namespace Sharing

variable {s s' : Sharing E} {ts : List (Transition (Sharing E) (Call E))} {l : Call E}

theorem addAction_eq (s : Sharing E) (a : Action E) : s.addAction a =
    { s with lists := Function.update s.lists s.actions (stableInsert Action.key a (s.lists s.actions)) } := by
  rw [addAction, LightScript.addAction_eq]
  rfl

/-- Adding actions one by one changes the list of the script alone. -/
theorem foldl_addAction (as : List (Action E)) (s : Sharing E) :
    as.foldl addAction s = ⟨Function.update s.lists s.actions
      (as.foldl (fun l a => stableInsert Action.key a l) (s.lists s.actions)), s.actions⟩ := by
  induction as generalizing s with
  | nil => simp
  | cons a as ih =>
    rw [List.foldl_cons, ih, addAction_eq]
    simp

theorem setActions_eq (s : Sharing E) (list : ActionListPtr) : s.setActions list =
    { lists := Function.update s.lists list (stableSort Action.key (s.lists list)), actions := list } := by
  rw [setActions, updateActions, foldl_addAction]
  simp [stableSort]

theorem stablySorted_step (hstep : sharing.step s l = some s') {given : List (Action E)}
    (h : StablySorted Action.key given (s.lists s.actions)) :
    StablySorted Action.key (givenBy given ⟨s, l, s'⟩) (s'.lists s'.actions) := by
  cases l with
  | addAction a =>
    obtain rfl : s.addAction a = s' := Option.some.inj hstep
    rw [addAction_eq, givenBy]
    simpa using h.insert a
  | setActions list =>
    obtain rfl : s.setActions list = s' := Option.some.inj hstep
    have hsort : StablySorted Action.key ([] ++ s.lists list) (stableSort Action.key (s.lists list)) :=
      StablySorted.nil.foldl
    rw [setActions_eq, givenBy]
    simpa using hsort
  | fill list content =>
    obtain ⟨hne, hs'⟩ := Option.ite_none_left_eq_some.mp hstep
    obtain rfl := Option.some.inj hs'
    have hlist : Function.update s.lists list content s.actions = s.lists s.actions :=
      Function.update_of_ne (Ne.symm hne) _ _
    show StablySorted Action.key given (Function.update s.lists list content s.actions)
    rwa [hlist]

theorem stablySorted_run (hrun : sharing.Run ts s) :
    StablySorted Action.key (given ts) (s.lists s.actions) := by
  induction hrun with
  | init h =>
    rw [h]
    exact .nil
  | step _ hstep ih =>
    rw [given_concat]
    exact stablySorted_step hstep ih

/-- A sorted list is left as it is. -/
theorem setActions_of_sorted {list : ActionListPtr} (h : SortedBy Action.key (s.lists list)) :
    s.setActions list = { s with actions := list } := by
  have hsort : stableSort Action.key (s.lists list) = s.lists list := SortedBy.foldl_stableInsert (l := []) h
  rw [setActions_eq, hsort, Function.update_eq_self]

/-- **The actions of a script** are always those it was given, in the order of their layers, within a layer of
their start positions, and where both are equal in the order in which they were added; and setting a list that
is in order changes no list. -/
theorem actions_ordered (hrun : sharing.Run ts s) :
    StablySorted Action.key (given ts) (s.lists s.actions) ∧
      ∀ list, SortedBy Action.key (s.lists list) → s.setActions list = { s with actions := list } :=
  ⟨stablySorted_run hrun, fun _ h => setActions_of_sorted h⟩

/-- A script that takes over a list of its caller. -/
theorem actions_ordered_example : ∃ ts, ∃ s : Sharing Empty, sharing.Run ts s ∧
    (s.lists s.actions).map Action.name = ["c", "b", "a"] ∧
    StablySorted Action.key (given ts) (s.lists s.actions) := by
  obtain ⟨ts, s, hrun, h⟩ := Machine.exists_run (M := sharing) (s := (⟨fun _ => [], 0⟩ : Sharing Empty))
    [.addAction { name := "d" }, .fill 1 [{ name := "a", layer := 1 }, { name := "b", startPosition := 5 }],
      .setActions 1, .addAction { name := "c" }]
    (fun _ s => (s.lists s.actions).map Action.name = ["c", "b", "a"]) rfl (by decide +kernel)
  exact ⟨ts, s, hrun, of_decide_eq_true h, (actions_ordered hrun).1⟩

end Sharing

end HueStream.Scripts
