import HueStream.Lib.Run

/-! # Callbacks on all futures of a composite

`then_filter` and `then_reduce` of a `CompositeFuture`, and `schedule` of a continuation that returns one, put
a callback on every input. The callbacks share data under a mutex; the one that finds itself to be the last
sets the promise. An input that completes posts its callback to an executor, which runs it some time later;
inputs that fail or are cancelled are left out.

`Callbacks.step` is the machine of the callbacks, from the values the inputs complete with. `Gathers` says what
a callback has to do with the shared data for the machine to gather all values; `gathered` is what then holds
after every run. -/

namespace HueStream.Futures

open HueStream.Lib

variable {α β σ ρ : Type*}

/-- What the callbacks on the inputs do with the data they share: `handle` is what one does with the value of
its input under the mutex, and whether it has found itself to be the last; `complete` is what the last one
does then, with what it sets the promise to. When `locked`, it still holds the mutex. -/
structure Callback (σ α ρ : Type*) where
  handle : α → σ → σ × Bool
  complete : σ → σ × Option ρ
  locked : Bool

/-- The callbacks with the data they share: the inputs that have completed, those whose callbacks have
handled their values, in this order, the callbacks on their way to set the promise, and what it has been set
to so far. -/
structure Callbacks (σ ρ : Type*) where
  data : σ
  completed : List ℕ := []
  handled : List ℕ := []
  leaving : List ℕ := []
  set : List ρ := []

/-- An input completes, its callback handles its value, and a callback that has left the mutex goes on to set
the promise. -/
inductive Move
  | complete (input : ℕ)
  | handle (input : ℕ)
  | leave (input : ℕ)
  deriving DecidableEq

def Move.handled : Move → Option ℕ
  | .handle input => some input
  | _ => none

namespace Callbacks

def setPromise (callback : Callback σ α ρ) (s : Callbacks σ ρ) : Callbacks σ ρ :=
  let (data, value) := callback.complete s.data
  { s with data, set := s.set ++ value.toList }

def handle (callback : Callback σ α ρ) (input : ℕ) (s : Callbacks σ ρ) (value : α) : Callbacks σ ρ :=
  let (data, isLast) := callback.handle value s.data
  let s := { s with data, handled := s.handled ++ [input] }
  if isLast then
    if callback.locked then s.setPromise callback else { s with leaving := s.leaving ++ [input] }
  else s

def step (callback : Callback σ α ρ) (values : List α) (s : Callbacks σ ρ) : Move → Option (Callbacks σ ρ)
  | .complete input =>
    if input < values.length ∧ input ∉ s.completed then
      some { s with completed := s.completed ++ [input] }
    else none
  | .handle input =>
    if input ∈ s.completed ∧ input ∉ s.handled then values[input]?.map (s.handle callback input) else none
  | .leave input =>
    if input ∈ s.leaving then some ({ s with leaving := s.leaving.erase input }.setPromise callback)
    else none

/-- All callbacks have run to their end. -/
def Finished (n : ℕ) (s : Callbacks σ ρ) : Prop := s.handled.length = n ∧ s.leaving = []

instance (n : ℕ) (s : Callbacks σ ρ) : Decidable (s.Finished n) :=
  inferInstanceAs (Decidable (s.handled.length = n ∧ s.leaving = []))

end Callbacks

/-- The callbacks on inputs that complete with `values`. -/
def callbacks (callback : Callback σ α ρ) (data : σ) (values : List α) : Machine (Callbacks σ ρ) Move where
  Init s := s = { data }
  step := Callbacks.step callback values

/-- The inputs in the order in which their values are handled. -/
def order (ts : List (Transition (Callbacks σ ρ) Move)) : List ℕ := ts.filterMap fun t => t.label.handled

/-- The values in the order of the inputs. -/
def inOrder (values : List α) (inputs : List ℕ) : List α := inputs.filterMap fun i => values[i]?

/-! ### The callbacks of the source -/

/-- `FilterData` and `ReduceData`. -/
structure ResponseData (ρ : Type*) where
  numberOfExpectedResponses : ℕ
  handledResponses : ℕ := 0
  result : ρ

/-- The callback of `then_filter` and `then_reduce`, which differ in how they add a value to the result. -/
def respond (add : ρ → α → ρ) : Callback (ResponseData ρ) α ρ where
  handle value data :=
    let data := { data with
      result := add data.result value, handledResponses := data.handledResponses + 1 }
    (data, data.handledResponses == data.numberOfExpectedResponses)
  complete data := (data, some data.result)
  locked := true

namespace CompositeFuture

def get (values : List α) : List α := values.foldl (fun returnValue value => returnValue ++ [value]) []

def thenFilter (condition : α → Bool) (futures : List α) :
    Machine (Callbacks (ResponseData (List α)) (List α)) Move :=
  callbacks (respond fun result value => if condition value then result ++ [value] else result)
    { numberOfExpectedResponses := futures.length, result := [] } futures

def thenReduce (initValue : α) (binaryOperation : α → α → α) (futures : List α) :
    Machine (Callbacks (ResponseData α) α) Move :=
  callbacks (respond binaryOperation)
    { numberOfExpectedResponses := futures.length, result := initValue } futures

end CompositeFuture

/-- What the callbacks of `schedule` share. -/
structure SharedData (ρ : Type*) where
  isSet : Bool := false
  result : ρ

/-- The callback of `schedule` on the futures of a `CompositeFuture<T>`. -/
def addItem (size : ℕ) : Callback (SharedData (List α)) α (List α) where
  handle itemResult sharedData :=
    let sharedData := { sharedData with result := sharedData.result ++ [itemResult] }
    (sharedData, sharedData.result.length == size)
  complete sharedData :=
    ({ sharedData with isSet := true }, if sharedData.isSet then none else some sharedData.result)
  locked := false

/-- The callback of `schedule` on the futures of a `CompositeFuture<void>`: the result is the counter. -/
def countItem (size : ℕ) : Callback (SharedData ℕ) Unit Unit where
  handle _ sharedData :=
    ({ sharedData with result := sharedData.result + 1 }, sharedData.result == size - 1)
  complete sharedData := ({ sharedData with isSet := true }, if sharedData.isSet then none else some ())
  locked := false

/-- `schedule` of a continuation that returns a `CompositeFuture<T>`. -/
def schedule (nestedFuture : List α) : Machine (Callbacks (SharedData (List α)) (List α)) Move :=
  callbacks (addItem nestedFuture.length) { result := [] } nestedFuture

/-- `schedule` of a continuation that returns a `CompositeFuture<void>`. -/
def scheduleVoid (nestedFuture : List Unit) : Machine (Callbacks (SharedData ℕ) Unit) Move :=
  callbacks (countItem nestedFuture.length) { result := 0 } nestedFuture

namespace Future

def thenFilter (condition : α → Bool) (container : List α) : List α :=
  container.foldl (fun filteredData value => if condition value then filteredData ++ [value] else filteredData) []

def thenReduce (initValue : β) (binaryOperation : β → α → β) (container : List α) : β :=
  container.foldl binaryOperation initValue

/-- `then` with `async_all`: the tasks, one for each value, complete with its result. -/
def thenForeach (function : α → β) (container : List α) :
    Machine (Callbacks (SharedData (List β)) (List β)) Move :=
  schedule (container.map function)

end Future

/-! ### What a run keeps -/

variable {callback : Callback σ α ρ} {start : σ} {values : List α} {data : List α → σ} {out : List α → ρ}
  {ts : List (Transition (Callbacks σ ρ) Move)} {s s' : Callbacks σ ρ} {m : Move} {n i : ℕ}

/-- The shared data amount to the values handled so far, the callback that handles the last one of `n` finds
itself to be the last, and it sets the promise to what the values make. -/
structure Gathers (callback : Callback σ α ρ) (start : σ) (n : ℕ) (data : List α → σ) (out : List α → ρ) :
    Prop where
  start : data [] = start
  handle : ∀ vs v, vs.length < n →
    callback.handle v (data vs) = (data (vs ++ [v]), decide (vs.length + 1 = n))
  complete : ∀ vs, vs.length = n → (callback.complete (data vs)).2 = some (out vs)

/-- Every input completes and is handled at most once, and as soon as all have been handled one callback is
on its way to set the promise or has set it. -/
structure Gathered (values : List α) (data : List α → σ) (out : List α → ρ) (s : Callbacks σ ρ) : Prop where
  completed : s.completed.Nodup
  inputs : ∀ i ∈ s.completed, i < values.length
  handled : s.handled.Nodup
  subset : s.handled ⊆ s.completed
  data : s.set = [] → s.data = data (inOrder values s.handled)
  last : s.leaving.length + s.set.length = if values ≠ [] ∧ s.handled.length = values.length then 1 else 0
  set : ∀ r ∈ s.set, r = out (inOrder values s.handled)

theorem handle_handled (i : ℕ) (v : α) : (s.handle callback i v).handled = s.handled ++ [i] := by
  cases hd : callback.handle v s.data
  unfold Callbacks.handle Callbacks.setPromise
  rw [hd]
  dsimp only
  split_ifs <;> rfl

theorem handle_completed (i : ℕ) (v : α) : (s.handle callback i v).completed = s.completed := by
  cases hd : callback.handle v s.data
  unfold Callbacks.handle Callbacks.setPromise
  rw [hd]
  dsimp only
  split_ifs <;> rfl

theorem length_inOrder {is : List ℕ} (h : ∀ i ∈ is, i < values.length) :
    (inOrder values is).length = is.length := by
  refine List.filterMap_length_eq_length.mpr fun i hi => ?_
  have hi := h i hi
  simp [hi]

theorem Gathered.inputs_handled (hI : Gathered values data out s) : ∀ i ∈ s.handled, i < values.length :=
  fun i hi => hI.inputs i (hI.subset hi)

theorem Gathered.handled_le (hI : Gathered values data out s) : s.handled.length ≤ values.length :=
  length_le_of_lt hI.handled hI.inputs_handled

/-- Before all inputs have been handled nothing has been set, and nobody is about to. -/
theorem Gathered.quiet (hI : Gathered values data out s) (h : s.handled.length < values.length) :
    s.leaving = [] ∧ s.set = [] := by
  have hlast := hI.last
  rw [if_neg (by omega)] at hlast
  constructor
  · exact List.length_eq_zero_iff.mp (by omega)
  · exact List.length_eq_zero_iff.mp (by omega)

theorem Gathered.init (hg : Gathers callback start values.length data out) :
    Gathered values data out { data := start } where
  completed := List.nodup_nil
  inputs := by simp
  handled := List.nodup_nil
  subset := by simp
  data _ := hg.start.symm
  last := by
    rw [if_neg]
    · rfl
    · rintro ⟨hne, hlen⟩
      exact hne (List.length_eq_zero_iff.mp hlen.symm)
  set := by simp

theorem Gathered.complete (hI : Gathered values data out s) (hi : i < values.length)
    (hnew : i ∉ s.completed) : Gathered values data out { s with completed := s.completed ++ [i] } where
  completed := List.nodup_append.mpr ⟨hI.completed, List.nodup_singleton i, by
    rintro a ha b hb rfl
    exact hnew (List.mem_singleton.mp hb ▸ ha)⟩
  inputs j hj := by
    rcases List.mem_append.mp hj with hj | hj
    · exact hI.inputs j hj
    · rwa [List.mem_singleton.mp hj]
  handled := hI.handled
  subset := fun j hj => List.mem_append_left [i] (hI.subset hj)
  data := hI.data
  last := hI.last
  set := hI.set

/-- A callback handles the value of its input: it has found itself to be the last exactly when all the others
have handled theirs, and then it sets the promise or is on its way to do so. -/
theorem Gathered.handle (hg : Gathers callback start values.length data out) (hI : Gathered values data out s)
    (hi : i ∈ s.completed) (hnew : i ∉ s.handled) {v : α} (hv : values[i]? = some v) :
    Gathered values data out (s.handle callback i v) := by
  have hnodup : (s.handled ++ [i]).Nodup := List.nodup_append.mpr ⟨hI.handled, List.nodup_singleton i, by
    rintro a ha b hb rfl
    exact hnew (List.mem_singleton.mp hb ▸ ha)⟩
  have hsub : s.handled ++ [i] ⊆ s.completed := List.append_subset.mpr ⟨hI.subset, by simpa using hi⟩
  have hle : (s.handled ++ [i]).length ≤ values.length :=
    length_le_of_lt hnodup fun j hj => hI.inputs j (hsub hj)
  have hlen : s.handled.length + 1 ≤ values.length := by simpa using hle
  obtain ⟨hleaving, hset⟩ := hI.quiet hlen
  have hne : values ≠ [] := fun h => by simp [h] at hlen
  have hvalues : (inOrder values s.handled).length = s.handled.length := length_inOrder hI.inputs_handled
  have horder : inOrder values (s.handled ++ [i]) = inOrder values s.handled ++ [v] := by
    simp [inOrder, hv]
  have hhandle : callback.handle v s.data =
      (data (inOrder values (s.handled ++ [i])), decide (s.handled.length + 1 = values.length)) := by
    rw [hI.data hset, horder, hg.handle _ _ (by omega), hvalues]
  unfold Callbacks.handle
  rw [hhandle]
  by_cases hlast : s.handled.length + 1 = values.length
  · have hlength : (s.handled ++ [i]).length = values.length := by simpa using hlast
    have hcomplete := hg.complete (inOrder values (s.handled ++ [i]))
      ((length_inOrder fun j hj => hI.inputs j (hsub hj)).trans hlength)
    cases hlocked : callback.locked with
    | true =>
      simp only [decide_eq_true hlast, if_true, Callbacks.setPromise]
      rw [hcomplete]
      refine ⟨hI.completed, hI.inputs, hnodup, hsub, by simp, ?_, by simp [hset]⟩
      rw [if_pos ⟨hne, hlength⟩]
      simp [hleaving, hset]
    | false =>
      simp only [decide_eq_true hlast, if_true, Bool.false_eq_true, if_false]
      refine ⟨hI.completed, hI.inputs, hnodup, hsub, fun _ => rfl, ?_, by simp [hset]⟩
      rw [if_pos ⟨hne, hlength⟩]
      simp [hleaving, hset]
  · simp only [decide_eq_false hlast, Bool.false_eq_true, if_false]
    refine ⟨hI.completed, hI.inputs, hnodup, hsub, fun _ => rfl, ?_, by simp [hset]⟩
    rw [if_neg (by simp [hlast])]
    simp [hleaving, hset]

/-- The last callback sets the promise to what all the values make. -/
theorem Gathered.leave (hg : Gathers callback start values.length data out) (hI : Gathered values data out s)
    (hi : i ∈ s.leaving) :
    Gathered values data out
      (({ s with leaving := s.leaving.erase i } : Callbacks σ ρ).setPromise callback) := by
  have hlast := hI.last
  have hpos := List.length_pos_of_mem hi
  have herase := List.length_erase_of_mem hi
  split_ifs at hlast with hall
  · have hset : s.set = [] := List.length_eq_zero_iff.mp (by omega)
    have hlen : (inOrder values s.handled).length = values.length :=
      (length_inOrder hI.inputs_handled).trans hall.2
    have hcomplete := hg.complete _ hlen
    unfold Callbacks.setPromise
    simp only [hI.data hset]
    rw [hcomplete]
    refine ⟨hI.completed, hI.inputs, hI.handled, hI.subset, by simp, ?_, by simp [hset]⟩
    rw [if_pos hall, hset]
    simp only [Option.toList_some, List.nil_append, List.length_singleton]
    omega
  · omega

theorem Gathered.step (hg : Gathers callback start values.length data out)
    (h : s.step callback values m = some s') (hI : Gathered values data out s) : Gathered values data out s' := by
  cases m with
  | complete i =>
    simp only [Callbacks.step, Option.ite_none_right_eq_some, Option.some.injEq] at h
    obtain ⟨⟨hi, hnew⟩, rfl⟩ := h
    exact hI.complete hi hnew
  | handle i =>
    simp only [Callbacks.step, Option.ite_none_right_eq_some, Option.map_eq_some_iff] at h
    obtain ⟨⟨hi, hnew⟩, v, hv, rfl⟩ := h
    exact hI.handle hg hi hnew hv
  | leave i =>
    simp only [Callbacks.step, Option.ite_none_right_eq_some, Option.some.injEq] at h
    obtain ⟨hi, rfl⟩ := h
    exact hI.leave hg hi

theorem gathered (hg : Gathers callback start values.length data out)
    (hrun : (callbacks callback start values).Run ts s) : Gathered values data out s := by
  refine hrun.invariant (fun s hs => ?_) fun s l s' h hI => hI.step hg h
  obtain rfl : s = { data := start } := hs
  exact .init hg

end HueStream.Futures
