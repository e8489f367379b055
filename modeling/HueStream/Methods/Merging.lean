import HueStream.Lib.Keyed
import HueStream.Lib.Run

/-! # Merging the reports of the methods

The task pops the first method of its queue at each report, and puts the report into its map.

* `results_orderly_iff`: when each method gets its turn and the entries of earlier methods stay.
* `exists_replaced`: an entry of a later method, and a method that is skipped. -/

/-! ### The task of a bridge discovery

`BridgeDiscoveryTask` has a queue of discovery methods, and searches with the first of them. A method gives
what it has found to its callback, at any time and any number of times; the executor of the task processes
these reports one after another. -/

namespace HueStream.Methods

open HueStream.Lib

structure BridgeDiscoveryResult where
  uniqueId : String := ""
  ip : String
  apiVersion : String := ""
  modelId : String := ""
  name : String := ""
  swversion : String := ""
deriving DecidableEq

/-- What a method gives to its callback. -/
structure Report where
  /-- The place of the method in the list that the task is made from. -/
  method : ℕ
  discoveryResults : List BridgeDiscoveryResult
deriving DecidableEq

structure BridgeDiscoveryTask where
  currentDiscoveryMethods : List ℕ
  /-- The values of the map, in no order. -/
  results : List BridgeDiscoveryResult := []
  /-- What waits in the executor. -/
  posted : List Report := []
  /-- The calls of `search` so far. -/
  started : List ℕ := []
  /-- The calls of `stop` of a method so far. -/
  stopped : List ℕ := []
  /-- The reports that were put into `results`. -/
  merged : List Report := []
  /-- The calls of `_done` so far. -/
  doneCalls : ℕ := 0
deriving DecidableEq

namespace BridgeDiscoveryTask

def construct (methods : ℕ) : BridgeDiscoveryTask := { currentDiscoveryMethods := List.range methods }

variable (s : BridgeDiscoveryTask)

def startNextSearchMethod : BridgeDiscoveryTask :=
  match s.currentDiscoveryMethods with
  | method :: _ => { s with started := s.started ++ [method] }
  | [] => { s with doneCalls := s.doneCalls + 1 }

def execute : BridgeDiscoveryTask := s.startNextSearchMethod

def processResultsAndContinue (report : Report) : BridgeDiscoveryTask :=
  match s.currentDiscoveryMethods with
  | _ :: methods =>
    { s with
      -- `_results[result_entry->get_ip()] = result_entry`
      results := report.discoveryResults.foldl (moveToEnd BridgeDiscoveryResult.ip) s.results
      merged := s.merged ++ [report]
      currentDiscoveryMethods := methods }.startNextSearchMethod
  | [] => s

def stop : BridgeDiscoveryTask :=
  match s.currentDiscoveryMethods with
  | method :: _ => { s with stopped := s.stopped ++ [method], currentDiscoveryMethods := [] }
  | [] => s

inductive Event
  /-- A method calls its callback. -/
  | report (method : ℕ) (discoveryResults : List BridgeDiscoveryResult)
  /-- The executor runs what was posted first. -/
  | process
  | stop
deriving DecidableEq

/-- Only a method that was asked to search has a callback. -/
def step : Event → Option BridgeDiscoveryTask
  | .report method discoveryResults =>
    if method ∈ s.started then some { s with posted := s.posted ++ [⟨method, discoveryResults⟩] } else none
  | .process =>
    match s.posted with
    | report :: posted => some ({ s with posted }.processResultsAndContinue report)
    | [] => none
  | .stop => some s.stop

/-- The task after `execute`, with its methods, its executor and its job. -/
def machine (methods : ℕ) : Machine BridgeDiscoveryTask Event where
  Init s := s = (construct methods).execute
  step := step

end BridgeDiscoveryTask

end HueStream.Methods

namespace HueStream.Methods.BridgeDiscoveryTask

open HueStream.Lib

/-- Each method searches once and in order after the former one has reported, `_done` is called after the last
report, and the results have at each address the entry of the first method that has found one. -/
structure Orderly (methods : ℕ) (s : BridgeDiscoveryTask) : Prop where
  inOrder : s.merged.map Report.method = List.range s.merged.length
  started : s.started = List.range (min (s.merged.length + 1) methods)
  done : s.doneCalls = if s.merged.length = methods then 1 else 0
  distinct : (s.results.map BridgeDiscoveryResult.ip).Nodup
  first : ∀ e, e ∈ s.results ↔
    firstFound BridgeDiscoveryResult.ip (s.merged.map Report.discoveryResults) e.ip = some e

/-- A report of a method that has reported, and any report after `stop`, is thrown away. -/
def IgnoresLate (t : Transition BridgeDiscoveryTask Event) : Prop :=
  ∀ report posted, t.label = .process → t.before.posted = report :: posted →
    report.method ∈ t.before.merged.map Report.method ∨ t.before.stopped ≠ [] →
    t.after = { t.before with posted }

structure Right (methods : ℕ) (t : Transition BridgeDiscoveryTask Event) : Prop where
  before : Orderly methods t.before
  after : Orderly methods t.after
  late : IgnoresLate t

/-- What is processed while there are methods comes from the first of them, and has as its last entry of an
address that has a result just this result. -/
def Fits (s : BridgeDiscoveryTask) (l : Event) : Prop :=
  l = .process → ∀ report ∈ s.posted.head?, ∀ method ∈ s.currentDiscoveryMethods.head?,
    report.method = method ∧ ∀ e ∈ s.results,
      ∀ a ∈ lastWith BridgeDiscoveryResult.ip report.discoveryResults e.ip, a = e

instance (s : BridgeDiscoveryTask) (l : Event) : Decidable (Fits s l) := by
  unfold Fits
  infer_instance

/-- The methods that are left are those that have not reported, until the task is stopped. -/
structure Ordered (methods : ℕ) (s : BridgeDiscoveryTask) : Prop where
  orderly : Orderly methods s
  le : s.merged.length ≤ methods
  queue : s.stopped = [] → s.currentDiscoveryMethods = (List.range methods).drop s.merged.length
  emptied : s.stopped ≠ [] → s.currentDiscoveryMethods = []

variable {methods method : ℕ} {s s' : BridgeDiscoveryTask} {rest : List ℕ}

theorem drop_range_eq_cons {k : ℕ} (h : (List.range methods).drop k = method :: rest) :
    method = k ∧ k < methods ∧ rest = (List.range methods).drop (k + 1) := by
  have hlt : k < methods := by
    by_contra hnot
    rw [List.drop_eq_nil_of_le (by simpa using hnot)] at h
    cases h
  rw [List.drop_eq_getElem_cons (by simpa using hlt)] at h
  obtain ⟨hmethod, hrest⟩ := List.cons.inj h
  rw [List.getElem_range] at hmethod
  exact ⟨hmethod.symm, hlt, hrest.symm⟩

/-- The first method of the queue is the one after those that have reported. -/
theorem Ordered.head (h : Ordered methods s) (hqueue : s.currentDiscoveryMethods = method :: rest) :
    method = s.merged.length ∧ s.merged.length < methods ∧
      rest = (List.range methods).drop (s.merged.length + 1) ∧ s.stopped = [] := by
  have hstopped : s.stopped = [] := by
    by_contra hne
    rw [h.emptied hne] at hqueue
    cases hqueue
  rw [h.queue hstopped] at hqueue
  obtain ⟨hmethod, hlt, hrest⟩ := drop_range_eq_cons hqueue
  exact ⟨hmethod, hlt, hrest, hstopped⟩

theorem ordered_execute : Ordered methods (construct methods).execute := by
  cases methods with
  | zero => exact ⟨⟨rfl, rfl, rfl, .nil, by simp [construct, execute, startNextSearchMethod, firstFound]⟩, le_rfl,
      fun _ => rfl, fun h => absurd rfl h⟩
  | succ methods =>
    have hrange : List.range (methods + 1) = 0 :: (List.range methods).map Nat.succ := List.range_succ_eq_map
    have hexecute : (construct (methods + 1)).execute =
        { construct (methods + 1) with started := [0] } := by
      simp [execute, startNextSearchMethod, construct, hrange]
    rw [hexecute]
    refine ⟨⟨rfl, ?_, rfl, .nil, by simp [construct, firstFound]⟩, Nat.zero_le _, fun _ => rfl,
      fun h => absurd rfl h⟩
    have hmin : min (0 + 1) (methods + 1) = 1 := by omega
    change [0] = List.range (min (0 + 1) (methods + 1))
    rw [hmin]
    rfl

/-- The state after the report of a method, up to what waits in the executor. -/
structure After (s s' : BridgeDiscoveryTask) (report : Report) (rest : List ℕ) : Prop where
  queue : s'.currentDiscoveryMethods = rest
  results : s'.results = report.discoveryResults.foldl (moveToEnd BridgeDiscoveryResult.ip) s.results
  merged : s'.merged = s.merged ++ [report]
  started : s'.started = s.started ++ rest.head?.toList
  stopped : s'.stopped = s.stopped
  done : s'.doneCalls = s.doneCalls + if rest = [] then 1 else 0

theorem after_process {report : Report} (hqueue : s.currentDiscoveryMethods = method :: rest) :
    After s (s.processResultsAndContinue report) report rest := by
  unfold processResultsAndContinue
  rw [hqueue]
  cases rest with
  | nil => exact ⟨rfl, rfl, rfl, (List.append_nil _).symm, rfl, rfl⟩
  | cons next rest => exact ⟨rfl, rfl, rfl, rfl, rfl, rfl⟩

theorem After.merged_length {report : Report} (h : After s s' report rest) :
    s'.merged.length = s.merged.length + 1 := by
  rw [h.merged, List.length_append]
  rfl

/-- A report keeps the order exactly when it fits. -/
theorem orderly_after_iff {report : Report} (h : Ordered methods s)
    (hqueue : s.currentDiscoveryMethods = method :: rest) (hafter : After s s' report rest) :
    Orderly methods s' ↔ report.method = method ∧ ∀ e ∈ s.results, ∀ a,
      lastWith BridgeDiscoveryResult.ip report.discoveryResults e.ip = some a → a = e := by
  obtain ⟨hmethod, hlt, hrest, -⟩ := h.head hqueue
  have hlength := hafter.merged_length
  have hin : s'.merged.map Report.method = List.range s'.merged.length ↔ report.method = method := by
    rw [hlength, List.range_succ, hafter.merged, List.map_append, h.orderly.inOrder, hmethod]
    simp
  have hfirst : (∀ e, e ∈ s'.results ↔
      firstFound BridgeDiscoveryResult.ip (s'.merged.map Report.discoveryResults) e.ip = some e) ↔
      ∀ e ∈ s.results, ∀ a, lastWith BridgeDiscoveryResult.ip report.discoveryResults e.ip = some a → a = e := by
    rw [hafter.results, hafter.merged, List.map_append]
    exact foldl_moveToEnd_iff h.orderly.distinct h.orderly.first
  rw [← hin, ← hfirst]
  refine ⟨fun horderly => ⟨horderly.inOrder, horderly.first⟩, fun hboth => ⟨hboth.1, ?_, ?_, ?_, hboth.2⟩⟩
  · have hstarted : min (s.merged.length + 1) methods = s.merged.length + 1 := by omega
    rw [hafter.started, h.orderly.started, hlength, hstarted, hrest]
    by_cases hmore : s.merged.length + 1 < methods
    · have hmin : min (s.merged.length + 1 + 1) methods = s.merged.length + 1 + 1 := by omega
      rw [hmin, List.range_succ (n := s.merged.length + 1), List.head?_drop, List.getElem?_range hmore]
      rfl
    · have hmin : min (s.merged.length + 1 + 1) methods = s.merged.length + 1 := by omega
      rw [hmin, List.drop_eq_nil_of_le (by simpa using hmore)]
      exact List.append_nil _
  · have hempty : rest = [] ↔ s.merged.length + 1 = methods := by
      rw [hrest, List.drop_eq_nil_iff, List.length_range]
      omega
    have hne : ¬ s.merged.length = methods := by omega
    rw [hafter.done, h.orderly.done, hlength, if_neg hne]
    simp only [hempty, Nat.zero_add]
  · rw [hafter.results]
    exact nodup_foldl_moveToEnd h.orderly.distinct

theorem ordered_after {report : Report} (h : Ordered methods s)
    (hqueue : s.currentDiscoveryMethods = method :: rest) (hafter : After s s' report rest)
    (horderly : Orderly methods s') : Ordered methods s' := by
  obtain ⟨-, hlt, hrest, hstopped⟩ := h.head hqueue
  have hlength := hafter.merged_length
  refine ⟨horderly, by omega, fun _ => ?_, fun hne => ?_⟩
  · rw [hafter.queue, hlength, hrest]
  · rw [hafter.stopped] at hne
    exact absurd hstopped hne

theorem processResultsAndContinue_of_nil {report : Report} (hqueue : s.currentDiscoveryMethods = []) :
    s.processResultsAndContinue report = s := by
  unfold processResultsAndContinue
  rw [hqueue]

theorem Ordered.stop (h : Ordered methods s) : Ordered methods s.stop := by
  unfold BridgeDiscoveryTask.stop
  cases hqueue : s.currentDiscoveryMethods with
  | nil => exact h
  | cons method rest =>
    obtain ⟨horderly, hle, -, -⟩ := h
    obtain ⟨hin, hstarted, hdone, hdistinct, hfirst⟩ := horderly
    exact ⟨⟨hin, hstarted, hdone, hdistinct, hfirst⟩, hle, by simp, fun _ => rfl⟩

theorem Ordered.posted {posted : List Report} (h : Ordered methods s) : Ordered methods { s with posted } := by
  obtain ⟨⟨hin, hstarted, hdone, hdistinct, hfirst⟩, hle, hqueue, hemptied⟩ := h
  exact ⟨⟨hin, hstarted, hdone, hdistinct, hfirst⟩, hle, hqueue, hemptied⟩

/-- What the step for a report is right for, and what it keeps. -/
theorem right_process_iff {report : Report} {posted : List Report} (h : Ordered methods s)
    (hposted : s.posted = report :: posted)
    (hs' : s' = { s with posted }.processResultsAndContinue report) :
    (Right methods ⟨s, .process, s'⟩ ↔ Fits s .process) ∧ (Fits s .process → Ordered methods s') := by
  have hrest : Ordered methods { s with posted } := h.posted
  cases hqueue : s.currentDiscoveryMethods with
  | nil =>
    have heq : s' = { s with posted } := by
      rw [hs']
      exact processResultsAndContinue_of_nil hqueue
    have hfits : Fits s .process := by simp [Fits, hqueue]
    have hright : Right methods ⟨s, .process, s'⟩ := by
      refine ⟨h.orderly, heq ▸ hrest.orderly, fun report' posted' _ hposted' _ => ?_⟩
      rw [hposted] at hposted'
      obtain ⟨-, rfl⟩ := List.cons.inj hposted'
      exact heq
    exact ⟨iff_of_true hright hfits, fun _ => heq ▸ hrest⟩
  | cons method rest =>
    have hafter : After { s with posted } s' report rest := by
      rw [hs']
      exact after_process hqueue
    have hiff := orderly_after_iff hrest hqueue hafter
    have hfits : Fits s .process ↔ Orderly methods s' := by
      rw [hiff]
      simp [Fits, hposted, hqueue]
    refine ⟨⟨fun hright => hfits.mpr hright.after, fun hfit => ?_⟩, fun hfit =>
      ordered_after hrest hqueue hafter (hfits.mp hfit)⟩
    refine ⟨h.orderly, hfits.mp hfit, fun report' posted' _ hposted' hlate => ?_⟩
    rw [hposted] at hposted'
    obtain ⟨rfl, rfl⟩ := List.cons.inj hposted'
    -- A method that has reported is not the first of the queue, and there is no queue after `stop`.
    obtain ⟨hmethod, -, -, hstopped⟩ := h.head hqueue
    have hreporter : report.method = method := (hiff.mp (hfits.mp hfit)).1
    rcases hlate with hmem | hne
    · have hlt : report.method < s.merged.length := by
        change report.method ∈ s.merged.map Report.method at hmem
        rw [h.orderly.inOrder] at hmem
        exact List.mem_range.mp hmem
      omega
    · exact absurd hstopped hne

theorem right_step_iff {l : Event} (h : Ordered methods s) (hstep : step s l = some s') :
    (Right methods ⟨s, l, s'⟩ ↔ Fits s l) ∧ (Fits s l → Ordered methods s') := by
  have hother : l ≠ .process → Ordered methods s' →
      (Right methods ⟨s, l, s'⟩ ↔ Fits s l) ∧ (Fits s l → Ordered methods s') := by
    intro hl hordered
    have hright : Right methods ⟨s, l, s'⟩ :=
      ⟨h.orderly, hordered.orderly, fun _ _ hprocess _ _ => absurd hprocess hl⟩
    have hfits : Fits s l := fun hprocess => absurd hprocess hl
    exact ⟨iff_of_true hright hfits, fun _ => hordered⟩
  cases l with
  | report method discoveryResults =>
    simp only [step, Option.ite_none_right_eq_some, Option.some.injEq] at hstep
    obtain ⟨-, rfl⟩ := hstep
    exact hother (by simp) h.posted
  | stop =>
    obtain rfl := Option.some.inj hstep
    exact hother (by simp) h.stop
  | process =>
    cases hposted : s.posted with
    | nil =>
      simp only [step, hposted] at hstep
      cases hstep
    | cons report posted =>
      simp only [step, hposted, Option.some.injEq] at hstep
      exact right_process_iff h hposted hstep.symm

/-- **Merging.** The methods take their turns, the results are those of the first methods which have found
them, and late reports are thrown away, exactly when what is processed while methods are queued always comes
from the first of them and replaces no result by another one. -/
theorem results_orderly_iff {ts : List (Transition BridgeDiscoveryTask Event)}
    (h : (machine methods).Run ts s) :
    (∀ t ∈ ts, Right methods t) ↔ ∀ t ∈ ts, Fits t.before t.label := by
  refine h.forall_iff (I := Ordered methods) (fun s hs => ?_) (fun s l s' hstep hfits hs => ?_)
    (fun s l s' hstep hs => ?_)
  · obtain rfl : s = _ := hs
    exact ordered_execute
  · exact (right_step_iff hs hstep).2 hfits
  · exact (right_step_iff hs hstep).1

/-- Two bridges at three reports of two methods: one is found twice, with the same details. -/
theorem results_orderly_iff_example : ∃ ts s, (machine 2).Run ts s ∧ (∀ t ∈ ts, Right 2 t) ∧
    s.doneCalls = 1 ∧ s.results.map BridgeDiscoveryResult.ip = ["10.0.0.3", "10.0.0.2"] := by
  obtain ⟨ts, s, hrun, h⟩ := Machine.exists_run (M := machine 2) (s := (construct 2).execute)
    [.report 0 [{ ip := "10.0.0.2" }, { ip := "10.0.0.3" }], .process, .report 1 [{ ip := "10.0.0.2" }], .process,
      .report 1 [{ ip := "10.0.0.3", modelId := "BSB002" }], .process]
    (fun ts s => decide ((∀ t ∈ ts, Fits t.before t.label) ∧ s.doneCalls = 1 ∧
      s.results.map BridgeDiscoveryResult.ip = ["10.0.0.3", "10.0.0.2"])) rfl (by decide +kernel)
  obtain ⟨hfits, hdone, hresults⟩ := of_decide_eq_true h
  exact ⟨ts, s, hrun, (results_orderly_iff hrun).mpr hfits, hdone, hresults⟩

/-- A second method finds the bridge of the first one, with less detail, and its entry is the one that stays. A
first method that reports twice ends the search of the second one. -/
theorem exists_replaced :
    (∃ ts s, (machine 2).Run ts s ∧ ts.map Transition.label =
      [.report 0 [{ uniqueId := "0017880FFFE9B00A", ip := "10.0.0.2", modelId := "BSB002" }], .process,
        .report 1 [{ uniqueId := "0017880FFFE9B00A", ip := "10.0.0.2" }], .process] ∧
      s.results = [{ uniqueId := "0017880FFFE9B00A", ip := "10.0.0.2" }] ∧ ¬ Orderly 2 s) ∧
    ∃ ts s, (machine 2).Run ts s ∧ ts.map Transition.label = [.report 0 [], .process, .report 0 [], .process] ∧
      s.doneCalls = 1 ∧ s.merged.map Report.method = [0, 0] ∧ ¬ Orderly 2 s := by
  constructor
  · obtain ⟨ts, s, hrun, hlabels, h⟩ := Machine.exists_run_along (M := machine 2) (s := (construct 2).execute)
      [.report 0 [{ uniqueId := "0017880FFFE9B00A", ip := "10.0.0.2", modelId := "BSB002" }], .process,
        .report 1 [{ uniqueId := "0017880FFFE9B00A", ip := "10.0.0.2" }], .process]
      (fun _ s => decide (s.results = [{ uniqueId := "0017880FFFE9B00A", ip := "10.0.0.2" }] ∧
        firstFound BridgeDiscoveryResult.ip (s.merged.map Report.discoveryResults) "10.0.0.2" =
          some { uniqueId := "0017880FFFE9B00A", ip := "10.0.0.2", modelId := "BSB002" })) rfl (by decide +kernel)
    obtain ⟨hresults, hfirst⟩ := of_decide_eq_true h
    refine ⟨ts, s, hrun, hlabels, hresults, fun horderly => ?_⟩
    have hmem := (horderly.first _).mp (by rw [hresults]; exact List.mem_singleton_self _)
    rw [hfirst] at hmem
    simp at hmem
  · obtain ⟨ts, s, hrun, hlabels, h⟩ := Machine.exists_run_along (M := machine 2) (s := (construct 2).execute)
      [.report 0 [], .process, .report 0 [], .process]
      (fun _ s => decide (s.doneCalls = 1 ∧ s.merged.map Report.method = [0, 0])) rfl (by decide +kernel)
    obtain ⟨hdone, hmerged⟩ := of_decide_eq_true h
    refine ⟨ts, s, hrun, hlabels, hdone, hmerged, fun horderly => ?_⟩
    have hlength : s.merged.length = 2 := by
      rw [← List.length_map (f := Report.method), hmerged]
      rfl
    have hin := horderly.inOrder
    rw [hmerged, hlength] at hin
    simp [List.range_succ] at hin

end HueStream.Methods.BridgeDiscoveryTask
