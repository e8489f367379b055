import HueStream.Data.Book

/-! # Known bridges that were discovered again

`RediscoverKnownBridge` writes addresses, and nothing by which it recognizes a bridge. So the bridges it
takes for known ones are those it would take before its loop, and the first of them becomes active. -/

namespace HueStream.Data

namespace HueStreamData

variable {σ : BridgeSettings} {heap : Heap} {discovered : List BridgePtr} {d : HueStreamData}
  {known p : BridgePtr}

/-- A known bridge was discovered again. -/
def isRediscovered (σ : BridgeSettings) (heap : Heap) (discovered : List BridgePtr)
    (known : BridgePtr) : Bool :=
  (rediscovered σ heap discovered known).isSome

theorem isRediscovered_iff : isRediscovered σ heap discovered known = true ↔
    (heap known).isAuthorizedForStreaming σ = true ∧
      ∃ b ∈ discovered, (heap b).id = (heap known).id := by
  unfold isRediscovered rediscovered
  split_ifs with h
  · simp [h]
  · simp [h]

/-- What the loop has changed: addresses of bridges that were discovered again. -/
structure Readdresses (σ : BridgeSettings) (heap : Heap) (discovered : List BridgePtr)
    (heap' : Heap) : Prop where
  credentials : ∀ p, (heap' p).identity.credentials = (heap p).identity.credentials
  unchanged : ∀ p, isRediscovered σ heap discovered p = false → heap' p = heap p

theorem Readdresses.of_isRediscovered {heap' : Heap} (h : Readdresses σ heap discovered heap')
    (hknown : isRediscovered σ heap' discovered known = true) :
    isRediscovered σ heap discovered known = true := by
  by_contra hno
  have hid : ∀ p, (heap' p).id = (heap p).id := fun p => congrArg Credentials.id (h.credentials p)
  have heq := h.unchanged known (by simpa using hno)
  obtain ⟨hauth, b, hb, hsame⟩ := isRediscovered_iff.mp hknown
  rw [heq] at hauth hsame
  exact hno (isRediscovered_iff.mpr ⟨hauth, b, hb, (hid b).symm.trans hsame⟩)

theorem Readdresses.rediscoverStep {acc : Heap × Option BridgePtr}
    (h : Readdresses σ heap discovered acc.1) (known : BridgePtr) :
    Readdresses σ heap discovered (rediscoverStep σ discovered acc known).1 := by
  unfold HueStreamData.rediscoverStep
  split
  · exact h
  · next b hb =>
    have hfound : isRediscovered σ acc.1 discovered known = true := by simp [isRediscovered, hb]
    have hknown := h.of_isRediscovered hfound
    refine ⟨fun q => ?_, fun q hq => ?_⟩
    · by_cases hqk : q = known
      · subst hqk
        simpa [Bridge.identity, Identity.credentials] using h.credentials q
      · simpa [Function.update_of_ne hqk] using h.credentials q
    · have hqk : q ≠ known := by
        rintro rfl
        rw [hknown] at hq
        cases hq
      simpa [Function.update_of_ne hqk] using h.unchanged q hq

/-- The loop ends with the first bridge that was discovered again, if there is one. -/
theorem foldl_rediscoverStep (l : List BridgePtr) (acc : Heap × Option BridgePtr)
    (h : Readdresses σ heap discovered acc.1) (hnone : acc.2 = none → acc.1 = heap) :
    Readdresses σ heap discovered (l.foldl (rediscoverStep σ discovered) acc).1 ∧
      (l.foldl (rediscoverStep σ discovered) acc).2 =
        acc.2.or (l.find? (isRediscovered σ heap discovered)) ∧
      ((l.foldl (rediscoverStep σ discovered) acc).2 = none →
        (l.foldl (rediscoverStep σ discovered) acc).1 = heap) := by
  induction l generalizing acc with
  | nil => exact ⟨h, by simp, hnone⟩
  | cons known l ih =>
    rw [List.foldl_cons]
    have hstep : (rediscoverStep σ discovered acc known).2 =
        acc.2.or (if isRediscovered σ heap discovered known then some known else none) ∧
        ((rediscoverStep σ discovered acc known).2 = none →
          (rediscoverStep σ discovered acc known).1 = heap) := by
      unfold rediscoverStep
      cases hb : rediscovered σ acc.1 discovered known with
      | some b =>
        have hfound : isRediscovered σ acc.1 discovered known = true := by simp [isRediscovered, hb]
        rw [if_pos (h.of_isRediscovered hfound)]
        refine ⟨rfl, fun hno => ?_⟩
        cases hacc : acc.2 <;> simp [hacc] at hno
      | none =>
        refine ⟨?_, hnone⟩
        cases hacc : acc.2 with
        | some b => rfl
        | none =>
          have hno : isRediscovered σ heap discovered known = false := by
            rw [← hnone hacc]
            simp [isRediscovered, hb]
          simp [hno]
    obtain ⟨hre, hfound, hheap⟩ := ih _ (h.rediscoverStep known) hstep.2
    refine ⟨hre, ?_, hheap⟩
    rw [hfound, hstep.1, Option.or_assoc, List.find?_cons]
    cases isRediscovered σ heap discovered known <;> rfl

/-- **Rediscovery.** When a known bridge was discovered again one of them becomes the active one, the
bridge that was active before if it is among them; otherwise nothing changes. -/
theorem rediscoverKnownBridge_cases (d : HueStreamData) (σ : BridgeSettings) (heap : Heap)
    (discovered : List BridgePtr) :
    ((d.bridges.any (isRediscovered σ heap discovered)) = false ∧
      d.rediscoverKnownBridge σ heap discovered = (false, heap, d)) ∨
    ((d.bridges.any (isRediscovered σ heap discovered)) = true ∧ ∃ heap' b,
      d.rediscoverKnownBridge σ heap discovered = (true, heap', d.setActiveBridge σ heap' b) ∧
      b ∈ d.bridges ∧ isRediscovered σ heap discovered b = true ∧
      (∀ p, (heap' p).identity.credentials = (heap p).identity.credentials) ∧
      (b = d.active ∨ heap' d.active = heap d.active)) := by
  have hrefl : Readdresses σ heap discovered heap := ⟨fun _ => rfl, fun _ _ => rfl⟩
  obtain ⟨hre, hfound, hheap⟩ := foldl_rediscoverStep d.bridges.reverse (heap, none) hrefl
    fun _ => rfl
  unfold rediscoverKnownBridge
  generalize d.bridges.reverse.foldl (rediscoverStep σ discovered) (heap, none) = r at *
  obtain ⟨heap', found⟩ := r
  simp only [Option.none_or] at hfound
  cases found with
  | none =>
    refine .inl ⟨?_, ?_⟩
    · have hno := List.find?_eq_none.mp hfound.symm
      simpa [List.any_eq_false] using hno
    · rw [show heap' = heap from hheap rfl]
  | some b =>
    have hb := List.find?_some hfound.symm
    have hmem : b ∈ d.bridges := List.mem_reverse.mp (List.mem_of_find?_eq_some hfound.symm)
    refine .inr ⟨List.any_eq_true.mpr ⟨b, hmem, hb⟩, heap', b, rfl, hmem, hb, hre.credentials, ?_⟩
    by_cases hactive : isRediscovered σ heap discovered d.active = true
    · left
      have hrev : d.bridges.reverse = d.active :: d.earlier.reverse := by simp [bridges]
      rw [hrev, List.find?_cons, hactive] at hfound
      exact Option.some.inj hfound
    · exact .inr (hre.unchanged _ (by simpa using hactive))

end HueStreamData

end HueStream.Data
