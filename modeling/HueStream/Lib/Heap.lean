import Mathlib.Data.List.Forall2
import Mathlib.Logic.Relation
import Mathlib.Tactic

/-! # Objects on a heap

A heap maps object ids to objects, and objects point at one another. Three things are developed over any
type of objects:

* programs that read and allocate (`HeapM`), with rules for what they make (`Makes`): their results are
  described against the heap they were started on, however far it has grown since;
* what is reachable from a list of pointers (`Held`);
* two holders that each change what they can reach, in any order (`Step`). Neither ever sees a change of
  the other exactly when they reach nothing in common (`independent_of_apart`, `apart_of_independent`). -/

namespace HueStream.Lib

/-- A pointer: the id of an object, or null. -/
abbrev Pointer := Option ℕ

/-- The objects of a heap: their kinds, and their pointers, each with the kinds it may point at. -/
class Layout (α : Type*) where
  Kind : Type
  kind : α → Kind
  slots : α → List (Pointer × List Kind)

/-- The pointers of an object. -/
def Layout.refs {α : Type*} [Layout α] (o : α) : List Pointer := (Layout.slots o).map Prod.fst

/-- A heap. The ids from `next` on are free. -/
structure Heap (α : Type*) where
  get : ℕ → Option α
  next : ℕ
  fresh : ∀ a, next ≤ a → get a = none

namespace Heap

variable {α : Type*}

theorem lt_next {h : Heap α} {a : ℕ} {o : α} (ho : h.get a = some o) : a < h.next := by
  by_contra hlt
  have := h.fresh a (by omega)
  simp [this] at ho

/-- The heap of the objects of a list, each at its position. -/
def ofList (os : List α) : Heap α where
  get a := os[a]?
  next := os.length
  fresh _ ha := List.getElem?_eq_none ha

/-- Allocation of a new object. -/
def alloc (h : Heap α) (o : α) : Heap α where
  get a := if a = h.next then some o else h.get a
  next := h.next + 1
  fresh a ha := by
    rw [if_neg (by omega)]
    exact h.fresh a (by omega)

/-- Replacement of the object at an id in use. -/
def write (h : Heap α) (a : ℕ) (o : α) : Heap α where
  get b := if b = a ∧ a < h.next then some o else h.get b
  next := h.next
  fresh b hb := by
    rw [if_neg (by omega)]
    exact h.fresh b hb

@[simp] theorem alloc_next (h : Heap α) (o : α) : (h.alloc o).next = h.next + 1 := rfl

theorem alloc_get_next (h : Heap α) (o : α) : (h.alloc o).get h.next = some o := if_pos rfl

theorem alloc_get {h : Heap α} {a : ℕ} {o o' : α} (ho : h.get a = some o) :
    (h.alloc o').get a = some o := by
  have := lt_next ho
  simp only [alloc]
  rw [if_neg (by omega), ho]

theorem write_get_self {h : Heap α} {a : ℕ} {o o' : α} (ho : h.get a = some o) :
    (h.write a o').get a = some o' :=
  if_pos ⟨rfl, lt_next ho⟩

theorem write_get_of_ne {h : Heap α} {a b : ℕ} {o' : α} (hne : b ≠ a) :
    (h.write a o').get b = h.get b :=
  if_neg fun hb => hne hb.1

/-! ### Growing heaps -/

/-- A heap that has grown: the ids in use hold what they held. -/
instance : LE (Heap α) where
  le h h' := h.next ≤ h'.next ∧ ∀ a o, h.get a = some o → h'.get a = some o

theorem next_le {h h' : Heap α} (hle : h ≤ h') : h.next ≤ h'.next := hle.1

theorem get_of_le {h h' : Heap α} (hle : h ≤ h') {a : ℕ} {o : α} (ho : h.get a = some o) :
    h'.get a = some o := hle.2 a o ho

theorem le_refl (h : Heap α) : h ≤ h := ⟨Nat.le_refl _, fun _ _ ho => ho⟩

theorem le_trans {h₁ h₂ h₃ : Heap α} (h12 : h₁ ≤ h₂) (h23 : h₂ ≤ h₃) : h₁ ≤ h₃ :=
  ⟨Nat.le_trans h12.1 h23.1, fun _ _ ho => get_of_le h23 (get_of_le h12 ho)⟩

theorem le_alloc (h : Heap α) (o : α) : h ≤ h.alloc o := ⟨by simp, fun _ _ ho => alloc_get ho⟩

/-! ### Reading through a pointer -/

/-- What `f` reads of the object a pointer points at. -/
def at? {β : Type*} (h : Heap α) (f : α → Option β) (p : Pointer) : Option β := (p.bind h.get).bind f

variable {β γ : Type*} {f : α → Option β}

@[simp] theorem at?_none (h : Heap α) (f : α → Option β) : h.at? f none = none := rfl

theorem at?_some {h : Heap α} {a : ℕ} {o : α} (ho : h.get a = some o) : h.at? f (some a) = f o := by
  simp [at?, ho]

theorem exists_of_at? {h : Heap α} {p : Pointer} {b : β} (hp : h.at? f p = some b) :
    ∃ a o, p = some a ∧ h.get a = some o ∧ f o = some b := by
  cases p with
  | none => simp at hp
  | some a =>
    obtain ⟨o, ho, hb⟩ := Option.bind_eq_some_iff.mp hp
    exact ⟨a, o, rfl, ho, hb⟩

theorem at?_of_le {h h' : Heap α} (hle : h ≤ h') {p : Pointer} {b : β} (hp : h.at? f p = some b) :
    h'.at? f p = some b := by
  obtain ⟨a, o, rfl, ho, hb⟩ := exists_of_at? hp
  rw [at?_some (get_of_le hle ho), hb]

/-! ### Well-typed heaps -/

section Typed

variable [Layout α]

/-- The pointers of an object are null or point at objects of the kinds they are for. -/
def Typed (h : Heap α) (o : α) : Prop :=
  ∀ s ∈ Layout.slots o, ∀ a, s.1 = some a → ∃ o', h.get a = some o' ∧ Layout.kind o' ∈ s.2

/-- Every object of the heap is well typed. -/
def WellTyped (h : Heap α) : Prop := ∀ a o, h.get a = some o → h.Typed o

theorem wellTyped_ofList {os : List α} (hos : ∀ o ∈ os, (ofList os).Typed o) : (ofList os).WellTyped :=
  fun _ o ho => hos o (List.mem_of_getElem? ho)

theorem Typed.of_le {h h' : Heap α} (hle : h ≤ h') {o : α} (ho : h.Typed o) : h'.Typed o := by
  intro s hs a ha
  obtain ⟨o', hget, hkind⟩ := ho s hs a ha
  exact ⟨o', get_of_le hle hget, hkind⟩

/-! ### What is reachable -/

/-- `b` is a pointer of the object at `a`. -/
def Edge (h : Heap α) (a b : ℕ) : Prop := ∃ o, h.get a = some o ∧ some b ∈ Layout.refs o

/-- What is reachable from a list of pointers. -/
def Held (h : Heap α) (ps : List Pointer) (a : ℕ) : Prop :=
  ∃ r, some r ∈ ps ∧ Relation.ReflTransGen h.Edge r a

theorem held_of_mem {h : Heap α} {ps : List Pointer} {a : ℕ} (ha : some a ∈ ps) : h.Held ps a :=
  ⟨a, ha, .refl⟩

theorem Held.edge {h : Heap α} {ps : List Pointer} {a b : ℕ} (ha : h.Held ps a) (hab : h.Edge a b) :
    h.Held ps b := by
  obtain ⟨r, hr, hra⟩ := ha
  exact ⟨r, hr, hra.tail hab⟩

/-- A set that holds the roots and is closed under pointers holds all that is reachable. -/
theorem Held.subset {h : Heap α} {ps : List Pointer} {S : ℕ → Prop} (hroot : ∀ r, some r ∈ ps → S r)
    (hedge : ∀ a b, S a → h.Edge a b → S b) {a : ℕ} (ha : h.Held ps a) : S a := by
  obtain ⟨r, hr, hra⟩ := ha
  induction hra with
  | refl => exact hroot r hr
  | tail _ hbc ih => exact hedge _ _ ih hbc

@[simp] theorem not_held_nil {h : Heap α} {a : ℕ} : ¬ h.Held [] a := by
  rintro ⟨r, hr, -⟩
  simp at hr

theorem held_cons {h : Heap α} {p : Pointer} {ps : List Pointer} {a : ℕ} :
    h.Held (p :: ps) a ↔ h.Held [p] a ∨ h.Held ps a := by
  simp only [Held, List.mem_cons, List.not_mem_nil, or_false]
  constructor
  · rintro ⟨r, hr | hr, hra⟩
    · exact Or.inl ⟨r, hr, hra⟩
    · exact Or.inr ⟨r, hr, hra⟩
  · rintro (⟨r, hr, hra⟩ | ⟨r, hr, hra⟩)
    · exact ⟨r, Or.inl hr, hra⟩
    · exact ⟨r, Or.inr hr, hra⟩

theorem held_iff {h : Heap α} {ps : List Pointer} {a : ℕ} :
    h.Held ps a ↔ ∃ p ∈ ps, h.Held [p] a := by
  constructor
  · rintro ⟨r, hr, hra⟩
    exact ⟨some r, hr, r, by simp, hra⟩
  · rintro ⟨p, hp, r, hr, hra⟩
    obtain rfl := List.mem_singleton.mp hr
    exact ⟨r, hp, hra⟩

@[simp] theorem not_held_null {h : Heap α} {a : ℕ} : ¬ h.Held [none] a := by
  rintro ⟨r, hr, -⟩
  simp at hr

/-- From an object one reaches the object and what its pointers reach. -/
theorem held_object {h : Heap α} {a b : ℕ} {o : α} (ho : h.get a = some o) :
    h.Held [some a] b ↔ b = a ∨ h.Held (Layout.refs o) b := by
  constructor
  · rintro ⟨r, hr, hrb⟩
    obtain rfl : r = a := by simpa using hr
    rcases Relation.ReflTransGen.cases_head hrb with rfl | ⟨c, ⟨o', ho', hc⟩, hcb⟩
    · exact Or.inl rfl
    · obtain rfl : o = o' := by simpa [ho] using ho'
      exact Or.inr ⟨c, hc, hcb⟩
  · rintro (rfl | ⟨c, hc, hcb⟩)
    · exact held_of_mem (by simp)
    · exact ⟨a, by simp, hcb.head ⟨o, ho, hc⟩⟩

/-- All that is reachable from well-typed roots of a well-typed heap is allocated. -/
theorem Held.allocated {h : Heap α} (hh : h.WellTyped) {ps : List Pointer}
    (hps : ∀ r, some r ∈ ps → ∃ o, h.get r = some o) {a : ℕ} (ha : h.Held ps a) :
    ∃ o, h.get a = some o := by
  refine Held.subset hps ?_ ha
  rintro a b - ⟨o, ho, hb⟩
  obtain ⟨s, hs, hsb⟩ := List.mem_map.mp hb
  obtain ⟨o', ho', -⟩ := hh a o ho s hs b hsb
  exact ⟨o', ho'⟩

/-- Growth adds nothing to what is reachable from allocated objects. -/
theorem Held.of_le {h h' : Heap α} (hle : h ≤ h') {ps : List Pointer}
    (hps : ∀ a, h.Held ps a → ∃ o, h.get a = some o) {a : ℕ} (ha : h'.Held ps a) : h.Held ps a := by
  refine Held.subset (S := h.Held ps) (fun r hr => held_of_mem hr) ?_ ha
  rintro a b hheld ⟨o, ho, hb⟩
  obtain ⟨o', ho'⟩ := hps a hheld
  obtain rfl : o' = o := by simpa [get_of_le hle ho'] using ho
  exact hheld.edge ⟨o', ho', hb⟩

/-! ### Two holders -/

/-- A change a holder of the pointers `ps` can make: a new object, whose pointers are null or to what the
holder can reach, or a new value of the same kind for an object that it can reach. -/
inductive Change : Heap α → List Pointer → Heap α → List Pointer → Prop
  | alloc {h : Heap α} {ps : List Pointer} (o : α) (htyped : h.Typed o)
      (hheld : ∀ r, some r ∈ Layout.refs o → h.Held ps r) :
      Change h ps (h.alloc o) (some h.next :: ps)
  | write {h : Heap α} {ps : List Pointer} (a : ℕ) (o o' : α) (hget : h.get a = some o)
      (ha : h.Held ps a) (hkind : Layout.kind o' = Layout.kind o) (htyped : h.Typed o')
      (hheld : ∀ r, some r ∈ Layout.refs o' → h.Held ps r) : Change h ps (h.write a o') ps

/-- A heap with two holders, each with the pointers it starts from. -/
structure Holders (α : Type*) where
  heap : Heap α
  left : List Pointer
  right : List Pointer

/-- One of the holders makes a change. -/
inductive Step : Holders α → Holders α → Prop
  | left {h h' : Heap α} {ls ls' rs : List Pointer} (hchange : Change h ls h' ls') :
      Step ⟨h, ls, rs⟩ ⟨h', ls', rs⟩
  | right {h h' : Heap α} {ls rs rs' : List Pointer} (hchange : Change h rs h' rs') :
      Step ⟨h, ls, rs⟩ ⟨h', ls, rs'⟩

/-- No change through the pointers `ps` alters an object that is reachable from `qs`. -/
def Unseen (h : Heap α) (ps qs : List Pointer) : Prop :=
  ∀ h' ps', Change h ps h' ps' → ∀ a, h.Held qs a → h'.get a = h.get a

/-- A holder of `p` and one of `q` make changes in any order, and no change of either is ever seen by the
other. -/
def Independent (h : Heap α) (p q : Pointer) : Prop :=
  ∀ s, Relation.ReflTransGen Step ⟨h, [p], [q]⟩ s →
    Unseen s.heap s.left s.right ∧ Unseen s.heap s.right s.left

/-- What `ps` reaches is allocated, and `qs` does not reach it. -/
def Apart (h : Heap α) (ps qs : List Pointer) : Prop :=
  ∀ a, h.Held ps a → (∃ o, h.get a = some o) ∧ ¬ h.Held qs a

/-- A change through `ps` leaves what `qs` reaches as it is. -/
theorem unseen_of_apart {h : Heap α} {ps qs : List Pointer} (hqp : h.Apart qs ps) :
    h.Unseen ps qs := by
  intro h' ps' hchange a ha
  obtain ⟨⟨o, ho⟩, hnot⟩ := hqp a ha
  cases hchange with
  | alloc => rw [alloc_get ho, ho]
  | write b _ _ _ hb => rw [write_get_of_ne]; rintro rfl; exact hnot hb

/-- Changes through `ps` keep it apart from `qs`. -/
theorem Change.apart {h h' : Heap α} {ps ps' qs : List Pointer} (hchange : Change h ps h' ps')
    (hpq : h.Apart ps qs) (hqp : h.Apart qs ps) : h'.Apart ps' qs ∧ h'.Apart qs ps' := by
  have hright : ∀ a, h'.Held qs a → h.Held qs a := by
    intro a ha
    refine Held.subset (S := h.Held qs) (fun r hr => held_of_mem hr) ?_ ha
    rintro b c hb ⟨o, ho, hc⟩
    rw [unseen_of_apart hqp h' ps' hchange b hb] at ho
    exact hb.edge ⟨o, ho, hc⟩
  cases hchange with
  | alloc o _ hheld =>
    have hleft : ∀ a, (h.alloc o).Held (some h.next :: ps) a → a = h.next ∨ h.Held ps a := by
      refine fun a ha => Held.subset (S := fun a => a = h.next ∨ h.Held ps a) ?_ ?_ ha
      · intro r hr
        rcases List.mem_cons.mp hr with hr | hr
        · exact Or.inl (by simpa using hr)
        · exact Or.inr (held_of_mem hr)
      · rintro b c hb ⟨o', ho', hc⟩
        rcases hb with rfl | hb
        · rw [alloc_get_next] at ho'
          cases ho'
          exact Or.inr (hheld c hc)
        · obtain ⟨o'', ho''⟩ := (hpq b hb).1
          rw [alloc_get ho''] at ho'
          cases ho'
          exact Or.inr (hb.edge ⟨_, ho'', hc⟩)
    have hnew : ¬ h.Held qs h.next := by
      intro hq
      obtain ⟨o', ho'⟩ := (hqp _ hq).1
      exact absurd (lt_next ho') (lt_irrefl _)
    refine ⟨fun a ha => ?_, fun a ha => ?_⟩
    · rcases hleft a ha with rfl | ha
      · exact ⟨⟨o, alloc_get_next h o⟩, fun hq => hnew (hright _ hq)⟩
      · obtain ⟨⟨o', ho'⟩, hnot⟩ := hpq a ha
        exact ⟨⟨o', alloc_get ho'⟩, fun hq => hnot (hright _ hq)⟩
    · have hq := hright a ha
      obtain ⟨⟨o', ho'⟩, hnot⟩ := hqp a hq
      refine ⟨⟨o', alloc_get ho'⟩, fun hp => ?_⟩
      rcases hleft a hp with rfl | hp
      · exact hnew hq
      · exact hnot hp
  | write b o o' hget hb _ _ hheld =>
    have hleft : ∀ a, (h.write b o').Held ps a → h.Held ps a := by
      intro a ha
      refine Held.subset (S := h.Held ps) (fun r hr => held_of_mem hr) ?_ ha
      rintro c d hc ⟨o'', ho'', hd⟩
      by_cases hcb : c = b
      · subst hcb
        rw [write_get_self hget] at ho''
        cases ho''
        exact hheld d hd
      · rw [write_get_of_ne hcb] at ho''
        exact hc.edge ⟨o'', ho'', hd⟩
    have hkept : ∀ a, (∃ o, h.get a = some o) → ∃ o, (h.write b o').get a = some o := by
      rintro a ⟨o'', ho''⟩
      by_cases hab : a = b
      · exact ⟨o', by rw [hab]; exact write_get_self hget⟩
      · exact ⟨o'', by rw [write_get_of_ne hab, ho'']⟩
    refine ⟨fun a ha => ?_, fun a ha => ?_⟩
    · obtain ⟨halloc, hnot⟩ := hpq a (hleft a ha)
      exact ⟨hkept a halloc, fun hq => hnot (hright a hq)⟩
    · obtain ⟨halloc, hnot⟩ := hqp a (hright a ha)
      exact ⟨hkept a halloc, fun hp => hnot (hleft a hp)⟩

/-- **Holders that reach nothing in common stay independent.** -/
theorem independent_of_apart {h : Heap α} {p q : Pointer} (hpq : h.Apart [p] [q])
    (hqp : h.Apart [q] [p]) : h.Independent p q := by
  intro s hs
  have hapart : s.heap.Apart s.left s.right ∧ s.heap.Apart s.right s.left := by
    induction hs with
    | refl => exact ⟨hpq, hqp⟩
    | tail _ hstep ih =>
      cases hstep with
      | left hchange => exact hchange.apart ih.1 ih.2
      | right hchange => exact (hchange.apart ih.2 ih.1).symm
  exact ⟨unseen_of_apart hapart.2, unseen_of_apart hapart.1⟩

/-- Independent holders have no object in common that could change. -/
theorem apart_of_independent {h : Heap α} {p q : Pointer} (hind : h.Independent p q) {a : ℕ} {o o' : α}
    (ho : h.get a = some o) (hne : o' ≠ o) (hkind : Layout.kind o' = Layout.kind o) (htyped : h.Typed o')
    (hrefs : ∀ r, some r ∈ Layout.refs o' → some r ∈ Layout.refs o) (hp : h.Held [p] a) :
    ¬ h.Held [q] a := by
  intro hq
  have hheld : ∀ r, some r ∈ Layout.refs o' → h.Held [p] r := fun r hr => hp.edge ⟨o, ho, hrefs r hr⟩
  have hsame := (hind _ .refl).1 _ _ (.write a o o' ho hp hkind htyped hheld) a hq
  rw [write_get_self ho, ho] at hsame
  exact hne (by simpa using hsame)

end Typed

end Heap

/-! ### Programs that read and allocate -/

/-- A program on a heap; it fails where it follows a null pointer. -/
abbrev HeapM (α : Type) (β : Type) := StateT (Heap α) Option β

namespace HeapM

variable {α β γ : Type}

/-- Reading through a pointer. -/
def read (f : α → Option β) (p : Pointer) : HeapM α β := fun h => (h.at? f p).map (·, h)

/-- A new object. -/
def new (o : α) : HeapM α Pointer := fun h => some (some h.next, h.alloc o)

/-- Started on `h` or later, `m` ends exactly under the condition `C`, the heap then has grown, and the
result satisfies `R`. -/
structure Makes (h : Heap α) (m : HeapM α β) (C : Prop) (R : Heap α → β → Prop) : Prop where
  total : ∀ h₁, h ≤ h₁ → C → ∃ r h₂, m h₁ = some (r, h₂)
  sound : ∀ h₁ r h₂, h ≤ h₁ → m h₁ = some (r, h₂) → C ∧ h₁ ≤ h₂ ∧ R h₂ r

/-- What is true of a result stays true when the heap grows. -/
def Grows (R : Heap α → β → Prop) : Prop := ∀ r h₁ h₂, h₁ ≤ h₂ → R h₁ r → R h₂ r

/-- `p` points at an object allocated after `h`, which is `o`. -/
def New (h h' : Heap α) (p : Pointer) (o : α) : Prop := ∃ a, p = some a ∧ h.next ≤ a ∧ h'.get a = some o

theorem New.of_le {h h₁ h₂ : Heap α} (hle : h₁ ≤ h₂) {p : Pointer} {o : α} (hnew : New h h₁ p o) :
    New h h₂ p o := by
  obtain ⟨a, rfl, ha, ho⟩ := hnew
  exact ⟨a, rfl, ha, Heap.get_of_le hle ho⟩

theorem New.at? {h h' : Heap α} {p : Pointer} {o : α} (hnew : New h h' p o) (f : α → Option β) :
    h'.at? f p = f o := by
  obtain ⟨a, rfl, -, ho⟩ := hnew
  exact Heap.at?_some ho

theorem Makes.new (h : Heap α) (o : α) : Makes h (HeapM.new o) True fun h' p => New h h' p o where
  total h₁ _ _ := ⟨_, _, rfl⟩
  sound h₁ r h₂ hle heq := by
    cases heq
    exact ⟨trivial, h₁.le_alloc o, h₁.next, rfl, Heap.next_le hle, h₁.alloc_get_next o⟩

theorem Makes.mono {h : Heap α} {m : HeapM α β} {C C' : Prop} {R R' : Heap α → β → Prop}
    (hm : Makes h m C R) (hC : C ↔ C') (hR : ∀ h' r, C → R h' r → R' h' r) : Makes h m C' R' where
  total h₁ hle hc := hm.total h₁ hle (hC.mpr hc)
  sound h₁ r h₂ hle heq := by
    obtain ⟨hc, hle', hr⟩ := hm.sound h₁ r h₂ hle heq
    exact ⟨hC.mp hc, hle', hR h₂ r hc hr⟩

theorem Makes.pure (h : Heap α) (b : β) : Makes h (pure b) True fun _ r => r = b where
  total h₁ _ _ := ⟨_, _, rfl⟩
  sound h₁ r h₂ _ heq := by
    cases heq
    exact ⟨trivial, h₁.le_refl, rfl⟩

theorem Makes.bind {h : Heap α} {m : HeapM α β} {k : β → HeapM α γ} {C C' : Prop}
    {R : Heap α → β → Prop} {R' : β → Heap α → γ → Prop} (hm : Makes h m C R) (hR : Grows R)
    (hk : ∀ b, Makes h (k b) C' (R' b)) :
    Makes h (m >>= k) (C ∧ C') fun h' r => ∃ b, R h' b ∧ R' b h' r where
  total h₁ hle hc := by
    obtain ⟨b, h₂, heq⟩ := hm.total h₁ hle hc.1
    obtain ⟨-, hle₂, -⟩ := hm.sound h₁ b h₂ hle heq
    obtain ⟨r, h₃, heq'⟩ := (hk b).total h₂ (Heap.le_trans hle hle₂) hc.2
    exact ⟨r, h₃, by simp [StateT.bind, Bind.bind, heq, heq']⟩
  sound h₁ r h₃ hle heq := by
    obtain ⟨⟨b, h₂⟩, heq₁, heq₂⟩ := Option.bind_eq_some_iff.mp heq
    obtain ⟨hc, hle₂, hb⟩ := hm.sound h₁ b h₂ hle heq₁
    obtain ⟨hc', hle₃, hr⟩ := (hk b).sound h₂ r h₃ (Heap.le_trans hle hle₂) heq₂
    exact ⟨⟨hc, hc'⟩, Heap.le_trans hle₂ hle₃, b, hR b h₂ h₃ hle₃ hb, hr⟩

/-- Reading what the heap holds already. -/
theorem Makes.read {h : Heap α} {f : α → Option β} {p : Pointer} {b : β} (hp : h.at? f p = some b)
    {k : β → HeapM α γ} {C : Prop} {R : Heap α → γ → Prop} (hk : Makes h (k b) C R) :
    Makes h (HeapM.read f p >>= k) C R := by
  have hread : ∀ h₁, h ≤ h₁ → (HeapM.read f p >>= k) h₁ = k b h₁ := by
    intro h₁ hle
    simp [HeapM.read, StateT.bind, Bind.bind, Heap.at?_of_le hle hp]
  constructor
  · intro h₁ hle hc
    rw [hread h₁ hle]
    exact hk.total h₁ hle hc
  · intro h₁ r h₂ hle heq
    rw [hread h₁ hle] at heq
    exact hk.sound h₁ r h₂ hle heq

/-- Reading through null fails. -/
theorem Makes.read_null (h : Heap α) (f : α → Option β) (k : β → HeapM α γ) (R : Heap α → γ → Prop) :
    Makes h (HeapM.read f none >>= k) False R where
  total _ _ := False.elim
  sound h₁ r h₂ _ heq := by simp [HeapM.read, StateT.bind, Bind.bind] at heq

theorem Makes.mapM {h : Heap α} {f : β → HeapM α γ} {C : β → Prop} {R : Heap α → β → γ → Prop}
    (hR : ∀ b, Grows fun h' => R h' b) (xs : List β)
    (hf : ∀ x ∈ xs, Makes h (f x) (C x) fun h' => R h' x) :
    Makes h (xs.mapM f) (∀ x ∈ xs, C x) fun h' ys => List.Forall₂ (R h') xs ys := by
  induction xs with
  | nil => exact (Makes.pure h []).mono (by simp) fun h' r _ hr => by simp [hr]
  | cons x xs ih =>
    have htail := ih fun y hy => hf y (by simp [hy])
    rw [List.mapM_cons]
    refine ((hf x (by simp)).bind (hR x) fun y => htail.bind ?_ fun ys => Makes.pure h (y :: ys)).mono
      (by simp) ?_
    · intro ys h₁ h₂ hle hys
      exact hys.imp fun b c hbc => hR b c h₁ h₂ hle hbc
    · rintro h' r - ⟨y, hy, ys, hys, rfl⟩
      exact List.Forall₂.cons hy hys

end HeapM

end HueStream.Lib
