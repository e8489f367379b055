import Mathlib.Algebra.Order.Floor.Ring
import Mathlib.Data.Rat.Floor
import Mathlib.Logic.Function.Basic
import Mathlib.Tactic

/-! # Animations

An animation maps a marker to a value. A sequence plays its sub-animations one after another and looks the
current one up by its marker; the other classes have an `UpdateValue` of their own. What an animation is
built of is a tree, in which an object has an identity; what `SetMarker` and `Rewind` change is in a store
by identity, so that an object which stands at several places is the same at all of them. Lengths and
markers are exact. -/

namespace HueStream.Animations

/-- `INF`, the greatest finite `double`. -/
def INF : ℚ := (2 ^ 53 - 1) * 2 ^ 971

/-- What is undefined: an index outside `_sequences`, the division by a length of zero, the use of a
pointer to no animation. -/
inductive Fault
  | index | zeroLength | missing
deriving DecidableEq

theorem ok_bind {α β : Type} (a : α) (f : α → Except Fault β) : (Except.ok a >>= f) = f a := rfl

theorem error_bind {α β : Type} (e : Fault) (f : α → Except Fault β) :
    ((Except.error e : Except Fault α) >>= f) = .error e := rfl

theorem bind_eq_ok {α β : Type} {x : Except Fault α} {f : α → Except Fault β} {b : β} :
    x >>= f = .ok b ↔ ∃ a, x = .ok a ∧ f a = .ok b := by
  cases x with
  | error e => simp [error_bind]
  | ok a => simp [ok_bind]

/-- The changing fields of the animations; `fields` are those of a class that is no sequence. -/
structure Store (ι S : Type) where
  marker : ι → ℚ
  value : ι → ℚ
  fields : ι → S
  startIndex : ι → ℕ
  currentIndex : ι → ℤ
  offset : ι → ℚ

/-- An animation of another class than `SequenceAnimation`; a `RepeatableAnimation` has a repeat count. -/
structure Leaf (ι S : Type) where
  id : ι
  repeatTimes : Option ℚ
  /-- `GetLengthMs`. -/
  lengthMs : ℚ
  /-- `UpdateValue`, with the fields, the value and the position. -/
  updateValue : S → ℚ → ℚ → S × ℚ
  /-- What `Rewind` does after `SetMarker(0)`. -/
  rewound : S → S := fun s => s
  getPositionFromValue : S → ℚ → ℚ := fun _ _ => 0

/-- An animation; `missing` stands for a pointer to none. -/
inductive Animation (ι S : Type)
  | missing
  | leaf (l : Leaf ι S)
  | sequence (id : ι) (repeatTimes : ℚ) (bookmarks : List (String × ℤ)) (sequences : List (Animation ι S))

/-- Induction over the sub-animations. -/
@[elab_as_elim]
theorem Animation.induction {ι S : Type} {motive : Animation ι S → Prop} (missing : motive .missing)
    (leaf : ∀ l, motive (.leaf l))
    (sequence : ∀ id repeatTimes bookmarks sequences, (∀ a ∈ sequences, motive a) →
      motive (.sequence id repeatTimes bookmarks sequences)) (a : Animation ι S) : motive a :=
  @Animation.rec ι S motive (fun as => ∀ a ∈ as, motive a) missing leaf sequence
    (fun a ha => by simp at ha)
    (fun a as ha has b hb => by
      rcases List.mem_cons.mp hb with rfl | hb
      · exact ha
      · exact has b hb) a

/-! ### Repetition -/

/-- The cast to `int64_t`; outside its range, where it is undefined, the value that x86 gives. -/
def toInt64 (x : ℚ) : ℤ :=
  let z := x.num.tdiv x.den
  if -2 ^ 63 ≤ z ∧ z < 2 ^ 63 then z else -2 ^ 63

/-- `RepeatableAnimation::GetTotalLength`. -/
def repeatedLength (lengthMs repeatTimes : ℚ) : ℚ :=
  if lengthMs = INF ∨ repeatTimes = INF then INF else lengthMs * (repeatTimes + 1)

/-- The marker after the correction in `RepeatableAnimation::OnMarkerUpdate`. -/
def corrected (lengthMs repeatTimes marker : ℚ) : Except Fault ℚ :=
  if lengthMs = 0 then .error .zeroLength
  else
    let times := toInt64 (marker / lengthMs)
    .ok (if times ≤ repeatTimes then marker - times * lengthMs else marker)

variable {ι S : Type} [DecidableEq ι]

/-! ### The store -/

namespace Store

variable (σ : Store ι S) (id : ι)

def setMarker (marker : ℚ) : Store ι S := { σ with marker := Function.update σ.marker id marker }

def setValue (value : ℚ) : Store ι S := { σ with value := Function.update σ.value id value }

def setFields (fields : S) : Store ι S := { σ with fields := Function.update σ.fields id fields }

def setCurrentIndex (index : ℤ) : Store ι S :=
  { σ with currentIndex := Function.update σ.currentIndex id index }

/-- A sequence starts at an index, with an offset. -/
def startAt (startIndex : ℕ) (offset : ℚ) : Store ι S :=
  { σ with
    startIndex := Function.update σ.startIndex id startIndex
    offset := Function.update σ.offset id offset }

/-- The end of `SequenceAnimation::Rewind`. -/
def reset : Store ι S := (σ.startAt id 0 0).setCurrentIndex id (-1)

end Store

/-! ### Leaves -/

namespace Leaf

variable (l : Leaf ι S)

def getTotalLength : ℚ := (l.repeatTimes.map (repeatedLength l.lengthMs)).getD l.lengthMs

/-- `UpdateValue(&_value, _marker)` with a marker that is stored first. -/
def update (marker : ℚ) (σ : Store ι S) : Store ι S :=
  let (fields, value) := l.updateValue (σ.fields l.id) (σ.value l.id) marker
  ((σ.setMarker l.id marker).setFields l.id fields).setValue l.id value

/-- `SetMarker`, with `OnMarkerUpdate` of the base class. -/
def setMarker (marker : ℚ) (σ : Store ι S) : Except Fault (Store ι S) := do
  match l.repeatTimes with
  | none => .ok (l.update marker σ)
  | some repeatTimes =>
    let marker ← corrected l.lengthMs repeatTimes marker
    .ok (l.update marker σ)

def rewind (σ : Store ι S) : Except Fault (Store ι S) := do
  let σ ← l.setMarker 0 σ
  .ok (σ.setFields l.id (l.rewound (σ.fields l.id)))

end Leaf

/-! ### Sequences -/

namespace Animation

/-- `GetValue`. -/
def getValue (σ : Store ι S) : Animation ι S → ℚ
  | .missing => 0
  | .leaf l => σ.value l.id
  | .sequence id _ _ _ => σ.value id

/-- `GetOffset` where `GetTypeName` says that it is a sequence. -/
def getOffset (σ : Store ι S) : Animation ι S → Except Fault ℚ
  | .missing => .error .missing
  | .leaf _ => .ok 0
  | .sequence id _ _ _ => .ok (σ.offset id)

/-- `GetPositionFromValue`. -/
def getPositionFromValue (σ : Store ι S) (value : ℚ) : Animation ι S → Except Fault ℚ
  | .missing => .error .missing
  | .leaf l => .ok (l.getPositionFromValue (σ.fields l.id) value)
  | .sequence _ _ _ _ => .ok 0

mutual

def getTotalLength (σ : Store ι S) : Animation ι S → Except Fault ℚ
  | .missing => .error .missing
  | .leaf l => .ok l.getTotalLength
  | .sequence id repeatTimes _ sequences => do
    let lengthMs ← lengthFrom σ sequences (σ.startIndex id) 0
    .ok (repeatedLength lengthMs repeatTimes)

/-- The loop of `GetLengthMs`, where `skip` elements come before the start and `length` has been added
up. -/
def lengthFrom (σ : Store ι S) : List (Animation ι S) → ℕ → ℚ → Except Fault ℚ
  | [], _, length => .ok length
  | _ :: as, skip + 1, length => lengthFrom σ as skip length
  | a :: as, 0, length => do
    let total ← getTotalLength σ a
    if total = INF then .ok INF else lengthFrom σ as 0 (length + total)

end

mutual

def setMarker : Animation ι S → ℚ → Store ι S → Except Fault (Store ι S)
  | .missing, _, _ => .error .missing
  | .leaf l, marker, σ => l.setMarker marker σ
  | .sequence id repeatTimes _ sequences, marker, σ => do
    let lengthMs ← lengthFrom σ sequences (σ.startIndex id) 0
    let marker ← corrected lengthMs repeatTimes marker
    updateValue id sequences (σ.startIndex id) 0 (marker - σ.offset id) (σ.setMarker id marker)

def rewind : Animation ι S → Store ι S → Except Fault (Store ι S)
  | .missing, _ => .error .missing
  | .leaf l, σ => l.rewind σ
  | .sequence id repeatTimes _ sequences, σ => do
    let σ ← rewindAll sequences σ
    -- `Animation::Rewind`, which is `SetMarker(0)`.
    let lengthMs ← lengthFrom σ sequences (σ.startIndex id) 0
    let marker ← corrected lengthMs repeatTimes 0
    let σ ← updateValue id sequences (σ.startIndex id) 0 (marker - σ.offset id) (σ.setMarker id marker)
    .ok (σ.reset id)

def rewindAll : List (Animation ι S) → Store ι S → Except Fault (Store ι S)
  | [], σ => .ok σ
  | a :: as, σ => do
    let σ ← rewind a σ
    rewindAll as σ

/-- The loop of `UpdateValue` of the sequence `id`, where `skip` elements come before the start and `i` is
the index of the next one. -/
def updateValue (id : ι) : List (Animation ι S) → ℕ → ℕ → ℚ → Store ι S → Except Fault (Store ι S)
  | [], _, _, _, σ => .ok σ
  | _ :: as, skip + 1, i, positionMs, σ => updateValue id as skip (i + 1) positionMs σ
  | a :: as, 0, i, positionMs, σ => do
    let length := (← a.getTotalLength σ) + (← a.getOffset σ)
    if positionMs < length then
      (if i = σ.currentIndex id then .ok σ else rewind a σ) >>= fun σ =>
        setMarker a positionMs σ >>= fun σ =>
          .ok ((σ.setValue id (a.getValue σ)).setCurrentIndex id i)
    else updateValue id as 0 (i + 1) (positionMs - length) σ

end

end Animation

/-- `SequenceAnimation`, with its identity. -/
structure SequenceAnimation (ι S : Type) where
  id : ι
  repeatTimes : ℚ := 0
  bookmarks : List (String × ℤ) := []
  sequences : List (Animation ι S) := []

namespace SequenceAnimation

variable (s : SequenceAnimation ι S)

def toAnimation : Animation ι S := .sequence s.id s.repeatTimes s.bookmarks s.sequences

/-- `bookmarks_[bookmark] = index`. -/
def setBookmark (bookmark : String) (index : ℤ) (bookmarks : List (String × ℤ)) :
    List (String × ℤ) :=
  (bookmark, index) :: bookmarks.filter fun entry => entry.1 ≠ bookmark

def append (animation : Animation ι S) (bookmark : String) : SequenceAnimation ι S :=
  { s with
    sequences := s.sequences ++ [animation]
    bookmarks := if bookmark = "" then s.bookmarks
      else setBookmark bookmark s.sequences.length s.bookmarks }

/-- `bookmarks_.find(bookmark)`. -/
def find (bookmark : String) : Option ℤ := s.bookmarks.lookup bookmark

def setMarker (marker : ℚ) (σ : Store ι S) : Except Fault (Store ι S) :=
  s.toAnimation.setMarker marker σ

def rewind (σ : Store ι S) : Except Fault (Store ι S) := s.toAnimation.rewind σ

def getLengthMs (σ : Store ι S) : Except Fault ℚ :=
  Animation.lengthFrom σ s.sequences (σ.startIndex s.id) 0

/-- The cast of an `int` to `size_t`. -/
def toSize (index : ℤ) : ℕ := (index % 2 ^ 64).toNat

def updateSequence (startIndex : ℤ) (startValueMarker : ℚ) (σ : Store ι S) :
    Except Fault (Store ι S) :=
  s.setMarker (σ.marker s.id) (σ.startAt s.id (toSize startIndex) startValueMarker)

/-- `Trigger(int)`. -/
def triggerIndex (index : ℤ) (σ : Store ι S) : Except Fault (Store ι S) :=
  s.updateSequence index (σ.marker s.id) σ

def trigger (bookmark : String) (σ : Store ι S) : Except Fault (Store ι S) :=
  match s.find bookmark with
  | none => .ok σ
  | some index => s.triggerIndex index σ

/-- `(*_sequences)[index]`. -/
def element (index : ℕ) : Except Fault (Animation ι S) :=
  match s.sequences[index]? with
  | none => .error .index
  | some a => .ok a

def triggerOnLevel (bookmark : String) (σ : Store ι S) : Except Fault (Store ι S) :=
  match s.find bookmark with
  | none => .ok σ
  | some startIndex => do
    let a ← s.element (toSize startIndex)
    let position ← a.getPositionFromValue σ (σ.value s.id)
    s.updateSequence startIndex (σ.marker s.id - position) σ

def isPlaying (σ : Store ι S) : Except Fault Bool := do
  let a ← s.element (σ.startIndex s.id)
  let offset ← a.getOffset σ
  let lengthMs ← s.getLengthMs σ
  .ok (σ.marker s.id - (σ.offset s.id + offset) < lengthMs)

end SequenceAnimation

end HueStream.Animations
