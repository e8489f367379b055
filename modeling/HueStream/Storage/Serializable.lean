import HueStream.Json.Node

/-! # Serializable objects

An object is written as the members of a JSON object: each class adds its own to those of its base, and
`Serializable` begins with the name of the type. Reading looks every member up by its name. Lists and
polymorphic members are read by the object builder, which goes by the type that is written. -/

namespace HueStream.Storage

open HueStream.Json

/-! ### Numbers -/

/-- The text of six decimals, without the zeros at its end. -/
def decimals (n : ℕ) : String :=
  let digits := (toString n).toList
  let padded := List.replicate (6 - digits.length) '0' ++ digits
  match (padded.reverse.dropWhile (· = '0')).reverse with
  | [] => ""
  | digits => "." ++ String.ofList digits

/-- Rounding to the nearest integer, to the even one of two. -/
def roundEven (x : ℚ) : ℤ :=
  let below := x.floor
  let rest := x - below
  if rest < 1 / 2 ∨ rest = 1 / 2 ∧ below % 2 = 0 then below else below + 1

/-- `NumberToString::_ftoa`: up to the threshold of the library the text of an integer, else six
decimals. -/
def ftoa (value : ℚ) : String :=
  let whole := value.num.tdiv value.den
  if |value - whole| < 1 / 100000 then toString whole
  else
    let digits := (roundEven (|value| * 1000000)).toNat
    (if value < 0 then "-" else "") ++ toString (digits / 1000000) ++ decimals (digits % 1000000)

/-! ### Values -/

/-- The values `SerializeValue` writes and `DeserializeValue` reads. -/
class Value (α : Type) where
  toNode : α → JSONNode
  ofNode : (String → ℚ) → JSONNode → α

instance : Value String := ⟨.string, fun _ n => n.asString⟩

instance : Value Bool := ⟨.bool, fun _ n => n.asBool⟩

/-- `double`. -/
instance : Value ℚ := ⟨fun value => .number value (ftoa value), fun atof n => n.asFloat atof⟩

/-- `int`. -/
instance : Value ℤ := ⟨fun value => .number value (toString value), fun atof n => n.asInt atof⟩

/-- The values of `int`. -/
def IsInt (value : ℤ) : Prop := -2 ^ 31 ≤ value ∧ value < 2 ^ 31

abbrev Members := List (String × JSONNode)

variable {α β : Type} [Value α] (atof : String → ℚ)

/-- `SerializeValue`. -/
@[simp] def serializeValue (name : String) (value : α) : Members := [(name, Value.toNode value)]

/-- `DeserializeValue`. -/
def deserializeValue (n : JSONNode) (name : String) (default : α) : α :=
  match n.find name with
  | some c => Value.ofNode atof c
  | none => default

/-- `Serializable::Serialize`. -/
@[simp] def serializeType (typeName : String) : Members := serializeValue "type" typeName

/-- An `int64_t` as a `double`: exact up to 53 bits, else rounded to the nearest, to the even one of
two. -/
def toDouble (value : ℤ) : ℚ :=
  let ulp : ℤ := 2 ^ (value.natAbs.log2 - 52)
  (roundEven (value / ulp) * ulp : ℤ)

/-- `SerializeValue` of an `int64_t`. -/
def serializeInt64 (name : String) (value : ℤ) : Members :=
  [(name, .number (toDouble value) (toString value))]

/-! ### Members and lists -/

/-- `SerializeMember`. -/
@[simp] def serializeMember (name : String) (members : Members) : Members := [(name, .node members)]

/-- `SetMemberIfAttributeExists`, where `deserialize` reads a member into the one that is there. -/
def setMemberIfAttributeExists (n : JSONNode) (name : String) (deserialize : JSONNode → β → β)
    (member : β) : β :=
  match n.find name with
  | some v => deserialize v member
  | none => member

/-- `SerializeAttribute`: a null pointer is left out. -/
def serializeAttribute (name : String) (serialize : β → Members) (value : Option β) : Members :=
  value.toList.map fun a => (name, .node (serialize a))

/-- `DeserializeAttribute`, where `build` is what the object builder makes of the member. -/
def deserializeAttribute (n : JSONNode) (name : String) (build : JSONNode → Option β)
    (default : Option β) : Option β :=
  match n.find name with
  | some c => (build c).or default
  | none => default

/-- `SerializeList`. -/
@[simp] def serializeList (name : String) (serialize : β → Members) (l : List β) : Members :=
  [(name, .array (l.map fun a => .node (serialize a)))]

/-- `DeserializeFromJson` for a list of one class: `none` stands for a null pointer or an object of
another class. -/
def build (typeName : String) (deserialize : JSONNode → Option β) (n : JSONNode) : Option β :=
  if (n.find "type").map JSONNode.asString = some typeName then deserialize n else none

/-- `DeserializeList`. -/
def deserializeList (n : JSONNode) (name : String) (build : JSONNode → Option β) : Option (List β) :=
  match n.find name with
  | some list => list.asArray.mapM build
  | none => some []

/-! ### Reading what was written -/

variable {atof} {n c : JSONNode} {name typeName : String} {default value : α}

@[simp] theorem find_node_cons (child : String × JSONNode) (members : Members) (name : String) :
    (JSONNode.node (child :: members)).find name =
      if child.1 = name then some child.2 else (JSONNode.node members).find name := by
  unfold JSONNode.find
  simp only [JSONNode.children, List.find?_cons]
  by_cases h : child.1 = name <;> simp [h]

@[simp] theorem find_node_nil (name : String) : (JSONNode.node []).find name = none := rfl

theorem deserializeValue_of_find (h : n.find name = some c) :
    deserializeValue atof n name default = Value.ofNode atof c := by
  rw [deserializeValue, h]

@[simp] theorem ofNode_toNode_string (s : String) : Value.ofNode atof (Value.toNode s) = s := rfl

@[simp] theorem asString_toNode (s : String) : (Value.toNode s).asString = s := rfl

@[simp] theorem ofNode_toNode_bool (b : Bool) : Value.ofNode atof (Value.toNode b) = b := rfl

@[simp] theorem ofNode_toNode_double (x : ℚ) : Value.ofNode atof (Value.toNode x) = x := rfl

theorem ofNode_toNode_bmod (z : ℤ) : Value.ofNode atof (Value.toNode z) = z.bmod (2 ^ 32) := by
  change ((z : ℚ).num.tdiv (z : ℚ).den).bmod (2 ^ 32) = z.bmod (2 ^ 32)
  rw [Rat.num_intCast, Rat.den_intCast, Nat.cast_one, Int.tdiv_one]

theorem IsInt.bmod {z : ℤ} (h : IsInt z) : z.bmod (2 ^ 32) = z := by
  obtain ⟨hlow, hhigh⟩ := h
  exact Int.bmod_eq_of_le (by omega) (by omega)

theorem ofNode_toNode_int {z : ℤ} (h : IsInt z) : Value.ofNode atof (Value.toNode z) = z := by
  rw [ofNode_toNode_bmod, h.bmod]

/-- What a reader of `int` makes of an `int64_t`. -/
def readBack (value : ℤ) : ℤ := ((toDouble value).num.tdiv (toDouble value).den).bmod (2 ^ 32)

theorem isInt_readBack (value : ℤ) : IsInt (readBack value) := by
  unfold IsInt readBack
  have hlow := Int.le_bmod (x := (toDouble value).num.tdiv (toDouble value).den) (m := 2 ^ 32) (by omega)
  have hhigh := Int.bmod_lt (x := (toDouble value).num.tdiv (toDouble value).den) (m := 2 ^ 32) (by omega)
  omega

/-- The integers up to 53 bits have a `double` of their own. -/
theorem toDouble_of_isInt {value : ℤ} (h : IsInt value) : toDouble value = value := by
  obtain ⟨hlow, hhigh⟩ := h
  have habs : value.natAbs < 2 ^ 52 := by omega
  have hlog : value.natAbs.log2 - 52 = 0 := by
    by_cases hzero : value.natAbs = 0
    · rw [hzero]
      rfl
    · have := (Nat.log2_lt hzero).mpr habs
      omega
  unfold toDouble
  simp only [hlog, pow_zero, Int.cast_one, div_one, mul_one]
  unfold roundEven
  simp

theorem readBack_eq {value : ℤ} (h : IsInt value) : readBack value = value := by
  unfold readBack
  rw [toDouble_of_isInt h, Rat.num_intCast, Rat.den_intCast, Nat.cast_one, Int.tdiv_one, h.bmod]

/-- A list that was written is read item by item. -/
theorem deserializeList_of_find (serialize : β → Members) {build : JSONNode → Option β} {f : β → β}
    {l : List β} (h : n.find name = some (.array (l.map fun a => .node (serialize a))))
    (hbuild : ∀ a ∈ l, build (.node (serialize a)) = some (f a)) :
    deserializeList n name build = some (l.map f) := by
  rw [deserializeList, h]
  change (l.map fun a => JSONNode.node (serialize a)).mapM build = some (l.map f)
  clear h
  induction l with
  | nil => rfl
  | cons a l ih =>
    rw [List.map_cons, List.mapM_cons, hbuild a List.mem_cons_self,
      ih fun b hb => hbuild b (List.mem_cons_of_mem _ hb)]
    rfl

/-- What is not written makes no difference to the elements of a list. -/
theorem serializeList_map {serialize : β → Members} {f : β → β} (h : ∀ a, serialize (f a) = serialize a)
    (name : String) (l : List β) :
    serializeList name serialize (l.map f) = serializeList name serialize l := by
  simp [Function.comp_def, h]

end HueStream.Storage
