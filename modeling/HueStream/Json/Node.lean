import Mathlib.Algebra.Order.Field.Rat
import Mathlib.Tactic

/-! # JSON nodes

The values of the JSON library. A node is a value: copies are independent, and a write replaces a
member of the node it is made on. Reading is total except for `operator[]`, which dereferences a
null pointer when the member is missing: `find` serves for both, and in a computation over `Option`
the missing member ends the run. Numbers are exact rationals kept with their text; what `std::atof`
makes of a string is a parameter. -/

namespace HueStream.Json

/-- `JSONNode`; the members of an object come in the order of the text. -/
inductive JSONNode
  | null
  | string (value : String)
  | number (value : ℚ) (text : String)
  | bool (value : Bool)
  | array (items : List JSONNode)
  | node (members : List (String × JSONNode))

namespace JSONNode

/-- `JSONNode()`: an object without members. -/
def empty : JSONNode := .node []

/-- The children by name; the items of an array have the empty one. -/
def children : JSONNode → List (String × JSONNode)
  | .node members => members
  | .array items => items.map fun item => ("", item)
  | _ => []

/-- `find(name)` and `operator[](name)`: the first child of that name. -/
def find (n : JSONNode) (name : String) : Option JSONNode :=
  (n.children.find? fun child => child.1 = name).map Prod.snd

/-- `SerializerHelper::IsAttributeSet`. -/
def isAttributeSet (n : JSONNode) (name : String) : Bool := (n.find name).isSome

/-- `SerializerHelper::GetAttributeValue`: an empty object where there is no such child. -/
def getAttributeValue (n : JSONNode) (name : String) : JSONNode := (n.find name).getD empty

/-! ### Types and conversions -/

def isNull : JSONNode → Bool
  | .null => true
  | _ => false

def isString : JSONNode → Bool
  | .string _ => true
  | _ => false

def isArray : JSONNode → Bool
  | .array _ => true
  | _ => false

def isNode : JSONNode → Bool
  | .node _ => true
  | _ => false

/-- `as_string`: the text of a scalar; a container has none. -/
def asString : JSONNode → String
  | .null => "null"
  | .string value => value
  | .number _ text => text
  | .bool value => if value then "true" else "false"
  | .array _ | .node _ => ""

/-- `as_bool`: a number is true unless it is zero up to the threshold of the library. -/
def asBool : JSONNode → Bool
  | .bool value => value
  | .number value _ => 1 / 100000 ≤ |value|
  | _ => false

/-- `as_float`. -/
def asFloat (atof : String → ℚ) : JSONNode → ℚ
  | .number value _ => value
  | .bool value => if value then 1 else 0
  | .string value => atof value
  | _ => 0

/-- `as_int`: the number is truncated towards zero. -/
def asLong (atof : String → ℚ) (n : JSONNode) : ℤ := (n.asFloat atof).num.tdiv (n.asFloat atof).den

/-- `static_cast<int32_t>(as_int())`: the number is truncated towards zero and then wraps. -/
def asInt (atof : String → ℚ) (n : JSONNode) : ℤ :=
  ((n.asFloat atof).num.tdiv (n.asFloat atof).den).bmod (2 ^ 32)

/-- `as_node`. -/
def asNode : JSONNode → JSONNode
  | .node members => .node members
  | .array items => .node (JSONNode.array items).children
  | _ => empty

/-- `as_array`, as the list of its items. -/
def asArray : JSONNode → List JSONNode
  | .array items => items
  | .node members => members.map Prod.snd
  | _ => []

/-- `operator==(const std::string&)`. -/
def equals (n : JSONNode) (s : String) : Bool :=
  match n with
  | .string value => value = s
  | _ => false

/-- `Serializable::DeserializeValue` of a string with the empty default. -/
def deserializeString (n : JSONNode) (name : String) : String :=
  ((n.find name).map asString).getD ""

/-! ### Writing -/

/-- `n[name] = value` on the children of a node. -/
def setIn (name : String) (value : JSONNode) :
    List (String × JSONNode) → Option (List (String × JSONNode))
  | [] => none
  | child :: rest =>
    if child.1 = name then some ((name, value) :: rest)
    else (setIn name value rest).map (child :: ·)

/-- `n[name] = value`; the member has to be there. -/
def set (n : JSONNode) (name : String) (value : JSONNode) : Option JSONNode :=
  match n with
  | .node members => (setIn name value members).map .node
  | _ => none

/-- `n[path₁][path₂]… = value`. -/
def setPath (n : JSONNode) (path : List String) (value : JSONNode) : Option JSONNode :=
  match path with
  | [] => some value
  | name :: path => do n.set name (← (← n.find name).setPath path value)

theorem find_setIn {name other : String} {value : JSONNode} {ms ms' : List (String × JSONNode)}
    (h : setIn name value ms = some ms') :
    (ms'.find? fun child => child.1 = other).map Prod.snd =
      if other = name then some value
      else (ms.find? fun child => child.1 = other).map Prod.snd := by
  induction ms generalizing ms' with
  | nil => simp [setIn] at h
  | cons child ms ih =>
    simp only [setIn] at h
    by_cases hname : child.1 = name
    · obtain rfl := by simpa [hname] using h
      by_cases hother : other = name <;> simp [hname, hother, eq_comm]
    · simp only [hname, if_false, Option.map_eq_some_iff] at h
      obtain ⟨ms₁, hms₁, rfl⟩ := h
      by_cases hchild : child.1 = other
      · have hne : other ≠ name := by rintro rfl; exact hname hchild
        simp [hchild, hne]
      · simpa [List.find?_cons, hchild] using ih hms₁

/-- A write is seen under its own name and leaves every other member as it was. -/
theorem find_set {n n' value : JSONNode} {name other : String} (h : n.set name value = some n') :
    n'.find other = if other = name then some value else n.find other := by
  cases n with
  | node members =>
    simp only [set, Option.map_eq_some_iff] at h
    obtain ⟨ms, hms, rfl⟩ := h
    exact find_setIn hms
  | _ => simp [set] at h

end JSONNode

/-! ### The text of a node

`write_formatted` of the JSON library: the text of a node as bytes, every child on a line of its own. -/

/-- The bytes of a text. -/
def utf8 (s : String) : List UInt8 := s.toList.flatMap String.utf8EncodeChar

/-- `JSONWorker::UnfixString`: quotes and backslashes are escaped. -/
def unfixString (s : String) : List UInt8 :=
  (utf8 s).flatMap fun c => if c = 34 ∨ c = 92 then [92, c] else [c]

/-- A new line with its indentation. -/
def newLine (indent : ℕ) : List UInt8 := 10 :: List.replicate indent 9

/-- `WriteChildren`, with the children as they are written. -/
def writeChildren (indent : ℕ) (children : List (List UInt8)) : List UInt8 :=
  if children = [] then []
  else [44].intercalate (children.map (newLine (indent + 1) ++ ·)) ++ newLine indent

mutual

/-- `Write`, after the name. -/
def JSONNode.write (indent : ℕ) : JSONNode → List UInt8
  | .null => utf8 "null"
  | .string value => [34] ++ unfixString value ++ [34]
  | .number _ text => utf8 text
  | .bool value => utf8 (if value then "true" else "false")
  | .array items => [91] ++ writeChildren indent (writeItems (indent + 1) items) ++ [93]
  | .node members => [123] ++ writeChildren indent (writeMembers (indent + 1) members) ++ [125]

def writeItems (indent : ℕ) : List JSONNode → List (List UInt8)
  | [] => []
  | item :: items => item.write indent :: writeItems indent items

def writeMembers (indent : ℕ) : List (String × JSONNode) → List (List UInt8)
  | [] => []
  | member :: members => writeMember indent member :: writeMembers indent members

/-- `WriteName` and `Write`. -/
def writeMember (indent : ℕ) : String × JSONNode → List UInt8
  | (name, n) => [34] ++ unfixString name ++ utf8 "\" : " ++ n.write indent

end

/-- `write_formatted`; what is neither an object nor an array cannot be written. -/
def JSONNode.writeFormatted : JSONNode → List UInt8
  | .array items => (JSONNode.array items).write 0
  | .node members => (JSONNode.node members).write 0
  | _ => []

/-- The text of an object begins with its bracket. -/
theorem JSONNode.writeFormatted_ne_nil (members : List (String × JSONNode)) :
    (JSONNode.node members).writeFormatted ≠ [] := by
  simp [writeFormatted, write]

end HueStream.Json
