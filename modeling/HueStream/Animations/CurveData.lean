import HueStream.Animations.Leaves
import HueStream.Lib.StableInsert
import HueStream.Storage.Serializable

/-! # Curves

A curve is a list of points. A lookup remembers the index it has found and tries that index and the next one
first; the index stays when the points are exchanged. What reads outside the list, follows a null pointer or
divides by zero gives `none`. -/

namespace HueStream.Animations

open HueStream.Json HueStream.Lib HueStream.Storage

variable (atof : String → ℚ)

structure Point where
  x : ℚ := 0
  y : ℚ := 0
deriving DecidableEq

def Point.deserialize (n : JSONNode) : Point where
  x := deserializeValue atof n "X" 0
  y := deserializeValue atof n "Y" 0

structure CurveOptions where
  multiplyFactor : ℚ := 1
  clipMin : Option ℚ := none
  clipMax : Option ℚ := none
deriving DecidableEq

def CurveOptions.deserialize (n : JSONNode) : CurveOptions where
  multiplyFactor := deserializeValue atof n "MultiplyFactor" 1
  clipMin := (n.find "ClipMin").map (·.asFloat atof)
  clipMax := (n.find "ClipMax").map (·.asFloat atof)

structure CurveData where
  options : Option CurveOptions := none
  points : List Point := []
  lastIndex : UInt32 := 0

namespace CurveData

variable (d : CurveData)

/-- `CorrectValue`. -/
def correctValue (v : ℚ) : ℚ :=
  match d.options with
  | none => v
  | some options =>
    let result := v * options.multiplyFactor
    let result := match options.clipMin with
      | some clip => if result < clip then clip else result
      | none => result
    match options.clipMax with
    | some clip => if clip < result then clip else result
    | none => result

def hasPoints : Bool := 0 < d.points.length

def getBegin : ℚ := if !d.hasPoints then 0 else (d.points.head?.map Point.x).getD 0

def getEnd : ℚ := if !d.hasPoints then 0 else (d.points.getLast?.map Point.x).getD 0

def getLength : ℚ := if !d.hasPoints then 0 else d.getEnd - d.getBegin + 1

/-! ### Looking up -/

def isValidAndLower (it : ℕ) (x : ℚ) : Option Bool :=
  if it = d.points.length then some false else d.points[it]?.map fun p => decide (p.x ≤ x)

def isLastOrNextIsHigher (it : ℕ) (x : ℚ) : Option Bool :=
  if it + 1 = d.points.length then some true else d.points[it + 1]?.map fun p => decide (x < p.x)

/-- `IsClosestLower`, which evaluates both of its conditions. -/
def isClosestLower (it : ℕ) (x : ℚ) : Option Bool := do
  let lower ← d.isValidAndLower it x
  let nextIsHigher ← d.isLastOrNextIsHigher it x
  return lower && nextIsHigher

/-- `std::upper_bound` by the x-coordinate. -/
def upperBound (points : List Point) (x : ℚ) : ℕ := points.findIdx fun p => x < p.x

/-- The binary search: the position before the upper bound, and the end of the list when there is none. -/
def binarySearch (points : List Point) (x : ℚ) : ℕ :=
  if upperBound points x = 0 then points.length else upperBound points x - 1

/-- `_lastIndex` as the lookup takes it. -/
def startIndex : ℕ := if d.points.length ≤ d.lastIndex.toNat then 0 else d.lastIndex.toNat

/-- `_lastIndex = it - _points->begin()`. -/
def remember (it : ℕ) : CurveData := { d with lastIndex := UInt32.ofNat it }

/-- `GetStartPoint`: the position of the iterator. -/
def getStartPoint (x : ℚ) : Option (ℕ × CurveData) := do
  let last := d.startIndex
  let isLast ← d.isClosestLower last x
  if isLast then return (last, d.remember last)
  let isNext ← d.isClosestLower (last + 1) x
  if isNext then return (last + 1, d.remember (last + 1))
  let result := binarySearch d.points x
  if result = d.points.length then return (result, d.remember last)
  else return (result, d.remember result)

/-- `GetStartAndEndPoint`; without a result the two pointers stay null. -/
def getStartAndEndPoint (x : ℚ) : Option (Option (Point × Point) × CurveData) := do
  let (iter, d) ← d.getStartPoint x
  if iter = d.points.length ∨ iter + 1 = d.points.length then return (none, d)
  else return (some (← d.points[iter]?, ← d.points[iter + 1]?), d)

/-- `Interpolate`; a quotient by zero is no number. -/
def interpolate (start «end» : Point) (x : ℚ) : Option ℚ :=
  let time := «end».x - start.x
  let absX := x - start.x
  if time = 0 ∧ absX ≤ time then none else some (HueMath.linearTween absX start.y «end».y time)

/-- `GetInterpolatedValue`. -/
def getInterpolatedValue (x : ℚ) : Option (ℚ × CurveData) :=
  if d.points.length < 2 then d.points.head?.map fun p => (p.y, d)
  else if x ≤ d.getBegin then d.points.head?.map fun p => (p.y, d)
  else if d.getEnd ≤ x then d.points.getLast?.map fun p => (p.y, d)
  else do
    let (found, d) ← d.getStartAndEndPoint x
    let (start, «end») ← found
    let interpolatedValue ← interpolate start «end» x
    return (d.correctValue interpolatedValue, d)

/-- `GetStepValue`. -/
def getStepValue (x : ℚ) : Option (ℚ × CurveData) :=
  if d.points.length < 2 then d.points.head?.map fun p => (p.y, d)
  else if x ≤ d.getBegin then d.points.head?.map fun p => (p.y, d)
  else if d.getEnd ≤ x then d.points.getLast?.map fun p => (p.y, d)
  else do
    let (found, d) ← d.getStartAndEndPoint x
    let (start, _) ← found
    return (start.y, d)

/-! ### Changing the points -/

/-- `Append` of another curve. -/
def append (other : List Point) : CurveData :=
  let offsetX := (d.points.getLast?.map Point.x).getD 0
  { d with points := d.points ++ other.map fun point => { point with x := point.x + offsetX } }

def appendPoint (point : Point) : CurveData := { d with points := d.points ++ [point] }

/-- The points before the new one of `AppendPointLinearized`: the last one is dropped when it is on the line of
its neighbours. -/
def linearized (point : Point) (delta : ℚ) : List Point :=
  match d.points.reverse with
  | last :: secondLast :: _ =>
    match interpolate secondLast point last.x with
    | some inter => if |last.y - inter| ≤ delta then d.points.dropLast else d.points
    | none => d.points
  | _ => d.points

/-- `AppendPointLinearized`. -/
def appendPointLinearized (point : Point) (delta : ℚ) : CurveData :=
  { d with points := d.linearized point delta ++ [point] }

/-- `Deserialize`. -/
def deserialize (n : JSONNode) : CurveData :=
  { d with
    options := (n.find "Options").map (CurveOptions.deserialize atof)
    points := ((n.find "Points").map fun j => j.asArray.map (Point.deserialize atof)).getD [] }

end CurveData

end HueStream.Animations
