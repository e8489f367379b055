import HueStream.Data.Group

/-! # Vectors

Lengths and angles of positions. The square root and the arc tangent of the C++ library are parameters. -/

namespace HueStream.Effects

/-- `Vector`. -/
structure Vector where
  x : ℚ := 0
  y : ℚ := 0
  z : ℚ := 0

namespace Vector

variable (v : Vector)

def getLength (sqrt : ℚ → ℚ) : ℚ := sqrt (v.x * v.x + v.y * v.y + v.z * v.z)

/-- `GetAngle`, in degrees. -/
def getAngle (atan2 : ℚ → ℚ → ℚ) : ℚ :=
  let angle := atan2 v.y v.x * 180 / (314159265 / 100000000)
  if angle < 0 then angle + 360 else angle

end Vector

end HueStream.Effects
