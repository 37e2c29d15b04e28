/-! # Points and directions in the plane

Single-precision vectors, each operation rounded as it stands. -/

namespace Instinct

/-- The distance from one to the next larger single-precision number, `2 ^ -23`. -/
def machineEpsilon : Float32 := Float32.ofBits 0x34000000

/-- The larger of two numbers; the other one if one of them is not a number, and the second one of
two zeros, whatever their signs. -/
def largerOf (x y : Float32) : Float32 :=
  if x.isNaN then y else if y.isNaN then x else if y < x then x else y

/-- The smaller of two numbers; the other one if one of them is not a number, and the second one of
two zeros, whatever their signs. -/
def smallerOf (x y : Float32) : Float32 :=
  if x.isNaN then y else if y.isNaN then x else if x < y then x else y

/-- A number held between two bounds. What is not a number stays so. -/
def clampBetween (lo hi x : Float32) : Float32 :=
  if x < lo then lo else if hi < x then hi else x

/-- A point or a direction in the plane. -/
structure Vec2 where
  x : Float32
  y : Float32
deriving DecidableEq

namespace Vec2

/-- The origin. -/
def zero : Vec2 := ⟨0, 0⟩

instance : Inhabited Vec2 := ⟨zero⟩

instance : Add Vec2 := ⟨fun a b => ⟨a.x + b.x, a.y + b.y⟩⟩

instance : Sub Vec2 := ⟨fun a b => ⟨a.x - b.x, a.y - b.y⟩⟩

/-- Equality of coordinates as numbers: the two zeros are equal, and what is not a number differs
from itself. -/
instance : BEq Vec2 := ⟨fun a b => a.x == b.x && a.y == b.y⟩

/-- Both coordinates scaled. -/
def scale (v : Vec2) (k : Float32) : Vec2 := ⟨v.x * k, v.y * k⟩

/-- The distance from the origin. -/
def length (v : Vec2) : Float32 := (v.x * v.x + v.y * v.y).sqrt

/-- The distance between two points. -/
def distance (v w : Vec2) : Float32 := (w - v).length

/-- The direction of a vector at length one; the origin for a vector too short to have one. -/
def normalizeOrZero (v : Vec2) : Vec2 :=
  let len := v.length
  if len ≤ machineEpsilon then zero else ⟨v.x / len, v.y / len⟩

end Vec2

end Instinct
