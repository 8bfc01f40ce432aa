import Helm.Number.Scalar

/-!
# Helm.World.Vec2

Vectors and headings in the plane. Headings are in degrees, counter-clockwise from the x axis.
`deltaAngle` is the signed rotation the short way round from one heading to another.
-/

namespace Helm

/-- A vector in the plane. -/
structure Vec2 (α : Type) where
  x : α
  y : α
  deriving DecidableEq, Repr, Inhabited

namespace Vec2

variable {α : Type} [Scalar α]

instance : Add (Vec2 α) := ⟨fun v w => ⟨v.x + w.x, v.y + w.y⟩⟩

instance : Sub (Vec2 α) := ⟨fun v w => ⟨v.x - w.x, v.y - w.y⟩⟩

instance : Neg (Vec2 α) := ⟨fun v => ⟨-v.x, -v.y⟩⟩

/-- The vector without extent. -/
def zero : Vec2 α := ⟨Scalar.ofNat 0, Scalar.ofNat 0⟩

/-- The vector stretched by a factor. -/
def scale (v : Vec2 α) (k : α) : Vec2 α := ⟨v.x * k, v.y * k⟩

/-- The inner product. -/
def dot (v w : Vec2 α) : α := v.x * w.x + v.y * w.y

/-- The square of the length. -/
def lengthSquared (v : Vec2 α) : α := v.dot v

/-- The length. -/
def length (v : Vec2 α) : α := Scalar.sqrt v.lengthSquared

/-- The distance between two points. -/
def distance (v w : Vec2 α) : α := (w - v).length

/-- The vector of length one in the same direction, or zero for a vector too short to tell. -/
def normalized (v : Vec2 α) : Vec2 α :=
  let size := v.length
  if Scalar.le size Scalar.epsilon then zero else v.scale (Scalar.ofNat 1 / size)

/-- The vector turned left by a quarter. -/
def perpendicular (v : Vec2 α) : Vec2 α := ⟨-v.y, v.x⟩

end Vec2

/-- The signed rotation from one heading to another, above -180 and up to 180 degrees. -/
def deltaAngle {α : Type} [Scalar α] (start finish : α) : α :=
  let delta := Scalar.modulo (finish - start) (Scalar.ofNat 360)
  if Scalar.lt (Scalar.ofNat 180) delta then delta - Scalar.ofNat 360 else delta

/-- Linear interpolation from `a` to `b`, with `t` kept between zero and one. -/
def interpolate {α : Type} [Scalar α] (a b t : α) : α :=
  a + (b - a) * Scalar.clamp (Scalar.ofNat 0) (Scalar.ofNat 1) t

/-! ## Headings in single precision -/

/-- Degrees in one radian. -/
def degreesPerRadian : Float32 := 57.29577951308232

/-- Radians in one degree. -/
def radiansPerDegree : Float32 := 0.017453292519943295

/-- The unit vector in the direction of a heading. -/
def Vec2.ofHeading (degrees : Float32) : Vec2 Float32 :=
  let radians := degrees * radiansPerDegree
  ⟨radians.cos, radians.sin⟩

/-- The heading of a vector. -/
def Vec2.heading (v : Vec2 Float32) : Float32 := Float32.atan2 v.y v.x * degreesPerRadian

/-- The heading from one point to another. -/
def headingTo (start finish : Vec2 Float32) : Float32 := (finish - start).heading

end Helm
