import Helm.Number.Single

/-!
# Helm.Number.Scalar

The arithmetic that geometry needs, as a class, so that a formula is written once and can be
read over single precision numbers and over exact ones. `Scalar.modulo` and `Scalar.clamp`
are defined for every instance alike.
-/

namespace Helm

/-- A number system for positions, angles and times. -/
class Scalar (α : Type) extends Add α, Sub α, Mul α, Div α, Neg α where
  /-- The scalar that stands for a natural number. -/
  ofNat : Nat → α
  /-- Strictly below. -/
  lt : α → α → Bool
  /-- Below or equal. -/
  le : α → α → Bool
  /-- Distance from zero. -/
  abs : α → α
  /-- The non-negative square root. -/
  sqrt : α → α
  /-- The remainder of truncated division. -/
  remainder : α → α → α
  /-- Anything up to this counts as zero. -/
  epsilon : α

namespace Scalar

variable {α : Type} [Scalar α]

/-- The remainder with a negative one moved up by the size of the divisor. -/
def modulo (a b : α) : α :=
  let r := remainder a b
  if lt r (ofNat 0) then r + abs b else r

/-- The nearest value between two bounds. -/
def clamp (lower upper x : α) : α :=
  let raised := if lt x lower then lower else x
  if lt upper raised then upper else raised

end Scalar

instance : Scalar Float32 where
  ofNat := Float32.ofNat
  lt a b := decide (a < b)
  le a b := decide (a ≤ b)
  abs := Float32.abs
  sqrt := Float32.sqrt
  remainder := Single.remainder
  epsilon := Single.epsilon

end Helm
