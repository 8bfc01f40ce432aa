import Helm.Fault
import Helm.Number.Shortest
import Helm.Pilot.Controls
import Helm.World.Ship

/-!
# Helm.Duel.Motion

How ships move in a duel. A ship turns to the course it is given the short way round and at a
fixed rate, and flies where it points at a speed in proportion to its thrust; there is no
inertia.
-/

namespace Helm.Duel

/-- The rotation after turning towards a course by at most so many degrees. -/
def turnTowards {α : Type} [Scalar α] (most rotation course : α) : α :=
  let turn := Scalar.clamp (-most) most (deltaAngle rotation course)
  Scalar.modulo (rotation + turn) (Scalar.ofNat 360)

/-- The speed at full thrust. -/
def maxSpeed : Float32 := 8

/-- Degrees that a ship turns in a second. -/
def turnRate : Float32 := 180

/-- The rotation after a tick; a tick of negative length leaves no room to turn. -/
def turned (step rotation course : Float32) : Except Fault Float32 :=
  let most := turnRate * step
  if -most ≤ most then .ok (turnTowards most rotation course)
  else .error (.unorderedBounds (Shortest.text (-most)) (Shortest.text most))

/-- A ship that goes on for a tick at its velocity. -/
def drift (step : Float32) (ship : ShipState) : ShipState :=
  { ship with position := ship.position + ship.velocity.scale step }

/-- A ship that obeys its controls for a tick. -/
def steered (step : Float32) (controls : Controls) (ship : ShipState) : Except Fault ShipState := do
  let rotation ← match controls.course with
    | some course => turned step ship.rotation course
    | none => .ok ship.rotation
  let velocity := (Vec2.ofHeading rotation).scale (controls.thrust * maxSpeed)
  return drift step { ship with rotation := rotation, velocity := velocity }

end Helm.Duel
