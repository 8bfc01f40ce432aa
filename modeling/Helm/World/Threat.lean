import Helm.Data.Least
import Helm.World.Ship

/-!
# Helm.World.Threat

Prediction of collisions. `timeToHit` is the earliest time at which two moving discs touch, as
the smaller root of a quadratic; `Lookout.threats` lists the units that will hit a ship, the
most imminent first.
-/

namespace Helm

/-- A disc that moves in a straight line. -/
structure Disc (α : Type) where
  position : Vec2 α
  velocity : Vec2 α
  radius : α
  deriving DecidableEq, Repr

/-- The disc of a ship. -/
def ShipState.disc (s : ShipState) : Disc Float32 := ⟨s.position, s.velocity, s.radius⟩

/-- The disc of a unit. -/
def UnitState.disc (u : UnitState) : Disc Float32 := ⟨u.position, u.velocity, u.radius⟩

/--
The time until `unit` touches `ship` when both keep their velocity: zero if they touch now, and
otherwise the smaller root of `|p + v t| = r`, where `p` and `v` are the position and velocity
of the unit relative to the ship and `r` is the sum of the radii. A time after the horizon
does not count, nor does a unit that hardly moves relative to the ship.
-/
def timeToHit? {α : Type} [Scalar α] (horizon : α) (ship unit : Disc α) : Option α :=
  let p := unit.position - ship.position
  let v := unit.velocity - ship.velocity
  let r := unit.radius + ship.radius
  let c := p.lengthSquared - r * r
  if Scalar.le c (Scalar.ofNat 0) then some (Scalar.ofNat 0)
  else
    let a := v.lengthSquared
    if Scalar.le a Scalar.epsilon then none
    else
      let b := Scalar.ofNat 2 * p.dot v
      let discriminant := b * b - Scalar.ofNat 4 * a * c
      if Scalar.lt discriminant (Scalar.ofNat 0) then none
      else
        let t := (-b - Scalar.sqrt discriminant) / (Scalar.ofNat 2 * a)
        if Scalar.le (Scalar.ofNat 0) t && Scalar.le t horizon then some t else none

/-- A unit that will hit the ship. -/
structure Threat where
  unit : UnitId
  position : Vec2 Float32
  velocity : Vec2 Float32
  /-- Seconds until contact. -/
  timeToHit : Float32
  deriving DecidableEq, Repr, Inhabited

/-- How far a ship looks out for threats. -/
structure Lookout where
  /-- Seconds after which a hit does not count. -/
  horizon : Float32
  /-- The distance up to which units are looked at. -/
  scanRadius : Float32
  deriving DecidableEq, Repr

namespace Lookout

/-- The lookout of a ship that is told nothing else. -/
def standard : Lookout := ⟨5, 40⟩

/-- The threat a unit is to a ship, if it will hit. -/
def threat? (l : Lookout) (ship : ShipState) (unit : UnitState) : Option Threat :=
  (timeToHit? l.horizon ship.disc unit.disc).map fun t =>
    ⟨unit.id, unit.position, unit.velocity, t⟩

/-- The units among those given that will hit the ship, the most imminent first. -/
def threats (l : Lookout) (ship : ShipState) (units : List UnitState) : List Threat :=
  sortBy (·.timeToHit) (units.filterMap (l.threat? ship))

end Lookout

/-- The time until the most imminent of the threats, infinite without any. -/
def timeToCollision (threats : List Threat) : Float32 :=
  match threats with
  | [] => Single.infinity
  | first :: _ => first.timeToHit

end Helm
