import Helm.Pilot.Context

/-!
# Helm.Pilot.Steering

Leaves that steer the ship. Each is a function from the context to a status and the context
afterwards, and leaves the context alone when it fails.
-/

namespace Helm

/--
The point to aim at so that a projectile of the given speed meets the target, found by letting
the flight time follow the point twice. Without a speed it is where the target is.
-/
def leadPoint (shooter target : ShipState) (speed : Option Float32) : Vec2 Float32 :=
  match speed with
  | none => target.position
  | some speed =>
    let relative := target.velocity - shooter.velocity
    let follow (point : Vec2 Float32) : Vec2 Float32 :=
      target.position + relative.scale (shooter.position.distance point / speed)
    follow (follow target.position)

namespace Perform

/-- The speed up to which a ship counts as stopped. -/
def stoppedSpeed : Float32 := 0.1

/-- Flies to the target until it is within range, running on the way. -/
def moveToAttackRange (share multiplier : Float32) (c : Context) : Status × Context :=
  match c.duel? with
  | none => (.failure, c)
  | some (me, target) =>
    if me.gapTo target ≤ c.memory.arsenal.rangeAt share * multiplier then (.success, c)
    else (.running, c.command (·.steer (headingTo me.position target.position) 1))

/-- Keeps the gap to the target near the range, within a share of it. -/
def maintainAttackRange (share tolerance : Float32) (c : Context) : Status × Context :=
  match c.duel? with
  | none => (.failure, c)
  | some (me, target) =>
    let range := c.memory.arsenal.rangeAt share
    let gap := me.gapTo target
    let towards := headingTo me.position target.position
    if gap > range * (1 + tolerance) then (.running, c.command (·.steer towards 1))
    else if gap < range * (1 - tolerance) then (.running, c.command (·.steer (towards + 180) 1))
    else (.success, c)

/-- Succeeds when the target is within range. -/
def isWithinAttackRange (share : Float32) (c : Context) : Status × Context :=
  match c.duel? with
  | none => (.failure, c)
  | some (me, target) =>
    (if me.gapTo target ≤ c.memory.arsenal.rangeAt share then .success else .failure, c)

/-- Flies at the target with full thrust. -/
def chase (c : Context) : Status × Context :=
  match c.duel? with
  | none => (.failure, c)
  | some (me, target) =>
    (.success, c.command (·.steer (headingTo me.position target.position) 1))

/-- Brakes, running until the ship has stopped. -/
def stop (c : Context) : Status × Context :=
  match c.own? with
  | none => (.failure, c)
  | some me =>
    if me.velocity.length ≤ stoppedSpeed then
      (.success, c.command fun controls => { controls with thrust := 0 })
    else (.running, c.command (·.steer (-me.velocity).heading 1))

/-- Turns to the target. -/
def lookAtTarget (c : Context) : Status × Context :=
  match c.duel? with
  | none => (.failure, c)
  | some (me, target) =>
    (.success, c.command fun controls =>
      { controls with course := some (headingTo me.position target.position) })

/-- Turns to where the projectiles of the selected weapons would meet the target. -/
def sustainAim (c : Context) : Status × Context :=
  match c.duel? with
  | none => (.failure, c)
  | some (me, target) =>
    let aim := leadPoint me target c.weapons.projectileSpeed?
    (.success, c.command fun controls =>
      { controls with course := some (headingTo me.position aim) })

/-- Steers across the path of the most imminent threat, to the side it is not drifting to. -/
def avoidThreats (c : Context) : Status × Context :=
  match c.own?, c.memory.threats with
  | some me, threat :: _ =>
    let across := (me.position - threat.position).perpendicular
    let relative := threat.velocity - me.velocity
    let escape := if 0 < across.dot relative then -across else across
    (.success, c.command (·.steer escape.heading 1))
  | _, _ => (.failure, c)

end Perform

end Helm
