import Helm.Pilot.Context

/-!
# Helm.Pilot.Targeting

Leaves that look for enemies and threats. `FindEnemy` decides on the nearest enemy that passes
its filters; an enemy it has decided on is kept until its cooldown has passed, and beyond that
when no other is found.
-/

namespace Helm

/-- The search for a target. -/
structure FindEnemy where
  minCooldown : Float32
  maxCooldown : Float32
  /-- Only enemies within the longest weapon range. -/
  inAttackRange : Bool
  ignoreDrones : Bool
  /-- How far from the mothership enemies may be, for drones on a leash. -/
  droneRange : Option Float32
  /-- Seconds for which the present target is kept. -/
  cooldown : Float32
  deriving DecidableEq, Repr

namespace FindEnemy

/-- A search that has not been made yet. -/
def create (minCooldown maxCooldown : Float32) (inAttackRange ignoreDrones : Bool)
    (droneRange : Option Float32) : FindEnemy where
  minCooldown := minCooldown
  maxCooldown := Single.maximum maxCooldown minCooldown
  inAttackRange := inAttackRange
  ignoreDrones := ignoreDrones
  droneRange := droneRange
  cooldown := 0

/-- The circle around the mothership to which a drone is bound, unless it is berserk. -/
def leash? (f : FindEnemy) (c : Context) : Option (Vec2 Float32 × Float32) :=
  match f.droneRange with
  | some range =>
    if c.memory.berserk then none else c.mothership?.map fun owner => (owner.position, range)
  | none => none

/-- True for an enemy that passes the filters. -/
def admits (f : FindEnemy) (c : Context) (me enemy : ShipState) : Bool :=
  !(f.ignoreDrones && enemy.kind == .drone) &&
  (!f.inAttackRange || decide (me.gapTo enemy ≤ c.memory.arsenal.rangeMax)) &&
  match f.leash? c with
  | some (center, range) => decide (center.distance enemy.position ≤ range)
  | none => true

/-- The active enemies that pass the filters, in ascending order. -/
def candidates (f : FindEnemy) (c : Context) (me : ShipState) : List ShipState :=
  ((c.scene.enemiesOf me.id).filterMap c.scene.activeShip?).filter (f.admits c me)

/-- The nearest enemy that passes the filters. -/
def nearest? (f : FindEnemy) (c : Context) (me : ShipState) : Option ShipState :=
  leastBy? me.gapTo (f.candidates c me)

/-- The target as long as it is an active enemy, and the context after asking. -/
def current? (c : Context) (me : ShipState) : Option ShipId × Context :=
  match c.memory.target with
  | some id =>
    if c.scene.isActive id then
      (if (c.scene.enemiesOf me.id).contains id then some id else none,
       { c with scene := c.scene.countEnemyQuery })
    else (none, c)
  | none => (none, c)

/-- Keeps the target, or searches for one. -/
def tick (f : FindEnemy) (c : Context) : Except Fault (Status × FindEnemy × Context) :=
  match c.own? with
  | none => .ok (.failure, f, c)
  | some me =>
    let (current, c) := current? c me
    if current.isSome && decide (c.targetAge < f.cooldown) then .ok (.success, f, c)
    else do
      let (cooldown, c) ← c.randomRange f.minCooldown f.maxCooldown
      let f := { f with cooldown := cooldown }
      let found := f.nearest? c me
      let c := { c with scene := c.scene.countEnemyQuery }
      match found with
      | some enemy => return (.success, f, c.decideTarget (some enemy.id))
      | none =>
        if current.isSome then return (.success, f, c.decideTarget current)
        else if c.memory.target.isSome then return (.failure, f, c.decideTarget none)
        else return (.failure, f, c)

end FindEnemy

namespace Perform

/-- Renews the secondary targets. -/
def lookForSecondaryTargets (cooldown : Float32) (c : Context) : Status × Context :=
  (.success, c.renewSecondaryTargets cooldown)

/-- Renews the threats. -/
def lookForThreats (cooldown : Float32) (lookout : Lookout) (c : Context) : Status × Context :=
  (.success, c.renewThreats lookout cooldown)

/-- Succeeds when a known threat hits within so many seconds. -/
def haveIncomingThreat (timeToCollision : Float32) (c : Context) : Status × Context :=
  (if c.timeToCollision ≤ timeToCollision then .success else .failure, c)

end Perform

end Helm
