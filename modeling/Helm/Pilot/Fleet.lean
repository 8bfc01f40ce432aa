import Helm.Pilot.Context

/-!
# Helm.Pilot.Fleet

Leaves for drones, about their mothership. Only ships that have an owner have a mothership.
-/

namespace Helm.Perform

/-- The state of the ship's owner, whatever its status. -/
def owner? (c : Context) : Option ShipState := do
  let me ← c.own?
  let owner ← me.owner
  c.scene.ship? owner

/-- The status of the ship's owner. -/
def ownerStatus? (c : Context) : Option ShipStatus := do
  let me ← c.own?
  let owner ← me.owner
  return c.scene.status owner

/-- Targets the mothership of a drone. -/
def targetMothership (c : Context) : Status × Context :=
  match c.own? with
  | none => (.failure, c)
  | some me =>
    if !me.isDrone then (.failure, c)
    else
      match c.mothership? with
      | some owner => (.success, c.setTarget (some owner.id))
      | none => (.failure, c)

/-- Circles the mothership at a distance. -/
def flyAroundMothership (radius : Float32) (c : Context) : Status × Context :=
  match c.own?, c.mothership? with
  | some me, some owner =>
    let offset := me.position - owner.position
    let distance := offset.length
    let steer (controls : Controls) : Controls :=
      if distance > radius * 1.2 || distance ≤ Single.epsilon then
        controls.steer (headingTo me.position owner.position) 1
      else if distance < radius * 0.8 then controls.steer offset.heading 0.5
      else controls.steer offset.perpendicular.heading 0.5
    (.success, c.command steer)
  | _, _ => (.failure, c)

/-- Succeeds when the mothership has retreated. -/
def mothershipRetreated (c : Context) : Status × Context :=
  (if ownerStatus? c = some .retreated then .success else .failure, c)

/-- Succeeds when the mothership has been destroyed. -/
def mothershipDestroyed (c : Context) : Status × Context :=
  (if ownerStatus? c = some .destroyed then .success else .failure, c)

/-- Succeeds when the active mothership's hull points are below a bound. -/
def mothershipLowHp (minValue : Float32) (c : Context) : Status × Context :=
  match owner? c with
  | some owner =>
    (if c.scene.isActive owner.id && decide (owner.hp < minValue) then .success else .failure, c)
  | none => (.failure, c)

/-- Releases a drone from its leash for good. -/
def goBerserk (c : Context) : Status × Context :=
  match c.own? with
  | some me => if me.isDrone then (.success, c.setBerserk true) else (.failure, c)
  | none => (.failure, c)

end Helm.Perform
