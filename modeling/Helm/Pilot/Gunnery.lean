import Helm.Pilot.Steering
import Helm.Settings.Level

/-!
# Helm.Pilot.Gunnery

Leaves that use weapons. `Attack` aims with an error that is drawn once for each target, holds
its fire until the target has been tracked for the reaction time, and then fires each selected
weapon that reaches the target and is turned to it well enough.
-/

namespace Helm

/-- The aim taken at a target. -/
structure Aim where
  target : ShipId
  /-- The error of aim in degrees. -/
  offset : Float32
  /-- When the target was first aimed at. -/
  since : Float32
  deriving DecidableEq, Repr

/-- The attack on the target. -/
structure Attack where
  level : Level
  aim : Option Aim
  deriving DecidableEq, Repr

namespace Attack

/-- The arc from which on a weapon fires in any direction. -/
def fullArc : Float32 := 360

/-- The aim kept from an earlier tick, if it is at the target. -/
def aimAt? (a : Attack) (target : ShipId) : Option Aim :=
  a.aim.filter fun aim => aim.target = target

/-- The aim at a target: the one kept, or a new one with an error drawn for it. -/
def takeAim (a : Attack) (c : Context) (target : ShipId) : Except Fault (Aim × Context) :=
  match a.aimAt? target with
  | some aim => .ok (aim, c)
  | none => do
    let error := a.level.aimError
    let since := c.memory.time
    let (offset, c) ← c.randomRange (-error) error
    return (⟨target, offset, since⟩, c)

/-- True for a weapon that may fire at the given error of heading. -/
def mayFire (level : Level) (error : Float32) (weapon : Weapon) : Bool :=
  decide (fullArc ≤ weapon.firingArc) ||
    decide (error ≤ weapon.firingArc / 2 + level.fireTolerance)

/-- The selected weapons that reach over a gap. -/
def reaching (c : Context) (gap : Float32) : Arsenal :=
  c.weapons.filter fun weapon => decide (gap ≤ weapon.range)

/-- Aims at the target and fires. -/
def tick (a : Attack) (c : Context) : Except Fault (Status × Attack × Context) :=
  match c.duel? with
  | none => .ok (.failure, a, c)
  | some (me, target) =>
    let weapons := reaching c (me.gapTo target)
    if weapons.isEmpty then .ok (.failure, a, c)
    else do
      let (aim, c) ← a.takeAim c target.id
      let a := { a with aim := some aim }
      let lead := leadPoint me target weapons.projectileSpeed?
      let course := headingTo me.position lead + aim.offset
      let c := c.command fun controls => { controls with course := some course }
      if c.memory.time - aim.since < a.level.reactionTime then return (.success, a, c)
      else
        let error := Float32.abs (deltaAngle me.rotation course)
        let ready := weapons.filter (mayFire a.level error)
        return (.success, a, c.command fun controls => ready.slots.foldl Controls.fire controls)

end Attack

namespace Perform

/-- Selects weapons. -/
def selectWeapon (weapons : Arsenal) (c : Context) : Status × Context :=
  (.success, c.selectWeapons weapons)

/-- Charges weapons, and releases those that reach the target. -/
def chargeWeapons (weapons : Arsenal) (c : Context) : Status × Context :=
  match c.duel? with
  | none => (.failure, c)
  | some (me, target) =>
    let gap := me.gapTo target
    let use (controls : Controls) (weapon : Weapon) : Controls :=
      if gap ≤ weapon.range then controls.fire weapon.slot else controls.charge weapon.slot
    (.success, c.command fun controls => weapons.weapons.foldl use controls)

/-- Steers ammunition to the target. -/
def trackControllableAmmo (c : Context) : Status × Context :=
  match c.target? with
  | none => (.failure, c)
  | some target =>
    (.success, c.command fun controls => { controls with ammoTarget := some target.position })

/-- Fires weapons with recoil at a target that is closer than the shortest weapon range. -/
def useRecoil (weapons : Arsenal) (c : Context) : Status × Context :=
  match c.duel? with
  | none => (.failure, c)
  | some (me, target) =>
    if c.memory.arsenal.rangeMin ≤ me.gapTo target then (.failure, c)
    else
      (.success, c.command fun controls =>
        weapons.slots.foldl Controls.fire
          { controls with course := some (headingTo me.position target.position) })

/-- Flies into the target with full thrust and the given accelerators on. -/
def ram (accelerators : List Nat) (c : Context) : Status × Context :=
  match c.duel? with
  | none => (.failure, c)
  | some (me, target) =>
    (.success, c.command fun controls =>
      accelerators.foldl Controls.activate
        (controls.steer (headingTo me.position target.position) 1))

/-- Orders the ship to destroy itself, where asked only with the target within weapon range. -/
def detonateShip (inAttackRange : Bool) (c : Context) : Status × Context :=
  let close := match c.duel? with
    | some (me, target) => decide (me.gapTo target ≤ c.memory.arsenal.rangeMax)
    | none => false
  if inAttackRange && !close then (.failure, c)
  else (.success, c.command fun controls => { controls with selfDestruct := true })

end Perform

end Helm
