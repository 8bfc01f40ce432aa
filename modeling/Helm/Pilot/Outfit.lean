import Helm.Definition.Library
import Helm.Pilot.Leaf
import Helm.Text.Phrasebook

/-!
# Helm.Pilot.Outfit

The ship a tree is built for and what its leaves are fitted to: the loadout, the settings, the
texts, and the trees that may be referred to. A leaf that needs something the ship lacks is
fitted as one that always fails.
-/

namespace Helm

/-- A ship, and what its tree is built from. -/
structure Outfit where
  ship : ShipId
  loadout : Loadout
  settings : Settings := {}
  phrasebook : Phrasebook := {}
  /-- The trees that may be referred to, if any. -/
  library : Option TreeLibrary := none
  deriving Repr

/-- The random number that goes into a leaf: for circling, the distance to keep. -/
def LeafKind.roll (kind : LeafKind) (dice : Dice) : Except Fault (Float32 × Dice) :=
  match kind with
  | .flyAroundMothership minDistance maxDistance => Dice.inRange minDistance maxDistance dice
  | _ => .ok (0, dice)

namespace Outfit

/-- The ship's random source for a purpose. A seed in the settings gives one that nothing has been
drawn from. Without a seed it may be any source, and for each purpose another. -/
def dice (o : Outfit) (unseeded : Purpose → Dice) (purpose : Purpose) : Dice :=
  match o.settings.seed with
  | some base => .forShip base o.ship.number purpose
  | none => unseeded purpose

/-- The tree that goes by a name. -/
def tree? (o : Outfit) (name : String) : Option TreeDefinition := o.library.bind (·.get? name)

/-- The number of trees that can be referred to. -/
def treeCount (o : Outfit) : Nat :=
  match o.library with
  | some library => library.size
  | none => 0

/-- All the ship's weapons. -/
def arsenal (o : Outfit) : Arsenal := Arsenal.ofLoadout o.loadout

/-- How far from the mothership targets may be, if there is a limit. -/
def droneRange? (o : Outfit) : Option Float32 :=
  if 0 < o.settings.droneRange then some o.settings.droneRange else none

/-- The leaf of an action. -/
def does (action : Action) : ShipNode := .leaf (.action action)

/-- An action that uses weapons, unless there are none. -/
def armed (weapons : Arsenal) (action : Arsenal → Action) : ShipNode :=
  if weapons.isEmpty then .alwaysFailure else does (action weapons)

/-- An action that uses devices, unless there are none. -/
def equipped (slots : List Nat) (action : List Nat → Action) : ShipNode :=
  if slots.isEmpty then .alwaysFailure else does (action slots)

/-- An action that the ship has to be capable of. -/
def capable (able : Bool) (action : Action) : ShipNode :=
  if able then does action else .alwaysFailure

/-- Fits a leaf to the ship, with the random number rolled for it. -/
def fit (o : Outfit) (roll : Float32) : LeafKind → ShipNode
  | .undefined => .alwaysSuccess
  | .findEnemy minCooldown maxCooldown inAttackRange ignoreDrones =>
    .leaf (.findEnemy
      (.create minCooldown maxCooldown inAttackRange ignoreDrones o.droneRange?))
  | .targetMothership => does .targetMothership
  | .lookForSecondaryTargets cooldown => does (.lookForSecondaryTargets cooldown)
  | .lookForThreats cooldown => does (.lookForThreats cooldown o.settings.lookout)
  | .moveToAttackRange share multiplier =>
    does (.moveToAttackRange share (if 0 < multiplier then multiplier else 1))
  | .maintainAttackRange share tolerance => does (.maintainAttackRange share tolerance.abs)
  | .isWithinAttackRange share => does (.isWithinAttackRange share)
  | .chase => does .chase
  | .stop => does .stop
  | .lookAtTarget => does .lookAtTarget
  | .sustainAim => does .sustainAim
  | .flyAroundMothership _ _ => does (.flyAroundMothership roll)
  | .avoidThreats => does .avoidThreats
  | .haveIncomingThreat timeToCollision => does (.haveIncomingThreat timeToCollision)
  | .attack => .leaf (.attack ⟨o.settings.level, none⟩)
  | .selectWeapon kind => armed (o.arsenal.ofKind kind) .selectWeapon
  | .chargeWeapons => armed (o.arsenal.ofKind .charged) .chargeWeapons
  | .trackControllableAmmo => capable (o.loadout.hasWeapon .controllable) .trackControllableAmmo
  | .useRecoil => armed (o.arsenal.filter fun weapon => decide (0 < weapon.recoil)) .useRecoil
  | .ram useShipSystems =>
    does (.ram (if useShipSystems then o.loadout.deviceSlots .accelerator else []))
  | .detonateShip inAttackRange => does (.detonateShip inAttackRange)
  | .haveEnoughEnergy failIfLess => does (.haveEnoughEnergy failIfLess)
  | .rechargeEnergy failIfLess restoreUntil =>
    does (.rechargeEnergy failIfLess (Single.maximum restoreUntil failIfLess))
  | .activateDevice kind => equipped (o.loadout.deviceSlots kind) .activateDevice
  | .defendWithFrontalShield =>
    equipped (o.loadout.deviceSlots .frontalShield) .defendWithFrontalShield
  | .spawnDrones => capable (decide (0 < o.loadout.droneBays)) .spawnDrones
  | .isLowOnHp minValue => does (.isLowOnHp minValue)
  | .isControlledByPlayer => does .isControlledByPlayer
  | .mothershipRetreated => does .mothershipRetreated
  | .mothershipDestroyed => does .mothershipDestroyed
  | .mothershipLowHp minValue => does (.mothershipLowHp minValue)
  | .goBerserk => does .goBerserk
  | .vanish => does .vanish
  | .wait cooldown resetIfInterrupted => .leaf (.wait (.create cooldown resetIfInterrupted))
  | .showMessage text color =>
    .leaf (.showMessage ⟨o.phrasebook.localize text, color, false⟩)
  | .debugLog text => does (.debugLog text)

end Outfit

end Helm
