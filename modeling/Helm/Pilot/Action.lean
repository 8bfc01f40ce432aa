import Helm.Pilot.Fleet
import Helm.Pilot.Gunnery
import Helm.Pilot.Systems
import Helm.Pilot.Targeting

/-!
# Helm.Pilot.Action

What a ship does in one tick without keeping anything in mind for the next: most leaves of a
ship's tree are actions. An action needs no random numbers, so it always gives a status.
-/

namespace Helm

/-- Something to do or to check that has no state of its own. -/
inductive Action where
  | targetMothership
  | lookForSecondaryTargets (cooldown : Float32)
  | lookForThreats (cooldown : Float32) (lookout : Lookout)
  | moveToAttackRange (share multiplier : Float32)
  | maintainAttackRange (share tolerance : Float32)
  | isWithinAttackRange (share : Float32)
  | chase
  | stop
  | lookAtTarget
  | sustainAim
  | flyAroundMothership (radius : Float32)
  | avoidThreats
  | haveIncomingThreat (timeToCollision : Float32)
  | selectWeapon (weapons : Arsenal)
  | chargeWeapons (weapons : Arsenal)
  | trackControllableAmmo
  | useRecoil (weapons : Arsenal)
  | ram (accelerators : List Nat)
  | detonateShip (inAttackRange : Bool)
  | haveEnoughEnergy (failIfLess : Float32)
  | rechargeEnergy (failIfLess restoreUntil : Float32)
  | activateDevice (slots : List Nat)
  | defendWithFrontalShield (slots : List Nat)
  | spawnDrones
  | isLowOnHp (minValue : Float32)
  | isControlledByPlayer
  | mothershipRetreated
  | mothershipDestroyed
  | mothershipLowHp (minValue : Float32)
  | goBerserk
  | vanish
  /-- Leaves a note for whoever debugs the tree; it shows nowhere in the context. -/
  | debugLog (text : String)
  deriving DecidableEq, Repr

namespace Action

/-- The name of an action in diagnostics. -/
def name : Action → String
  | targetMothership => "TargetMothership"
  | lookForSecondaryTargets _ => "LookForSecondaryTargets"
  | lookForThreats _ _ => "LookForThreats"
  | moveToAttackRange _ _ => "MoveToAttackRange"
  | maintainAttackRange _ _ => "MaintainAttackRange"
  | isWithinAttackRange _ => "IsWithinAttackRange"
  | chase => "Chase"
  | stop => "Stop"
  | lookAtTarget => "LookAtTarget"
  | sustainAim => "SustainAim"
  | flyAroundMothership _ => "FlyAroundMothership"
  | avoidThreats => "AvoidThreats"
  | haveIncomingThreat _ => "HaveIncomingThreat"
  | selectWeapon _ => "SelectWeapon"
  | chargeWeapons _ => "ChargeWeapons"
  | trackControllableAmmo => "TrackControllableAmmo"
  | useRecoil _ => "UseRecoil"
  | ram _ => "Ram"
  | detonateShip _ => "DetonateShip"
  | haveEnoughEnergy _ => "HaveEnoughEnergy"
  | rechargeEnergy _ _ => "RechargeEnergy"
  | activateDevice _ => "ActivateDevice"
  | defendWithFrontalShield _ => "DefendWithFrontalShield"
  | spawnDrones => "SpawnDrones"
  | isLowOnHp _ => "IsLowOnHp"
  | isControlledByPlayer => "IsControlledByPlayer"
  | mothershipRetreated => "MothershipRetreated"
  | mothershipDestroyed => "MothershipDestroyed"
  | mothershipLowHp _ => "MothershipLowHp"
  | goBerserk => "GoBerserk"
  | vanish => "Vanish"
  | debugLog _ => "DebugLog"

/-- Carries an action out: its status and the context afterwards. -/
def perform : Action → Context → Status × Context
  | targetMothership => Perform.targetMothership
  | lookForSecondaryTargets cooldown => Perform.lookForSecondaryTargets cooldown
  | lookForThreats cooldown lookout => Perform.lookForThreats cooldown lookout
  | moveToAttackRange share multiplier => Perform.moveToAttackRange share multiplier
  | maintainAttackRange share tolerance => Perform.maintainAttackRange share tolerance
  | isWithinAttackRange share => Perform.isWithinAttackRange share
  | chase => Perform.chase
  | stop => Perform.stop
  | lookAtTarget => Perform.lookAtTarget
  | sustainAim => Perform.sustainAim
  | flyAroundMothership radius => Perform.flyAroundMothership radius
  | avoidThreats => Perform.avoidThreats
  | haveIncomingThreat timeToCollision => Perform.haveIncomingThreat timeToCollision
  | selectWeapon weapons => Perform.selectWeapon weapons
  | chargeWeapons weapons => Perform.chargeWeapons weapons
  | trackControllableAmmo => Perform.trackControllableAmmo
  | useRecoil weapons => Perform.useRecoil weapons
  | ram accelerators => Perform.ram accelerators
  | detonateShip inAttackRange => Perform.detonateShip inAttackRange
  | haveEnoughEnergy failIfLess => Perform.haveEnoughEnergy failIfLess
  | rechargeEnergy failIfLess restoreUntil => Perform.rechargeEnergy failIfLess restoreUntil
  | activateDevice slots => Perform.activateDevice slots
  | defendWithFrontalShield slots => Perform.defendWithFrontalShield slots
  | spawnDrones => Perform.spawnDrones
  | isLowOnHp minValue => Perform.isLowOnHp minValue
  | isControlledByPlayer => Perform.isControlledByPlayer
  | mothershipRetreated => Perform.mothershipRetreated
  | mothershipDestroyed => Perform.mothershipDestroyed
  | mothershipLowHp minValue => Perform.mothershipLowHp minValue
  | goBerserk => Perform.goBerserk
  | vanish => Perform.vanish
  | debugLog _ => fun c => (.success, c)

end Action

end Helm
