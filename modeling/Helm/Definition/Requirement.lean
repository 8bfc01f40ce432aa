import Helm.Settings.Basic
import Helm.World.Loadout

/-!
# Helm.Definition.Requirement

Conditions on a ship's loadout and on the settings, checked once while a tree is built.
-/

namespace Helm

/-- A condition that a node of a tree definition may ask for. -/
inductive Requirement where
  | always
  | all (items : List Requirement)
  | any (items : List Requirement)
  /-- None of the listed requirements holds. -/
  | noneOf (items : List Requirement)
  | not (item : Requirement)
  /-- The level lies between two levels, both included. -/
  | level (lowest highest : Level)
  | hasWeapons
  | hasWeapon (kind : WeaponKind)
  | hasDevice (kind : DeviceClass)
  | hasDroneBays
  | isDrone
  | isShip
  deriving Repr

namespace Requirement

instance : Inhabited Requirement := ⟨always⟩

mutual

/-- True when the loadout and the settings fulfil the requirement. -/
def isMet (loadout : Loadout) (settings : Settings) : Requirement → Bool
  | always => true
  | all items => allMet loadout settings items
  | any items => anyMet loadout settings items
  | noneOf items => !anyMet loadout settings items
  | not item => !isMet loadout settings item
  | level lowest highest =>
    decide (lowest.rank ≤ settings.level.rank ∧ settings.level.rank ≤ highest.rank)
  | hasWeapons => !loadout.weapons.isEmpty
  | hasWeapon kind => loadout.hasWeapon kind
  | hasDevice kind => loadout.hasDevice kind
  | hasDroneBays => decide (0 < loadout.droneBays)
  | isDrone => loadout.kind == .drone
  | isShip => loadout.kind == .ship

/-- True when all of the requirements are fulfilled. -/
def allMet (loadout : Loadout) (settings : Settings) : List Requirement → Bool
  | [] => true
  | item :: rest => isMet loadout settings item && allMet loadout settings rest

/-- True when one of the requirements is fulfilled. -/
def anyMet (loadout : Loadout) (settings : Settings) : List Requirement → Bool
  | [] => false
  | item :: rest => isMet loadout settings item || anyMet loadout settings rest

end

end Requirement

end Helm
