import Helm.Data.Least
import Helm.World.Ship

/-!
# Helm.World.Loadout

What a ship is fitted with: weapons, devices and drone bays. An `Arsenal` is a list of weapons
with the bounds of their ranges.
-/

namespace Helm

/-- The families of weapons. -/
inductive WeaponKind where
  | projectile
  | homing
  /-- Its ammunition is steered after the shot. -/
  | controllable
  | beam
  /-- It is held to charge before it is released. -/
  | charged
  deriving DecidableEq, Repr, Inhabited

namespace WeaponKind

/-- Every kind, in the order of declaration. -/
def all : List WeaponKind := [projectile, homing, controllable, beam, charged]

/-- The word for a kind in a tree definition. -/
def name : WeaponKind → String
  | projectile => "Projectile"
  | homing => "Homing"
  | controllable => "Controllable"
  | beam => "Beam"
  | charged => "Charged"

/-- The kind a word names. -/
def ofName? (word : String) : Option WeaponKind := all.find? (·.name == word)

end WeaponKind

/-- A weapon in a slot of a ship. -/
structure Weapon where
  slot : Nat
  kind : WeaponKind
  range : Float32
  /-- Zero for a weapon that hits at once. -/
  projectileSpeed : Float32
  /-- The full arc in degrees within which it can fire; 360 for a turret. -/
  firingArc : Float32
  /-- The push that the ship itself gets from a shot. -/
  recoil : Float32
  deriving DecidableEq, Repr, Inhabited

/-- The classes of devices. -/
inductive DeviceClass where
  | accelerator
  | decoy
  | cloaking
  | frontalShield
  | energyShield
  | repairBot
  | teleporter
  | pointDefense
  deriving DecidableEq, Repr, Inhabited

namespace DeviceClass

/-- Every class, in the order of declaration. -/
def all : List DeviceClass :=
  [accelerator, decoy, cloaking, frontalShield, energyShield, repairBot, teleporter, pointDefense]

/-- The word for a class in a tree definition. -/
def name : DeviceClass → String
  | accelerator => "Accelerator"
  | decoy => "Decoy"
  | cloaking => "Cloaking"
  | frontalShield => "FrontalShield"
  | energyShield => "EnergyShield"
  | repairBot => "RepairBot"
  | teleporter => "Teleporter"
  | pointDefense => "PointDefense"

/-- The class a word names. -/
def ofName? (word : String) : Option DeviceClass := all.find? (·.name == word)

end DeviceClass

/-- A device in a slot of a ship. -/
structure Device where
  slot : Nat
  kind : DeviceClass
  deriving DecidableEq, Repr, Inhabited

/-- The fittings of a ship, which do not change during a battle. -/
structure Loadout where
  kind : ShipClass := .ship
  weapons : List Weapon := []
  devices : List Device := []
  droneBays : Nat := 0
  deriving DecidableEq, Repr, Inhabited

namespace Loadout

/-- The slots of all devices of a class. -/
def deviceSlots (l : Loadout) (kind : DeviceClass) : List Nat :=
  (l.devices.filter fun device => device.kind = kind).map (·.slot)

/-- True when a device of the class is fitted. -/
def hasDevice (l : Loadout) (kind : DeviceClass) : Bool :=
  l.devices.any fun device => device.kind = kind

/-- True when a weapon of the kind is fitted. -/
def hasWeapon (l : Loadout) (kind : WeaponKind) : Bool :=
  l.weapons.any fun weapon => weapon.kind = kind

end Loadout

/-- Weapons in the order of their fitting. -/
structure Arsenal where
  weapons : List Weapon
  deriving DecidableEq, Repr, Inhabited

namespace Arsenal

/-- All the weapons of a loadout. -/
def ofLoadout (l : Loadout) : Arsenal := ⟨l.weapons⟩

/-- The weapons that pass a test, in the same order. -/
def filter (a : Arsenal) (test : Weapon → Bool) : Arsenal := ⟨a.weapons.filter test⟩

/-- The weapons of one kind. -/
def ofKind (a : Arsenal) (kind : WeaponKind) : Arsenal := a.filter fun weapon => weapon.kind = kind

/-- True when there are no weapons. -/
def isEmpty (a : Arsenal) : Bool := a.weapons.isEmpty

/-- The slots of the weapons, in order. -/
def slots (a : Arsenal) : List Nat := a.weapons.map (·.slot)

/-- The shortest range; zero without weapons. -/
def rangeMin (a : Arsenal) : Float32 :=
  if a.isEmpty then 0
  else a.weapons.foldl (fun least weapon => Single.minimum least weapon.range) Single.infinity

/-- The longest range; zero without weapons. -/
def rangeMax (a : Arsenal) : Float32 :=
  a.weapons.foldl (fun most weapon => Single.maximum most weapon.range) 0

/-- The range a share of the way from the shortest to the longest. -/
def rangeAt (a : Arsenal) (share : Float32) : Float32 := interpolate a.rangeMin a.rangeMax share

/-- The slowest speed among weapons that fire projectiles; none when all hit at once. -/
def projectileSpeed? (a : Arsenal) : Option Float32 :=
  leastBy? id ((a.weapons.map (·.projectileSpeed)).filter fun speed => decide (0 < speed))

end Arsenal

end Helm
