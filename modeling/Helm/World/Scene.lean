import Helm.Data.Table
import Helm.Data.Least
import Helm.World.Ship

/-!
# Helm.World.Scene

The battlefield: ships with their side and status, other units, and a tally of the queries that
scan all of them. Ships of different sides are enemies. A ship that is not in the scene counts
as destroyed.
-/

namespace Helm

/-- A ship in the scene. -/
structure Entry where
  state : ShipState
  status : ShipStatus
  side : UInt8
  deriving DecidableEq, Repr, Inhabited

/-- How often the scene has been searched. -/
structure Tally where
  enemies : Nat := 0
  units : Nat := 0
  deriving DecidableEq, Repr, Inhabited

/-- The battlefield. -/
structure Scene where
  ships : Table ShipId Entry := .empty
  units : List UnitState := []
  tally : Tally := {}
  deriving DecidableEq, Repr, Inhabited

namespace Scene

/-! ## Changes -/

/-- Adds an active ship, in place of an earlier one with the same number. -/
def addShip (s : Scene) (state : ShipState) (side : UInt8) : Scene :=
  { s with ships := s.ships.insert state.id ⟨state, .active, side⟩ }

/-- Takes a ship out. -/
def removeShip (s : Scene) (id : ShipId) : Scene := { s with ships := s.ships.erase id }

/-- Sets the status of a ship, if it is in the scene. -/
def setStatus (s : Scene) (id : ShipId) (status : ShipStatus) : Scene :=
  { s with ships := s.ships.modify id fun entry => { entry with status := status } }

/-- Changes the state of a ship, if it is in the scene. -/
def updateShip (s : Scene) (id : ShipId) (f : ShipState → ShipState) : Scene :=
  { s with ships := s.ships.modify id fun entry => { entry with state := f entry.state } }

/-- Adds a unit. -/
def addUnit (s : Scene) (unit : UnitState) : Scene := { s with units := s.units ++ [unit] }

/-- Takes all units out. -/
def clearUnits (s : Scene) : Scene := { s with units := [] }

/-! ## Queries -/

/-- The numbers of the ships in the scene, in ascending order. -/
def shipIds (s : Scene) : List ShipId := s.ships.keys

/-- The last known state of a ship. -/
def ship? (s : Scene) (id : ShipId) : Option ShipState := (s.ships.get? id).map (·.state)

/-- The status of a ship. -/
def status (s : Scene) (id : ShipId) : ShipStatus :=
  match s.ships.get? id with
  | some entry => entry.status
  | none => .destroyed

/-- True for a ship that is part of the battle. -/
def isActive (s : Scene) (id : ShipId) : Bool := s.status id == .active

/-- The state of a ship that is part of the battle. -/
def activeShip? (s : Scene) (id : ShipId) : Option ShipState :=
  if s.isActive id then s.ship? id else none

/-- A ship that is not in the scene is not active. -/
theorem exists_activeShip? {s : Scene} {id : ShipId} (h : s.isActive id = true) :
    ∃ state, s.activeShip? id = some state := by
  rw [activeShip?, if_pos h, ship?]
  rw [isActive, status] at h
  cases hentry : s.ships.get? id with
  | none => simp [hentry] at h
  | some entry => exact ⟨entry.state, rfl⟩

/-- The active ships on other sides than the given ship's, in ascending order. -/
def enemiesOf (s : Scene) (id : ShipId) : List ShipId :=
  match s.ships.get? id with
  | none => []
  | some own =>
    (s.ships.values.filter fun entry => entry.side ≠ own.side ∧ entry.status = .active).map
      (·.state.id)

/-- The units whose discs reach into the circle around a point. -/
def unitsNear (s : Scene) (center : Vec2 Float32) (radius : Float32) : List UnitState :=
  s.units.filter fun unit => decide (unit.position.distance center ≤ radius + unit.radius)

/-- Notes a search for enemies. -/
def countEnemyQuery (s : Scene) : Scene :=
  { s with tally := { s.tally with enemies := s.tally.enemies + 1 } }

/-- Notes a search for units. -/
def countUnitQuery (s : Scene) : Scene :=
  { s with tally := { s.tally with units := s.tally.units + 1 } }

/-! ## Secondary targets -/

/-- The most secondary targets that are kept. -/
def maxSecondaryTargets : Nat := 4

/-- The enemies other than `primary` within `radius` of the ship, each with its gap. -/
def targetCandidates (s : Scene) (ship : ShipState) (primary : Option ShipId) (radius : Float32) :
    List (Float32 × ShipId) :=
  let others := (s.enemiesOf ship.id).filter fun id => some id ≠ primary
  let gaps := (others.filterMap s.activeShip?).map fun enemy => (ship.gapTo enemy, enemy.id)
  gaps.filter fun candidate => decide (candidate.1 ≤ radius)

/-- The nearest enemies other than `primary` within `radius` of the ship, nearest first. -/
def secondaryTargets (s : Scene) (ship : ShipState) (primary : Option ShipId) (radius : Float32) :
    List ShipId :=
  ((sortBy (·.1) (s.targetCandidates ship primary radius)).take maxSecondaryTargets).map (·.2)

end Scene

end Helm
