import Helm.World.Vec2

/-!
# Helm.World.Ship

Ships and other moving units as they are seen at one moment. `ShipState.gapTo` is the distance
from a ship's centre to another's hull.
-/

namespace Helm

/-- The number a ship goes by. -/
structure ShipId where
  number : UInt32
  deriving DecidableEq, Repr, Inhabited

namespace ShipId

instance : LT ShipId := ⟨fun a b => a.number < b.number⟩

instance : DecidableLT ShipId := fun a b => inferInstanceAs (Decidable (a.number < b.number))

instance :
    Trans (fun a b : ShipId => a < b) (fun a b : ShipId => a < b) fun a b : ShipId => a < b :=
  ⟨fun hab hbc => UInt32.lt_trans hab hbc⟩

instance : Std.Trichotomous fun a b : ShipId => a < b :=
  ⟨fun _ _ hab hba =>
    congrArg mk (UInt32.le_antisymm (UInt32.not_lt.mp hba) (UInt32.not_lt.mp hab))⟩

/-- The way a ship is named in messages. -/
def text (id : ShipId) : String := "ship#" ++ toString id.number.toNat

end ShipId

/-- The number a unit that is not a ship goes by. -/
structure UnitId where
  number : UInt32
  deriving DecidableEq, Repr, Inhabited

/-- What sort of ship it is. -/
inductive ShipClass where
  | ship
  /-- Launched by another ship. -/
  | drone
  deriving DecidableEq, Repr, Inhabited

/-- Whether a ship is still part of the battle. -/
inductive ShipStatus where
  | active
  | retreated
  | destroyed
  deriving DecidableEq, Repr, Inhabited

/-- The word for a status. -/
def ShipStatus.name : ShipStatus → String
  | active => "Active"
  | retreated => "Retreated"
  | destroyed => "Destroyed"

/-- The state of a ship at one moment. -/
structure ShipState where
  id : ShipId
  kind : ShipClass
  /-- The mothership of a drone. -/
  owner : Option ShipId
  position : Vec2 Float32
  velocity : Vec2 Float32
  /-- Heading in degrees. -/
  rotation : Float32
  radius : Float32
  /-- Hull points as a share of the maximum. -/
  hp : Float32
  /-- Energy as a share of the maximum. -/
  energy : Float32
  playerControlled : Bool
  deriving DecidableEq, Repr, Inhabited

namespace ShipState

/-- A ship at rest, undamaged and with full energy. -/
def create (id : ShipId) (position : Vec2 Float32) : ShipState where
  id := id
  kind := .ship
  owner := none
  position := position
  velocity := .zero
  rotation := 0
  radius := 1
  hp := 1
  energy := 1
  playerControlled := false

/-- A drone that `owner` has launched. -/
def createDrone (id owner : ShipId) (position : Vec2 Float32) : ShipState :=
  { create id position with kind := .drone, owner := some owner, radius := 0.5 }

/-- True for drones. -/
def isDrone (s : ShipState) : Bool := s.kind == .drone

/-- The distance from this ship's centre to the other's hull, zero inside it. -/
def gapTo (s other : ShipState) : Float32 :=
  Single.maximum (s.position.distance other.position - other.radius) 0

end ShipState

/-- The state of a unit that is not a ship. -/
structure UnitState where
  id : UnitId
  position : Vec2 Float32
  velocity : Vec2 Float32
  radius : Float32
  deriving DecidableEq, Repr, Inhabited

end Helm
