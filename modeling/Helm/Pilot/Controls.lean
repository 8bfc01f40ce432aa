import Helm.Data.SlotSet
import Helm.World.Vec2

/-!
# Helm.Pilot.Controls

The commands a tree gives to its ship. Commands last for one tick, except those that end the
ship's part in the battle. A slot is never both fired and held: firing releases the charge, and
a slot that fires is not charged.
-/

namespace Helm

/-- The commands given to a ship. -/
structure Controls where
  thrust : Float32 := 0
  /-- The heading to turn to; none to keep the present one. -/
  course : Option Float32 := none
  /-- The point that steered ammunition flies to. -/
  ammoTarget : Option (Vec2 Float32) := none
  launchDrones : Bool := false
  selfDestruct : Bool := false
  vanish : Bool := false
  firing : SlotSet := .empty
  charging : SlotSet := .empty
  devices : SlotSet := .empty
  deriving DecidableEq, Repr, Inhabited

namespace Controls

/-- Forgets the commands of the last tick, but not those that end the ship's part. -/
def beginTick (c : Controls) : Controls :=
  { selfDestruct := c.selfDestruct, vanish := c.vanish }

/-- Sets a course, and a thrust between zero and one. -/
def steer (c : Controls) (course thrust : Float32) : Controls :=
  { c with course := some course, thrust := Scalar.clamp 0 1 thrust }

/-- Fires the weapon in a slot, releasing its charge. -/
def fire (c : Controls) (slot : Nat) : Controls :=
  { c with charging := c.charging.erase slot, firing := c.firing.insert slot }

/-- Holds the weapon in a slot, unless it fires. -/
def charge (c : Controls) (slot : Nat) : Controls :=
  if c.firing.contains slot then c else { c with charging := c.charging.insert slot }

/-- Turns the device in a slot on. -/
def activate (c : Controls) (slot : Nat) : Controls :=
  { c with devices := c.devices.insert slot }

/-! ## Several slots -/

theorem contains_fireAll {c : Controls} {slots : List Nat} {slot : Nat} :
    (slots.foldl fire c).firing.contains slot = true ↔
      slot ∈ slots ∨ c.firing.contains slot = true := by
  induction slots generalizing c with
  | nil => simp
  | cons first rest ih =>
    rw [List.foldl_cons, ih, List.mem_cons, fire, SlotSet.contains_insert, or_assoc,
      or_left_comm]

theorem course_fireAll (c : Controls) (slots : List Nat) :
    (slots.foldl fire c).course = c.course := by
  induction slots generalizing c with
  | nil => rfl
  | cons slot rest ih => exact ih (c.fire slot)

theorem firing_activateAll (c : Controls) (slots : List Nat) :
    (slots.foldl activate c).firing = c.firing := by
  induction slots generalizing c with
  | nil => rfl
  | cons slot rest ih => exact ih (c.activate slot)

theorem course_activateAll (c : Controls) (slots : List Nat) :
    (slots.foldl activate c).course = c.course := by
  induction slots generalizing c with
  | nil => rfl
  | cons slot rest ih => exact ih (c.activate slot)

end Controls

end Helm
