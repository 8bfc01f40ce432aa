import Helm.Duel.Config
import Helm.Duel.Motion
import Helm.Pilot.Agent

/-!
# Helm.Duel.Play

A duel between a ship that follows a tree and a target that drifts by and does not shoot back.
In each tick the ship acts, its shots that reach the target do damage, both ships move, and the
duel is over once one of them has left it.
-/

namespace Helm

/-- A duel under way. -/
structure Duel where
  agent : Agent
  /-- What the ship has said so far. -/
  said : List Message := []
  deriving Repr

/-- How a duel stands after a run of ticks. -/
structure Outcome where
  ticks : Nat
  elapsed : Float32
  /-- Shots that reached the target, counted anew in each tick that a weapon fires. -/
  shots : Nat
  targetHp : Float32
  targetStatus : ShipStatus
  deriving DecidableEq, Repr

/-- The wording of an outcome. -/
def Outcome.message (o : Outcome) : String :=
  "Duel finished after " ++ toString o.ticks ++ " ticks (" ++ Shortest.text o.elapsed ++
    "s): shots " ++ toString o.shots ++ ", target hp " ++ Shortest.text o.targetHp ++
    ", status " ++ o.targetStatus.name

namespace Duel

/-! ## The two ships -/

/-- The ship that follows a tree. -/
def ownShip : ShipId := ⟨1⟩

/-- Its target. -/
def targetShip : ShipId := ⟨2⟩

/-- The velocity of the target. -/
def targetVelocity : Vec2 Float32 := ⟨1.5, 0⟩

/-- The fittings of the ship: a long-range cannon and a short beam. -/
def gunship : Loadout where
  weapons :=
    [{ slot := 0, kind := .projectile, range := 12, projectileSpeed := 30, firingArc := 20
       recoil := 0 },
     { slot := 1, kind := .beam, range := 5, projectileSpeed := 0, firingArc := 360
       recoil := 0 }]

/-- The scene at the start, the target straight ahead of the y axis. -/
def startingScene (distance : Float32) : Scene :=
  let target := ShipState.create targetShip ⟨0, distance⟩
  (({} : Scene).addShip (.create ownShip .zero) 0).addShip
    { target with velocity := targetVelocity } 1

/-- A duel that has not begun, for a ship that follows `tree`. -/
def create (config : DuelConfig) (tree : TreeDefinition) (library : TreeLibrary)
    (settings : Settings) (phrasebook : Phrasebook) (unseeded : Purpose → Dice) :
    Except Fault Duel := do
  let outfit : Outfit :=
    { ship := ownShip, loadout := gunship, settings := settings, phrasebook := phrasebook
      library := some library }
  let agent ← outfit.agent (startingScene config.distance) tree unseeded
  return { agent := agent }

/-- The scene as it is now. -/
def scene (d : Duel) : Scene := d.agent.context.scene

/-- The commands of the ship in this tick. -/
def controls (d : Duel) : Controls := d.agent.context.memory.controls

/-- Changes the scene. -/
def inScene (d : Duel) (f : Scene → Scene) : Duel := { d with agent := d.agent.inScene f }

/-! ## One tick -/

/-- Damage that a weapon does in a second, as a share of a hull. -/
def damageRate : Float32 := 0.25

/-- The weapon in a slot. -/
def weaponAt? (slot : Nat) : Option Weapon := gunship.weapons.find? fun w => w.slot = slot

/-- The number of firing weapons that reach over a gap. -/
def hits (firing : SlotSet) (gap : Float32) : Nat :=
  (firing.slots.filterMap weaponAt?).countP fun weapon => decide (gap ≤ weapon.range)

/-- A ship after so many hits. -/
def damaged (step : Float32) (hits : Nat) (ship : ShipState) : ShipState :=
  { ship with hp := Single.maximum (ship.hp - damageRate * step * Float32.ofNat hits) 0 }

/-- Lets the shots of this tick do their damage, and gives how many reached the target. -/
def applyFire (d : Duel) (step : Float32) : Nat × Duel :=
  match d.agent.context.memory.target with
  | none => (0, d)
  | some target =>
    match d.scene.ship? ownShip, d.scene.ship? target with
    | some me, some enemy =>
      let count := hits d.controls.firing (me.gapTo enemy)
      if count = 0 then (0, d)
      else (count, d.inScene (·.updateShip target (damaged step count)))
    | _, _ => (0, d)

/-- Moves the ship as it commands, and the target along. -/
def moveShips (d : Duel) (step : Float32) : Except Fault Duel := do
  let d ← match d.scene.ship? ownShip with
    | some me => do
      let moved ← steered step d.controls me
      pure (d.inScene (·.updateShip ownShip fun _ => moved))
    | none => pure d
  return d.inScene (·.updateShip targetShip (drift step))

/-- True for a target whose hull is gone. -/
def targetLost (d : Duel) : Bool :=
  match d.scene.ship? targetShip with
  | some target => decide (target.hp ≤ 0)
  | none => false

/-- Notes which ship leaves in this tick, and tells whether one does. -/
def resolveExits (d : Duel) : Bool × Duel :=
  if d.controls.vanish then (true, d.inScene (·.setStatus ownShip .retreated))
  else if d.controls.selfDestruct then (true, d.inScene (·.setStatus ownShip .destroyed))
  else if d.targetLost then (true, d.inScene (·.setStatus targetShip .destroyed))
  else (false, d)

/-- Notes down what the ship says. -/
def listen (d : Duel) : Duel :=
  let (messages, agent) := d.agent.takeMessages
  { agent := agent, said := d.said ++ messages }

/-- Plays one tick: gives the shots that landed and whether the duel is over. -/
def playTick (d : Duel) (step : Float32) : Except Fault (Nat × Bool × Duel) := do
  let (_, agent) ← d.agent.tick step
  let (shots, d) := ({ d with agent := agent } : Duel).listen.applyFire step
  let d ← d.moveShips step
  return (shots, d.resolveExits)

/-! ## A run of ticks -/

/-- Plays up to so many ticks on top of those counted before: the ticks and shots in all. -/
def play (step : Float32) (d : Duel) (played shots : Nat) :
    Nat → Except Fault (Nat × Nat × Duel)
  | 0 => .ok (played, shots, d)
  | ticks + 1 =>
    match d.playTick step with
    | .error fault => .error fault
    | .ok (landed, true, d) => .ok (played + 1, shots + landed, d)
    | .ok (landed, false, d) => play step d (played + 1) (shots + landed) ticks

/-- How the duel stands after ticks with so many shots. -/
def outcome (d : Duel) (ticks shots : Nat) : Outcome where
  ticks := ticks
  elapsed := d.agent.context.memory.time
  shots := shots
  targetHp := ((d.scene.ship? targetShip).map (·.hp)).getD 0
  targetStatus := d.scene.status targetShip

/-- Plays up to so many ticks of `step` seconds, and stops early once a ship leaves the duel. -/
def run (d : Duel) (ticks : Nat) (step : Float32) : Except Fault (Outcome × Duel) := do
  let (played, shots, d) ← d.play step 0 0 ticks
  return (d.outcome played shots, d)

end Duel

end Helm
