import Helm.Pilot.Controls
import Helm.Random.Dice
import Helm.Tree.Node
import Helm.World.Loadout
import Helm.World.Scene
import Helm.World.Threat

/-!
# Helm.Pilot.Context

What the tree of one ship is evaluated against: the scene, and the ship's own memory with its
clock, target, findings, weapon selection, controls, flags, messages and random source.

The lists of secondary targets and of threats are renewed at most once per cooldown. All of the
timestamps start far enough in the past for cooldowns of up to a minute to have passed.
-/

namespace Helm

/-- Something a ship says. -/
structure Message where
  ship : ShipId
  text : String
  color : Option String
  deriving DecidableEq, Repr, Inhabited

/-- The time at which something that has not happened yet counts as having happened. -/
def neverUpdated : Float32 := -60

/-- What a ship keeps in mind. -/
structure Memory where
  ship : ShipId
  arsenal : Arsenal
  dice : Dice
  /-- Elapsed time in seconds. -/
  time : Float32 := 0
  /-- The length of the last tick. -/
  timeStep : Float32 := 0
  /-- The number of ticks so far. -/
  frame : Nat := 0
  target : Option ShipId := none
  /-- When the target was last decided on. -/
  targetTime : Float32 := neverUpdated
  /-- Other enemies nearby, nearest first. -/
  secondaryTargets : List ShipId := []
  secondaryTime : Float32 := neverUpdated
  /-- Units that will hit the ship, the most imminent first. -/
  threats : List Threat := []
  threatTime : Float32 := neverUpdated
  /-- The weapons to fire with, if not all. -/
  selection : Option Arsenal := none
  controls : Controls := {}
  restoringEnergy : Bool := false
  berserk : Bool := false
  /-- Messages that have not been taken yet, in the order of their posting. -/
  messages : List Message := []
  deriving DecidableEq, Repr

/-- The scene and the memory of the ship. -/
structure Context where
  scene : Scene
  memory : Memory
  deriving DecidableEq, Repr

namespace Context

/-- The context of a ship that has not acted yet. -/
def create (ship : ShipId) (loadout : Loadout) (scene : Scene) (dice : Dice) : Context :=
  { scene := scene, memory := { ship := ship, arsenal := Arsenal.ofLoadout loadout, dice := dice } }

/-- Changes the memory. -/
def remember (c : Context) (f : Memory → Memory) : Context := { c with memory := f c.memory }

/-- Changes the scene. -/
def inScene (c : Context) (f : Scene → Scene) : Context := { c with scene := f c.scene }

/-- Changes the controls. -/
def command (c : Context) (f : Controls → Controls) : Context :=
  c.remember fun m => { m with controls := f m.controls }

/-- Lets the clock go on by one tick. -/
def advance (c : Context) (timeStep : Float32) : Context :=
  c.remember fun m =>
    { m with timeStep := timeStep, time := m.time + timeStep, frame := m.frame + 1 }

/-! ## The random source -/

instance : TickContext Context where
  time c := c.memory.time
  nextWord c :=
    let (word, dice) := c.memory.dice.next
    (word, c.remember fun m => { m with dice := dice })

/-- A number in a closed range; the lower end when the range is empty or not finite. -/
def randomRange (c : Context) (lo hi : Float32) : Except Fault (Float32 × Context) :=
  Dice.inRange lo hi c

/-! ## Ships -/

/-- The state of the ship itself. -/
def own? (c : Context) : Option ShipState := c.scene.ship? c.memory.ship

/-- The mothership of a drone, while it is active. -/
def mothership? (c : Context) : Option ShipState := do
  let me ← c.own?
  let owner ← me.owner
  c.scene.activeShip? owner

/-- The state of the target, while it is active. -/
def target? (c : Context) : Option ShipState := c.memory.target.bind c.scene.activeShip?

/-- The ship and its active target. -/
def duel? (c : Context) : Option (ShipState × ShipState) := do
  let me ← c.own?
  let target ← c.target?
  return (me, target)

/-! ## Target -/

/-- Decides on a target, and notes the time. -/
def decideTarget (c : Context) (target : Option ShipId) : Context :=
  c.remember fun m => { m with target := target, targetTime := m.time }

/-- Sets the target without noting the time. -/
def setTarget (c : Context) (target : Option ShipId) : Context :=
  c.remember fun m => { m with target := target }

/-- Seconds since the target was decided on. -/
def targetAge (c : Context) : Float32 := c.memory.time - c.memory.targetTime

/-! ## Findings -/

/-- The least radius within which secondary targets are looked for. -/
def minSearchRadius : Float32 := 30

/-- The radius within which secondary targets are looked for. -/
def searchRadius (c : Context) : Float32 :=
  Single.maximum (c.memory.arsenal.rangeMax * 2) minSearchRadius

/-- Renews the secondary targets, unless that happened less than `cooldown` seconds ago. -/
def renewSecondaryTargets (c : Context) (cooldown : Float32) : Context :=
  if c.memory.time - c.memory.secondaryTime < cooldown then c
  else
    match c.own? with
    | none =>
      c.remember fun m => { m with secondaryTime := m.time, secondaryTargets := [] }
    | some me =>
      let found := c.scene.secondaryTargets me c.memory.target c.searchRadius
      { scene := c.scene.countEnemyQuery
        memory := { c.memory with secondaryTime := c.memory.time, secondaryTargets := found } }

/-- Renews the threats, unless that happened less than `cooldown` seconds ago. -/
def renewThreats (c : Context) (lookout : Lookout) (cooldown : Float32) : Context :=
  if c.memory.time - c.memory.threatTime < cooldown then c
  else
    match c.own? with
    | none => c.remember fun m => { m with threatTime := m.time, threats := [] }
    | some me =>
      let found := lookout.threats me (c.scene.unitsNear me.position lookout.scanRadius)
      { scene := c.scene.countUnitQuery
        memory := { c.memory with threatTime := c.memory.time, threats := found } }

/-- Seconds until the most imminent known threat hits. -/
def timeToCollision (c : Context) : Float32 := Helm.timeToCollision c.memory.threats

/-! ## Weapons -/

/-- The weapons to fire with: the selection, or else all. -/
def weapons (c : Context) : Arsenal := c.memory.selection.getD c.memory.arsenal

/-- Selects the weapons to fire with. -/
def selectWeapons (c : Context) (weapons : Arsenal) : Context :=
  c.remember fun m => { m with selection := some weapons }

/-- Goes back to all weapons. -/
def resetSelection (c : Context) : Context := c.remember fun m => { m with selection := none }

/-! ## Flags and messages -/

/-- Notes whether the ship holds back until its energy is restored. -/
def setRestoringEnergy (c : Context) (restoring : Bool) : Context :=
  c.remember fun m => { m with restoringEnergy := restoring }

/-- Notes whether a drone has left its mothership's leash. -/
def setBerserk (c : Context) (berserk : Bool) : Context :=
  c.remember fun m => { m with berserk := berserk }

/-- Posts a message. -/
def post (c : Context) (text : String) (color : Option String) : Context :=
  c.remember fun m => { m with messages := m.messages ++ [⟨m.ship, text, color⟩] }

/-- Takes the messages posted since the last time. -/
def takeMessages (c : Context) : List Message × Context :=
  (c.memory.messages, c.remember fun m => { m with messages := [] })

end Context

end Helm
