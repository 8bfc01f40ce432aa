import Helm.Pilot.Builder

/-!
# Helm.Pilot.Agent

A ship with its tree and the context the tree is evaluated against. A tick lets the clock go on,
forgets the commands of the tick before and evaluates the tree once.
-/

namespace Helm

/-- A ship that follows a tree. -/
structure Agent where
  context : Context
  root : ShipNode
  /-- The status that the last tick gave. -/
  lastStatus : Option Status := none
  deriving Repr

namespace Agent

/-- Changes the context. -/
def inContext (a : Agent) (f : Context → Context) : Agent := { a with context := f a.context }

/-- Changes the scene. -/
def inScene (a : Agent) (f : Scene → Scene) : Agent := a.inContext (·.inScene f)

/-- Lets a tick of so many seconds pass. -/
def tick (a : Agent) (timeStep : Float32) : Except Fault (Status × Agent) := do
  let context := (a.context.advance timeStep).command Controls.beginTick
  let (status, root, context) ← a.root.tick context
  return (status, ⟨context, root, some status⟩)

/-- Takes the messages posted since the last time. -/
def takeMessages (a : Agent) : List Message × Agent :=
  let (messages, context) := a.context.takeMessages
  (messages, { a with context := context })

end Agent

/-- Builds a tree for a ship and puts the ship into a scene. -/
def Outfit.agent (o : Outfit) (scene : Scene) (tree : TreeDefinition)
    (unseeded : Purpose → Dice) : Except Fault Agent := do
  let (root, _) ← o.buildTree tree (o.builder unseeded)
  return { context := .create o.ship o.loadout scene (o.dice unseeded .runtime), root := root }

end Helm
