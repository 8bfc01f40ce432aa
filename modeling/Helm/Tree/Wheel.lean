import Helm.Random.Draw
import Helm.Status

/-!
# Helm.Tree.Wheel

The choice that a random selector keeps between ticks. A `Wheel` is rolled on the first tick
and again when more than its cooldown has passed since the last roll, except that an executor
never drops a running child. `Wheel.turn` gives the child of one tick and `Wheel.record` notes
the status it gave.
-/

namespace Helm

/-- When a random selector may roll again. -/
inductive RandomMode where
  /-- Whenever the cooldown has passed. -/
  | selector
  /-- When the cooldown has passed and the chosen child is not running. -/
  | executor
  deriving DecidableEq, Repr, Inhabited

/-- How a random selector draws a child. -/
inductive RandomPolicy where
  /-- Every child is equally likely at every roll. -/
  | uniform
  /-- Equally likely among those not drawn since the last time all had been drawn. -/
  | noRepeat
  /-- In proportion to weights; uniform when the weights do not fit the children. -/
  | weighted (weights : List Nat)
  deriving DecidableEq, Repr, Inhabited

/-- The lasting choice of a random selector. -/
structure Wheel where
  mode : RandomMode
  policy : RandomPolicy
  /-- Seconds that have to pass between two rolls; never negative. -/
  cooldown : Float32
  /-- For each child, whether the current cycle has drawn it. -/
  picked : List Bool
  selected : Option Nat
  lastRoll : Float32
  lastStatus : Status
  deriving DecidableEq, Repr

namespace Wheel

/-- A wheel over `count` children that has not been rolled. -/
def create (count : Nat) (cooldown : Float32) (mode : RandomMode) (policy : RandomPolicy) :
    Wheel where
  mode := mode
  policy := policy
  cooldown := Single.maximum cooldown 0
  picked := List.replicate count false
  selected := none
  lastRoll := 0
  lastStatus := .failure

/-- True when a choice made earlier has to be replaced at time `now`. -/
def rollDue (w : Wheel) (now : Float32) : Bool :=
  !(w.mode == .executor && w.lastStatus == .running) && decide (w.cooldown < now - w.lastRoll)

/-- The positions that hold `false`, counted from `start`. -/
def untaken : List Bool → Nat → List Nat
  | [], _ => []
  | taken :: rest, start =>
    if taken then untaken rest (start + 1) else start :: untaken rest (start + 1)

/-- The marks a cycle goes on with: none once every child has been drawn. -/
def cycle (picked : List Bool) : List Bool :=
  if picked.all id then picked.map fun _ => false else picked

variable {G : Type} [WordSource G]

/-- Draws a child, and gives the marks of the cycle after it. -/
def draw (w : Wheel) (g : G) : Except Fault (Nat × List Bool × G) :=
  let count := w.picked.length
  match w.policy with
  | .noRepeat => do
    let marks := cycle w.picked
    let candidates := untaken marks 0
    let (nth, g) ← Draw.index candidates.length g
    let child := candidates.getD nth 0
    return (child, marks.set child true, g)
  | .weighted weights =>
    match Draw.usableWeights? count weights with
    | some usable =>
      let (child, g) := Draw.weighted usable g
      .ok (child, w.picked, g)
    | none => do
      let (child, g) ← Draw.index count g
      return (child, w.picked, g)
  | .uniform => do
    let (child, g) ← Draw.index count g
    return (child, w.picked, g)

/-- Rolls the wheel at time `now`. -/
def roll (w : Wheel) (now : Float32) (g : G) : Except Fault (Nat × Wheel × G) := do
  let (child, picked, g) ← w.draw g
  return (child, { w with picked := picked, selected := some child, lastRoll := now }, g)

/-- The child to tick at time `now`, after a roll if one is due. -/
def turn (w : Wheel) (now : Float32) (g : G) : Except Fault (Nat × Wheel × G) :=
  match w.selected with
  | some child => if w.rollDue now then w.roll now g else .ok (child, w, g)
  | none => w.roll now g

/-- Notes the status that the chosen child gave. -/
def record (w : Wheel) (status : Status) : Wheel := { w with lastStatus := status }

end Wheel

end Helm
