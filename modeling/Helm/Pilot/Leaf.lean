import Helm.Pilot.Action

/-!
# Helm.Pilot.Leaf

The leaves of a ship's tree. Besides actions, which have no state, there are the four that keep
something in mind from one tick to the next: the search for an enemy, the attack, the wait and
the message that is shown once.
-/

namespace Helm

/-- A leaf of a ship's tree, with its state. -/
inductive Leaf where
  | findEnemy (search : FindEnemy)
  | attack (attack : Attack)
  | wait (wait : Wait)
  | showMessage (announcement : Announcement)
  | action (action : Action)
  deriving DecidableEq, Repr

namespace Leaf

/-- The name of a leaf in diagnostics. -/
def name : Leaf → String
  | findEnemy _ => "FindEnemy"
  | attack _ => "Attack"
  | wait _ => "Wait"
  | showMessage _ => "ShowMessage"
  | action a => a.name

/-- Evaluates a leaf once. -/
def tick : Leaf → Context → Except Fault (Status × Leaf × Context)
  | findEnemy search, c => do
    let (status, search, c) ← search.tick c
    return (status, findEnemy search, c)
  | attack a, c => do
    let (status, a, c) ← a.tick c
    return (status, attack a, c)
  | wait w, c =>
    let (status, w) := w.step c.memory.time c.memory.frame
    .ok (status, wait w, c)
  | showMessage announcement, c =>
    let (status, announcement, c) := announcement.tick c
    .ok (status, showMessage announcement, c)
  | action a, c =>
    let (status, c) := a.perform c
    .ok (status, action a, c)

instance : Behavior Leaf Context := ⟨tick⟩

end Leaf

/-- A tree made for a ship. -/
abbrev ShipNode := Node Leaf

end Helm
