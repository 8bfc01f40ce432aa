import Helm.Tree.Threshold
import Helm.Tree.Wheel

/-!
# Helm.Tree.Node

Behaviour trees and their evaluation. A `Node L` is a tree over leaves of type `L`; what a leaf
does to a context of type `C` is given by an instance of `Behavior L C`. `Node.tick` evaluates
a tree once and gives its status, the tree with the state it keeps for the next tick, and the
context.

* A sequence ticks its children in order and stops at the first that does not succeed; a
  selector stops at the first that does not fail. Neither keeps a place between ticks.
* A parallel node ticks all of its children and counts.
* A random selector ticks the child its wheel is on.
* A one-shot latch passes its child's status on until that is final, and from then on gives its
  own result without ticking the child.
-/

namespace Helm

/-- A context with a clock and a random source. -/
class TickContext (C : Type) extends WordSource C where
  /-- Elapsed time in seconds. -/
  time : C → Float32

/-- What one tick of a leaf does: its status, its state afterwards, and the context. -/
class Behavior (L C : Type) where
  tick : L → C → Except Fault (Status × L × C)

/-- A behaviour tree over leaves of type `L`. -/
inductive Node (L : Type) where
  /-- A leaf with behaviour of its own. -/
  | leaf (leaf : L)
  /-- The leaf that always gives success. -/
  | alwaysSuccess
  /-- The leaf that always gives failure. -/
  | alwaysFailure
  | sequence (children : List (Node L))
  | selector (children : List (Node L))
  | parallel (policy : ParallelPolicy) (children : List (Node L))
  | randomSelector (wheel : Wheel) (children : List (Node L))
  | inverter (child : Node L)
  /-- Gives `result` whenever the child gives a final result. -/
  | constantResult (result : Status) (child : Node L)
  /-- Gives `result` once the child has given a final result. -/
  | completeOnce (result : Status) (completed : Bool) (child : Node L)
  deriving Repr

namespace Node

variable {L C : Type}

/-- Induction over trees, with the statement for every child of a composite. -/
@[elab_as_elim, induction_eliminator]
theorem induct {motive : Node L → Prop} (leaf : ∀ l, motive (leaf l))
    (alwaysSuccess : motive alwaysSuccess) (alwaysFailure : motive alwaysFailure)
    (sequence : ∀ children, (∀ child ∈ children, motive child) → motive (sequence children))
    (selector : ∀ children, (∀ child ∈ children, motive child) → motive (selector children))
    (parallel : ∀ policy children, (∀ child ∈ children, motive child) →
      motive (parallel policy children))
    (randomSelector : ∀ wheel children, (∀ child ∈ children, motive child) →
      motive (randomSelector wheel children))
    (inverter : ∀ child, motive child → motive (inverter child))
    (constantResult : ∀ result child, motive child → motive (constantResult result child))
    (completeOnce : ∀ result completed child, motive child →
      motive (completeOnce result completed child))
    (node : Node L) : motive node :=
  @Node.rec L motive (fun children => ∀ child ∈ children, motive child) leaf alwaysSuccess
    alwaysFailure sequence selector parallel randomSelector inverter constantResult completeOnce
    (fun _ h => absurd h List.not_mem_nil)
    (fun _ _ head tail _ h => (List.mem_cons.mp h).elim (fun e => e ▸ head) (tail _)) node

/-- The status a node gives on every tick, where that is plain from its kind. -/
def constant? : Node L → Option Status
  | alwaysSuccess => some .success
  | alwaysFailure => some .failure
  | _ => none

/-- The name of a node in diagnostics. -/
def name (leafName : L → String) : Node L → String
  | leaf l => leafName l
  | alwaysSuccess => "AlwaysSuccess"
  | alwaysFailure => "AlwaysFailure"
  | sequence _ => "Sequence"
  | selector _ => "Selector"
  | parallel _ _ => "Parallel"
  | randomSelector _ _ => "RandomSelector"
  | inverter _ => "Inverter"
  | constantResult _ _ => "ConstantResult"
  | completeOnce _ _ _ => "CompleteOnce"

section Tick

variable [Behavior L C] [TickContext C]

mutual

/-- Evaluates a node once. -/
def tick : Node L → C → Except Fault (Status × Node L × C)
  | leaf l, c => do
    let (status, l, c) ← Behavior.tick l c
    return (status, leaf l, c)
  | alwaysSuccess, c => .ok (.success, alwaysSuccess, c)
  | alwaysFailure, c => .ok (.failure, alwaysFailure, c)
  | sequence children, c => do
    let (status, children, c) ← tickWhile .success children c
    return (status, sequence children, c)
  | selector children, c => do
    let (status, children, c) ← tickWhile .failure children c
    return (status, selector children, c)
  | parallel policy children, c => do
    let (statuses, children, c) ← tickAll children c
    return (policy.verdict statuses, parallel policy children, c)
  | randomSelector wheel children, c => do
    let (index, wheel, c) ← wheel.turn (TickContext.time c) c
    let (status, children, c) ← tickAt index children c
    return (status, randomSelector (wheel.record status) children, c)
  | inverter child, c => do
    let (status, child, c) ← tick child c
    return (status.invert, inverter child, c)
  | constantResult result child, c => do
    let (status, child, c) ← tick child c
    return (if status = .running then .running else result, constantResult result child, c)
  | completeOnce result completed child, c =>
    if completed then .ok (result, completeOnce result completed child, c)
    else do
      let (status, child, c) ← tick child c
      return (status, completeOnce result status.isTerminal child, c)

/-- Ticks children in order as long as each gives `go`; the status is the last one given. -/
def tickWhile (go : Status) : List (Node L) → C → Except Fault (Status × List (Node L) × C)
  | [], c => .ok (go, [], c)
  | child :: rest, c => do
    let (status, child, c) ← tick child c
    if status = go then
      let (status, rest, c) ← tickWhile go rest c
      return (status, child :: rest, c)
    else return (status, child :: rest, c)

/-- Ticks every child in order, and gives all their statuses. -/
def tickAll : List (Node L) → C → Except Fault (List Status × List (Node L) × C)
  | [], c => .ok ([], [], c)
  | child :: rest, c => do
    let (status, child, c) ← tick child c
    let (statuses, rest, c) ← tickAll rest c
    return (status :: statuses, child :: rest, c)

/-- Ticks the child at a position. -/
def tickAt : Nat → List (Node L) → C → Except Fault (Status × List (Node L) × C)
  | _, [], _ => .error .emptyRange
  | 0, child :: rest, c => do
    let (status, child, c) ← tick child c
    return (status, child :: rest, c)
  | index + 1, child :: rest, c => do
    let (status, rest, c) ← tickAt index rest c
    return (status, child :: rest, c)

end

end Tick

/-! ## Checked construction -/

/-- A composite over children, refused when there are none. -/
def ofChildren (kind : CompositeKind) (make : List (Node L) → Node L) (children : List (Node L)) :
    Except Fault (Node L) :=
  if children.isEmpty then .error (.childless kind) else .ok (make children)

/-- A sequence over at least one child. -/
def sequenceOf : List (Node L) → Except Fault (Node L) := ofChildren .sequence sequence

/-- A selector over at least one child. -/
def selectorOf : List (Node L) → Except Fault (Node L) := ofChildren .selector selector

/-- A parallel node over at least one child. -/
def parallelOf (policy : ParallelPolicy) : List (Node L) → Except Fault (Node L) :=
  ofChildren .parallel (parallel policy)

/-- The random selector that has not been rolled yet. -/
def freshRandom (cooldown : Float32) (mode : RandomMode) (policy : RandomPolicy)
    (children : List (Node L)) : Node L :=
  randomSelector (Wheel.create children.length cooldown mode policy) children

/-- A random selector over at least one child. -/
def randomOf (cooldown : Float32) (mode : RandomMode) (policy : RandomPolicy) :
    List (Node L) → Except Fault (Node L) :=
  ofChildren .randomSelector (freshRandom cooldown mode policy)

end Node

end Helm
