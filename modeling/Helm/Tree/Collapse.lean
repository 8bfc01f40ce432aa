import Helm.Tree.Node

/-!
# Helm.Tree.Collapse

Constructors that leave constant branches out. They keep the meaning of the plain ones:

* a sequence drops children that always succeed and ends at one that always fails, and a
  selector does the same with the roles exchanged;
* a composite of no children becomes a constant leaf and one of a single child that child;
* a decorator around a constant leaf becomes a constant leaf where its result is known.
-/

namespace Helm.Collapse

variable {L : Type}

/-- Drops children that always give `skip`, and all that follow one that always gives `stop`. -/
def keep (skip stop : Status) : List (Node L) → List (Node L)
  | [] => []
  | child :: rest =>
    if child.constant? = some skip then keep skip stop rest
    else if child.constant? = some stop then [child]
    else child :: keep skip stop rest

/-- Unwraps a single child, and puts `empty` for none. -/
def unwrap (empty : Node L) (make : List (Node L) → Node L) : List (Node L) → Node L
  | [] => empty
  | [child] => child
  | children => make children

/-- A sequence without constant children, but for a failing one at the end. -/
def sequence (children : List (Node L)) : Node L :=
  unwrap .alwaysSuccess .sequence (keep .success .failure children)

/-- A selector without constant children, but for a succeeding one at the end. -/
def selector (children : List (Node L)) : Node L :=
  unwrap .alwaysFailure .selector (keep .failure .success children)

/-- A parallel node of at least two children. -/
def parallel (policy : ParallelPolicy) (children : List (Node L)) : Node L :=
  unwrap .alwaysSuccess (.parallel policy) children

/-- A random selector of at least two children. -/
def random (cooldown : Float32) (mode : RandomMode) (policy : RandomPolicy)
    (children : List (Node L)) : Node L :=
  unwrap .alwaysFailure (Node.freshRandom cooldown mode policy) children

/-- An inverter; a constant child is inverted in place. -/
def inverter (child : Node L) : Node L :=
  match child.constant? with
  | some .success => .alwaysFailure
  | some .failure => .alwaysSuccess
  | _ => .inverter child

/-- A result override; a constant child gives way to the result where that is final. -/
def constantResult (result : Status) (child : Node L) : Node L :=
  match child.constant?, result with
  | some _, .success => .alwaysSuccess
  | some _, .failure => .alwaysFailure
  | _, _ => .constantResult result child

/-- A one-shot latch; around a constant child with the same result it is left out. -/
def completeOnce (result : Status) (child : Node L) : Node L :=
  if child.constant? = some result then child else .completeOnce result false child

end Helm.Collapse
