import Helm.Status

/-!
# Helm.Tree.Threshold

How many children of a parallel node have to succeed, and the status that follows from the
statuses of the children. `ParallelPolicy.verdict` is success once enough children have
succeeded, running while the running ones could still make up the number, and failure else.
-/

namespace Helm

/-- How many children of a parallel node must succeed. -/
inductive ParallelPolicy where
  | requireAll
  | requireAny
  /-- This many, or all when there are fewer. -/
  | requireCount (count : Nat)
  deriving DecidableEq, Repr, Inhabited

namespace ParallelPolicy

/-- The number of successes needed out of `children` children. -/
def required : ParallelPolicy → Nat → Nat
  | requireAll, children => children
  | requireAny, children => min children 1
  | requireCount count, children => min count children

theorem required_le (policy : ParallelPolicy) (children : Nat) :
    policy.required children ≤ children := by
  cases policy with
  | requireAll => exact Nat.le_refl _
  | requireAny => exact Nat.min_le_left _ _
  | requireCount => exact Nat.min_le_right _ _

/-- The status of a parallel node whose children gave these statuses. -/
def verdict (policy : ParallelPolicy) (statuses : List Status) : Status :=
  let needed := policy.required statuses.length
  let successes := statuses.count .success
  if needed ≤ successes then .success
  else if needed ≤ successes + statuses.count .running then .running
  else .failure

/-- The policy as it is written in a tree definition. -/
def text : ParallelPolicy → String
  | requireAll => "RequireAll"
  | requireAny => "RequireAny"
  | requireCount count => "RequireCount(" ++ toString count ++ ")"

end ParallelPolicy

end Helm
