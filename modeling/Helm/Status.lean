/-!
# Helm.Status

The three results a node of a behaviour tree can give. `Status.invert` swaps the two final
results and is its own inverse.
-/

namespace Helm

/-- What a node reports for one tick. -/
inductive Status where
  | success
  | failure
  | running
  deriving DecidableEq, Repr, Inhabited

namespace Status

/-- A final result: the node has nothing left to do. -/
def isTerminal : Status → Bool
  | success | failure => true
  | running => false

/-- Swaps success and failure; running stays. -/
def invert : Status → Status
  | success => failure
  | failure => success
  | running => running

@[simp] theorem invert_invert (s : Status) : s.invert.invert = s := by cases s <;> rfl

/-- The word for a status in a tree definition. -/
def name : Status → String
  | success => "Success"
  | failure => "Failure"
  | running => "Running"

/-- Every status, in the order of declaration. -/
def all : List Status := [success, failure, running]

/-- The status a word names. -/
def ofName? (word : String) : Option Status := all.find? (·.name == word)

end Status

end Helm
