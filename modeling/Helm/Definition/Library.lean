import Helm.Data.Table
import Helm.Definition.Node

/-!
# Helm.Definition.Library

Libraries of named trees, which are the targets of references, and a check of a library for
trees without a root, references to trees that are not there, and cycles of references. Each
cycle is reported once, from its alphabetically first member on.
-/

namespace Helm

/-- Trees by name. -/
abbrev TreeLibrary := Table String TreeDefinition

/-- Something wrong with a library. -/
inductive TreeIssue where
  | unknownSubTree (tree missing : String)
  /-- The names along a cycle; the last is the first again. -/
  | subTreeCycle (path : List String)
  | emptyTree (tree : String)
  deriving DecidableEq, Repr

namespace TreeIssue

/-- The wording of an issue. -/
def message : TreeIssue → String
  | unknownSubTree tree missing =>
    "tree '" ++ tree ++ "' references unknown sub-tree '" ++ missing ++ "'"
  | subTreeCycle path => "sub-tree cycle: " ++ " -> ".intercalate path
  | emptyTree tree => "tree '" ++ tree ++ "' has no root node"

end TreeIssue

namespace TreeLibrary

/-- The wording for a root tree that the library does not hold. -/
def unknownRoot (name : String) : String := "tree library has no tree named '" ++ name ++ "'"

/-- The issues of one tree: no root, and references to trees that the library does not hold. -/
def treeIssues (library : TreeLibrary) (name : String) (tree : TreeDefinition) : List TreeIssue :=
  let empty := if tree.root.isNone then [TreeIssue.emptyTree name] else []
  let missing := tree.references.filter fun target => !library.contains target
  empty ++ missing.map (TreeIssue.unknownSubTree name)

/-- True when the first of the names is the least. -/
def startsLeast (cycle : List String) : Bool :=
  match cycle with
  | [] => true
  | first :: rest => rest.all fun name => !decide (name < first)

/--
Reports the cycle that the reference from the end of a path back to `target` on it closes,
unless it starts elsewhere than at its least name or has been reported before.
-/
def closeCycle (path : List String) (target : String) (reported : List (List String)) :
    List (List String) :=
  let cycle := path.dropWhile (· ≠ target)
  let closed := cycle ++ [target]
  if startsLeast cycle && !reported.contains closed then reported ++ [closed] else reported

/-- The names referred to in the library's tree of a name. -/
def referencesOf (library : TreeLibrary) (name : String) : List String :=
  match library.get? name with
  | some tree => tree.references
  | none => []

/--
Follows references from the end of a path through every continuation that repeats no name, and
reports the cycles met. The path may grow by at most `room` names.
-/
def searchCycles (library : TreeLibrary) :
    Nat → List String → String → List (List String) → List (List String)
  | 0, path, last, reported =>
    (library.referencesOf last).foldl
      (fun reported target =>
        if target ∈ path then closeCycle path target reported else reported)
      reported
  | room + 1, path, last, reported =>
    (library.referencesOf last).foldl
      (fun reported target =>
        if target ∈ path then closeCycle path target reported
        else if library.contains target then
          searchCycles library room (path ++ [target]) target reported
        else reported)
      reported

/-- All cycles of references, each from its least name to itself. -/
def cycles (library : TreeLibrary) : List (List String) :=
  library.keys.foldl
    (fun reported name => library.searchCycles library.size [name] name reported)
    []

/-- Everything wrong with a library, tree by tree, and then its cycles. -/
def validate (library : TreeLibrary) : List TreeIssue :=
  (library.entries.flatMap fun entry => library.treeIssues entry.1 entry.2) ++
    library.cycles.map TreeIssue.subTreeCycle

end TreeLibrary

end Helm
