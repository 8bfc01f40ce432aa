import Helm.Number.Shortest
import Helm.Pilot.Outfit
import Helm.Tree.Collapse

/-!
# Helm.Pilot.Builder

Building a ship's tree from a definition. Whatever cannot be built becomes a leaf that always
fails: a missing node, a node whose requirement is not met or that has a parameter that is not
finite, and a reference to a tree that is unknown or still open. The last three leave a warning.

`Outfit.buildNode` works through a definition with a function that enters referenced trees.
`Outfit.enter` is that function: a tree is open while it is built, and an open tree is not
entered again, so that entering at most as many trees inside each other as the library holds is
enough.
-/

namespace Helm

/-- Something in a definition that could not be built. -/
inductive BuildWarning where
  | unknownSubTree (name : String)
  /-- A reference to an open tree, with all the open ones. -/
  | subTreeCycle (openTrees : List String) (name : String)
  | notFinite (kind : String) (parameters : List Float32)
  deriving DecidableEq, Repr

namespace BuildWarning

/-- The wording of a warning about a ship's tree. -/
def message (ship : ShipId) : BuildWarning → String
  | unknownSubTree name => "Ship " ++ ship.text ++ ": unknown sub-tree '" ++ name ++ "'"
  | subTreeCycle openTrees name =>
    "Ship " ++ ship.text ++ ": sub-tree cycle " ++ " -> ".intercalate openTrees ++ " -> " ++ name
  | notFinite kind parameters =>
    "Ship " ++ ship.text ++ ": " ++ kind ++ " node has a non-finite parameter " ++
      Shortest.listText parameters

end BuildWarning

/-- What a builder keeps in mind from one node to the next. -/
structure Builder where
  /-- The policy of parallel nodes that have none of their own. -/
  policy : ParallelPolicy := .requireAll
  /-- The names of the trees being built, the outermost first. -/
  openTrees : List String := []
  dice : Dice
  /-- What could not be built so far. -/
  warnings : List BuildWarning := []
  deriving DecidableEq, Repr

namespace Builder

/-- Notes a warning. -/
def warn (b : Builder) (warning : BuildWarning) : Builder :=
  { b with warnings := b.warnings ++ [warning] }

/-- Opens a tree. -/
def opening (b : Builder) (name : String) : Builder :=
  { b with openTrees := b.openTrees ++ [name] }

/-- Closes the innermost open tree. -/
def closing (b : Builder) : Builder := { b with openTrees := b.openTrees.dropLast }

end Builder

/-- A node that has been built, with the builder afterwards. -/
abbrev Built := Except Fault (ShipNode × Builder)

/-- A leaf that always fails, in place of what could not be built. -/
def unbuilt (b : Builder) : Built := .ok (.alwaysFailure, b)

namespace GroupKind

/-- The constant status after which further children cannot matter. -/
def stop? : GroupKind → Option Status
  | selector => some .success
  | sequence => some .failure
  | parallel _ => none
  | random _ _ _ => none

/-- Puts children together; parallel nodes without a policy have `policy`. -/
def assemble (policy : ParallelPolicy) : GroupKind → List ShipNode → ShipNode
  | selector, children => Collapse.selector children
  | sequence, children => Collapse.sequence children
  | parallel own, children => Collapse.parallel (own.getD policy) children
  | random mode cooldown choice, children => Collapse.random cooldown mode choice children

end GroupKind

/-- Puts a decorator around a child. -/
def WrapperKind.wrap : WrapperKind → ShipNode → ShipNode
  | inverter, child => Collapse.inverter child
  | constantResult result, child => Collapse.constantResult result child
  | completeOnce result, child => Collapse.completeOnce result child

namespace Outfit

/-- Goes on with a node whose requirement is met and whose parameters are finite. -/
def guarded (o : Outfit) (node : NodeDefinition) (b : Builder) (go : Builder → Built) :
    Built :=
  if !node.requirement.isMet o.loadout o.settings then unbuilt b
  else if node.parameters.any fun x => !x.isFinite then
    unbuilt (b.warn (.notFinite node.name node.parameters))
  else go b

section Nodes

variable (o : Outfit) (enter : String → Builder → Built)

mutual

/-- Builds a node, entering the trees it refers to with `enter`. -/
def buildNode : NodeDefinition → Builder → Built
  | .leaf r kind, b =>
    o.guarded (.leaf r kind) b fun b => do
      let (roll, dice) ← kind.roll b.dice
      return (o.fit roll kind, { b with dice := dice })
  | .subTree r tree, b => o.guarded (.subTree r tree) b (enter tree)
  | .group r kind nodes, b =>
    o.guarded (.group r kind nodes) b fun b => do
      let (children, after) ← buildNodes kind.stop? nodes b
      return (kind.assemble b.policy children, after)
  | .wrapper r kind none, b =>
    o.guarded (.wrapper r kind none) b fun b => .ok (kind.wrap .alwaysFailure, b)
  | .wrapper r kind (some node), b =>
    o.guarded (.wrapper r kind (some node)) b fun b => do
      let (child, b) ← buildNode node b
      return (kind.wrap child, b)

/-- Builds nodes in order, up to one that always gives `stop`. -/
def buildNodes (stop : Option Status) :
    List NodeDefinition → Builder → Except Fault (List ShipNode × Builder)
  | [], b => .ok ([], b)
  | node :: rest, b => do
    let (child, b) ← buildNode node b
    if stop.isSome && child.constant? = stop then return ([child], b)
    else
      let (children, b) ← buildNodes stop rest b
      return (child :: children, b)

end

/-- Builds a node that may be missing. -/
def buildOptional (node : Option NodeDefinition) (b : Builder) : Built :=
  match node with
  | none => unbuilt b
  | some node => o.buildNode enter node b

/-- Builds the root of a tree under the tree's own policy. -/
def buildRoot (tree : TreeDefinition) (b : Builder) : Built := do
  let (node, after) ← o.buildOptional enter tree.root { b with policy := tree.parallelPolicy }
  return (node, { after with policy := b.policy })

end Nodes

/-- Builds the tree of a name, with at most `room` trees inside each other. -/
def enter (o : Outfit) (room : Nat) (name : String) (b : Builder) : Built :=
  match o.tree? name with
  | none => unbuilt (b.warn (.unknownSubTree name))
  | some tree =>
    if name ∈ b.openTrees then unbuilt (b.warn (.subTreeCycle b.openTrees name))
    else
      match room with
      | 0 => unbuilt b
      | room + 1 => do
        let (node, b) ← o.buildRoot (enter o room) tree (b.opening name)
        return (node, b.closing)

/-! ## Entry points -/

/-- The builder that has not built anything. -/
def builder (o : Outfit) (unseeded : Purpose → Dice) : Builder :=
  { dice := o.dice unseeded .build }

/-- Builds a node, if there is one. -/
def build (o : Outfit) (node : Option NodeDefinition) (b : Builder) : Built :=
  o.buildOptional (o.enter o.treeCount) node b

/-- Builds a whole tree. -/
def buildTree (o : Outfit) (tree : TreeDefinition) (b : Builder) : Built :=
  o.buildRoot (o.enter o.treeCount) tree b

/-- Builds the tree of a name. -/
def buildNamed (o : Outfit) (name : String) (b : Builder) : Built :=
  o.enter o.treeCount name b

end Outfit

end Helm
