import Helm.Definition.Requirement
import Helm.Tree.Threshold
import Helm.Tree.Wheel

/-!
# Helm.Definition.Node

Tree definitions: plain data that a ship's tree is built from. A node is a leaf, a reference to
another tree, a composite of nodes or a decorator of at most one, and each carries the
requirement under which it takes part.
-/

namespace Helm

/-- The leaves that a definition may name, with their parameters. -/
inductive LeafKind where
  /-- A place left open; it always succeeds. -/
  | undefined
  | findEnemy (minCooldown maxCooldown : Float32) (inAttackRange ignoreDrones : Bool)
  | targetMothership
  | lookForSecondaryTargets (cooldown : Float32)
  | lookForThreats (cooldown : Float32)
  | moveToAttackRange (share multiplier : Float32)
  | maintainAttackRange (share tolerance : Float32)
  | isWithinAttackRange (share : Float32)
  | chase
  | stop
  | lookAtTarget
  | sustainAim
  | flyAroundMothership (minDistance maxDistance : Float32)
  | avoidThreats
  | haveIncomingThreat (timeToCollision : Float32)
  | attack
  | selectWeapon (kind : WeaponKind)
  | chargeWeapons
  | trackControllableAmmo
  | useRecoil
  | ram (useShipSystems : Bool)
  | detonateShip (inAttackRange : Bool)
  | haveEnoughEnergy (failIfLess : Float32)
  | rechargeEnergy (failIfLess restoreUntil : Float32)
  | activateDevice (kind : DeviceClass)
  | defendWithFrontalShield
  | spawnDrones
  | isLowOnHp (minValue : Float32)
  | isControlledByPlayer
  | mothershipRetreated
  | mothershipDestroyed
  | mothershipLowHp (minValue : Float32)
  | goBerserk
  | vanish
  | wait (cooldown : Float32) (resetIfInterrupted : Bool)
  | showMessage (text : String) (color : Option String)
  | debugLog (text : String)
  deriving DecidableEq, Repr

namespace LeafKind

/-- The word for a leaf. -/
def name : LeafKind → String
  | undefined => "Undefined"
  | findEnemy _ _ _ _ => "FindEnemy"
  | targetMothership => "TargetMothership"
  | lookForSecondaryTargets _ => "LookForSecondaryTargets"
  | lookForThreats _ => "LookForThreats"
  | moveToAttackRange _ _ => "MoveToAttackRange"
  | maintainAttackRange _ _ => "MaintainAttackRange"
  | isWithinAttackRange _ => "IsWithinAttackRange"
  | chase => "Chase"
  | stop => "Stop"
  | lookAtTarget => "LookAtTarget"
  | sustainAim => "SustainAim"
  | flyAroundMothership _ _ => "FlyAroundMothership"
  | avoidThreats => "AvoidThreats"
  | haveIncomingThreat _ => "HaveIncomingThreat"
  | attack => "Attack"
  | selectWeapon _ => "SelectWeapon"
  | chargeWeapons => "ChargeWeapons"
  | trackControllableAmmo => "TrackControllableAmmo"
  | useRecoil => "UseRecoil"
  | ram _ => "Ram"
  | detonateShip _ => "DetonateShip"
  | haveEnoughEnergy _ => "HaveEnoughEnergy"
  | rechargeEnergy _ _ => "RechargeEnergy"
  | activateDevice _ => "ActivateDevice"
  | defendWithFrontalShield => "DefendWithFrontalShield"
  | spawnDrones => "SpawnDrones"
  | isLowOnHp _ => "IsLowOnHp"
  | isControlledByPlayer => "IsControlledByPlayer"
  | mothershipRetreated => "MothershipRetreated"
  | mothershipDestroyed => "MothershipDestroyed"
  | mothershipLowHp _ => "MothershipLowHp"
  | goBerserk => "GoBerserk"
  | vanish => "Vanish"
  | wait _ _ => "Wait"
  | showMessage _ _ => "ShowMessage"
  | debugLog _ => "DebugLog"

/-- The numeric parameters of a leaf. -/
def parameters : LeafKind → List Float32
  | findEnemy minCooldown maxCooldown _ _ => [minCooldown, maxCooldown]
  | lookForSecondaryTargets cooldown => [cooldown]
  | lookForThreats cooldown => [cooldown]
  | moveToAttackRange share multiplier => [share, multiplier]
  | maintainAttackRange share tolerance => [share, tolerance]
  | isWithinAttackRange share => [share]
  | flyAroundMothership minDistance maxDistance => [minDistance, maxDistance]
  | haveIncomingThreat timeToCollision => [timeToCollision]
  | haveEnoughEnergy failIfLess => [failIfLess]
  | rechargeEnergy failIfLess restoreUntil => [failIfLess, restoreUntil]
  | isLowOnHp minValue => [minValue]
  | mothershipLowHp minValue => [minValue]
  | wait cooldown _ => [cooldown]
  | _ => []

end LeafKind

/-- The composites that a definition may name. -/
inductive GroupKind where
  | selector
  | sequence
  /-- With a policy of its own, or else the policy of the tree it is written in. -/
  | parallel (policy : Option ParallelPolicy)
  | random (mode : RandomMode) (cooldown : Float32) (policy : RandomPolicy)
  deriving DecidableEq, Repr

namespace GroupKind

/-- The word for a composite. -/
def name : GroupKind → String
  | selector => "Selector"
  | sequence => "Sequence"
  | parallel _ => "Parallel"
  | random .selector _ _ => "RandomSelector"
  | random .executor _ _ => "RandomExecutor"

/-- The numeric parameters of a composite. -/
def parameters : GroupKind → List Float32
  | random _ cooldown _ => [cooldown]
  | _ => []

end GroupKind

/-- The decorators that a definition may name. -/
inductive WrapperKind where
  | inverter
  | constantResult (result : Status)
  | completeOnce (result : Status)
  deriving DecidableEq, Repr

namespace WrapperKind

/-- The word for a decorator. -/
def name : WrapperKind → String
  | inverter => "Inverter"
  | constantResult _ => "ConstantResult"
  | completeOnce _ => "CompleteOnce"

end WrapperKind

/-- A node of a tree definition. -/
inductive NodeDefinition where
  | leaf (requirement : Requirement) (kind : LeafKind)
  /-- The root of the tree that goes by the name. -/
  | subTree (requirement : Requirement) (tree : String)
  | group (requirement : Requirement) (kind : GroupKind) (nodes : List NodeDefinition)
  | wrapper (requirement : Requirement) (kind : WrapperKind) (node : Option NodeDefinition)
  deriving Repr

namespace NodeDefinition

instance : Inhabited NodeDefinition := ⟨leaf .always .undefined⟩

/-- Induction over definitions, with the statement for every node directly below. -/
@[elab_as_elim, induction_eliminator]
theorem induct {motive : NodeDefinition → Prop} (leaf : ∀ r kind, motive (leaf r kind))
    (subTree : ∀ r tree, motive (subTree r tree))
    (group : ∀ r kind nodes, (∀ node ∈ nodes, motive node) → motive (group r kind nodes))
    (bare : ∀ r kind, motive (wrapper r kind none))
    (wrapper : ∀ r kind node, motive node → motive (wrapper r kind (some node)))
    (node : NodeDefinition) : motive node :=
  @NodeDefinition.rec motive (fun nodes => ∀ node ∈ nodes, motive node)
    (fun node => ∀ r kind, motive (.wrapper r kind node)) leaf subTree group
    (fun r kind _ h => h r kind) (fun _ h => absurd h List.not_mem_nil)
    (fun _ _ head tail => List.forall_mem_cons.mpr ⟨head, tail⟩) bare
    (fun node h r kind => wrapper r kind node h) node

/-- The condition under which the node takes part. -/
def requirement : NodeDefinition → Requirement
  | leaf r _ => r
  | subTree r _ => r
  | group r _ _ => r
  | wrapper r _ _ => r

/-- The word for the kind of the node. -/
def name : NodeDefinition → String
  | leaf _ kind => kind.name
  | subTree _ _ => "SubTree"
  | group _ kind _ => kind.name
  | wrapper _ kind _ => kind.name

/-- The nodes directly below. -/
def children : NodeDefinition → List NodeDefinition
  | group _ _ nodes => nodes
  | wrapper _ _ node => node.toList
  | _ => []

/-- The numeric parameters of the node itself. -/
def parameters : NodeDefinition → List Float32
  | leaf _ kind => kind.parameters
  | group _ kind _ => kind.parameters
  | _ => []

mutual

/-- The names of the trees referred to in a node, from the root down and from left to right. -/
def references : NodeDefinition → List String
  | leaf _ _ => []
  | subTree _ tree => [tree]
  | group _ _ nodes => referencesOfAll nodes
  | wrapper _ _ none => []
  | wrapper _ _ (some node) => references node

/-- The names of the trees referred to in a list of nodes. -/
def referencesOfAll : List NodeDefinition → List String
  | [] => []
  | node :: rest => references node ++ referencesOfAll rest

end

mutual

/-- The nodes of a definition with their depth, each before those below it. -/
def outline (depth : Nat) : NodeDefinition → List (Nat × NodeDefinition)
  | leaf r kind => [(depth, leaf r kind)]
  | subTree r tree => [(depth, subTree r tree)]
  | group r kind nodes => (depth, group r kind nodes) :: outlineOfAll (depth + 1) nodes
  | wrapper r kind none => [(depth, wrapper r kind none)]
  | wrapper r kind (some node) =>
    (depth, wrapper r kind (some node)) :: outline (depth + 1) node

/-- The nodes of a list of definitions with their depth. -/
def outlineOfAll (depth : Nat) : List NodeDefinition → List (Nat × NodeDefinition)
  | [] => []
  | node :: rest => outline depth node ++ outlineOfAll depth rest

end

end NodeDefinition

/-- A whole tree. -/
structure TreeDefinition where
  /-- The policy of parallel nodes that have none of their own. -/
  parallelPolicy : ParallelPolicy := .requireAll
  root : Option NodeDefinition := none
  deriving Repr

namespace TreeDefinition

instance : Inhabited TreeDefinition := ⟨{}⟩

/-- The names of the trees referred to anywhere in a tree. -/
def references (t : TreeDefinition) : List String :=
  match t.root with
  | some root => root.references
  | none => []

/-- The nodes of a tree with their depth, each before those below it. -/
def outline (t : TreeDefinition) : List (Nat × NodeDefinition) :=
  match t.root with
  | some root => root.outline 0
  | none => []

end TreeDefinition

end Helm
