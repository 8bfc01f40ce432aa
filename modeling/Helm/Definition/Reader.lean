import Helm.Definition.Library
import Helm.Ron.Value

/-!
# Helm.Definition.Reader

Reads requirements, nodes, trees and libraries from RON. A node is a record of its kind and its
requirement; the kind is a choice of a word, and most kinds go on with fields of their own.
-/

namespace Helm

open Ron

/-! ## Words -/

/-- Reads a status. -/
def Status.reader : Reader Status := word "Status" Status.ofName?

/-- Reads a kind of weapon. -/
def WeaponKind.reader : Reader WeaponKind := word "WeaponType" WeaponKind.ofName?

/-- Reads a class of devices. -/
def DeviceClass.reader : Reader DeviceClass := word "DeviceClass" DeviceClass.ofName?

/-- Reads a level. -/
def Level.reader : Reader Level := word "AiLevel" Level.ofName?

/-- Reads the policy of a parallel node. -/
def ParallelPolicy.reader : Reader ParallelPolicy :=
  choice "ParallelPolicy" fun
    | "RequireAll" => some (pure .requireAll)
    | "RequireAny" => some (pure .requireAny)
    | "RequireCount" => some (do return .requireCount (← payload (natural 64)))
    | _ => none

/-- Reads how a random selector draws. -/
def RandomPolicy.reader : Reader RandomPolicy :=
  choice "RandomPolicy" fun
    | "Uniform" => some (pure .uniform)
    | "NoRepeat" => some (pure .noRepeat)
    | "Weighted" => some (do return .weighted (← payload (list (natural 32))))
    | _ => none

/-! ## Requirements -/

/-- Reads a requirement of at most `room` levels. -/
def Requirement.readerWithin : Nat → Reader Requirement
  | 0 => refuse
  | room + 1 =>
    let items : Reader (List Requirement) := payload (list (readerWithin room))
    choice "Requirement" fun
      | "Always" => some (pure .always)
      | "All" => some (do return .all (← items))
      | "Any" => some (do return .any (← items))
      | "None" => some (do return .noneOf (← items))
      | "Not" => some (do return .not (← payload (readerWithin room)))
      | "AiLevel" => some do
        let lowest := Layout.fieldOr "min" Level.reader .easy
        let highest := Layout.fieldOr "max" Level.reader .expert
        let (lowest, highest) ← payloadFields "AiLevel" (lowest.and highest)
        return .level lowest highest
      | "HasWeapons" => some (pure .hasWeapons)
      | "HasWeaponType" => some (do return .hasWeapon (← payload WeaponKind.reader))
      | "HasDevice" => some (do return .hasDevice (← payload DeviceClass.reader))
      | "HasDroneBays" => some (pure .hasDroneBays)
      | "IsDrone" => some (pure .isDrone)
      | "IsShip" => some (pure .isShip)
      | _ => none

/-- Reads a requirement. -/
def Requirement.reader : Reader Requirement := Requirement.readerWithin (depthLimit + 1)

/-! ## Kinds of leaves -/

namespace LeafKind

/-- A number that has to be given. -/
def number (name : String) : Layout Float32 := .field name single

/-- A number that may be left out. -/
def numberOr (name : String) (default : Float32) : Layout Float32 := .fieldOr name single default

/-- A flag that is off unless given. -/
def switch (name : String) : Layout Bool := .fieldOr name flag false

/-- A text that has to be given. -/
def wording (name : String) : Layout String := .field name text

/-- What the word for a leaf goes on with; none for a word of another kind. -/
def reader? (name : String) : Option (Reader LeafKind) :=
  let plain (kind : LeafKind) : Option (Reader LeafKind) := some (pure kind)
  let one {α : Type} (layout : Layout α) (make : α → LeafKind) : Option (Reader LeafKind) :=
    some (make <$> payloadFields name layout)
  let two {α β : Type} (first : Layout α) (second : Layout β) (make : α → β → LeafKind) :
      Option (Reader LeafKind) :=
    one (first.and second) fun values => make values.1 values.2
  match name with
  | "Undefined" => plain .undefined
  | "FindEnemy" =>
    two ((number "min_cooldown").and (number "max_cooldown"))
      ((switch "in_attack_range").and (switch "ignore_drones"))
      fun cooldowns options => .findEnemy cooldowns.1 cooldowns.2 options.1 options.2
  | "TargetMothership" => plain .targetMothership
  | "LookForSecondaryTargets" => one (number "cooldown") .lookForSecondaryTargets
  | "LookForThreats" => one (number "cooldown") .lookForThreats
  | "MoveToAttackRange" =>
    two (numberOr "min_max_lerp" 0) (numberOr "multiplier" 0) .moveToAttackRange
  | "MaintainAttackRange" =>
    two (numberOr "min_max_lerp" 0) (numberOr "tolerance" 0.1) .maintainAttackRange
  | "IsWithinAttackRange" => one (numberOr "min_max_lerp" 0) .isWithinAttackRange
  | "Chase" => plain .chase
  | "Stop" => plain .stop
  | "LookAtTarget" => plain .lookAtTarget
  | "SustainAim" => plain .sustainAim
  | "FlyAroundMothership" =>
    two (number "min_distance") (number "max_distance") .flyAroundMothership
  | "AvoidThreats" => plain .avoidThreats
  | "HaveIncomingThreat" => one (number "time_to_collision") .haveIncomingThreat
  | "Attack" => plain .attack
  | "SelectWeapon" => one (.field "weapon_type" WeaponKind.reader) .selectWeapon
  | "ChargeWeapons" => plain .chargeWeapons
  | "TrackControllableAmmo" => plain .trackControllableAmmo
  | "UseRecoil" => plain .useRecoil
  | "Ram" => one (switch "use_ship_systems") .ram
  | "DetonateShip" => one (switch "in_attack_range") .detonateShip
  | "HaveEnoughEnergy" => one (number "fail_if_less") .haveEnoughEnergy
  | "RechargeEnergy" => two (number "fail_if_less") (number "restore_until") .rechargeEnergy
  | "ActivateDevice" => one (.field "device_class" DeviceClass.reader) .activateDevice
  | "DefendWithFrontalShield" => plain .defendWithFrontalShield
  | "SpawnDrones" => plain .spawnDrones
  | "IsLowOnHp" => one (number "min_value") .isLowOnHp
  | "IsControlledByPlayer" => plain .isControlledByPlayer
  | "MothershipRetreated" => plain .mothershipRetreated
  | "MothershipDestroyed" => plain .mothershipDestroyed
  | "MothershipLowHp" => one (number "min_value") .mothershipLowHp
  | "GoBerserk" => plain .goBerserk
  | "Vanish" => plain .vanish
  | "Wait" => two (number "cooldown") (switch "reset_if_interrupted") .wait
  | "ShowMessage" =>
    two (wording "text") (.fieldOr "color" (optional text) none) .showMessage
  | "DebugLog" => one (wording "text") .debugLog
  | _ => none

end LeafKind

/-! ## Nodes, trees and libraries -/

namespace NodeDefinition

/-- What a node is, apart from its requirement. -/
abbrev Shape := Requirement → NodeDefinition

/-- What the word for a kind of node goes on with, given the reader of the nodes below. -/
def shape? (node : Reader NodeDefinition) (name : String) : Option (Reader Shape) :=
  let shaped {σ : Type} (layout : Layout σ) (make : σ → Shape) : Option (Reader Shape) :=
    some (make <$> payloadFields name layout)
  let nodes : Layout (List NodeDefinition) := .field "nodes" (list node)
  let child : Layout (Option NodeDefinition) := .fieldOr "node" (optional node) none
  let random (mode : RandomMode) : Option (Reader Shape) :=
    shaped
      (nodes.and ((Layout.field "cooldown" single).and
        (.fieldOr "policy" RandomPolicy.reader .uniform)))
      fun (nodes, cooldown, policy) requirement =>
        .group requirement (.random mode cooldown policy) nodes
  match name with
  | "SubTree" => shaped (.field "tree" text) fun tree requirement => .subTree requirement tree
  | "Selector" => shaped nodes fun nodes requirement => .group requirement .selector nodes
  | "Sequence" => shaped nodes fun nodes requirement => .group requirement .sequence nodes
  | "Parallel" =>
    shaped (nodes.and (.fieldOr "policy" (optional ParallelPolicy.reader) none))
      fun (nodes, policy) requirement => .group requirement (.parallel policy) nodes
  | "RandomSelector" => random .selector
  | "RandomExecutor" => random .executor
  | "Inverter" => shaped child fun node requirement => .wrapper requirement .inverter node
  | "ConstantResult" =>
    shaped (child.and (.field "result" Status.reader)) fun (node, result) requirement =>
      .wrapper requirement (.constantResult result) node
  | "CompleteOnce" =>
    shaped (child.and (.fieldOr "result" Status.reader .success)) fun (node, result) requirement =>
      .wrapper requirement (.completeOnce result) node
  | _ =>
    (LeafKind.reader? name).map fun reader => do
      let kind ← reader
      return fun requirement => .leaf requirement kind

/-- Reads a node of at most `room` levels. -/
def readerWithin : Nat → Reader NodeDefinition
  | 0 => refuse
  | room + 1 => do
    let requirement := Layout.fieldOr "requirement" Requirement.reader .always
    let kind := Layout.field "kind" (choice "NodeKind" (shape? (readerWithin room)))
    let (requirement, shape) ← record "NodeDefinition" (requirement.and kind)
    return shape requirement

/-- Reads a node. -/
def reader : Reader NodeDefinition := readerWithin (depthLimit + 1)

end NodeDefinition

/-- Reads a tree. -/
def TreeDefinition.reader : Reader TreeDefinition := do
  let policy := Layout.fieldOr "parallel_policy" ParallelPolicy.reader .requireAll
  let root := Layout.fieldOr "root" (optional NodeDefinition.reader) none
  let (policy, root) ← record "TreeDefinition" (policy.and root)
  return { parallelPolicy := policy, root := root }

/-- Reads a library: a map of trees, in which the last tree of a name counts. -/
def TreeLibrary.reader : Reader TreeLibrary := do
  return Table.ofList (← entries Ron.text TreeDefinition.reader)

/-- Reads a text as a requirement. -/
def Requirement.ofText (text : String) : Except ReadError Requirement :=
  run (document Requirement.reader) text

/-- Reads a text as a node. -/
def NodeDefinition.ofText (text : String) : Except ReadError NodeDefinition :=
  run (document NodeDefinition.reader) text

/-- Reads a text as a tree. -/
def TreeDefinition.ofText (text : String) : Except ReadError TreeDefinition :=
  run (document TreeDefinition.reader) text

/-- Reads a text as a library. -/
def TreeLibrary.ofText (text : String) : Except ReadError TreeLibrary :=
  run (document TreeLibrary.reader) text

end Helm
