import Helm.Proofs.Evaluation
import Helm.Proofs.Pilot.Frame
import Helm.Proofs.Random.Range
import Helm.Proofs.Tree.NormalForm
import Mathlib.Data.List.Forall2

/-!
# Helm.Proofs.Pilot.Assembly

Where the parts of a built tree come from. `Outfit.Mentions` is the set of definitions that can
play a part in a build, each with the policy for parallel nodes that it is built under: the
definition given, what stands below, and the trees referred to. `StandsFor` says which of them a
node of the built tree stands for, and `build_yields` that every node of it is tidy and stands for
one of them. A build is abandoned only for a leaf among them that asks for a random number in too
wide a range.
-/

namespace Helm

/-- The ends of the range that a leaf draws from, while it is built or while it is ticked. -/
def LeafKind.range? : LeafKind → Option (Float32 × Float32)
  | findEnemy minCooldown maxCooldown _ _ => some (minCooldown, maxCooldown)
  | flyAroundMothership minDistance maxDistance => some (minDistance, maxDistance)
  | _ => none

/-- Definitions, each with the policy of parallel nodes that have none of their own. -/
abbrev Sources := NodeDefinition → ParallelPolicy → Prop

/-- A leaf among the sources draws from a range that is too wide. -/
def Sources.Overflow (S : Sources) (e : Fault) : Prop :=
  e = .rangeOverflow ∧ ∃ r kind scope lo hi,
    S (.leaf r kind) scope ∧ kind.range? = some (lo, hi) ∧ ¬Drawable lo hi

namespace Outfit

/-- The definitions that may play a part in building `start` under a policy. -/
inductive Mentions (o : Outfit) (start : Option NodeDefinition) (policy : ParallelPolicy) :
    Sources where
  | start {node : NodeDefinition} : start = some node → Mentions o start policy node policy
  | deeper {node child : NodeDefinition} {scope : ParallelPolicy} :
      Mentions o start policy node scope → child ∈ node.children →
      Mentions o start policy child scope
  /-- The root of a tree that is referred to is built under the tree's own policy. -/
  | within {r : Requirement} {name : String} {scope : ParallelPolicy} {tree : TreeDefinition}
      {node : NodeDefinition} :
      Mentions o start policy (.subTree r name) scope → o.tree? name = some tree →
      tree.root = some node → Mentions o start policy node tree.parallelPolicy

/-- The node is what building the definition under a policy comes to. -/
def BuildsTo (o : Outfit) (scope : ParallelPolicy) (node : NodeDefinition) (built : ShipNode) :
    Prop :=
  ∃ room b after, b.policy = scope ∧ o.buildNode (o.enter room) node b = .ok (built, after)

/-- The source that a node of a built tree stands for. The children of a parallel node and of a
random selector are those of the source, one for one. -/
def StandsFor (o : Outfit) (S : Sources) : ShipNode → Prop
  | .leaf l => ∃ r kind scope dice roll rest, S (.leaf r kind) scope ∧
      (∀ x ∈ kind.parameters, x.isFinite = true) ∧ kind.roll dice = .ok (roll, rest) ∧
      o.fit roll kind = .leaf l
  | .parallel policy children => ∃ r own nodes scope, S (.group r (.parallel own) nodes) scope ∧
      policy = own.getD scope ∧ List.Forall₂ (o.BuildsTo scope) nodes children
  | .randomSelector wheel children => ∃ r mode cooldown choice nodes scope,
      S (.group r (.random mode cooldown choice) nodes) scope ∧ cooldown.isFinite = true ∧
      wheel = .create nodes.length cooldown mode choice ∧
      List.Forall₂ (o.BuildsTo scope) nodes children
  | _ => True

/-- The node is in normal form and stands for one of the sources. -/
def Assembled (o : Outfit) (S : Sources) (node : ShipNode) : Prop := node.Tidy ∧ o.StandsFor S node

/-- What is built is assembled from the sources, at any depth. -/
def BuiltFrom (o : Outfit) (S : Sources) (built : Built) : Prop :=
  Yields S.Overflow (fun r => r.1.Everywhere (o.Assembled S)) built

/-! ## Leaves -/

section Leaves

variable {P : ShipNode → Prop} (hfailure : P .alwaysFailure)
include hfailure

theorem armed_cases {weapons : Arsenal} {action : Arsenal → Action}
    (h : P (does (action weapons))) : P (armed weapons action) := by
  rw [armed]
  split
  · exact hfailure
  · exact h

theorem equipped_cases {slots : List Nat} {action : List Nat → Action}
    (h : P (does (action slots))) : P (equipped slots action) := by
  rw [equipped]
  split
  · exact hfailure
  · exact h

theorem capable_cases {able : Bool} {action : Action} (h : able = true → P (does action)) :
    P (capable able action) := by
  rw [capable]
  split
  · rename_i hable
    exact h hable
  · exact hfailure

end Leaves

/-! ## Building -/

section Nodes

variable (o : Outfit) {S : Sources} {node : NodeDefinition} {b : Builder}

theorem everywhere_alwaysFailure (S : Sources) :
    (Node.alwaysFailure : ShipNode).Everywhere (o.Assembled S) :=
  Collapse.everywhere_constant rfl ⟨trivial, trivial⟩

theorem builtFrom_unbuilt (S : Sources) (b : Builder) : o.BuiltFrom S (unbuilt b) :=
  o.everywhere_alwaysFailure S

theorem builtFrom_guarded {go : Builder → Built}
    (h : (∀ x ∈ node.parameters, x.isFinite = true) → o.BuiltFrom S (go b)) :
    o.BuiltFrom S (o.guarded node b go) := by
  rw [guarded]
  split
  · exact o.builtFrom_unbuilt S b
  · split
    · exact o.builtFrom_unbuilt S _
    · rename_i hfinite
      exact h (by simpa using hfinite)

theorem roll_yields {r : Requirement} {kind : LeafKind} {scope : ParallelPolicy}
    (hS : S (.leaf r kind) scope) (dice : Dice) :
    Yields S.Overflow (fun _ => True) (kind.roll dice) := by
  cases kind with
  | flyAroundMothership lo hi =>
    refine ((Dice.inRange_yields lo hi dice).weaken ?_).mono fun _ _ => trivial
    rintro e ⟨rfl, hwide⟩
    exact ⟨rfl, r, _, scope, lo, hi, hS, rfl, hwide⟩
  | _ => trivial

theorem isLeaf_fit (roll : Float32) (kind : LeafKind) : (o.fit roll kind).IsLeaf := by
  cases kind with
  | selectWeapon => exact armed_cases trivial trivial
  | chargeWeapons => exact armed_cases trivial trivial
  | useRecoil => exact armed_cases trivial trivial
  | activateDevice => exact equipped_cases trivial trivial
  | defendWithFrontalShield => exact equipped_cases trivial trivial
  | trackControllableAmmo => exact capable_cases trivial fun _ => trivial
  | spawnDrones => exact capable_cases trivial fun _ => trivial
  | _ => trivial

theorem everywhere_fit {r : Requirement} {kind : LeafKind} {scope : ParallelPolicy}
    (hS : S (.leaf r kind) scope) (hfinite : ∀ x ∈ kind.parameters, x.isFinite = true)
    {dice rest : Dice} {roll : Float32} (hroll : kind.roll dice = .ok (roll, rest)) :
    (o.fit roll kind).Everywhere (o.Assembled S) := by
  have hleaf := o.isLeaf_fit roll kind
  refine Node.everywhere_of_isLeaf hleaf ?_
  cases hfit : o.fit roll kind with
  | leaf l => exact ⟨trivial, r, kind, scope, dice, roll, rest, hS, hfinite, hroll, hfit⟩
  | alwaysSuccess => exact ⟨trivial, trivial⟩
  | alwaysFailure => exact ⟨trivial, trivial⟩
  | _ => rw [hfit] at hleaf; cases hleaf

theorem everywhere_assemble {r : Requirement} {kind : GroupKind} {nodes : List NodeDefinition}
    {scope : ParallelPolicy} (hS : S (.group r kind nodes) scope)
    (hfinite : ∀ x ∈ kind.parameters, x.isFinite = true) {children : List ShipNode}
    (hchildren : ∀ child ∈ children, child.Everywhere (o.Assembled S))
    (hnodes : kind.stop? = none → List.Forall₂ (o.BuildsTo scope) nodes children) :
    (kind.assemble scope children).Everywhere (o.Assembled S) := by
  cases kind with
  | selector =>
    exact Collapse.everywhere_selector ⟨trivial, trivial⟩ hchildren fun _ h => ⟨h, trivial⟩
  | sequence =>
    exact Collapse.everywhere_sequence ⟨trivial, trivial⟩ hchildren fun _ h => ⟨h, trivial⟩
  | parallel own =>
    refine Collapse.everywhere_parallel ⟨trivial, trivial⟩ hchildren fun htwo => ⟨htwo, ?_⟩
    exact ⟨r, own, nodes, scope, hS, rfl, hnodes rfl⟩
  | random mode cooldown choice =>
    refine Collapse.everywhere_random ⟨trivial, trivial⟩ hchildren fun htwo => ⟨htwo, ?_⟩
    refine ⟨r, mode, cooldown, choice, nodes, scope, hS, ?_, ?_, hnodes rfl⟩
    · exact hfinite cooldown List.mem_cons_self
    · rw [(hnodes rfl).length_eq]

theorem everywhere_wrap (kind : WrapperKind) {child : ShipNode}
    (hchild : child.Everywhere (o.Assembled S)) :
    (kind.wrap child).Everywhere (o.Assembled S) := by
  cases kind with
  | inverter =>
    exact Collapse.everywhere_inverter ⟨trivial, trivial⟩ ⟨trivial, trivial⟩ hchild
      fun h => ⟨h, trivial⟩
  | constantResult result =>
    exact Collapse.everywhere_constantResult ⟨trivial, trivial⟩ ⟨trivial, trivial⟩ hchild
      fun h => ⟨h, trivial⟩
  | completeOnce result =>
    exact Collapse.everywhere_completeOnce hchild fun h => ⟨h, trivial⟩

end Nodes

/-- The sources go down to the nodes below and on to the trees that are referred to. -/
structure Closed (o : Outfit) (S : Sources) : Prop where
  deeper : ∀ node scope, S node scope → ∀ child ∈ node.children, S child scope
  within : ∀ r name scope tree root, S (.subTree r name) scope → o.tree? name = some tree →
    tree.root = some root → S root tree.parallelPolicy

theorem closed_mentions (o : Outfit) (start : Option NodeDefinition) (policy : ParallelPolicy) :
    o.Closed (o.Mentions start policy) where
  deeper _ _ h _ hchild := .deeper h hchild
  within _ _ _ _ _ h htree hroot := .within h htree hroot

section Induction

variable (o : Outfit) {S : Sources} {room : Nat}

/-- Entering a tree whose root is a source gives what is assembled from the sources. -/
def EntersFrom (o : Outfit) (S : Sources) (room : Nat) : Prop :=
  ∀ name b, (∀ tree root, o.tree? name = some tree → tree.root = some root →
    S root tree.parallelPolicy) → o.BuiltFrom S (o.enter room name b)

theorem buildNodes_yields (stop : Option Status) (nodes : List NodeDefinition) (b : Builder)
    (h : ∀ node ∈ nodes, ∀ b' : Builder, b'.policy = b.policy →
      o.BuiltFrom S (o.buildNode (o.enter room) node b')) :
    Yields S.Overflow
      (fun r => (∀ child ∈ r.1, child.Everywhere (o.Assembled S)) ∧
        (stop = none → List.Forall₂ (o.BuildsTo b.policy) nodes r.1))
      (o.buildNodes (o.enter room) stop nodes b) := by
  induction nodes generalizing b with
  | nil => exact ⟨fun _ hchild => absurd hchild List.not_mem_nil, fun _ => .nil⟩
  | cons node rest ih =>
    obtain ⟨hnode, hrest⟩ := List.forall_mem_cons.mp h
    rw [buildNodes]
    refine (hnode b rfl).self.bind ?_
    rintro ⟨child, after⟩ ⟨hbuilt, hchild⟩
    have hpolicy := (o.buildNode_sameScope (o.enter_balanced room) node b child after hbuilt).policy
    dsimp only
    split
    · rename_i hstop
      -- the rest of the list is cut off, which only happens where there is a status to stop at
      refine ⟨List.forall_mem_singleton.mpr hchild, fun hnone => ?_⟩
      rw [hnone] at hstop
      cases hstop
    · have htail := ih after fun x hx b' hb' => hrest x hx b' (hb'.trans hpolicy)
      rw [hpolicy] at htail
      refine htail.bind fun r hr => ⟨List.forall_mem_cons.mpr ⟨hchild, hr.1⟩, fun hnone => ?_⟩
      exact .cons ⟨room, b, after, rfl, hbuilt⟩ (hr.2 hnone)

theorem buildNode_yields (hS : o.Closed S) (henter : o.EntersFrom S room) (node : NodeDefinition)
    (b : Builder) (hnode : S node b.policy) :
    o.BuiltFrom S (o.buildNode (o.enter room) node b) := by
  induction node generalizing b with
  | leaf r kind =>
    rw [buildNode]
    refine o.builtFrom_guarded fun hfinite => ?_
    refine (roll_yields hnode b.dice).self.bind ?_
    rintro ⟨roll, dice⟩ ⟨hroll, -⟩
    exact o.everywhere_fit hnode hfinite hroll
  | subTree r name =>
    rw [buildNode]
    refine o.builtFrom_guarded fun _ => ?_
    exact henter name b fun tree root => hS.within r name b.policy tree root hnode
  | group r kind nodes ih =>
    rw [buildNode]
    refine o.builtFrom_guarded fun hfinite => ?_
    have hnodes : ∀ node ∈ nodes, ∀ b' : Builder, b'.policy = b.policy →
        o.BuiltFrom S (o.buildNode (o.enter room) node b') :=
      fun node hmem b' hb' => ih node hmem b' (hb' ▸ hS.deeper _ _ hnode node hmem)
    have hbuild := o.buildNodes_yields kind.stop? nodes b hnodes
    exact hbuild.bind fun r hr => o.everywhere_assemble hnode hfinite hr.1 hr.2
  | bare r kind =>
    rw [buildNode]
    refine o.builtFrom_guarded fun _ => ?_
    exact o.everywhere_wrap kind (o.everywhere_alwaysFailure S)
  | wrapper r kind node ih =>
    rw [buildNode]
    refine o.builtFrom_guarded fun _ => ?_
    refine (ih b (hS.deeper _ _ hnode node List.mem_cons_self)).bind fun r hr => ?_
    exact o.everywhere_wrap kind hr

theorem buildRoot_yields (hS : o.Closed S) (henter : o.EntersFrom S room) (tree : TreeDefinition)
    (b : Builder) (hroot : ∀ root, tree.root = some root → S root tree.parallelPolicy) :
    o.BuiltFrom S (o.buildRoot (o.enter room) tree b) := by
  have hbuild : o.BuiltFrom S
      (o.buildOptional (o.enter room) tree.root { b with policy := tree.parallelPolicy }) := by
    cases hnode : tree.root with
    | none => exact o.builtFrom_unbuilt S _
    | some root => exact o.buildNode_yields hS henter root _ (hroot root hnode)
  exact hbuild.bind fun r hr => hr

/-- Whatever the room is: a tree that is not entered is replaced by a leaf that fails. -/
theorem entersFrom (hS : o.Closed S) (room : Nat) : o.EntersFrom S room := by
  induction room with
  | zero =>
    intro name b _
    rw [enter]
    split
    · exact o.builtFrom_unbuilt S _
    · split <;> exact o.builtFrom_unbuilt S _
  | succ room ih =>
    intro name b hname
    rw [enter]
    split
    · exact o.builtFrom_unbuilt S _
    · rename_i tree htree
      split
      · exact o.builtFrom_unbuilt S _
      · refine (o.buildRoot_yields hS ih tree _ fun root => hname tree root htree).bind ?_
        exact fun r hr => hr

end Induction

/-- What is built is assembled from what the definition mentions. -/
theorem builtFrom_build (o : Outfit) (node : Option NodeDefinition) (b : Builder) :
    o.BuiltFrom (o.Mentions node b.policy) (o.build node b) := by
  have hclosed := o.closed_mentions node b.policy
  cases node with
  | none => exact o.builtFrom_unbuilt _ b
  | some root =>
    exact o.buildNode_yields hclosed (o.entersFrom hclosed _) root b (.start rfl)

/-- The same for a whole tree, which is built under its own policy. -/
theorem builtFrom_buildTree (o : Outfit) (tree : TreeDefinition) (b : Builder) :
    o.BuiltFrom (o.Mentions tree.root tree.parallelPolicy) (o.buildTree tree b) := by
  have hclosed := o.closed_mentions tree.root tree.parallelPolicy
  exact o.buildRoot_yields hclosed (o.entersFrom hclosed _) tree b fun _ => .start

end Outfit

end Helm
