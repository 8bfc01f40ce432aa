import Helm.Proofs.Pilot.Inlining
import Mathlib.Data.List.Forall2

/-!
# Helm.Proofs.Pilot.Capability

A leaf that uses weapons of a kind, devices of a class or the drone bays is fitted as a failure on
a ship without any, and there is a requirement that asks for the same (`LeafKind.capability?`). The
leaf looks for what it will use and the requirement only asks whether there is some, and
`fit_of_capability` says that they agree on every ship. A leaf with such a requirement may then
carry it as well or not. `NodeDefinition.Gated` relates definitions that differ in this alone, at
any number of leaves, and `build_capability` says that they are built alike, in the trees that are
referred to as in the definition itself.
-/

namespace Helm

/-- The requirement that a ship meets when there is something on it that the leaf can use. -/
def LeafKind.capability? : LeafKind → Option Requirement
  | .selectWeapon kind => some (.hasWeapon kind)
  | .chargeWeapons => some (.hasWeapon .charged)
  | .trackControllableAmmo => some (.hasWeapon .controllable)
  | .activateDevice kind => some (.hasDevice kind)
  | .defendWithFrontalShield => some (.hasDevice .frontalShield)
  | .spawnDrones => some .hasDroneBays
  | _ => none

/-! ## Requirements -/

namespace Requirement

/-- A requirement is conjoined with `need`: both become the items of a list of which all have to be
met, or `need` is put into the list that the requirement is already. -/
inductive Conjoined (need : Requirement) : Requirement → Requirement → Prop where
  | before (r : Requirement) : Conjoined need r (.all [need, r])
  | after (r : Requirement) : Conjoined need r (.all [r, need])
  | among (first last : List Requirement) :
      Conjoined need (.all (first ++ last)) (.all (first ++ need :: last))

variable {loadout : Loadout} {settings : Settings} {need r r' : Requirement}

theorem allMet_append (first last : List Requirement) :
    allMet loadout settings (first ++ last) =
      (allMet loadout settings first && allMet loadout settings last) := by
  induction first with
  | nil => rw [List.nil_append, allMet, Bool.true_and]
  | cons item first ih => rw [List.cons_append, allMet, allMet, ih, Bool.and_assoc]

theorem isMet_conjoined (h : need.Conjoined r r') :
    r'.isMet loadout settings = (r.isMet loadout settings && need.isMet loadout settings) := by
  cases h with
  | before r => rw [isMet_pair, Bool.and_comm]
  | after r => rw [isMet_pair]
  | among first last =>
    rw [isMet, isMet, allMet_append, allMet_append, allMet, Bool.and_assoc]
    exact congrArg (allMet loadout settings first && ·) (Bool.and_comm _ _)

end Requirement

/-! ## What a leaf can use -/

theorem Arsenal.isEmpty_ofKind (l : Loadout) (kind : WeaponKind) :
    ((ofLoadout l).ofKind kind).isEmpty = !l.hasWeapon kind := by
  rw [Bool.eq_iff_iff]
  simp [ofLoadout, ofKind, filter, isEmpty, Loadout.hasWeapon]

theorem Loadout.isEmpty_deviceSlots (l : Loadout) (kind : DeviceClass) :
    (l.deviceSlots kind).isEmpty = !l.hasDevice kind := by
  rw [Bool.eq_iff_iff]
  simp [deviceSlots, hasDevice]

namespace Outfit

section Leaves

variable (o : Outfit) {kind : LeafKind} {need : Requirement}

theorem armed_ofKind (kind : WeaponKind) (action : Arsenal → Action) :
    armed (o.arsenal.ofKind kind) action =
      capable (o.loadout.hasWeapon kind) (action (o.arsenal.ofKind kind)) := by
  rw [armed, capable, arsenal, Arsenal.isEmpty_ofKind]
  cases o.loadout.hasWeapon kind <;> rfl

theorem equipped_deviceSlots (kind : DeviceClass) (action : List Nat → Action) :
    equipped (o.loadout.deviceSlots kind) action =
      capable (o.loadout.hasDevice kind) (action (o.loadout.deviceSlots kind)) := by
  rw [equipped, capable, Loadout.isEmpty_deviceSlots]
  cases o.loadout.hasDevice kind <;> rfl

theorem constant?_capable (able : Bool) (action : Action) :
    (capable able action).constant? = none ↔ able = true := by
  cases able <;> simp [capable, does, Node.constant?]

/-- A leaf finds something to use exactly on the ships that meet its requirement. -/
theorem fit_of_capability (h : kind.capability? = some need) (roll : Float32) :
    ∃ action, o.fit roll kind = capable (need.isMet o.loadout o.settings) action := by
  cases kind <;> cases h
  case selectWeapon kind => exact ⟨_, o.armed_ofKind kind .selectWeapon⟩
  case chargeWeapons => exact ⟨_, o.armed_ofKind .charged .chargeWeapons⟩
  case trackControllableAmmo => exact ⟨.trackControllableAmmo, rfl⟩
  case activateDevice kind => exact ⟨_, o.equipped_deviceSlots kind .activateDevice⟩
  case defendWithFrontalShield =>
    exact ⟨_, o.equipped_deviceSlots .frontalShield .defendWithFrontalShield⟩
  case spawnDrones => exact ⟨.spawnDrones, rfl⟩

theorem parameters_of_capability (h : kind.capability? = some need) : kind.parameters = [] := by
  cases kind <;> first | rfl | cases h

theorem roll_of_capability (h : kind.capability? = some need) (dice : Dice) :
    kind.roll dice = .ok (0, dice) := by
  cases kind <;> first | rfl | cases h

/-- The leaf is an action when both its own requirement and the one for what it uses are met. -/
theorem buildNode_of_capability (h : kind.capability? = some need) :
    ∃ action, ∀ (enter : String → Builder → Built) (r : Requirement) (b : Builder),
      o.buildNode enter (.leaf r kind) b =
        .ok (capable (r.isMet o.loadout o.settings && need.isMet o.loadout o.settings) action,
          b) := by
  obtain ⟨action, hfit⟩ := o.fit_of_capability h 0
  refine ⟨action, fun enter r b => ?_⟩
  rw [buildNode, guarded, NodeDefinition.requirement, NodeDefinition.parameters,
    parameters_of_capability h]
  cases r.isMet o.loadout o.settings with
  | false => rfl
  | true =>
    rw [roll_of_capability h, ok_bind]
    dsimp only
    rw [hfit]
    rfl

end Leaves

end Outfit

/-! ## Gates -/

/-- The definitions differ in that some leaves of the second also require what they can use. -/
inductive NodeDefinition.Gated : NodeDefinition → NodeDefinition → Prop where
  | leaf (r : Requirement) (kind : LeafKind) : Gated (.leaf r kind) (.leaf r kind)
  | gate {kind : LeafKind} {need r r' : Requirement} : kind.capability? = some need →
      need.Conjoined r r' → Gated (.leaf r kind) (.leaf r' kind)
  | subTree (r : Requirement) (tree : String) : Gated (.subTree r tree) (.subTree r tree)
  | group (r : Requirement) (kind : GroupKind) {nodes nodes' : List NodeDefinition} :
      List.Forall₂ Gated nodes nodes' → Gated (.group r kind nodes) (.group r kind nodes')
  | bare (r : Requirement) (kind : WrapperKind) :
      Gated (.wrapper r kind none) (.wrapper r kind none)
  | wrapper (r : Requirement) (kind : WrapperKind) {node node' : NodeDefinition} :
      Gated node node' → Gated (.wrapper r kind (some node)) (.wrapper r kind (some node'))

/-- The same for whole trees. -/
structure TreeDefinition.Gated (tree tree' : TreeDefinition) : Prop where
  policy : tree'.parallelPolicy = tree.parallelPolicy
  root : Option.Rel NodeDefinition.Gated tree.root tree'.root

/-- The same for libraries, tree by tree under the same names. -/
def TreeLibrary.Gated (library library' : TreeLibrary) : Prop :=
  List.Forall₂ (fun entry entry' => entry'.1 = entry.1 ∧ entry.2.Gated entry'.2)
    library.entries library'.entries

namespace TreeLibrary

variable {library library' : TreeLibrary}

theorem Gated.get? (h : library.Gated library') (name : String) :
    Option.Rel TreeDefinition.Gated (library.get? name) (library'.get? name) := by
  obtain ⟨entries⟩ := library
  obtain ⟨entries'⟩ := library'
  change List.Forall₂ _ entries entries' at h
  change Option.Rel _ (entries.lookup name) (entries'.lookup name)
  induction h with
  | nil => exact .none
  | @cons entry entry' _ _ hentry _ ih =>
    rw [List.lookup_cons, List.lookup_cons, hentry.1]
    cases name == entry.1 with
    | true => exact .some hentry.2
    | false => exact ih

end TreeLibrary

namespace Outfit

section Gates

variable {o : Outfit} {library : Option TreeLibrary} {enter : String → Builder → Built}
  {node node' : NodeDefinition}

theorem buildNode_leaf_library (r : Requirement) (kind : LeafKind) (b : Builder) :
    { o with library := library }.buildNode enter (.leaf r kind) b =
      o.buildNode enter (.leaf r kind) b := by
  simp only [buildNode, fit_library]
  rfl

theorem guarded_gated {go go' : Builder → Built}
    (hrequirement : node'.requirement = node.requirement) (hname : node'.name = node.name)
    (hparameters : node'.parameters = node.parameters)
    (hgo : ∀ b, go' b = go b) (b : Builder) :
    { o with library := library }.guarded node' b go' = o.guarded node b go := by
  rw [guarded, guarded, hrequirement, hname, hparameters, hgo]

theorem buildNodes_gated {nodes nodes' : List NodeDefinition}
    (h : List.Forall₂
      (fun node node' => ∀ b,
        { o with library := library }.buildNode enter node' b = o.buildNode enter node b)
      nodes nodes')
    (stop : Option Status) (b : Builder) :
    { o with library := library }.buildNodes enter stop nodes' b =
      o.buildNodes enter stop nodes b := by
  induction h generalizing b with
  | nil => rw [buildNodes, buildNodes]
  | cons hnode _ ih => simp only [buildNodes, hnode, ih]

/-- A gate makes no difference to what is built, as long as trees are entered alike. -/
theorem buildNode_gated (h : node.Gated node') (b : Builder) :
    { o with library := library }.buildNode enter node' b = o.buildNode enter node b := by
  induction node generalizing node' b with
  | leaf r kind =>
    cases h with
    | leaf => exact buildNode_leaf_library r kind b
    | @gate _ need _ r' hneed hr =>
      obtain ⟨action, hbuild⟩ := o.buildNode_of_capability hneed
      rw [buildNode_leaf_library, hbuild, hbuild, Requirement.isMet_conjoined hr, Bool.and_assoc,
        Bool.and_self]
  | subTree r tree =>
    cases h
    simp only [buildNode]
    exact guarded_gated rfl rfl rfl (fun _ => rfl) b
  | group r kind nodes ih =>
    cases h with
    | @group _ _ _ nodes' hnodes =>
      have hbuild : ∀ stop b, { o with library := library }.buildNodes enter stop nodes' b =
          o.buildNodes enter stop nodes b :=
        buildNodes_gated (((List.forall₂_and_left _ _).mpr ⟨ih, hnodes⟩).imp fun _ _ h => h.1 h.2)
      simp only [buildNode, hbuild]
      exact guarded_gated rfl rfl rfl (fun _ => rfl) b
  | bare r kind =>
    cases h
    simp only [buildNode]
    exact guarded_gated rfl rfl rfl (fun _ => rfl) b
  | wrapper r kind node ih =>
    cases h with
    | wrapper _ _ hnode =>
      simp only [buildNode, ih hnode]
      exact guarded_gated rfl rfl rfl (fun _ => rfl) b

theorem buildOptional_gated {root root' : Option NodeDefinition}
    (h : Option.Rel NodeDefinition.Gated root root') (b : Builder) :
    { o with library := library }.buildOptional enter root' b = o.buildOptional enter root b := by
  cases h with
  | some hroot => exact buildNode_gated hroot b
  | none => rfl

theorem buildRoot_gated {tree tree' : TreeDefinition} (h : tree.Gated tree') (b : Builder) :
    { o with library := library }.buildRoot enter tree' b = o.buildRoot enter tree b := by
  rw [buildRoot, buildRoot, h.policy, buildOptional_gated h.root]

variable (hlibrary : Option.Rel TreeLibrary.Gated o.library library)
include hlibrary

theorem tree?_gated (name : String) :
    Option.Rel TreeDefinition.Gated (o.tree? name) ({ o with library := library }.tree? name) := by
  change Option.Rel _ (o.library.bind (·.get? name)) (library.bind (·.get? name))
  generalize o.library = own at hlibrary ⊢
  cases hlibrary with
  | some h => exact h.get? name
  | none => exact .none

theorem treeCount_gated : { o with library := library }.treeCount = o.treeCount := by
  rw [treeCount, treeCount]
  generalize o.library = own at hlibrary ⊢
  cases hlibrary with
  | some h => exact h.length_eq.symm
  | none => rfl

/-- Trees are entered alike, however deep inside each other. -/
theorem enter_gated (room : Nat) : { o with library := library }.enter room = o.enter room := by
  induction room with
  | zero =>
    funext name b
    have htree := tree?_gated hlibrary name
    rw [enter, enter]
    generalize o.tree? name = tree at htree ⊢
    generalize { o with library := library }.tree? name = tree' at htree ⊢
    cases htree with
    | some _ => rfl
    | none => rfl
  | succ room ih =>
    funext name b
    have htree := tree?_gated hlibrary name
    rw [enter, enter]
    generalize o.tree? name = tree at htree ⊢
    generalize { o with library := library }.tree? name = tree' at htree ⊢
    cases htree with
    | some h => simp only [ih, buildRoot_gated h]
    | none => rfl

end Gates

/-- On every ship a leaf comes out as more than a constant exactly when the requirement for what it
can use is met, and it makes no difference, neither to what is built nor to the builder afterwards
with its random source, whether leaves carry that requirement besides their own: in a definition,
in a whole tree, or in the trees of the library. -/
theorem build_capability (o : Outfit) :
    (∀ (kind : LeafKind) (need : Requirement), kind.capability? = some need → ∀ b, ∃ node,
      o.build (some (.leaf .always kind)) b = .ok (node, b) ∧
        (node.constant? = none ↔ need.isMet o.loadout o.settings = true)) ∧
      ∀ library, Option.Rel TreeLibrary.Gated o.library library → ∀ b,
        (∀ node node', Option.Rel NodeDefinition.Gated node node' →
          { o with library := library }.build node' b = o.build node b) ∧
        (∀ tree tree', tree.Gated tree' →
          { o with library := library }.buildTree tree' b = o.buildTree tree b) ∧
        ∀ name, { o with library := library }.buildNamed name b = o.buildNamed name b := by
  constructor
  · intro kind need hneed b
    obtain ⟨action, hbuild⟩ := o.buildNode_of_capability hneed
    exact ⟨_, hbuild (o.enter o.treeCount) .always b, constant?_capable _ action⟩
  · intro library hlibrary b
    have hcount := treeCount_gated hlibrary
    have henter := enter_gated hlibrary
    refine ⟨fun node node' h => ?_, fun tree tree' h => ?_, fun name => ?_⟩
    · rw [build, build, hcount, henter, buildOptional_gated h]
    · rw [buildTree, buildTree, hcount, henter, buildRoot_gated h]
    · rw [buildNamed, buildNamed, hcount, henter]

/-- A ship with a drone bay and no weapons, and a tree for it to refer to. -/
def carrier : Outfit where
  ship := ⟨1⟩
  loadout := { droneBays := 1 }
  library := some ⟨[("strike", { root := some (.leaf .always (.selectWeapon .beam)) })]⟩

/-- The tree of the carrier with a gate. -/
def gatedTrees : TreeLibrary :=
  ⟨[("strike",
    { root := some (.leaf (.all [.always, .hasWeapon .beam]) (.selectWeapon .beam)) })]⟩

/-- Launching drones where there is no other way to strike. -/
def sortie : NodeDefinition :=
  .group .always .selector [.subTree .always "strike", .leaf .isShip .spawnDrones]

/-- The same with a gate. -/
def gatedSortie : NodeDefinition :=
  .group .always .selector
    [.subTree .always "strike", .leaf (.all [.hasDroneBays, .isShip]) .spawnDrones]

theorem build_capability_carrier :
    let b := carrier.builder default
    (∃ node, carrier.build (some (.leaf .always .spawnDrones)) b = .ok (node, b) ∧
      node.constant? = none) ∧
      carrier.build (some sortie) b = .ok (does .spawnDrones, b) ∧
      { carrier with library := some gatedTrees }.build (some gatedSortie) b =
        .ok (does .spawnDrones, b) := by
  intro b
  obtain ⟨hleaf, hgated⟩ := build_capability carrier
  obtain ⟨node, hnode, hconstant⟩ := hleaf .spawnDrones .hasDroneBays rfl b
  have hsortie : sortie.Gated gatedSortie :=
    .group _ _ (.cons (.subTree _ _) (.cons (.gate rfl (.before _)) .nil))
  have htrees : Option.Rel TreeLibrary.Gated carrier.library (some gatedTrees) :=
    .some (.cons ⟨rfl, rfl, .some (.gate rfl (.after _))⟩ .nil)
  have hbuild : carrier.build (some sortie) b = .ok (does .spawnDrones, b) := rfl
  exact ⟨⟨node, hnode, hconstant.mpr rfl⟩, hbuild,
    ((hgated _ htrees b).1 _ _ (.some hsortie)).trans hbuild⟩

end Outfit

end Helm
