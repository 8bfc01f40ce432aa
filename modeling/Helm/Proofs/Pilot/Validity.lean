import Helm.Proofs.Definition.Valid
import Helm.Proofs.Pilot.Inlining

/-!
# Helm.Proofs.Pilot.Validity

Building from a library that passes its check. `Outfit.enterBy` enters trees as `Outfit.enter`
does, but leaves to `Detours` what to do about a name that is unknown or open. A fault in a detour
ends the whole build, so that a build that is the same for all detours takes none
(`build_valid`).

* `buildNode_congr`: a definition is built from what entering gives for the names in it.
* `buildRoot_enterBy`: the invariant is a walk along references that ends at the tree being built
  and has met every open tree.
-/

namespace Helm

/-- What to do about a name instead of building its tree. -/
structure Detours where
  /-- For a name that the library does not hold. -/
  unknown : String → Builder → Built
  /-- For a name that is open. -/
  cycle : String → Builder → Built
  /-- For a name that there is no room for. -/
  cramped : String → Builder → Built

/-- A leaf that fails in place of the tree, and a warning. -/
def Detours.usual : Detours where
  unknown name b := unbuilt (b.warn (.unknownSubTree name))
  cycle name b := unbuilt (b.warn (.subTreeCycle b.openTrees name))
  cramped _ b := unbuilt b

namespace Outfit

/-- Builds the tree of a name, with the detours given. -/
def enterBy (o : Outfit) (detours : Detours) (room : Nat) (name : String) (b : Builder) : Built :=
  match o.tree? name with
  | none => detours.unknown name b
  | some tree =>
    if name ∈ b.openTrees then detours.cycle name b
    else
      match room with
      | 0 => detours.cramped name b
      | room + 1 => do
        let (node, b) ← o.buildRoot (enterBy o detours room) tree (b.opening name)
        return (node, b.closing)

/-- The detours of `enter` are the usual ones. -/
theorem enterBy_usual (o : Outfit) (room : Nat) : o.enterBy .usual room = o.enter room := by
  induction room with
  | zero =>
    funext name b
    rw [enterBy, enter]; rfl
  | succ room ih =>
    funext name b
    simp only [enterBy, enter, ih]; rfl

section Congruence

variable (o : Outfit) {enter enter' : String → Builder → Built} {path : List String} {b : Builder}

theorem guarded_congr {node : NodeDefinition} {go go' : Builder → Built} (h : go' b = go b) :
    o.guarded node b go' = o.guarded node b go := by
  rw [guarded, guarded, h]

theorem buildNodes_congr (henter : ∀ name, Balanced (enter name)) {stop : Option Status}
    {nodes : List NodeDefinition}
    (h : ∀ node ∈ nodes, ∀ b : Builder, b.openTrees = path →
      o.buildNode enter' node b = o.buildNode enter node b)
    (hb : b.openTrees = path) :
    o.buildNodes enter' stop nodes b = o.buildNodes enter stop nodes b := by
  induction nodes generalizing b with
  | nil => rw [buildNodes, buildNodes]
  | cons node rest ih =>
    rw [buildNodes, buildNodes, h node List.mem_cons_self b hb]
    cases hnode : o.buildNode enter node b with
    | error e => rfl
    | ok p =>
      obtain ⟨child, after⟩ := p
      have hafter := (o.buildNode_sameScope henter node b child after hnode).openTrees.trans hb
      simp only [ok_bind]
      rw [ih (fun x hx => h x (List.mem_cons_of_mem _ hx)) hafter]

theorem buildNode_congr (henter : ∀ name, Balanced (enter name)) {node : NodeDefinition}
    (h : ∀ name ∈ node.references, ∀ b : Builder, b.openTrees = path →
      enter' name b = enter name b)
    (hb : b.openTrees = path) : o.buildNode enter' node b = o.buildNode enter node b := by
  induction node generalizing b with
  | leaf r kind => rw [buildNode, buildNode]
  | subTree r name =>
    rw [buildNode, buildNode]
    exact o.guarded_congr (h name (by simp [NodeDefinition.references]) b hb)
  | group r kind nodes ih =>
    rw [buildNode, buildNode]
    refine o.guarded_congr ?_
    rw [o.buildNodes_congr henter ?_ hb]
    intro node hnode b hb
    exact ih node hnode
      (fun name hname => h name (NodeDefinition.references_of_children hnode hname)) hb
  | bare r kind => rw [buildNode, buildNode]
  | wrapper r kind node ih =>
    rw [buildNode, buildNode]
    refine o.guarded_congr ?_
    rw [ih h hb]

theorem buildRoot_congr (henter : ∀ name, Balanced (enter name)) {tree : TreeDefinition}
    (h : ∀ name ∈ tree.references, ∀ b : Builder, b.openTrees = path →
      enter' name b = enter name b)
    (hb : b.openTrees = path) : o.buildRoot enter' tree b = o.buildRoot enter tree b := by
  rw [buildRoot, buildRoot]
  cases hroot : tree.root with
  | none => rfl
  | some root =>
    rw [TreeDefinition.references, hroot] at h
    have hbuild : o.buildNode enter' root { b with policy := tree.parallelPolicy } =
        o.buildNode enter root { b with policy := tree.parallelPolicy } :=
      o.buildNode_congr henter h hb
    rw [buildOptional, buildOptional, hbuild]

end Congruence

section Valid

variable {o : Outfit} {library : TreeLibrary} {room : Nat} {trail : List String}
  {name last : String} {tree : TreeDefinition} {b : Builder}

theorem enterBy_of_root (hlibrary : o.trees = library)
    (htree : library.get? name = some tree) (hclosed : name ∉ b.openTrees)
    (hroom : library.unopened b.openTrees ≤ room) {detours : Detours}
    (hroot : ∀ less < room, library.unopened (b.openTrees ++ [name]) ≤ less →
      o.buildRoot (o.enterBy detours less) tree (b.opening name) =
        o.buildRoot (o.enter less) tree (b.opening name)) :
    o.enterBy detours room name b = o.enter room name b := by
  have hlt := TreeLibrary.unopened_lt (Table.contains_of_get? htree) hclosed
  cases room with
  | zero => omega
  | succ less =>
    have hbuild := hroot less (Nat.lt_succ_self less) (by omega)
    rw [enterBy, enter, tree?_of_trees hlibrary, htree]
    simp only [if_neg hclosed, hbuild]

theorem buildRoot_enterBy (hlibrary : o.trees = library) (hv : library.Valid)
    (detours : Detours) (hw : library.Walk trail last) (htree : library.get? last = some tree)
    (hopen : b.openTrees ⊆ trail) (hroom : library.unopened b.openTrees ≤ room) :
    o.buildRoot (o.enterBy detours room) tree b = o.buildRoot (o.enter room) tree b := by
  induction room using Nat.strongRecOn generalizing trail last tree b with
  | _ room ih =>
    refine o.buildRoot_congr (o.enter_balanced room) (fun target href b' hb' => ?_) rfl
    rw [← TreeLibrary.referencesOf_of_get? htree] at href
    rw [← hb'] at hopen hroom
    have hclosed : target ∉ b'.openTrees := fun h => hv.fresh hw href (hopen h)
    obtain ⟨tree', htree'⟩ := Option.isSome_iff_exists.mp (hv.contains href)
    refine enterBy_of_root hlibrary htree' hclosed hroom fun less hless hunopened => ?_
    exact ih less hless (hv.follow hw href) htree' (TreeLibrary.Valid.snoc_subset_snoc hopen)
      hunopened

/-- What a tree of a valid library comes to does not depend on whether its own name is open. -/
theorem outcome_buildNamed (hlibrary : o.trees = library) (hv : library.Valid)
    (htree : library.get? name = some tree) (hopen : b.openTrees = []) :
    outcome (o.buildNamed name b) = outcome (o.buildTree tree b) := by
  have hclosed : name ∉ b.openTrees := by simp [hopen]
  have hroom := unopened_le_treeCount hlibrary b.openTrees
  rw [buildNamed, buildTree]
  cases hroot : tree.root with
  | none =>
    have hdice : b.dice = b.dice := rfl
    rw [outcome_enter_of_rootless hlibrary htree hclosed hroot hroom hdice, buildRoot, hroot,
      buildOptional]
    rfl
  | some root =>
    have hinlined : library.inlined [name] (some tree.parallelPolicy) root =
        library.inlined [] (some tree.parallelPolicy) root :=
      hv.inlined_eq (TreeLibrary.walk_start (Table.contains_of_get? htree))
        (TreeLibrary.references_subset htree hroot) (List.Subset.refl [name])
        (List.nil_subset [name])
    have hnamed := outcome_enter hlibrary htree List.not_mem_nil hroot (inlines hlibrary _ _ root)
      (hopen ▸ hroom) (⟨hopen, rfl, rfl⟩ : b.Matches [] none b)
    have htree := inlines hlibrary [] (some tree.parallelPolicy) root o.treeCount
      { b with policy := tree.parallelPolicy } b (hopen ▸ hroom) ⟨hopen, rfl, rfl⟩
    rw [hnamed, outcome_buildRoot hroot, htree, List.nil_append, hinlined]

/-- A library that passes its check is built from without a detour, be it by a name in it or from
the tree of that name, and from a builder without open trees both come to the same. -/
theorem build_valid (o : Outfit) (library : TreeLibrary) (name : String) (tree : TreeDefinition)
    (b : Builder) (hlibrary : o.library = some library) (hv : library.Valid)
    (htree : library.get? name = some tree) (hopen : b.openTrees = []) :
    (∀ detours, o.enterBy detours o.treeCount name b = o.buildNamed name b ∧
        o.buildRoot (o.enterBy detours o.treeCount) tree b = o.buildTree tree b) ∧
      outcome (o.buildNamed name b) = outcome (o.buildTree tree b) := by
  have htrees := trees_of_library hlibrary
  have hclosed : name ∉ b.openTrees := by simp [hopen]
  have hroom := unopened_le_treeCount htrees b.openTrees
  have hw := TreeLibrary.walk_start (Table.contains_of_get? htree)
  refine ⟨fun detours => ⟨?_, ?_⟩, outcome_buildNamed htrees hv htree hopen⟩
  · refine enterBy_of_root htrees htree hclosed hroom fun less _ hless => ?_
    exact buildRoot_enterBy htrees hv detours hw htree (by simp [Builder.opening, hopen]) hless
  · exact buildRoot_enterBy htrees hv detours hw htree (by simp [hopen]) hroom

end Valid

/-- Two ways to the same tree, under different requirements and policies, and a tree left empty. -/
def patrol : TreeLibrary := ⟨[
  ("aim", { root := some (.leaf .always .lookAtTarget) }),
  ("close", { root := some (.group .always .sequence
    [.subTree .always "aim", .leaf .always .chase]) }),
  ("keep", { parallelPolicy := .requireAny, root := some (.group .always (.parallel none)
    [.subTree .hasWeapons "aim", .leaf .always .stop]) }),
  ("patrol", { root := some (.group .always .selector
    [.subTree .isShip "close", .subTree .always "keep"]) }),
  ("spare", {})]⟩

/-- An armed ship that patrols. -/
def gunship : Outfit :=
  { ship := ⟨3⟩, loadout := { weapons := [default] }, library := some patrol }

theorem build_valid_patrol :
    patrol.validate = [.emptyTree "spare"] ∧
      ∃ tree, patrol.get? "patrol" = some tree ∧
        (∀ detours, gunship.enterBy detours 5 "patrol" (gunship.builder default) =
              gunship.buildNamed "patrol" (gunship.builder default) ∧
            gunship.buildRoot (gunship.enterBy detours 5) tree (gunship.builder default) =
              gunship.buildTree tree (gunship.builder default)) ∧
        outcome (gunship.buildNamed "patrol" (gunship.builder default)) =
          outcome (gunship.buildTree tree (gunship.builder default)) := by
  have hissues : patrol.validate = [.emptyTree "spare"] := by decide
  have hvalid : patrol.Valid := by
    constructor <;> intros <;> simp [hissues]
  exact ⟨hissues, _, rfl,
    build_valid gunship patrol "patrol" _ (gunship.builder default) rfl hvalid rfl rfl⟩

end Outfit

end Helm
