import Helm.Proofs.Definition.Inlined
import Helm.Proofs.Pilot.Frame

/-!
# Helm.Proofs.Pilot.Inlining

Building with a library comes to the same as building without one what the definition looks like
with all its references written out (`build_inlined`). The induction is along references: the
names on the path are the open trees of the builder, and as long as one is left there is room to
enter another tree.

* `outcome_buildNodes`: nodes of a composite are built in step, up to the same stop.
* `outcome_enter`: entering a tree comes to building its root in the scope of that tree.
-/

namespace Helm

/-- What building comes to: what has been built, and the random source afterwards. -/
def outcome {α : Type} (r : Except Fault (α × Builder)) : Except Fault (α × Dice) :=
  r.map fun p => (p.1, p.2.dice)

theorem outcome_cases {α : Type} {x y : Except Fault (α × Builder)} (h : outcome x = outcome y) :
    (∃ e, x = .error e ∧ y = .error e) ∨
      ∃ a b b₀, x = .ok (a, b) ∧ y = .ok (a, b₀) ∧ b.dice = b₀.dice := by
  cases x with
  | error e =>
    cases y with
    | error e₀ => cases h; exact .inl ⟨e, rfl, rfl⟩
    | ok q => cases h
  | ok p =>
    cases y with
    | error e₀ => cases h
    | ok q =>
      obtain ⟨a, b⟩ := p
      obtain ⟨a₀, b₀⟩ := q
      simp only [outcome, map_ok, Except.ok.injEq, Prod.mk.injEq] at h
      obtain ⟨rfl, hdice⟩ := h
      exact .inr ⟨a, b, b₀, rfl, rfl, hdice⟩

/-- Two evaluations that come to the same go on to the same, if what follows does so from every
two builders that they may have arrived at. -/
theorem outcome_bind {α β : Type} {x y : Except Fault (α × Builder)}
    {f g : α × Builder → Except Fault (β × Builder)} (h : outcome x = outcome y)
    (hfg : ∀ a b b₀, x = .ok (a, b) → y = .ok (a, b₀) → b.dice = b₀.dice →
      outcome (f (a, b)) = outcome (g (a, b₀))) :
    outcome (x >>= f) = outcome (y >>= g) := by
  obtain ⟨e, hx, hy⟩ | ⟨a, b, b₀, hx, hy, hdice⟩ := outcome_cases h
  · rw [hx, hy]; rfl
  · rw [hx, hy]
    exact hfg a b b₀ hx hy hdice

theorem outcome_ok {α : Type} {a : α} {b b₀ : Builder} (h : b.dice = b₀.dice) :
    outcome (.ok (a, b)) = outcome (.ok (a, b₀)) := by
  simp [outcome, h]

theorem outcome_unbuilt {b b₀ : Builder} (h : b.dice = b₀.dice) :
    outcome (unbuilt b) = outcome (unbuilt b₀) :=
  outcome_ok h

/-- Going on with a builder that differs in its scope alone. -/
theorem outcome_of_same_dice {x : Built} {f : Builder → Builder} (hf : ∀ b, (f b).dice = b.dice) :
    outcome (do
      let (node, after) ← x
      return (node, f after)) = outcome x := by
  cases x with
  | error e => rfl
  | ok p => simp [outcome, hf]

/-- The first builder stands where the path leads, and the second has what it needs to build the
inlined definition: the same random source, and the policy that nodes outside of any tree have. -/
structure Builder.Matches (path : List String) (scope : Option ParallelPolicy)
    (b b₀ : Builder) : Prop where
  openTrees : b.openTrees = path
  policy : scope.getD b₀.policy = b.policy
  dice : b.dice = b₀.dice

theorem Builder.Matches.step {path : List String} {scope : Option ParallelPolicy}
    {b b₀ after after₀ : Builder} (h : b.Matches path scope b₀) (hb : after.SameScope b)
    (hb₀ : after₀.SameScope b₀) (hdice : after.dice = after₀.dice) :
    after.Matches path scope after₀ :=
  ⟨hb.openTrees.trans h.openTrees, by rw [hb₀.policy, h.policy, hb.policy], hdice⟩

theorem GroupKind.stop?_within (kind : GroupKind) (scope : Option ParallelPolicy) :
    (kind.within scope).stop? = kind.stop? := by
  cases kind <;> rfl

theorem GroupKind.parameters_within (kind : GroupKind) (scope : Option ParallelPolicy) :
    (kind.within scope).parameters = kind.parameters := by
  cases kind <;> rfl

theorem GroupKind.assemble_within (scope : Option ParallelPolicy) (policy : ParallelPolicy)
    (kind : GroupKind) (children : List ShipNode) :
    (kind.within scope).assemble policy children = kind.assemble (scope.getD policy) children := by
  cases kind with
  | parallel own => cases own <;> rfl
  | _ => rfl

theorem Requirement.isMet_pair (r own : Requirement) (loadout : Loadout) (settings : Settings) :
    (all [r, own]).isMet loadout settings =
      (r.isMet loadout settings && own.isMet loadout settings) := by
  simp [isMet, allMet]

namespace Outfit

variable (o : Outfit)

/-- The same ship without any tree to refer to. -/
def alone : Outfit := { o with library := none }

/-- A leaf is fitted to the ship, whatever trees may be referred to. -/
theorem fit_library (library : Option TreeLibrary) (roll : Float32) (kind : LeafKind) :
    { o with library := library }.fit roll kind = o.fit roll kind := by
  cases kind <;> rfl

theorem fit_alone (roll : Float32) (kind : LeafKind) : o.alone.fit roll kind = o.fit roll kind :=
  o.fit_library none roll kind

section Guard

variable {o} {node : NodeDefinition} {b : Builder}

theorem guarded_of_unmet {go : Builder → Built}
    (h : node.requirement.isMet o.loadout o.settings = false) :
    o.guarded node b go = unbuilt b := by
  rw [guarded, h]; rfl

theorem outcome_guarded {node₀ : NodeDefinition} {b₀ : Builder} {go go₀ : Builder → Built}
    (hreq : node₀.requirement = node.requirement) (hpar : node₀.parameters = node.parameters)
    (hdice : b.dice = b₀.dice) (hgo : outcome (go b) = outcome (go₀ b₀)) :
    outcome (o.guarded node b go) = outcome (o.alone.guarded node₀ b₀ go₀) := by
  rw [guarded, guarded, hreq, hpar]
  have hmet : node.requirement.isMet o.alone.loadout o.alone.settings =
      node.requirement.isMet o.loadout o.settings := rfl
  rw [hmet]
  split
  · exact outcome_unbuilt hdice
  · split
    · exact outcome_unbuilt hdice
    · exact hgo

variable {enter : String → Builder → Built}

theorem buildNode_never : o.buildNode enter .never b = unbuilt b := by
  rw [NodeDefinition.never, buildNode]
  exact guarded_of_unmet rfl

/-- A requirement in front of a node is checked before anything else. -/
theorem guarded_require (r : Requirement) (go : Builder → Built) :
    o.guarded (node.require r) b go =
      if r.isMet o.loadout o.settings then o.guarded node b go else unbuilt b := by
  have hmet : (node.require r).requirement.isMet o.loadout o.settings =
      (r.isMet o.loadout o.settings && node.requirement.isMet o.loadout o.settings) := by
    cases node <;> exact Requirement.isMet_pair r _ _ _
  have hparameters : (node.require r).parameters = node.parameters := by
    cases node <;> rfl
  have hname : (node.require r).name = node.name := by
    cases node <;> rfl
  rw [guarded, guarded, hmet, hparameters, hname]
  cases r.isMet o.loadout o.settings <;> rfl

theorem buildNode_subTree (r : Requirement) (name : String) :
    o.buildNode enter (.subTree r name) b =
      if r.isMet o.loadout o.settings then enter name b else unbuilt b := by
  rw [buildNode, guarded]
  simp only [NodeDefinition.requirement, NodeDefinition.parameters, List.any_nil,
    Bool.false_eq_true, if_false]
  cases r.isMet o.loadout o.settings <;> rfl

theorem buildNode_require (r : Requirement) :
    o.buildNode enter (node.require r) b =
      if r.isMet o.loadout o.settings then o.buildNode enter node b else unbuilt b := by
  cases node with
  | leaf own kind => simp only [NodeDefinition.require, buildNode, ← guarded_require]
  | subTree own name => simp only [NodeDefinition.require, buildNode, ← guarded_require]
  | group own kind nodes => simp only [NodeDefinition.require, buildNode, ← guarded_require]
  | wrapper own kind node =>
    cases node with
    | none => simp only [NodeDefinition.require, buildNode, ← guarded_require]
    | some node => simp only [NodeDefinition.require, buildNode, ← guarded_require]

end Guard

theorem outcome_buildRoot {o : Outfit} {enter : String → Builder → Built} {tree : TreeDefinition}
    {root : NodeDefinition} (hroot : tree.root = some root) {b : Builder} :
    outcome (o.buildRoot enter tree b) =
      outcome (o.buildNode enter root { b with policy := tree.parallelPolicy }) := by
  rw [buildRoot, hroot, buildOptional]
  exact outcome_of_same_dice (f := fun after => { after with policy := b.policy }) fun _ => rfl

/-- The trees that may be referred to; without a library there are none. -/
def trees : TreeLibrary := o.library.getD .empty

section Library

variable {o} {library : TreeLibrary}

/-- Wherever the path leads, building the node comes to the same as building what it looks like
inlined, without any tree to refer to. -/
def Inlines (o : Outfit) (library : TreeLibrary) (path : List String)
    (scope : Option ParallelPolicy) (node : NodeDefinition) : Prop :=
  ∀ room b b₀, library.unopened path ≤ room → b.Matches path scope b₀ →
    outcome (o.buildNode (o.enter room) node b) =
      outcome (o.alone.buildNode (o.alone.enter 0) (library.inlined path scope node) b₀)

theorem outcome_buildNodes {path : List String} {scope : Option ParallelPolicy}
    (stop : Option Status) {nodes : List NodeDefinition}
    (h : ∀ node ∈ nodes, o.Inlines library path scope node) {room : Nat}
    (hroom : library.unopened path ≤ room) {b b₀ : Builder} (hb : b.Matches path scope b₀) :
    outcome (o.buildNodes (o.enter room) stop nodes b) =
      outcome (o.alone.buildNodes (o.alone.enter 0) stop
        (library.inlinedAll path scope nodes) b₀) := by
  induction nodes generalizing b b₀ with
  | nil =>
    rw [TreeLibrary.inlinedAll, buildNodes, buildNodes]
    exact outcome_ok hb.dice
  | cons node rest ih =>
    have hrest : ∀ x ∈ rest, o.Inlines library path scope x :=
      fun x hx => h x (List.mem_cons_of_mem _ hx)
    rw [TreeLibrary.inlinedAll, buildNodes, buildNodes]
    refine outcome_bind (h node List.mem_cons_self room b b₀ hroom hb) ?_
    intro child b₁ b₂ hx hy hdice
    have hafter : b₁.Matches path scope b₂ :=
      hb.step (o.buildNode_sameScope (o.enter_balanced room) node _ _ _ hx)
        (o.alone.buildNode_sameScope (o.alone.enter_balanced 0) _ _ _ _ hy) hdice
    dsimp only
    split
    · exact outcome_ok hdice
    · exact outcome_bind (ih hrest hafter) fun children b₃ b₄ _ _ hdice => outcome_ok hdice

section Enter

variable {path : List String} {scope : Option ParallelPolicy} {name : String} {room : Nat}
  {b b₀ : Builder}

theorem trees_of_library (h : o.library = some library) : o.trees = library := by
  rw [trees, h]
  rfl

theorem tree?_of_trees (hlibrary : o.trees = library) (name : String) :
    o.tree? name = library.get? name := by
  rw [← hlibrary, trees, tree?]
  cases o.library <;> rfl

theorem unopened_le_treeCount (hlibrary : o.trees = library) (path : List String) :
    library.unopened path ≤ o.treeCount := by
  have hcount : o.treeCount = library.size := by
    rw [← hlibrary, trees, treeCount]
    cases o.library <;> rfl
  rw [hcount]
  exact library.unopened_le_size path

theorem outcome_enter_of_unknown (hlibrary : o.trees = library)
    (hname : library.get? name = none) (hdice : b.dice = b₀.dice) :
    outcome (o.enter room name b) = outcome (unbuilt b₀) := by
  rw [← tree?_of_trees hlibrary] at hname
  rw [enter, hname]
  exact outcome_unbuilt hdice

theorem outcome_enter_of_open {tree : TreeDefinition} (hlibrary : o.trees = library)
    (hname : library.get? name = some tree) (hopen : name ∈ b.openTrees)
    (hdice : b.dice = b₀.dice) :
    outcome (o.enter room name b) = outcome (unbuilt b₀) := by
  rw [← tree?_of_trees hlibrary] at hname
  rw [enter, hname]
  simp only [if_pos hopen]
  exact outcome_unbuilt hdice

/-- As long as a name is not open yet there is room to enter its tree. -/
theorem enter_of_closed {tree : TreeDefinition} (hlibrary : o.trees = library)
    (hname : library.get? name = some tree) (hclosed : name ∉ b.openTrees)
    (hroom : library.unopened b.openTrees ≤ room) :
    ∃ less, library.unopened (b.openTrees ++ [name]) ≤ less ∧
      o.enter room name b = (do
        let (node, after) ← o.buildRoot (o.enter less) tree (b.opening name)
        return (node, after.closing)) := by
  have hlt := TreeLibrary.unopened_lt (Table.contains_of_get? hname) hclosed
  rw [← tree?_of_trees hlibrary] at hname
  cases room with
  | zero => omega
  | succ less =>
    refine ⟨less, by omega, ?_⟩
    rw [enter, hname]
    simp only [if_neg hclosed]

theorem outcome_enter_of_rootless {tree : TreeDefinition} (hlibrary : o.trees = library)
    (hname : library.get? name = some tree) (hclosed : name ∉ b.openTrees)
    (hroot : tree.root = none) (hroom : library.unopened b.openTrees ≤ room)
    (hdice : b.dice = b₀.dice) :
    outcome (o.enter room name b) = outcome (unbuilt b₀) := by
  obtain ⟨less, -, henter⟩ := enter_of_closed hlibrary hname hclosed hroom
  rw [henter, buildRoot, hroot, buildOptional]
  exact outcome_unbuilt hdice

theorem outcome_enter {tree : TreeDefinition} {root : NodeDefinition}
    (hlibrary : o.trees = library) (hname : library.get? name = some tree)
    (hpath : name ∉ path) (hroot : tree.root = some root)
    (h : o.Inlines library (path ++ [name]) (some tree.parallelPolicy) root)
    (hroom : library.unopened path ≤ room) (hb : b.Matches path scope b₀) :
    outcome (o.enter room name b) =
      outcome (o.alone.buildNode (o.alone.enter 0)
        (library.inlined (path ++ [name]) (some tree.parallelPolicy) root) b₀) := by
  rw [← hb.openTrees] at hroom hpath
  obtain ⟨less, hless, henter⟩ := enter_of_closed hlibrary hname hpath hroom
  rw [hb.openTrees] at hless
  have hopened : Builder.Matches (path ++ [name]) (some tree.parallelPolicy)
      { b.opening name with policy := tree.parallelPolicy } b₀ :=
    ⟨congrArg (· ++ [name]) hb.openTrees, rfl, hb.dice⟩
  rw [henter, outcome_of_same_dice (f := Builder.closing) fun _ => rfl, outcome_buildRoot hroot]
  exact h less _ _ hless hopened

end Enter

theorem inlines (hlibrary : o.trees = library) (path : List String)
    (scope : Option ParallelPolicy) (node : NodeDefinition) :
    o.Inlines library path scope node := by
  induction path, scope, node using TreeLibrary.inclusion_induct library with
  | leaf path scope r kind =>
    intro room b b₀ hroom hb
    rw [TreeLibrary.inlined, buildNode, buildNode]
    refine outcome_guarded rfl rfl hb.dice ?_
    rw [hb.dice]
    cases kind.roll b₀.dice with
    | error e => rfl
    | ok p =>
      simp only [ok_bind, fit_alone]
      exact outcome_ok rfl
  | subTree path scope r name ih =>
    intro room b b₀ hroom hb
    rw [buildNode_subTree]
    cases hname : library.get? name with
    | none =>
      rw [TreeLibrary.inlined_of_unknown hname, buildNode_never]
      split
      · exact outcome_enter_of_unknown hlibrary hname hb.dice
      · exact outcome_unbuilt hb.dice
    | some tree =>
      by_cases hpath : name ∈ path
      · rw [TreeLibrary.inlined_of_open hpath, buildNode_never]
        split
        · exact outcome_enter_of_open hlibrary hname (hb.openTrees ▸ hpath) hb.dice
        · exact outcome_unbuilt hb.dice
      · cases hroot : tree.root with
        | none =>
          rw [TreeLibrary.inlined_of_rootless hname hroot, buildNode_never]
          split
          · exact outcome_enter_of_rootless hlibrary hname (hb.openTrees ▸ hpath) hroot
              (hb.openTrees ▸ hroom) hb.dice
          · exact outcome_unbuilt hb.dice
        | some root =>
          rw [TreeLibrary.inlined_subTree hname hpath hroot, buildNode_require]
          have hmet : r.isMet o.alone.loadout o.alone.settings =
              r.isMet o.loadout o.settings := rfl
          rw [hmet]
          split
          · exact outcome_enter hlibrary hname hpath hroot (ih tree root hname hpath hroot) hroom hb
          · exact outcome_unbuilt hb.dice
  | group path scope r kind nodes ih =>
    intro room b b₀ hroom hb
    rw [TreeLibrary.inlined, buildNode, buildNode]
    refine outcome_guarded rfl (kind.parameters_within scope) hb.dice ?_
    rw [GroupKind.stop?_within]
    refine outcome_bind (outcome_buildNodes kind.stop? ih hroom hb) ?_
    intro children b₁ b₂ _ _ hdice
    dsimp only
    rw [GroupKind.assemble_within, hb.policy]
    exact outcome_ok hdice
  | bare path scope r kind =>
    intro room b b₀ hroom hb
    rw [TreeLibrary.inlined, buildNode, buildNode]
    refine outcome_guarded rfl rfl hb.dice ?_
    exact outcome_ok hb.dice
  | wrapper path scope r kind node ih =>
    intro room b b₀ hroom hb
    rw [TreeLibrary.inlined, buildNode, buildNode]
    refine outcome_guarded rfl rfl hb.dice ?_
    exact outcome_bind (ih room b b₀ hroom hb) fun child b₁ b₂ _ _ hdice => outcome_ok hdice

end Library

/-- Building a definition with a library gives the same node, and leaves the random source in the
same state, as building without any library the definition in which the trees it refers to are
written out. The definition written out refers to nothing. -/
theorem build_inlined (o : Outfit) (library : TreeLibrary) (node : NodeDefinition) (b : Builder) :
    outcome ({ o with library := some library }.build (some node) b) =
        outcome ({ o with library := none }.build
          (some (library.inlined b.openTrees none node)) b) ∧
      (library.inlined b.openTrees none node).references = [] := by
  refine ⟨?_, library.references_inlined b.openTrees none node⟩
  exact inlines rfl b.openTrees none node _ b b (unopened_le_treeCount rfl b.openTrees)
    ⟨rfl, rfl, rfl⟩

end Outfit

end Helm
