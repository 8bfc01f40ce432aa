import Mathlib.Data.List.Perm.Subperm
import Helm.Proofs.Definition.Search
import Helm.Proofs.Pilot.Inlining

/-!
# Helm.Proofs.Pilot.Termination

Building apart from the room that it is given. `Outfit.Builds` has a rule for every way in which a
call of the builder comes to an end, and keeps the calls that are made inside it; nothing in it
bounds how many trees may be open. Every call made while no tree is open has exactly one such
evaluation, which gives what the builder gives, and at every call made on the way the open trees
are different trees of the library (`builds_call`).
-/

namespace Helm

/-- What a builder may be asked to build. -/
inductive BuildCall where
  | node (node : Option NodeDefinition)
  | tree (tree : TreeDefinition)
  | named (name : String)

/-- A call of a builder, the builder at that moment, and what came back. -/
structure Visit where
  call : BuildCall
  before : Builder
  built : Built

namespace Outfit

def call (o : Outfit) : BuildCall → Builder → Built
  | .node node => o.build node
  | .tree tree => o.buildTree tree
  | .named name => o.buildNamed name

/-- The builder that goes on without the node, if there is something that keeps it from being
built. -/
def refusal? (o : Outfit) (node : NodeDefinition) (b : Builder) : Option Builder :=
  if !node.requirement.isMet o.loadout o.settings then some b
  else if node.parameters.any fun x => !x.isFinite then
    some (b.warn (.notFinite node.name node.parameters))
  else none

theorem guarded_eq (o : Outfit) (node : NodeDefinition) (b : Builder) (go : Builder → Built) :
    o.guarded node b go = match o.refusal? node b with
      | some after => unbuilt after
      | none => go b := by
  rw [guarded, refusal?]
  split
  · rfl
  · split <;> rfl

mutual

/-- A call comes to an end with the given result; the visits are the calls made inside it, in
order. -/
inductive Builds (o : Outfit) : BuildCall → Builder → List Visit → Built → Prop where
  | missing {b : Builder} : Builds o (.node none) b [] (unbuilt b)
  | refused {node : NodeDefinition} {b after : Builder} (h : o.refusal? node b = some after) :
      Builds o (.node (some node)) b [] (unbuilt after)
  | leaf {r : Requirement} {kind : LeafKind} {b : Builder}
      (hgo : o.refusal? (.leaf r kind) b = none) :
      Builds o (.node (some (.leaf r kind))) b [] (do
        let (roll, dice) ← kind.roll b.dice
        return (o.fit roll kind, { b with dice := dice }))
  | subTree {r : Requirement} {name : String} {b : Builder} {nested : List Visit} {built : Built}
      (hgo : o.refusal? (.subTree r name) b = none) (h : Builds o (.named name) b nested built) :
      Builds o (.node (some (.subTree r name))) b (⟨.named name, b, built⟩ :: nested) built
  | group {r : Requirement} {kind : GroupKind} {nodes : List NodeDefinition} {b : Builder}
      {nested : List Visit} {row : Except Fault (List ShipNode × Builder)}
      (hgo : o.refusal? (.group r kind nodes) b = none)
      (h : BuildsAll o kind.stop? nodes b nested row) :
      Builds o (.node (some (.group r kind nodes))) b nested (do
        let (children, after) ← row
        return (kind.assemble b.policy children, after))
  | wrapper {r : Requirement} {kind : WrapperKind} {node : Option NodeDefinition} {b : Builder}
      {nested : List Visit} {built : Built} (hgo : o.refusal? (.wrapper r kind node) b = none)
      (h : Builds o (.node node) b nested built) :
      Builds o (.node (some (.wrapper r kind node))) b (⟨.node node, b, built⟩ :: nested) (do
        let (child, after) ← built
        return (kind.wrap child, after))
  | tree {tree : TreeDefinition} {b : Builder} {nested : List Visit} {built : Built}
      (h : Builds o (.node tree.root) { b with policy := tree.parallelPolicy } nested built) :
      Builds o (.tree tree) b
        (⟨.node tree.root, { b with policy := tree.parallelPolicy }, built⟩ :: nested) (do
          let (node, after) ← built
          return (node, { after with policy := b.policy }))
  | unknown {name : String} {b : Builder} (hname : o.tree? name = none) :
      Builds o (.named name) b [] (unbuilt (b.warn (.unknownSubTree name)))
  | cyclic {name : String} {tree : TreeDefinition} {b : Builder} (hname : o.tree? name = some tree)
      (hopen : name ∈ b.openTrees) :
      Builds o (.named name) b [] (unbuilt (b.warn (.subTreeCycle b.openTrees name)))
  | entered {name : String} {tree : TreeDefinition} {b : Builder} {nested : List Visit}
      {built : Built} (hname : o.tree? name = some tree) (hclosed : name ∉ b.openTrees)
      (h : Builds o (.tree tree) (b.opening name) nested built) :
      Builds o (.named name) b (⟨.tree tree, b.opening name, built⟩ :: nested) (do
        let (node, after) ← built
        return (node, after.closing))

/-- The nodes of a composite are built in order, up to one that always gives `stop`. -/
inductive BuildsAll (o : Outfit) : Option Status → List NodeDefinition → Builder → List Visit →
    Except Fault (List ShipNode × Builder) → Prop where
  | nil {stop : Option Status} {b : Builder} : BuildsAll o stop [] b [] (.ok ([], b))
  | abandoned {stop : Option Status} {node : NodeDefinition} {rest : List NodeDefinition}
      {b : Builder} {nested : List Visit} {e : Fault}
      (h : Builds o (.node (some node)) b nested (.error e)) :
      BuildsAll o stop (node :: rest) b (⟨.node (some node), b, .error e⟩ :: nested) (.error e)
  | stopped {stop : Option Status} {node : NodeDefinition} {rest : List NodeDefinition}
      {b after : Builder} {nested : List Visit} {child : ShipNode}
      (h : Builds o (.node (some node)) b nested (.ok (child, after)))
      (hstop : stop.isSome = true ∧ child.constant? = stop) :
      BuildsAll o stop (node :: rest) b (⟨.node (some node), b, .ok (child, after)⟩ :: nested)
        (.ok ([child], after))
  | next {stop : Option Status} {node : NodeDefinition} {rest : List NodeDefinition}
      {b after : Builder} {nested later : List Visit} {child : ShipNode}
      {row : Except Fault (List ShipNode × Builder)}
      (h : Builds o (.node (some node)) b nested (.ok (child, after)))
      (hstop : ¬(stop.isSome = true ∧ child.constant? = stop))
      (hrest : BuildsAll o stop rest after later row) :
      BuildsAll o stop (node :: rest) b
        (⟨.node (some node), b, .ok (child, after)⟩ :: (nested ++ later)) (do
          let (children, after) ← row
          return (child :: children, after))

end

variable {o : Outfit}

def UniqueRow (o : Outfit) (stop : Option Status) (nodes : List NodeDefinition) (b : Builder)
    (nested : List Visit) (row : Except Fault (List ShipNode × Builder)) : Prop :=
  ∀ nested₀ row₀, o.BuildsAll stop nodes b nested₀ row₀ → nested₀ = nested ∧ row₀ = row

/-- A call comes to an end in one way only, for the rules exclude each other. -/
theorem Builds.unique {call : BuildCall} {b : Builder} {nested nested₀ : List Visit}
    {built built₀ : Built} (h : o.Builds call b nested built)
    (h₀ : o.Builds call b nested₀ built₀) : nested₀ = nested ∧ built₀ = built := by
  -- over both judgements at once, with `UniqueRow` for the nodes of a composite
  induction h using @Builds.rec o _ (fun stop nodes b nested row _ =>
    o.UniqueRow stop nodes b nested row) generalizing nested₀ built₀ with
  | missing =>
    cases h₀
    exact ⟨rfl, rfl⟩
  | refused hrefused =>
    cases h₀ with
    | refused hrefused₀ =>
      obtain rfl := Option.some.inj (hrefused₀.symm.trans hrefused)
      exact ⟨rfl, rfl⟩
    | leaf hgo => cases hgo.symm.trans hrefused
    | subTree hgo => cases hgo.symm.trans hrefused
    | group hgo => cases hgo.symm.trans hrefused
    | wrapper hgo => cases hgo.symm.trans hrefused
  | leaf hgo =>
    cases h₀ with
    | refused hrefused => cases hgo.symm.trans hrefused
    | leaf => exact ⟨rfl, rfl⟩
  | subTree hgo _ ih =>
    cases h₀ with
    | refused hrefused => cases hgo.symm.trans hrefused
    | subTree _ h₀ =>
      obtain ⟨rfl, rfl⟩ := ih h₀
      exact ⟨rfl, rfl⟩
  | group hgo _ ih =>
    cases h₀ with
    | refused hrefused => cases hgo.symm.trans hrefused
    | group _ h₀ =>
      obtain ⟨rfl, rfl⟩ := ih _ _ h₀
      exact ⟨rfl, rfl⟩
  | wrapper hgo _ ih =>
    cases h₀ with
    | refused hrefused => cases hgo.symm.trans hrefused
    | wrapper _ h₀ =>
      obtain ⟨rfl, rfl⟩ := ih h₀
      exact ⟨rfl, rfl⟩
  | tree _ ih =>
    cases h₀ with
    | tree h₀ =>
      obtain ⟨rfl, rfl⟩ := ih h₀
      exact ⟨rfl, rfl⟩
  | unknown hname =>
    cases h₀ with
    | unknown => exact ⟨rfl, rfl⟩
    | cyclic hname₀ => cases hname.symm.trans hname₀
    | entered hname₀ => cases hname.symm.trans hname₀
  | cyclic hname hopen =>
    cases h₀ with
    | unknown hname₀ => cases hname.symm.trans hname₀
    | cyclic => exact ⟨rfl, rfl⟩
    | entered _ hclosed => exact absurd hopen hclosed
  | entered hname hclosed _ ih =>
    cases h₀ with
    | unknown hname₀ => cases hname.symm.trans hname₀
    | cyclic _ hopen => exact absurd hopen hclosed
    | entered hname₀ _ h₀ =>
      obtain rfl := Option.some.inj (hname₀.symm.trans hname)
      obtain ⟨rfl, rfl⟩ := ih h₀
      exact ⟨rfl, rfl⟩
  | nil =>
    intro _ _ h₀
    cases h₀
    exact ⟨rfl, rfl⟩
  | abandoned _ ih =>
    intro _ _ h₀
    cases h₀ with
    | abandoned h₀ =>
      obtain ⟨rfl, hbuilt⟩ := ih h₀
      cases hbuilt
      exact ⟨rfl, rfl⟩
    | stopped h₀ => cases (ih h₀).2
    | next h₀ => cases (ih h₀).2
  | stopped _ hstop ih =>
    intro _ _ h₀
    cases h₀ with
    | abandoned h₀ => cases (ih h₀).2
    | stopped h₀ =>
      obtain ⟨rfl, hbuilt⟩ := ih h₀
      cases hbuilt
      exact ⟨rfl, rfl⟩
    | next h₀ hgo =>
      cases (ih h₀).2
      exact absurd hstop hgo
  | next _ hgo _ ih ihrest =>
    intro _ _ h₀
    cases h₀ with
    | abandoned h₀ => cases (ih h₀).2
    | stopped h₀ hstop =>
      cases (ih h₀).2
      exact absurd hstop hgo
    | next h₀ _ hrest₀ =>
      obtain ⟨rfl, hbuilt⟩ := ih h₀
      cases hbuilt
      obtain ⟨rfl, rfl⟩ := ihrest _ _ hrest₀
      exact ⟨rfl, rfl⟩

end Outfit

/-! ## Open trees -/

/-- The open trees are different trees of the library. -/
structure Builder.Opens (library : TreeLibrary) (b : Builder) : Prop where
  nodup : b.openTrees.Nodup
  held : ∀ name ∈ b.openTrees, library.contains name = true

namespace Builder.Opens

variable {library : TreeLibrary} {b : Builder}

theorem of_none_open (h : b.openTrees = []) : b.Opens library := by
  constructor <;> simp [h]

theorem length_le (h : b.Opens library) : b.openTrees.length ≤ library.size := by
  have hkeys : b.openTrees ⊆ library.keys :=
    fun name hname => Table.mem_keys_iff.mpr (h.held name hname)
  have hle := (List.subperm_of_subset h.nodup hkeys).length_le
  rwa [Table.keys, List.length_map] at hle

theorem opening (h : b.Opens library) {name : String} (hname : library.contains name = true)
    (hclosed : name ∉ b.openTrees) : (b.opening name).Opens library where
  nodup := nodup_snoc h.nodup hclosed
  held other hother := by
    rcases List.mem_append.mp hother with hopen | hnew
    · exact h.held other hopen
    · rwa [List.mem_singleton.mp hnew]

theorem sameScope (h : b.Opens library) {after : Builder} (hscope : after.SameScope b) :
    after.Opens library := by
  constructor
  · rw [hscope.openTrees]
    exact h.nodup
  · rw [hscope.openTrees]
    exact h.held

end Builder.Opens

/-- The call finds different trees of the library open, and comes back in the scope it was made
in. -/
structure Visit.Sound (library : TreeLibrary) (v : Visit) : Prop where
  opens : v.before.Opens library
  back : ∀ node after, v.built = .ok (node, after) → after.SameScope v.before

namespace Outfit

variable {o : Outfit} {library : TreeLibrary}

/-- The call comes to an end as it is said to; it and every call on the way are sound. -/
def Ends (o : Outfit) (library : TreeLibrary) (v : Visit) : Prop :=
  ∃ nested, o.Builds v.call v.before nested v.built ∧ ∀ w ∈ v :: nested, w.Sound library

theorem Ends.at_once {v : Visit} (hv : v.Sound library)
    (hbuilds : o.Builds v.call v.before [] v.built) : o.Ends library v :=
  ⟨[], hbuilds, List.forall_mem_singleton.mpr hv⟩

theorem Ends.inside {v w : Visit} (hv : v.Sound library) (hw : o.Ends library w)
    (hrule : ∀ nested, o.Builds w.call w.before nested w.built →
      o.Builds v.call v.before (w :: nested) v.built) : o.Ends library v := by
  obtain ⟨nested, hbuilds, hnested⟩ := hw
  exact ⟨w :: nested, hrule nested hbuilds, List.forall_mem_cons.mpr ⟨hv, hnested⟩⟩

/-- Wherever the path leads, building the node comes to an end. -/
def EndsAt (o : Outfit) (library : TreeLibrary) (path : List String) (node : NodeDefinition) :
    Prop :=
  ∀ room b, b.openTrees = path → b.Opens library → library.unopened path ≤ room →
    o.Ends library ⟨.node (some node), b, o.buildNode (o.enter room) node b⟩

theorem ends_guarded {node : NodeDefinition} {b : Builder} {go : Builder → Built}
    (hv : Visit.Sound library ⟨.node (some node), b, o.guarded node b go⟩)
    (h : o.refusal? node b = none → Visit.Sound library ⟨.node (some node), b, go b⟩ →
      o.Ends library ⟨.node (some node), b, go b⟩) :
    o.Ends library ⟨.node (some node), b, o.guarded node b go⟩ := by
  rw [guarded_eq] at hv ⊢
  cases hrefusal : o.refusal? node b with
  | none =>
    rw [hrefusal] at hv
    exact h hrefusal hv
  | some after =>
    rw [hrefusal] at hv
    exact .at_once hv (.refused hrefusal)

theorem ends_missing {b : Builder} (hb : b.Opens library) :
    o.Ends library ⟨.node none, b, unbuilt b⟩ := by
  refine .at_once ⟨hb, fun _ _ hbuilt => ?_⟩ .missing
  cases hbuilt
  exact .refl b

section Nested

variable {path : List String} {room : Nat} {b : Builder}

theorem ends_buildNodes (stop : Option Status) {nodes : List NodeDefinition}
    (h : ∀ node ∈ nodes, o.EndsAt library path node)
    (hpath : b.openTrees = path) (hb : b.Opens library) (hroom : library.unopened path ≤ room) :
    ∃ nested, o.BuildsAll stop nodes b nested (o.buildNodes (o.enter room) stop nodes b) ∧
      ∀ v ∈ nested, v.Sound library := by
  induction nodes generalizing b with
  | nil =>
    rw [buildNodes]
    exact ⟨[], .nil, List.forall_mem_nil _⟩
  | cons node rest ih =>
    obtain ⟨nested, hbuilds, hnested⟩ := h node List.mem_cons_self room b hpath hb hroom
    rw [buildNodes]
    cases hbuilt : o.buildNode (o.enter room) node b with
    | error e =>
      rw [hbuilt] at hbuilds hnested
      exact ⟨_, .abandoned hbuilds, hnested⟩
    | ok p =>
      obtain ⟨child, after⟩ := p
      rw [hbuilt] at hbuilds hnested
      simp only [ok_bind, Bool.and_eq_true, decide_eq_true_eq]
      split
      · rename_i hstop
        exact ⟨_, .stopped hbuilds hstop, hnested⟩
      · rename_i hstop
        -- the next node finds the scope that this one has been built in
        have hscope := (hnested _ List.mem_cons_self).back child after rfl
        obtain ⟨later, hrest, hlater⟩ := ih (fun x hx => h x (List.mem_cons_of_mem _ hx))
          (hscope.openTrees.trans hpath) (hb.sameScope hscope)
        exact ⟨_, .next hbuilds hstop hrest, List.forall_mem_append.mpr ⟨hnested, hlater⟩⟩

theorem ends_buildOptional {node : Option NodeDefinition}
    (h : ∀ root, node = some root → o.EndsAt library path root) (hpath : b.openTrees = path)
    (hb : b.Opens library) (hroom : library.unopened path ≤ room) :
    o.Ends library ⟨.node node, b, o.buildOptional (o.enter room) node b⟩ := by
  cases node with
  | none => exact ends_missing hb
  | some root => exact h root rfl room b hpath hb hroom

theorem ends_buildRoot {tree : TreeDefinition}
    (h : ∀ root, tree.root = some root → o.EndsAt library path root) (hpath : b.openTrees = path)
    (hb : b.Opens library) (hroom : library.unopened path ≤ room) :
    o.Ends library ⟨.tree tree, b, o.buildRoot (o.enter room) tree b⟩ := by
  have hv : Visit.Sound library ⟨.tree tree, b, o.buildRoot (o.enter room) tree b⟩ :=
    ⟨hb, fun _ _ hbuilt => o.buildRoot_sameScope (o.enter_balanced room) _ _ _ _ hbuilt⟩
  have hroot := ends_buildOptional (b := { b with policy := tree.parallelPolicy })
    h hpath { hb with } hroom
  exact .inside hv hroot fun _ => .tree

theorem ends_enter (hlibrary : o.trees = library) {name : String}
    (h : ∀ tree root, library.get? name = some tree → name ∉ path → tree.root = some root →
      o.EndsAt library (path ++ [name]) root) (hpath : b.openTrees = path) (hb : b.Opens library)
    (hroom : library.unopened path ≤ room) :
    o.Ends library ⟨.named name, b, o.enter room name b⟩ := by
  have hv : Visit.Sound library ⟨.named name, b, o.enter room name b⟩ :=
    ⟨hb, fun _ _ hbuilt => o.enter_balanced room name _ _ _ hbuilt⟩
  have hname := tree?_of_trees hlibrary name
  cases htree : library.get? name with
  | none =>
    rw [htree] at hname
    rw [enter, hname] at hv ⊢
    exact .at_once hv (.unknown hname)
  | some tree =>
    rw [htree] at hname
    by_cases hopen : name ∈ b.openTrees
    · rw [enter, hname] at hv ⊢
      simp only [if_pos hopen] at hv ⊢
      exact .at_once hv (.cyclic hname hopen)
    · -- opening a name that is not open yet leaves less to open
      rw [← hpath] at hroom
      obtain ⟨less, hless, henter⟩ := enter_of_closed hlibrary htree hopen hroom
      have hopened : (b.opening name).Opens library :=
        hb.opening (Table.contains_of_get? htree) hopen
      have hroot : ∀ root, tree.root = some root →
          o.EndsAt library (b.opening name).openTrees root := by
        rw [Builder.opening, hpath]
        exact fun root => h tree root htree (hpath ▸ hopen)
      rw [henter] at hv ⊢
      exact .inside hv (ends_buildRoot hroot rfl hopened hless) fun _ => .entered hname hopen

end Nested

/-- The induction goes along references: each is followed into the tree that it names, which leaves
one name less to open. -/
theorem endsAt (hlibrary : o.trees = library) (path : List String)
    (scope : Option ParallelPolicy) (node : NodeDefinition) : o.EndsAt library path node := by
  have hsound : ∀ room node b, b.Opens library →
      Visit.Sound library ⟨.node (some node), b, o.buildNode (o.enter room) node b⟩ :=
    fun room node b hb =>
      ⟨hb, fun _ _ hbuilt => o.buildNode_sameScope (o.enter_balanced room) node _ _ _ hbuilt⟩
  induction path, scope, node using TreeLibrary.inclusion_induct library with
  | leaf path scope r kind =>
    intro room b _ hb _
    have hv := hsound room (.leaf r kind) b hb
    rw [buildNode] at hv ⊢
    exact ends_guarded hv fun hgo hv => .at_once hv (.leaf hgo)
  | subTree path scope r name ih =>
    intro room b hpath hb hroom
    have hv := hsound room (.subTree r name) b hb
    rw [buildNode] at hv ⊢
    refine ends_guarded hv fun hgo hv => ?_
    exact .inside hv (ends_enter hlibrary ih hpath hb hroom) fun _ => .subTree hgo
  | group path scope r kind nodes ih =>
    intro room b hpath hb hroom
    have hv := hsound room (.group r kind nodes) b hb
    rw [buildNode] at hv ⊢
    refine ends_guarded hv fun hgo hv => ?_
    obtain ⟨nested, hbuilds, hnested⟩ := ends_buildNodes kind.stop? ih hpath hb hroom
    exact ⟨nested, .group hgo hbuilds, List.forall_mem_cons.mpr ⟨hv, hnested⟩⟩
  | bare path scope r kind =>
    intro room b _ hb _
    have hv := hsound room (.wrapper r kind none) b hb
    rw [buildNode] at hv ⊢
    exact ends_guarded hv fun hgo hv => .inside hv (ends_missing hb) fun _ => .wrapper hgo
  | wrapper path scope r kind node ih =>
    intro room b hpath hb hroom
    have hv := hsound room (.wrapper r kind (some node)) b hb
    rw [buildNode] at hv ⊢
    refine ends_guarded hv fun hgo hv => ?_
    exact .inside hv (ih room b hpath hb hroom) fun _ => .wrapper hgo

theorem ends_call (hlibrary : o.trees = library) (call : BuildCall) {b : Builder}
    (hb : b.Opens library) : o.Ends library ⟨call, b, o.call call b⟩ := by
  have hroom := unopened_le_treeCount hlibrary b.openTrees
  cases call with
  | node node => exact ends_buildOptional (fun root _ => endsAt hlibrary _ none root) rfl hb hroom
  | tree tree => exact ends_buildRoot (fun root _ => endsAt hlibrary _ none root) rfl hb hroom
  | named name =>
    exact ends_enter hlibrary (fun _ root _ _ _ => endsAt hlibrary _ none root) rfl hb hroom

/-- Whatever the library, a call made while no tree is open comes to an end in exactly one way,
with what the builder gives. It and every call inside it find different trees of the library open,
never more than there are, and come back in the scope they were made in. -/
theorem builds_call (hlibrary : o.library = some library) (call : BuildCall) {b : Builder}
    (hb : b.openTrees = []) :
    ∃ nested, (∀ visits built, o.Builds call b visits built ↔
        visits = nested ∧ built = o.call call b) ∧
      ∀ v ∈ ⟨call, b, o.call call b⟩ :: nested,
        v.Sound library ∧ v.before.openTrees.length ≤ library.size := by
  obtain ⟨nested, hbuilds, hsound⟩ := ends_call (trees_of_library hlibrary) call (.of_none_open hb)
  refine ⟨nested, fun visits built => ⟨hbuilds.unique, ?_⟩, fun v hv => ?_⟩
  · rintro ⟨rfl, rfl⟩
    exact hbuilds
  · exact ⟨hsound v hv, (hsound v hv).opens.length_le⟩

/-- A tree that refers to itself, and one that it is in a cycle with. -/
def knot : TreeLibrary :=
  (Table.empty.insert "left" { root := some (.subTree .always "right") }).insert "right"
    { root := some (.group .always .selector [.subTree .always "right", .subTree .always "left"]) }

/-- A ship that may refer to the trees of the knot. -/
def tangled : Outfit := { ship := ⟨1⟩, loadout := {}, library := some knot }

theorem builds_call_knot :
    (tangled.builder default).openTrees = [] ∧
      tangled.call (.named "left") (tangled.builder default) =
        .ok (.alwaysFailure, { tangled.builder default with
          warnings := [.subTreeCycle ["left", "right"] "right",
            .subTreeCycle ["left", "right"] "left"] }) ∧
      ∃ nested, (∀ visits built,
          tangled.Builds (.named "left") (tangled.builder default) visits built ↔
            visits = nested ∧ built = tangled.call (.named "left") (tangled.builder default)) ∧
        ∀ v ∈ Visit.mk (.named "left") (tangled.builder default)
            (tangled.call (.named "left") (tangled.builder default)) :: nested,
          v.Sound knot ∧ v.before.openTrees.length ≤ knot.size :=
  ⟨rfl, rfl, builds_call rfl (.named "left") rfl⟩

end Outfit

end Helm
