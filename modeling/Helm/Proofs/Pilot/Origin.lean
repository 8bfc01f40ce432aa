import Helm.Proofs.Pilot.Assembly
import Helm.Proofs.Pilot.Scope
import Helm.Proofs.Pilot.Termination
import Helm.Proofs.Tree.Visit

/-!
# Helm.Proofs.Pilot.Origin

Where the leaves of a built tree come from. The visits of a build that fitted a leaf give the leaves
of the tree from left to right, each with the definition that it was fitted from (`Builds.leaves`):
what a composite leaves out and what a decorator makes away with is constant, and has no leaves. All
that is visited is mentioned by the definition that is built (`Builds.visits_from`), and every build
has its visits, be there a library or not (`fittings_of_buildTree`).
-/

namespace Helm

/-! ## Leaves of assembled nodes -/

namespace Node

variable {L : Type}

theorem leaves_of_constant? {node : Node L} {s : Status} (h : node.constant? = some s) :
    node.leaves = [] := by
  cases node <;> cases h <;> rfl

theorem leaves_unwrap {empty : Node L} {make : List (Node L) → Node L} (hempty : empty.leaves = [])
    (hmake : ∀ children, (make children).leaves = leavesOfAll children)
    (children : List (Node L)) :
    (Collapse.unwrap empty make children).leaves = leavesOfAll children := by
  match children with
  | [] => exact hempty
  | [child] => exact (List.append_nil _).symm
  | first :: second :: rest => exact hmake _

end Node

/-- A decorator that is left out, or replaced by a constant, has had a constant child. -/
theorem WrapperKind.leaves_wrap (kind : WrapperKind) (child : ShipNode) :
    (kind.wrap child).leaves = child.leaves := by
  cases kind with
  | inverter =>
    rw [wrap]
    unfold Collapse.inverter
    split
    · rename_i hchild
      rw [Node.leaves_of_constant? hchild, Node.leaves]
    · rename_i hchild
      rw [Node.leaves_of_constant? hchild, Node.leaves]
    · rw [Node.leaves]
  | constantResult result =>
    rw [wrap]
    unfold Collapse.constantResult
    split
    · rename_i hchild
      rw [Node.leaves_of_constant? hchild, Node.leaves]
    · rename_i hchild
      rw [Node.leaves_of_constant? hchild, Node.leaves]
    · rw [Node.leaves]
  | completeOnce result =>
    rw [wrap, Collapse.completeOnce]
    split
    · rfl
    · rw [Node.leaves]

namespace GroupKind

variable {kind : GroupKind} {children : List ShipNode} {child : ShipNode}

theorem kept_of_stops (h : kind.Stops child) : kind.kept [child] = [child] := by
  obtain ⟨status, hstop, hchild⟩ := h
  cases kind <;> cases hstop <;> simp [kept, Collapse.keep, hchild]

theorem leaves_kept (h : ¬kind.Stops child) :
    Node.leavesOfAll (kind.kept (child :: children)) =
      child.leaves ++ Node.leavesOfAll (kind.kept children) := by
  by_cases hskip : kind.Skips child
  · rw [kept_of_skips hskip]
    obtain ⟨status, -, hchild⟩ := hskip
    rw [Node.leaves_of_constant? hchild, List.nil_append]
  · rw [kept_of_stays hskip h, Node.leavesOfAll]

theorem leaves_assemble (policy : ParallelPolicy) (children : List ShipNode) :
    (kind.assemble policy children).leaves = Node.leavesOfAll (kind.kept children) := by
  cases kind <;> exact Node.leaves_unwrap rfl (fun _ => rfl) _

end GroupKind

/-! ## Fittings -/

/-- The definition of a leaf that has been fitted, and the leaf. Some come out constant. -/
def Visit.fitting? (v : Visit) : Option (NodeDefinition × Leaf) :=
  match v.call with
  | .node (some (.leaf r kind)) =>
    match v.built with
    | .ok (.leaf l, _) => some (.leaf r kind, l)
    | _ => none
  | _ => none

/-- The leaves that have been fitted, each with its definition. -/
def fittings (visits : List Visit) : List (NodeDefinition × Leaf) := visits.filterMap Visit.fitting?

theorem fittings_append (visits others : List Visit) :
    fittings (visits ++ others) = fittings visits ++ fittings others :=
  List.filterMap_append

theorem fittings_leaf {r : Requirement} {kind : LeafKind} {b after : Builder} {node : ShipNode}
    (h : node.IsLeaf) :
    (fittings [⟨.node (some (.leaf r kind)), b, .ok (node, after)⟩]).map (·.2) = node.leaves := by
  cases node with
  | leaf l => rfl
  | alwaysSuccess => rfl
  | alwaysFailure => rfl
  | _ => cases h

/-- What is asked for is among the sources. -/
def BuildCall.From (o : Outfit) (S : Sources) : BuildCall → Prop
  | .node start => ∀ root, start = some root → ∃ scope, S root scope
  | .tree definition => ∀ root, definition.root = some root → ∃ scope, S root scope
  | .named name => ∀ definition root, o.tree? name = some definition →
      definition.root = some root → ∃ scope, S root scope

theorem BuildCall.From.of_source {o : Outfit} {S : Sources} {node : NodeDefinition}
    (h : ∃ scope, S node scope) : (BuildCall.node (some node)).From o S := by
  rintro _ ⟨⟩
  exact h

/-- The call comes to an end and asks for a source. -/
structure Visit.From (o : Outfit) (S : Sources) (v : Visit) : Prop where
  ends : ∃ nested, o.Builds v.call v.before nested v.built
  source : v.call.From o S

namespace Outfit

variable {o : Outfit} {S : Sources} {call : BuildCall} {b : Builder} {visits : List Visit}
  {built : Built}

/-- The leaves of what a composite keeps of its nodes are those that have been fitted. -/
def LeavesKept (stop : Option Status) (visits : List Visit)
    (row : Except Fault (List ShipNode × Builder)) : Prop :=
  ∀ (kind : GroupKind) children after, kind.stop? = stop → row = .ok (children, after) →
    (fittings visits).map (·.2) = Node.leavesOfAll (kind.kept children)

/-- The leaves of what is built are those that have been fitted on the way, in the same order. -/
theorem Builds.leaves (h : o.Builds call b visits built) {node : ShipNode} {after : Builder}
    (hbuilt : built = .ok (node, after)) :
    (fittings (⟨call, b, built⟩ :: visits)).map (·.2) = node.leaves := by
  induction h using @Builds.rec o _ (fun stop _ _ visits row _ => LeavesKept stop visits row)
    generalizing node after with
  | missing =>
    cases hbuilt
    rfl
  | @refused definition =>
    cases hbuilt
    cases definition <;> rfl
  | @leaf r kind =>
    obtain ⟨⟨roll, dice⟩, -, h⟩ := bind_eq_ok.mp hbuilt
    cases h
    rw [hbuilt]
    exact fittings_leaf (o.isLeaf_fit roll kind)
  | subTree _ _ ih => exact ih hbuilt
  | group _ _ ih =>
    obtain ⟨⟨children, after⟩, hrow, h⟩ := bind_eq_ok.mp hbuilt
    cases h
    rw [GroupKind.leaves_assemble]
    exact ih _ children after rfl hrow
  | wrapper _ _ ih =>
    obtain ⟨⟨child, after⟩, hchild, h⟩ := bind_eq_ok.mp hbuilt
    cases h
    rw [WrapperKind.leaves_wrap]
    exact ih hchild
  | tree _ ih =>
    obtain ⟨⟨root, after⟩, hroot, h⟩ := bind_eq_ok.mp hbuilt
    cases h
    exact ih hroot
  | unknown =>
    cases hbuilt
    rfl
  | cyclic =>
    cases hbuilt
    rfl
  | entered _ _ _ ih =>
    obtain ⟨⟨root, after⟩, hroot, h⟩ := bind_eq_ok.mp hbuilt
    cases h
    exact ih hroot
  | nil =>
    rintro kind _ _ - hrow
    cases hrow
    cases kind <;> rfl
  | abandoned =>
    rintro _ _ _ - hrow
    cases hrow
  | stopped _ hstop ih =>
    rintro kind _ _ rfl hrow
    cases hrow
    rw [GroupKind.kept_of_stops (stops_iff.mp (by simpa using hstop)), Node.leavesOfAll,
      Node.leavesOfAll, List.append_nil]
    exact ih rfl
  | next _ hgo _ ih ihrest =>
    rintro kind _ _ rfl hrow
    obtain ⟨⟨children, after⟩, hrest, h⟩ := bind_eq_ok.mp hrow
    cases h
    have hgo : ¬kind.Stops _ := fun hstop => hgo (by simpa using stops_iff.mpr hstop)
    rw [GroupKind.leaves_kept hgo, ← ih rfl, ← ihrest kind children _ rfl hrest,
      ← List.map_append, ← fittings_append, List.cons_append]

/-- The visits that nodes of a composite lead to ask for sources, if the nodes are sources. -/
def RowFrom (o : Outfit) (S : Sources) (nodes : List NodeDefinition) (visits : List Visit) : Prop :=
  (∀ node ∈ nodes, ∃ scope, S node scope) → ∀ v ∈ visits, v.From o S

/-- All visits ask for sources if the first call does. -/
theorem Builds.visits_from (hS : o.Closed S) (h : o.Builds call b visits built)
    (hcall : call.From o S) : ∀ v ∈ ⟨call, b, built⟩ :: visits, v.From o S := by
  induction h using @Builds.rec o _ (fun _ nodes _ visits _ _ => RowFrom o S nodes visits) with
  | missing => exact List.forall_mem_singleton.mpr ⟨⟨_, .missing⟩, hcall⟩
  | refused h => exact List.forall_mem_singleton.mpr ⟨⟨_, .refused h⟩, hcall⟩
  | leaf hgo => exact List.forall_mem_singleton.mpr ⟨⟨_, .leaf hgo⟩, hcall⟩
  | subTree hgo h ih =>
    obtain ⟨scope, hsource⟩ := hcall _ rfl
    refine List.forall_mem_cons.mpr ⟨⟨⟨_, .subTree hgo h⟩, hcall⟩, ih fun tree root htree => ?_⟩
    exact fun hroot => ⟨_, hS.within _ _ scope tree root hsource htree hroot⟩
  | group hgo h ih =>
    obtain ⟨scope, hsource⟩ := hcall _ rfl
    refine List.forall_mem_cons.mpr ⟨⟨⟨_, .group hgo h⟩, hcall⟩, ih fun node hnode => ?_⟩
    exact ⟨scope, hS.deeper _ scope hsource node hnode⟩
  | wrapper hgo h ih =>
    obtain ⟨scope, hsource⟩ := hcall _ rfl
    refine List.forall_mem_cons.mpr ⟨⟨⟨_, .wrapper hgo h⟩, hcall⟩, ih ?_⟩
    rintro root rfl
    exact ⟨scope, hS.deeper _ scope hsource root List.mem_cons_self⟩
  | tree h ih => exact List.forall_mem_cons.mpr ⟨⟨⟨_, .tree h⟩, hcall⟩, ih hcall⟩
  | unknown hname => exact List.forall_mem_singleton.mpr ⟨⟨_, .unknown hname⟩, hcall⟩
  | cyclic hname hopen => exact List.forall_mem_singleton.mpr ⟨⟨_, .cyclic hname hopen⟩, hcall⟩
  | entered hname hclosed h ih =>
    refine List.forall_mem_cons.mpr ⟨⟨⟨_, .entered hname hclosed h⟩, hcall⟩, ih fun root => ?_⟩
    exact hcall _ root hname
  | nil => exact fun _ => List.forall_mem_nil _
  | abandoned _ ih => exact fun hnodes => ih (.of_source (List.forall_mem_cons.mp hnodes).1)
  | stopped _ _ ih => exact fun hnodes => ih (.of_source (List.forall_mem_cons.mp hnodes).1)
  | next _ _ _ ih ihrest =>
    intro hnodes
    obtain ⟨hnode, hrest⟩ := List.forall_mem_cons.mp hnodes
    rw [← List.cons_append]
    exact List.forall_mem_append.mpr ⟨ih (.of_source hnode), ihrest hrest⟩

theorem Builds.exists_fit {r : Requirement} {kind : LeafKind} {l : Leaf} {after : Builder}
    (h : o.Builds (.node (some (.leaf r kind))) b visits built)
    (hbuilt : built = .ok (.leaf l, after)) : ∃ roll, o.fit roll kind = .leaf l := by
  cases h with
  | refused => cases hbuilt
  | leaf =>
    obtain ⟨⟨roll, dice⟩, -, h⟩ := bind_eq_ok.mp hbuilt
    simp only [pure_eq_ok, Except.ok.injEq, Prod.mk.injEq] at h
    exact ⟨roll, h.1⟩

end Outfit

/-- A visit that asks for a source and fits a leaf fits it from a source. -/
theorem Visit.From.fitting {o : Outfit} {S : Sources} {v : Visit} (h : v.From o S)
    {definition : NodeDefinition} {l : Leaf} (hfitting : v.fitting? = some (definition, l)) :
    ∃ r kind roll scope, definition = .leaf r kind ∧ o.fit roll kind = .leaf l ∧
      S definition scope := by
  obtain ⟨call, before, built⟩ := v
  obtain ⟨⟨nested, hends⟩, hsource⟩ := h
  dsimp only [Visit.fitting?] at hends hsource hfitting
  split at hfitting
  · split at hfitting
    · cases hfitting
      obtain ⟨scope, hsource⟩ := hsource _ rfl
      obtain ⟨roll, hfit⟩ := hends.exists_fit rfl
      exact ⟨_, _, roll, scope, rfl, hfit, hsource⟩
    · cases hfitting
  · cases hfitting

namespace Outfit

/-- A tree built while none is open has the leaves that have been fitted on the way, in the same
order, each from a definition that the tree mentions. -/
theorem fittings_of_buildTree (o : Outfit) (tree : TreeDefinition) {b after : Builder}
    {root : ShipNode} (hb : b.openTrees = []) (h : o.buildTree tree b = .ok (root, after)) :
    ∃ visits, o.Builds (.tree tree) b visits (.ok (root, after)) ∧
      (fittings visits).map (·.2) = root.leaves ∧
      ∀ (position : Nat) l, root.leaves[position]? = some l → ∃ r kind roll scope,
        (fittings visits)[position]? = some (.leaf r kind, l) ∧ o.fit roll kind = .leaf l ∧
          o.Mentions tree.root tree.parallelPolicy (.leaf r kind) scope := by
  obtain ⟨visits, hbuilds, -⟩ := ends_call rfl (.tree tree) (.of_none_open hb)
  have hbuilds : o.Builds (.tree tree) b visits (o.buildTree tree b) := hbuilds
  rw [h] at hbuilds
  have hleaves : (fittings visits).map (·.2) = root.leaves := hbuilds.leaves rfl
  refine ⟨visits, hbuilds, hleaves, fun position l hl => ?_⟩
  rw [← hleaves, List.getElem?_map] at hl
  obtain ⟨⟨definition, l⟩, hfitting, rfl⟩ := Option.map_eq_some_iff.mp hl
  obtain ⟨v, hv, hv'⟩ := List.mem_filterMap.mp (List.mem_of_getElem? hfitting)
  have hclosed := o.closed_mentions tree.root tree.parallelPolicy
  have hfrom := hbuilds.visits_from hclosed (fun root hroot => ⟨_, .start hroot⟩) v
    (List.mem_cons_of_mem _ hv)
  obtain ⟨r, kind, roll, scope, rfl, hfit, hsource⟩ := hfrom.fitting hv'
  exact ⟨r, kind, roll, scope, hfitting, hfit, hsource⟩

end Outfit
end Helm
