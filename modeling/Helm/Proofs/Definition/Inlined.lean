import Helm.Proofs.Definition.References

/-!
# Helm.Proofs.Definition.Inlined

A definition with the trees that it refers to written out in their places. The names along a
path of references are open, and a name that is open is not written out again, so that a library
with cycles has finite definitions too.

* `inlined_of_unknown`, `inlined_of_open`, `inlined_of_rootless`: what becomes a node that never
  takes part.
* `inlined_subTree`: every other reference becomes the root of the tree it names.
* `references_inlined`: nothing is referred to any more.
-/

namespace Helm

namespace NodeDefinition

/-- A node that never takes part. -/
def never : NodeDefinition := leaf (.any []) .undefined

/-- The node with a further requirement in front of its own. -/
def require (r : Requirement) : NodeDefinition → NodeDefinition
  | leaf own kind => leaf (.all [r, own]) kind
  | subTree own tree => subTree (.all [r, own]) tree
  | group own kind nodes => group (.all [r, own]) kind nodes
  | wrapper own kind node => wrapper (.all [r, own]) kind node

theorem references_require (r : Requirement) (node : NodeDefinition) :
    (node.require r).references = node.references := by
  cases node with
  | wrapper own kind node => cases node <;> simp [require, references]
  | _ => simp [require, references]

end NodeDefinition

/-- The composite with the policy of the tree it is written in, if `scope` tells one and the
composite is a parallel node that has none of its own. -/
def GroupKind.within (scope : Option ParallelPolicy) : GroupKind → GroupKind
  | .parallel own => .parallel (own.or scope)
  | kind => kind

namespace TreeLibrary

mutual

/-- The node with every reference in it replaced by the root of the tree it names, under the
requirements of both. A reference that leads nowhere, or back to a name on the path, becomes a
node that never takes part. `scope` is the policy of the tree that the node is written in, or
nothing for the policy of the builder. -/
def inlined (library : TreeLibrary) (path : List String) (scope : Option ParallelPolicy) :
    NodeDefinition → NodeDefinition
  | .leaf r kind => .leaf r kind
  | .subTree r name =>
    match _hname : library.get? name with
    | none => .never
    | some tree =>
      if _hpath : name ∈ path then .never
      else
        match tree.root with
        | none => .never
        | some root => (inlined library (path ++ [name]) (some tree.parallelPolicy) root).require r
  | .group r kind nodes => .group r (kind.within scope) (inlinedAll library path scope nodes)
  | .wrapper r kind none => .wrapper r kind none
  | .wrapper r kind (some node) => .wrapper r kind (some (inlined library path scope node))
termination_by node => (library.unopened path, sizeOf node)
decreasing_by
  · exact Prod.Lex.left _ _ (unopened_lt (Table.contains_of_get? _hname) _hpath)
  · exact Prod.Lex.right _ (by simp only [NodeDefinition.group.sizeOf_spec]; omega)
  · refine Prod.Lex.right _ ?_
    simp only [NodeDefinition.wrapper.sizeOf_spec, Option.some.sizeOf_spec]
    omega

/-- The nodes of a list with every reference in them replaced. -/
def inlinedAll (library : TreeLibrary) (path : List String) (scope : Option ParallelPolicy) :
    List NodeDefinition → List NodeDefinition
  | [] => []
  | node :: rest => inlined library path scope node :: inlinedAll library path scope rest
termination_by nodes => (library.unopened path, sizeOf nodes)
decreasing_by
  · exact Prod.Lex.right _ (by simp only [List.cons.sizeOf_spec]; omega)
  · exact Prod.Lex.right _ (by simp only [List.cons.sizeOf_spec]; omega)

end

theorem inlinedAll_eq_map (library : TreeLibrary) (path : List String)
    (scope : Option ParallelPolicy) (nodes : List NodeDefinition) :
    library.inlinedAll path scope nodes = nodes.map (library.inlined path scope) := by
  induction nodes with
  | nil => rw [inlinedAll, List.map_nil]
  | cons node rest ih => rw [inlinedAll, List.map_cons, ih]

section References

variable {library : TreeLibrary} {path : List String} {scope : Option ParallelPolicy}
  {r : Requirement} {name : String} {tree : TreeDefinition}

theorem inlined_of_unknown (hname : library.get? name = none) :
    library.inlined path scope (.subTree r name) = .never := by
  rw [inlined]
  split
  · rfl
  · rename_i hname'
    rw [hname] at hname'
    cases hname'

theorem inlined_of_open (hpath : name ∈ path) :
    library.inlined path scope (.subTree r name) = .never := by
  rw [inlined]
  split
  · rfl
  · rw [dif_pos hpath]

theorem inlined_of_rootless (hname : library.get? name = some tree) (hroot : tree.root = none) :
    library.inlined path scope (.subTree r name) = .never := by
  rw [inlined]
  split
  · rfl
  · rename_i tree' hname'
    obtain rfl : tree = tree' := Option.some.inj (hname.symm.trans hname')
    split
    · rfl
    · rw [hroot]

theorem inlined_subTree (hname : library.get? name = some tree) (hpath : name ∉ path)
    {root : NodeDefinition} (hroot : tree.root = some root) :
    library.inlined path scope (.subTree r name) =
      (library.inlined (path ++ [name]) (some tree.parallelPolicy) root).require r := by
  rw [inlined]
  split
  · rename_i hname'
    rw [hname] at hname'
    cases hname'
  · rename_i tree' hname'
    obtain rfl : tree = tree' := Option.some.inj (hname.symm.trans hname')
    rw [dif_neg hpath, hroot]

end References

/-- Induction along references: over the nodes of a definition, and from a reference on to the
tree it names, as long as the names on the path are different ones. The scope is the policy of the
tree that has been reached. -/
theorem inclusion_induct (library : TreeLibrary)
    {motive : List String → Option ParallelPolicy → NodeDefinition → Prop}
    (leaf : ∀ path scope r kind, motive path scope (.leaf r kind))
    (subTree : ∀ path scope r name,
      (∀ tree root, library.get? name = some tree → name ∉ path → tree.root = some root →
        motive (path ++ [name]) (some tree.parallelPolicy) root) →
      motive path scope (.subTree r name))
    (group : ∀ path scope r kind nodes, (∀ node ∈ nodes, motive path scope node) →
      motive path scope (.group r kind nodes))
    (bare : ∀ path scope r kind, motive path scope (.wrapper r kind none))
    (wrapper : ∀ path scope r kind node, motive path scope node →
      motive path scope (.wrapper r kind (some node)))
    (path : List String) (scope : Option ParallelPolicy) (node : NodeDefinition) :
    motive path scope node := by
  induction hn : library.unopened path using Nat.strongRecOn
    generalizing path scope node with
  | _ n ih =>
    induction node with
    | leaf r kind => exact leaf path scope r kind
    | subTree r name =>
      refine subTree path scope r name fun tree root htree hpath _ => ?_
      exact ih _ (hn ▸ unopened_lt (Table.contains_of_get? htree) hpath) _ _ root rfl
    | group r kind nodes ihn => exact group path scope r kind nodes ihn
    | bare r kind => exact bare path scope r kind
    | wrapper r kind node ihn => exact wrapper path scope r kind node ihn

theorem references_inlinedAll {library : TreeLibrary} {path : List String}
    {scope : Option ParallelPolicy} {nodes : List NodeDefinition}
    (h : ∀ node ∈ nodes, (library.inlined path scope node).references = []) :
    NodeDefinition.referencesOfAll (library.inlinedAll path scope nodes) = [] := by
  induction nodes with
  | nil => rw [inlinedAll, NodeDefinition.referencesOfAll]
  | cons node rest ih =>
    rw [inlinedAll, NodeDefinition.referencesOfAll, h node List.mem_cons_self,
      ih fun x hx => h x (List.mem_cons_of_mem _ hx), List.append_nil]

/-- An inlined definition can be built without a library. -/
theorem references_inlined (library : TreeLibrary) (path : List String)
    (scope : Option ParallelPolicy) (node : NodeDefinition) :
    (library.inlined path scope node).references = [] := by
  induction path, scope, node using inclusion_induct library with
  | leaf path scope r kind => rw [inlined, NodeDefinition.references]
  | subTree path scope r name ih =>
    cases htree : library.get? name with
    | none => rw [inlined_of_unknown htree]; rfl
    | some tree =>
      by_cases hpath : name ∈ path
      · rw [inlined_of_open hpath]; rfl
      · cases hroot : tree.root with
        | none => rw [inlined_of_rootless htree hroot]; rfl
        | some root =>
          rw [inlined_subTree htree hpath hroot, NodeDefinition.references_require]
          exact ih tree root htree hpath hroot
  | group path scope r kind nodes ih =>
    rw [inlined, NodeDefinition.references, references_inlinedAll ih]
  | bare path scope r kind => rw [inlined, NodeDefinition.references]
  | wrapper path scope r kind node ih => rw [inlined, NodeDefinition.references, ih]

end TreeLibrary

end Helm
