import Helm.Proofs.Definition.Cycles
import Helm.Proofs.Definition.Inlined

/-!
# Helm.Proofs.Definition.Valid

Libraries whose check finds neither a reference to a missing tree nor a cycle. In such a library a
walk along references goes on to a name that the library holds and that the walk has not met yet
(`Valid.contains`, `Valid.fresh`), so that what is inlined does not depend on the names that are
open (`Valid.inlined_eq`).
-/

namespace Helm

namespace TreeLibrary

/-- The check of the library finds no reference to a missing tree and no cycle. -/
structure Valid (library : TreeLibrary) : Prop where
  known : ∀ tree missing, TreeIssue.unknownSubTree tree missing ∉ library.validate
  acyclic : ∀ path, TreeIssue.subTreeCycle path ∉ library.validate

namespace Valid

variable {library : TreeLibrary} {path trail : List String} {source last target : String}

theorem contains (hv : library.Valid) (h : target ∈ library.referencesOf source) :
    library.contains target = true := by
  cases htree : library.get? source with
  | none => rw [referencesOf, htree] at h; cases h
  | some tree =>
    rw [referencesOf_of_get? htree] at h
    refine Classical.byContradiction fun hmissing => hv.known source target ?_
    refine List.mem_append_left _ (List.mem_flatMap.mpr ⟨_, Table.mem_entries_of_get? htree, ?_⟩)
    refine List.mem_append_right _ (List.mem_map_of_mem (List.mem_filter.mpr ⟨h, ?_⟩))
    simpa using hmissing

theorem refers (hv : library.Valid) (h : target ∈ library.referencesOf source) :
    library.Refers source target :=
  refers_iff.mpr ⟨h, hv.contains h⟩

theorem snoc_subset_snoc (h : path ⊆ trail) : path ++ [target] ⊆ trail ++ [target] :=
  List.append_subset.mpr ⟨List.subset_append_of_subset_left [target] h,
    List.subset_append_right trail [target]⟩

/-- A walk that came back to a name on it would have closed a cycle. -/
theorem fresh (hv : library.Valid) (hw : library.Walk trail last)
    (h : target ∈ library.referencesOf last) : target ∉ trail := by
  intro hmem
  obtain ⟨before, after, hsplit⟩ := List.append_of_mem hmem
  obtain ⟨first, rest, hleast, -⟩ := exists_leastPath (hw.elementary (hv.refers h) hsplit)
  exact hv.acyclic _ (subTreeCycle_mem_validate.mpr (mem_cycles_iff.mpr ⟨first, rest, hleast, rfl⟩))

theorem follow (hv : library.Valid) (hw : library.Walk trail last)
    (h : target ∈ library.referencesOf last) : library.Walk (trail ++ [target]) target :=
  hw.follow (hv.refers h) (hv.fresh hw h)

/-- Wherever a walk has led, it makes no difference which of the names on it are open. -/
theorem inlined_eq (hv : library.Valid) {path' : List String} {scope : Option ParallelPolicy}
    {node : NodeDefinition} (hw : library.Walk trail last)
    (hnode : node.references ⊆ library.referencesOf last)
    (hpath : path ⊆ trail) (hpath' : path' ⊆ trail) :
    library.inlined path scope node = library.inlined path' scope node := by
  induction path, scope, node using inclusion_induct library generalizing trail last path' with
  | leaf path scope r kind => rw [inlined, inlined]
  | subTree path scope r name ih =>
    have href : name ∈ library.referencesOf last := hnode (by simp [NodeDefinition.references])
    have hfresh := hv.fresh hw href
    cases htree : library.get? name with
    | none => rw [inlined_of_unknown htree, inlined_of_unknown htree]
    | some tree =>
      cases hroot : tree.root with
      | none => rw [inlined_of_rootless htree hroot, inlined_of_rootless htree hroot]
      | some root =>
        have hclosed : name ∉ path := fun h => hfresh (hpath h)
        have hclosed' : name ∉ path' := fun h => hfresh (hpath' h)
        rw [inlined_subTree htree hclosed hroot, inlined_subTree htree hclosed' hroot,
          ih tree root htree hclosed hroot (hv.follow hw href)
            (references_subset htree hroot) (snoc_subset_snoc hpath) (snoc_subset_snoc hpath')]
  | group path scope r kind nodes ih =>
    rw [inlined, inlined, inlinedAll_eq_map, inlinedAll_eq_map]
    have hnodes : ∀ node ∈ nodes, library.inlined path scope node =
        library.inlined path' scope node := by
      intro node hmem
      refine ih node hmem hw (fun x hx => hnode ?_) hpath hpath'
      exact NodeDefinition.references_of_children hmem hx
    rw [List.map_congr_left hnodes]
  | bare path scope r kind => rw [inlined, inlined]
  | wrapper path scope r kind node ih =>
    rw [inlined, inlined, ih hw hnode hpath hpath']

end Valid

end TreeLibrary

end Helm
