import Helm.Definition.Library

/-!
# Helm.Proofs.Definition.References

The graph of references between the trees of a library. There is an edge from one name to another
when the tree of the first has, at any depth, a node that refers to the second and the library
holds it. `refers_iff` says that the names collected from a tree are the ends of these edges.

A search along references never opens a name twice. `unopened` counts the names of a library that
are not on a path yet, and gets smaller with every name opened (`unopened_lt`).
-/

namespace Helm

namespace NodeDefinition

/-- The second node stands somewhere in the first, at any depth. -/
inductive Contains : NodeDefinition → NodeDefinition → Prop where
  | self (node : NodeDefinition) : Contains node node
  | deeper {node child inner : NodeDefinition} :
      child ∈ node.children → Contains child inner → Contains node inner

theorem mem_referencesOfAll {name : String} {nodes : List NodeDefinition} :
    name ∈ referencesOfAll nodes ↔ ∃ node ∈ nodes, name ∈ node.references := by
  induction nodes with
  | nil => simp [referencesOfAll]
  | cons node rest ih => simp [referencesOfAll, ih]

theorem references_of_children {node child : NodeDefinition} {name : String}
    (hchild : child ∈ node.children) (h : name ∈ child.references) : name ∈ node.references := by
  cases node with
  | leaf r kind => cases hchild
  | subTree r tree => cases hchild
  | group r kind nodes => exact mem_referencesOfAll.mpr ⟨child, hchild, h⟩
  | wrapper r kind node =>
    cases node with
    | none => cases hchild
    | some inner =>
      obtain rfl : child = inner := by simpa [children] using hchild
      exact h

/-- A name is referred to in a node when some node in it, at any depth and under any requirement,
is a reference to the name. -/
theorem mem_references {node : NodeDefinition} {name : String} :
    name ∈ node.references ↔ ∃ r, node.Contains (.subTree r name) := by
  constructor
  · intro h
    induction node with
    | leaf r kind => cases h
    | subTree r tree =>
      obtain rfl : name = tree := by simpa [references] using h
      exact ⟨r, .self _⟩
    | group r kind nodes ih =>
      obtain ⟨node, hnode, hname⟩ := mem_referencesOfAll.mp h
      obtain ⟨q, hq⟩ := ih node hnode hname
      exact ⟨q, .deeper hnode hq⟩
    | bare r kind => cases h
    | wrapper r kind node ih =>
      obtain ⟨q, hq⟩ := ih h
      exact ⟨q, .deeper (by simp [children]) hq⟩
  · rintro ⟨r, h⟩
    generalize hinner : NodeDefinition.subTree r name = inner at h
    induction h with
    | self node => subst hinner; simp [references]
    | deeper hchild _ ih => exact references_of_children hchild (ih hinner)

end NodeDefinition

namespace TreeLibrary

/-- The tree of the first name has a reference to the second, which the library holds. -/
def Refers (library : TreeLibrary) (source target : String) : Prop :=
  (∃ tree root r, library.get? source = some tree ∧ tree.root = some root ∧
    root.Contains (.subTree r target)) ∧ library.contains target = true

theorem referencesOf_of_get? {library : TreeLibrary} {name : String} {tree : TreeDefinition}
    (h : library.get? name = some tree) : library.referencesOf name = tree.references := by
  rw [referencesOf, h]

theorem referencesOf_of_root {library : TreeLibrary} {name : String} {tree : TreeDefinition}
    {root : NodeDefinition} (h : library.get? name = some tree) (hroot : tree.root = some root) :
    library.referencesOf name = root.references := by
  rw [referencesOf_of_get? h, TreeDefinition.references, hroot]

theorem references_subset {library : TreeLibrary} {name : String} {tree : TreeDefinition}
    {root : NodeDefinition} (h : library.get? name = some tree) (hroot : tree.root = some root) :
    root.references ⊆ library.referencesOf name := by
  rw [referencesOf_of_root h hroot]
  exact List.Subset.refl root.references

theorem refers_iff {library : TreeLibrary} {source target : String} :
    library.Refers source target ↔
      target ∈ library.referencesOf source ∧ library.contains target = true := by
  refine and_congr_left fun _ => ?_
  constructor
  · rintro ⟨tree, root, r, htree, hroot, h⟩
    rw [referencesOf_of_root htree hroot]
    exact NodeDefinition.mem_references.mpr ⟨r, h⟩
  · intro h
    cases htree : library.get? source with
    | none => rw [referencesOf, htree] at h; cases h
    | some tree =>
      cases hroot : tree.root with
      | none => rw [referencesOf_of_get? htree, TreeDefinition.references, hroot] at h; cases h
      | some root =>
        rw [referencesOf_of_root htree hroot] at h
        obtain ⟨r, hr⟩ := NodeDefinition.mem_references.mp h
        exact ⟨tree, root, r, rfl, hroot, hr⟩

/-! ## Names left to open -/

/-- How many names of the library are not on a path. -/
def unopened (library : TreeLibrary) (path : List String) : Nat :=
  library.keys.countP fun name => decide (name ∉ path)

theorem unopened_le_size (library : TreeLibrary) (path : List String) :
    library.unopened path ≤ library.size := by
  rw [Table.size, ← List.length_map, ← Table.keys]
  exact List.countP_le_length

theorem unopened_lt {library : TreeLibrary} {path : List String} {name : String}
    (hname : library.contains name = true) (hpath : name ∉ path) :
    library.unopened (path ++ [name]) < library.unopened path := by
  have hsub : ∀ x, decide (x ∉ path ++ [name]) = true → decide (x ∉ path) = true := by
    simp only [List.mem_append, decide_eq_true_eq]
    exact fun x hx h => hx (.inl h)
  obtain ⟨before, after, hkeys⟩ := List.append_of_mem (Table.mem_keys_iff.mpr hname)
  have hbefore := List.countP_mono_left (l := before) fun x _ => hsub x
  have hafter := List.countP_mono_left (l := after) fun x _ => hsub x
  rw [unopened, unopened, hkeys, List.countP_append, List.countP_append,
    List.countP_cons_of_neg (by simp), List.countP_cons_of_pos (by simpa using hpath)]
  omega

end TreeLibrary

end Helm
