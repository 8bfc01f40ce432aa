import Helm.Pilot.Builder

/-!
# Helm.Proofs.Pilot.Frame

What building leaves alone. A builder that has built a node is in the scope it was in before: it
has the same policy for parallel nodes, and the same trees are open. This holds for every
definition as soon as it holds for the function that enters trees (`buildNode_sameScope`), and it
holds for entering, which opens one tree, builds it under its own policy and goes back
(`enter_balanced`).
-/

namespace Helm

/-- The policy and the open trees are those of another builder. -/
structure Builder.SameScope (after before : Builder) : Prop where
  policy : after.policy = before.policy
  openTrees : after.openTrees = before.openTrees

namespace Builder.SameScope

theorem refl (b : Builder) : b.SameScope b := ⟨rfl, rfl⟩

theorem trans {a b c : Builder} (h₁ : c.SameScope b) (h₂ : b.SameScope a) : c.SameScope a :=
  ⟨h₁.policy.trans h₂.policy, h₁.openTrees.trans h₂.openTrees⟩

theorem warn (b : Builder) (w : BuildWarning) : (b.warn w).SameScope b := ⟨rfl, rfl⟩

end Builder.SameScope

/-- Every node that is built leaves the builder in the scope it was in. -/
def Balanced (build : Builder → Built) : Prop :=
  ∀ b node after, build b = .ok (node, after) → after.SameScope b

namespace Outfit

theorem guarded_sameScope (o : Outfit) {node : NodeDefinition} {go : Builder → Built}
    {b after : Builder} {built : ShipNode}
    (hgo : ∀ built after, go b = .ok (built, after) → after.SameScope b)
    (h : o.guarded node b go = .ok (built, after)) : after.SameScope b := by
  rw [guarded] at h
  split at h
  · cases h; exact .refl _
  · split at h
    · cases h; exact .warn _ _
    · exact hgo built after h

section Nodes

variable (o : Outfit) {enter : String → Builder → Built}

theorem buildNodes_sameScope {stop : Option Status} {nodes : List NodeDefinition}
    (h : ∀ node ∈ nodes, Balanced (o.buildNode enter node)) {b after : Builder}
    {children : List ShipNode} (hb : o.buildNodes enter stop nodes b = .ok (children, after)) :
    after.SameScope b := by
  induction nodes generalizing b children with
  | nil =>
    rw [buildNodes] at hb
    cases hb; exact .refl _
  | cons node rest ih =>
    rw [buildNodes] at hb
    obtain ⟨⟨child, b₁⟩, hchild, hb⟩ := bind_eq_ok.mp hb
    have h₁ := h node List.mem_cons_self b child b₁ hchild
    dsimp only at hb
    split at hb
    · cases hb; exact h₁
    · obtain ⟨⟨tail, b₂⟩, hrest, hb⟩ := bind_eq_ok.mp hb
      cases hb
      exact (ih (fun x hx => h x (List.mem_cons_of_mem _ hx)) hrest).trans h₁

theorem buildNode_sameScope (henter : ∀ name, Balanced (enter name)) (node : NodeDefinition) :
    Balanced (o.buildNode enter node) := by
  induction node with
  | leaf r kind =>
    intro b built after h
    rw [buildNode] at h
    refine o.guarded_sameScope (fun built after h => ?_) h
    obtain ⟨⟨roll, dice⟩, -, h⟩ := bind_eq_ok.mp h
    cases h; exact ⟨rfl, rfl⟩
  | subTree r name =>
    intro b built after h
    rw [buildNode] at h
    exact o.guarded_sameScope (henter name b) h
  | group r kind nodes ih =>
    intro b built after h
    rw [buildNode] at h
    refine o.guarded_sameScope (fun built after h => ?_) h
    obtain ⟨⟨children, b₁⟩, hchildren, h⟩ := bind_eq_ok.mp h
    cases h; exact o.buildNodes_sameScope ih hchildren
  | bare r kind =>
    intro b built after h
    rw [buildNode] at h
    refine o.guarded_sameScope (fun built after h => ?_) h
    cases h; exact .refl _
  | wrapper r kind node ih =>
    intro b built after h
    rw [buildNode] at h
    refine o.guarded_sameScope (fun built after h => ?_) h
    obtain ⟨⟨child, b₁⟩, hchild, h⟩ := bind_eq_ok.mp h
    cases h; exact ih _ _ _ hchild

theorem buildOptional_sameScope (henter : ∀ name, Balanced (enter name))
    (node : Option NodeDefinition) : Balanced (o.buildOptional enter node) := by
  intro b built after h
  cases node with
  | none => cases h; exact .refl _
  | some node => exact o.buildNode_sameScope henter node b built after h

/-- The policy of a tree is in force while its root is built, and no longer. -/
theorem buildRoot_sameScope (henter : ∀ name, Balanced (enter name)) (tree : TreeDefinition) :
    Balanced (o.buildRoot enter tree) := by
  intro b built after h
  obtain ⟨⟨node, b₁⟩, hroot, h⟩ := bind_eq_ok.mp h
  cases h
  exact ⟨rfl, (o.buildOptional_sameScope henter tree.root _ _ _ hroot).openTrees⟩

end Nodes

/-- A tree that has been entered is closed again, on every path. -/
theorem enter_balanced (o : Outfit) (room : Nat) (name : String) :
    Balanced (o.enter room name) := by
  induction room generalizing name with
  | zero =>
    intro b built after h
    rw [enter] at h
    split at h
    · cases h; exact .warn _ _
    · split at h
      · cases h; exact .warn _ _
      · cases h; exact .refl _
  | succ room ih =>
    intro b built after h
    rw [enter] at h
    split at h
    · cases h; exact .warn _ _
    · split at h
      · cases h; exact .warn _ _
      · obtain ⟨⟨node, b₁⟩, hroot, h⟩ := bind_eq_ok.mp h
        have hscope := o.buildRoot_sameScope ih _ _ _ _ hroot
        cases h
        refine ⟨hscope.policy, ?_⟩
        rw [Builder.closing, hscope.openTrees, Builder.opening, List.dropLast_concat]

end Outfit

end Helm
