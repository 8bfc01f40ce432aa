import Helm.Proofs.Pilot.Scope

/-!
# Helm.Proofs.Pilot.Pruning

Nodes that are built but not kept leave no trace. A child that comes out constant may as well not
have been in the list of a selector or a sequence that leaves it out, and what follows one that ends
the list may as well not have been there either (`build_constant`).
-/

namespace Helm

namespace GroupKind

variable {kind : GroupKind} {children more : List ShipNode} {child : ShipNode}

theorem not_stops_of_skips (h : kind.Skips child) : ¬kind.Stops child := by
  obtain ⟨skip, hskip, hchild⟩ := h
  rintro ⟨stop, hstop, hchild'⟩
  rw [hchild] at hchild'
  cases kind <;> cases hskip <;> cases hstop <;> cases hchild'

theorem kept_congr (hstop : ¬kind.Stops child) (h : kind.kept children = kind.kept more) :
    kind.kept (child :: children) = kind.kept (child :: more) := by
  by_cases hskip : kind.Skips child
  · rw [kept_of_skips hskip, kept_of_skips hskip, h]
  · rw [kept_of_stays hskip hstop, kept_of_stays hskip hstop, h]

/-- Children are put together from what is kept of them. -/
theorem assemble_congr (policy : ParallelPolicy) (h : kind.kept children = kind.kept more) :
    kind.assemble policy children = kind.assemble policy more := by
  cases kind with
  | selector => exact congrArg (Collapse.unwrap .alwaysFailure .selector) h
  | sequence => exact congrArg (Collapse.unwrap .alwaysSuccess .sequence) h
  | parallel own => exact congrArg (Collapse.parallel (own.getD policy)) h
  | random mode cooldown choice => exact congrArg (Collapse.random cooldown mode choice) h

end GroupKind

namespace Outfit

section Lists

variable {o : Outfit} {enter : String → Builder → Built} {kind : GroupKind} {d : NodeDefinition}
  {b b₀ : Builder} {child : ShipNode}

/-- Wherever its turn comes in the scope, the node comes out as the child and draws nothing. -/
def Steady (o : Outfit) (enter : String → Builder → Built) (b₀ : Builder) (d : NodeDefinition)
    (child : ShipNode) : Prop :=
  ∀ b, b.SameScope b₀ → ∃ after, o.buildNode enter d b = .ok (child, after) ∧ after.dice = b.dice

/-- What is kept of a row, and the random source afterwards. -/
def pruned (kind : GroupKind) (row : Except Fault (List ShipNode × Builder)) :
    Except Fault (List ShipNode × Dice) :=
  row.map fun p => (kind.kept p.1, p.2.dice)

theorem pruned_of_outcome {row row₀ : Except Fault (List ShipNode × Builder)}
    (h : outcome row = outcome row₀) : pruned kind row = pruned kind row₀ := by
  obtain ⟨e, rfl, rfl⟩ | ⟨children, b, b₀, rfl, rfl, hdice⟩ := outcome_cases h
  · rfl
  · simp [pruned, hdice]

theorem pruned_cases {row row₀ : Except Fault (List ShipNode × Builder)}
    (h : pruned kind row = pruned kind row₀) :
    (∃ e, row = .error e ∧ row₀ = .error e) ∨
      ∃ children children₀ b b₀, row = .ok (children, b) ∧ row₀ = .ok (children₀, b₀) ∧
        kind.kept children = kind.kept children₀ ∧ b.dice = b₀.dice := by
  cases row with
  | error e =>
    cases row₀ with
    | error e₀ => cases h; exact .inl ⟨e, rfl, rfl⟩
    | ok q => cases h
  | ok p =>
    cases row₀ with
    | error e₀ => cases h
    | ok q =>
      simp only [pruned, map_ok, Except.ok.injEq, Prod.mk.injEq] at h
      exact .inr ⟨_, _, _, _, rfl, rfl, h⟩

/-- A child that is left out may as well not be in the list. -/
theorem pruned_skip (hscoped : ∀ node, Scoped (o.buildNode enter node))
    (hbalanced : ∀ node, Balanced (o.buildNode enter node)) (hd : o.Steady enter b₀ d child)
    (hskip : kind.Skips child) (xs ys : List NodeDefinition) (hb : b.SameScope b₀) :
    pruned kind (o.buildNodes enter kind.stop? (xs ++ d :: ys) b) =
      pruned kind (o.buildNodes enter kind.stop? (xs ++ ys) b) := by
  induction xs generalizing b with
  | nil =>
    obtain ⟨after, hafter, hdice⟩ := hd b hb
    have hscope := hbalanced d _ _ _ hafter
    have hrest : outcome (o.buildNodes enter kind.stop? ys after) =
        outcome (o.buildNodes enter kind.stop? ys b) :=
      buildNodes_scoped (fun x _ => hscoped x) hbalanced hscope hdice kind.stop?
    rw [List.nil_append, List.nil_append,
      buildNodes_of_goes hafter (GroupKind.not_stops_of_skips hskip), ← pruned_of_outcome hrest]
    cases o.buildNodes enter kind.stop? ys after with
    | error e => rfl
    | ok p => simp [pruned, GroupKind.kept_of_skips hskip]
  | cons x xs ih =>
    rw [List.cons_append, List.cons_append]
    cases hx : o.buildNode enter x b with
    | error e => rw [buildNodes_of_error hx, buildNodes_of_error hx]
    | ok p =>
      obtain ⟨first, after⟩ := p
      by_cases hstop : kind.Stops first
      · rw [buildNodes_of_stops hx hstop, buildNodes_of_stops hx hstop]
      · rw [buildNodes_of_goes hx hstop, buildNodes_of_goes hx hstop]
        obtain ⟨e, hrow, hrow₀⟩ | ⟨children, children₀, b₁, b₂, hrow, hrow₀, hkept, hdice⟩ :=
          pruned_cases (ih ((hbalanced x _ _ _ hx).trans hb))
        · rw [hrow, hrow₀]
        · rw [hrow, hrow₀]
          simp [pruned, GroupKind.kept_congr hstop hkept, hdice]

/-- What follows the last child may as well not be in the list. -/
theorem buildNodes_stop (hbalanced : ∀ node, Balanced (o.buildNode enter node))
    (hd : o.Steady enter b₀ d child) (hstop : kind.Stops child) (xs ys : List NodeDefinition)
    (hb : b.SameScope b₀) :
    o.buildNodes enter kind.stop? (xs ++ d :: ys) b =
      o.buildNodes enter kind.stop? (xs ++ [d]) b := by
  induction xs generalizing b with
  | nil =>
    obtain ⟨after, hafter, -⟩ := hd b hb
    rw [List.nil_append, List.nil_append, buildNodes_of_stops hafter hstop,
      buildNodes_of_stops hafter hstop]
  | cons x xs ih =>
    rw [List.cons_append, List.cons_append]
    cases hx : o.buildNode enter x b with
    | error e => rw [buildNodes_of_error hx, buildNodes_of_error hx]
    | ok p =>
      obtain ⟨first, after⟩ := p
      by_cases hfirst : kind.Stops first
      · rw [buildNodes_of_stops hx hfirst, buildNodes_of_stops hx hfirst]
      · rw [buildNodes_of_goes hx hfirst, buildNodes_of_goes hx hfirst,
          ih ((hbalanced x _ _ _ hx).trans hb)]

theorem outcome_assemble {row row₀ : Except Fault (List ShipNode × Builder)}
    (policy : ParallelPolicy) (h : pruned kind row = pruned kind row₀) :
    outcome (do
      let (children, after) ← row
      return (kind.assemble policy children, after)) = outcome (do
      let (children, after) ← row₀
      return (kind.assemble policy children, after)) := by
  obtain ⟨e, rfl, rfl⟩ | ⟨children, children₀, b, b₀, rfl, rfl, hkept, hdice⟩ := pruned_cases h
  · rfl
  · simp only [ok_bind, GroupKind.assemble_congr policy hkept]
    exact outcome_ok hdice

end Lists

/-- Whether a composite is built at all does not depend on the nodes in it. -/
theorem build_group (o : Outfit) (r : Requirement) (kind : GroupKind) (nodes : List NodeDefinition)
    (b : Builder) :
    o.build (some (.group r kind nodes)) b = o.guarded (.group r kind []) b fun b => do
      let (children, after) ← o.buildNodes (o.enter o.treeCount) kind.stop? nodes b
      return (kind.assemble b.policy children, after) := rfl

theorem apply_guarded {o : Outfit} {α : Type} {f : Built → α} {node : NodeDefinition} {b : Builder}
    {go go₀ : Builder → Built} (h : f (go b) = f (go₀ b)) :
    f (o.guarded node b go) = f (o.guarded node b go₀) := by
  rw [guarded, guarded]
  split
  · rfl
  · split
    · rfl
    · exact h

/-- A node that comes out constant leaves the random source alone, and it can be taken out of a
list: a selector or a sequence comes to the same without a child that it leaves out, and without
what follows a child that ends it. -/
theorem build_constant (o : Outfit) (d : NodeDefinition) {b₀ after₀ : Builder} {child : ShipNode}
    {status : Status} (hbuilt : o.build (some d) b₀ = .ok (child, after₀))
    (hconstant : child.constant? = some status) :
    after₀.dice = b₀.dice ∧
      ∀ (r : Requirement) (kind : GroupKind) (xs ys : List NodeDefinition) (b : Builder),
        b.SameScope b₀ →
          (kind.skip? = some status →
            outcome (o.build (some (.group r kind (xs ++ d :: ys))) b) =
              outcome (o.build (some (.group r kind (xs ++ ys))) b)) ∧
          (kind.stop? = some status →
            o.build (some (.group r kind (xs ++ d :: ys))) b =
              o.build (some (.group r kind (xs ++ [d]))) b) := by
  have hsome : child.constant? ≠ none := by simp [hconstant]
  have hd : o.Steady (o.enter o.treeCount) b₀ d child :=
    fun b hb => (o.scoped_build (some d)).settled b b₀ hb child after₀ hbuilt hsome
  have hbalanced := o.buildNode_sameScope (o.enter_balanced o.treeCount)
  refine ⟨?_, fun r kind xs ys b hb => ⟨fun hskip => ?_, fun hstop => ?_⟩⟩
  · obtain ⟨after, hafter, hdice⟩ := hd b₀ (.refl b₀)
    rw [build, buildOptional, hafter] at hbuilt
    cases hbuilt
    exact hdice
  · have hrow := pruned_skip (fun x => o.scoped_build (some x)) hbalanced hd
      ⟨status, hskip, hconstant⟩ xs ys hb
    rw [build_group, build_group]
    exact apply_guarded (f := outcome) (outcome_assemble b.policy hrow)
  · have hrow := buildNodes_stop hbalanced hd ⟨status, hstop, hconstant⟩ xs ys hb
    rw [build_group, build_group]
    refine apply_guarded (f := id) ?_
    rw [hrow]

/-- A ship without weapons. -/
def unarmed : Outfit := { ship := ⟨1⟩, loadout := {} }

/-- A choice of weapons inside a composite. -/
def volley : NodeDefinition :=
  .group .always .sequence [.leaf .always .undefined, .leaf .always (.selectWeapon .beam)]

theorem build_constant_volley : ∃ after₀ : Builder,
    unarmed.build (some volley) (unarmed.builder default) = .ok (.alwaysFailure, after₀) ∧
      after₀.dice = (unarmed.builder default).dice ∧
      ∀ (r : Requirement) (kind : GroupKind) (xs ys : List NodeDefinition) (b : Builder),
        b.SameScope (unarmed.builder default) →
          (kind.skip? = some .failure →
            outcome (unarmed.build (some (.group r kind (xs ++ volley :: ys))) b) =
              outcome (unarmed.build (some (.group r kind (xs ++ ys))) b)) ∧
          (kind.stop? = some .failure →
            unarmed.build (some (.group r kind (xs ++ volley :: ys))) b =
              unarmed.build (some (.group r kind (xs ++ [volley]))) b) :=
  ⟨unarmed.builder default, rfl, build_constant unarmed volley rfl rfl⟩

end Outfit

end Helm
