import Helm.Proofs.Pilot.Inlining

/-!
# Helm.Proofs.Pilot.Scope

What building depends on (`Scoped`). Two builders in the same scope with the same random source
build the same. A constant node does not even depend on the random source, since nothing is drawn
on the way to it: the only leaf that draws is never constant, and a composite comes out constant
only where all that has been built for it is.
-/

namespace Helm

/-! ## What is kept of children -/

theorem Collapse.constant_of_unwrap {L : Type} {empty : Node L} {make : List (Node L) → Node L}
    {children : List (Node L)} (hmake : ∀ children, (make children).constant? = none)
    (h : (unwrap empty make children).constant? ≠ none) :
    ∀ child ∈ children, child.constant? ≠ none := by
  match children with
  | [] => exact List.forall_mem_nil _
  | [child] => exact List.forall_mem_singleton.mpr h
  | first :: second :: rest => exact absurd (hmake _) h

namespace GroupKind

/-- The constant status of children that are left out, beside `stop?` for the last one. -/
def skip? : GroupKind → Option Status
  | selector => some .failure
  | sequence => some .success
  | parallel _ => none
  | random _ _ _ => none

def Skips (kind : GroupKind) (child : ShipNode) : Prop :=
  ∃ status, kind.skip? = some status ∧ child.constant? = some status

def Stops (kind : GroupKind) (child : ShipNode) : Prop :=
  ∃ status, kind.stop? = some status ∧ child.constant? = some status

/-- What is kept of children. -/
def kept : GroupKind → List ShipNode → List ShipNode
  | selector, children => Collapse.keep .failure .success children
  | sequence, children => Collapse.keep .success .failure children
  | parallel _, children => children
  | random _ _ _, children => children

variable {kind : GroupKind} {children : List ShipNode} {child : ShipNode}

theorem kept_of_skips (h : kind.Skips child) :
    kind.kept (child :: children) = kind.kept children := by
  obtain ⟨status, hskip, hchild⟩ := h
  cases kind <;> cases hskip <;> rw [kept, Collapse.keep, if_pos hchild, kept]

theorem kept_of_stays (hskip : ¬kind.Skips child) (hstop : ¬kind.Stops child) :
    kind.kept (child :: children) = child :: kind.kept children := by
  have hskip : ∀ status, kind.skip? = some status → child.constant? ≠ some status :=
    fun status hkind hchild => hskip ⟨status, hkind, hchild⟩
  have hstop : ∀ status, kind.stop? = some status → child.constant? ≠ some status :=
    fun status hkind hchild => hstop ⟨status, hkind, hchild⟩
  cases kind with
  | selector =>
    rw [kept, Collapse.keep, if_neg (hskip _ rfl), if_neg (hstop _ rfl), kept]
  | sequence =>
    rw [kept, Collapse.keep, if_neg (hskip _ rfl), if_neg (hstop _ rfl), kept]
  | parallel => rfl
  | random => rfl

/-- Whatever is kept of the children is constant. -/
def Constant (kind : GroupKind) (children : List ShipNode) : Prop :=
  ∀ child ∈ kind.kept children, child.constant? ≠ none

theorem constant_of_assemble {policy : ParallelPolicy}
    (h : (kind.assemble policy children).constant? ≠ none) : kind.Constant children := by
  cases kind <;> exact Collapse.constant_of_unwrap (fun _ => rfl) h

theorem Constant.head (h : kind.Constant (child :: children)) : child.constant? ≠ none := by
  by_cases hskip : kind.Skips child
  · obtain ⟨status, -, hchild⟩ := hskip
    simp [hchild]
  · by_cases hstop : kind.Stops child
    · obtain ⟨status, -, hchild⟩ := hstop
      simp [hchild]
    · rw [Constant, kept_of_stays hskip hstop] at h
      exact h child List.mem_cons_self

theorem Constant.tail (h : kind.Constant (child :: children)) (hstop : ¬kind.Stops child) :
    kind.Constant children := by
  by_cases hskip : kind.Skips child
  · rwa [Constant, kept_of_skips hskip] at h
  · rw [Constant, kept_of_stays hskip hstop] at h
    exact fun other hother => h other (List.mem_cons_of_mem _ hother)

end GroupKind

theorem WrapperKind.constant_of_wrap {kind : WrapperKind} {child : ShipNode}
    (h : (kind.wrap child).constant? ≠ none) : child.constant? ≠ none := by
  intro hchild
  refine h ?_
  cases kind with
  | inverter => rw [wrap, Collapse.inverter, hchild]; rfl
  | constantResult result =>
    rw [wrap]
    unfold Collapse.constantResult
    rw [hchild]
    rfl
  | completeOnce result => rw [wrap, Collapse.completeOnce, hchild]; rfl

/-! ## What building depends on -/

/-- Two builders in the same scope with the same random source build the same, and what comes out
constant is the same without regard to the random source, which is left alone. -/
structure Scoped (build : Builder → Built) : Prop where
  congr : ∀ b b₀, b.SameScope b₀ → b.dice = b₀.dice → outcome (build b) = outcome (build b₀)
  settled : ∀ b b₀, b.SameScope b₀ → ∀ built after₀, build b₀ = .ok (built, after₀) →
    built.constant? ≠ none → ∃ after, build b = .ok (built, after) ∧ after.dice = b.dice

theorem Builder.SameScope.symm {a b : Builder} (h : a.SameScope b) : b.SameScope a :=
  ⟨h.policy.symm, h.openTrees.symm⟩

theorem scoped_unbuilt {f : Builder → Builder} (hf : ∀ b, (f b).dice = b.dice) :
    Scoped fun b => unbuilt (f b) where
  congr b b₀ _ hdice := by
    refine outcome_unbuilt ?_
    rw [hf, hf, hdice]
  settled b b₀ _ built after₀ hbuilt _ := by
    cases hbuilt
    exact ⟨f b, rfl, hf b⟩

/-- Building inside a scope of its own, and coming back. -/
theorem scoped_inside {build : Builder → Built} (h : Scoped build) (into : Builder → Builder)
    (back : Builder → Builder → Builder)
    (hinto : ∀ b b₀, b.SameScope b₀ → (into b).SameScope (into b₀))
    (hdice : ∀ b, (into b).dice = b.dice) (hback : ∀ b after, (back b after).dice = after.dice) :
    Scoped fun b => do
      let (node, after) ← build (into b)
      return (node, back b after) where
  congr b b₀ hb hsame := by
    rw [← hdice, ← hdice b₀] at hsame
    refine outcome_bind (h.congr _ _ (hinto b b₀ hb) hsame) fun node after after₀ _ _ hafter => ?_
    refine outcome_ok ?_
    rw [hback, hback, hafter]
  settled b b₀ hb built after₀ hbuilt hconstant := by
    obtain ⟨⟨node, b₁⟩, hnode, h'⟩ := bind_eq_ok.mp hbuilt
    cases h'
    obtain ⟨after, hafter, hsame⟩ := h.settled _ _ (hinto b b₀ hb) _ _ hnode hconstant
    simp only [hafter]
    exact ⟨back b after, rfl, by rw [hback, hsame, hdice]⟩

theorem scoped_ite (name : String) {f g : Builder → Built} (hf : Scoped f) (hg : Scoped g) :
    Scoped fun b => if name ∈ b.openTrees then f b else g b where
  congr b b₀ hb hdice := by
    rw [hb.openTrees]
    split
    · exact hf.congr b b₀ hb hdice
    · exact hg.congr b b₀ hb hdice
  settled b b₀ hb := by
    rw [hb.openTrees]
    split
    · exact hf.settled b b₀ hb
    · exact hg.settled b b₀ hb

namespace Outfit

variable (o : Outfit)

theorem scoped_guarded (node : NodeDefinition) {go : Builder → Built} (h : Scoped go) :
    Scoped fun b => o.guarded node b go := by
  unfold guarded
  split
  · exact scoped_unbuilt fun _ => rfl
  · split
    · exact scoped_unbuilt fun _ => rfl
    · exact h

/-- Nothing is rolled for a leaf that may come out constant. -/
theorem roll_cases (kind : LeafKind) :
    (∀ dice, kind.roll dice = .ok (0, dice)) ∨ ∀ roll, (o.fit roll kind).constant? = none := by
  cases kind with
  | flyAroundMothership => exact .inr fun _ => rfl
  | _ => exact .inl fun _ => rfl

theorem scoped_leaf (kind : LeafKind) :
    Scoped fun b => do
      let (roll, dice) ← kind.roll b.dice
      return (o.fit roll kind, { b with dice := dice }) where
  congr b b₀ _ hdice := by
    dsimp only
    rw [hdice]
    cases kind.roll b₀.dice with
    | error e => rfl
    | ok p => rfl
  settled b b₀ _ built after₀ hbuilt hconstant := by
    rcases o.roll_cases kind with hroll | hnone
    · simp only [hroll] at hbuilt ⊢
      cases hbuilt
      exact ⟨b, rfl, rfl⟩
    · obtain ⟨⟨roll, dice⟩, -, h⟩ := bind_eq_ok.mp hbuilt
      cases h
      exact absurd (hnone roll) hconstant

section Row

variable {o} {enter : String → Builder → Built} {kind : GroupKind} {node : NodeDefinition}
  {nodes rest : List NodeDefinition} {b b₀ after : Builder} {child : ShipNode}

theorem stops_iff :
    (kind.stop?.isSome && decide (child.constant? = kind.stop?)) = true ↔ kind.Stops child := by
  rw [Bool.and_eq_true, decide_eq_true_eq, GroupKind.Stops]
  constructor
  · rintro ⟨hsome, hchild⟩
    obtain ⟨status, hstatus⟩ := Option.isSome_iff_exists.mp hsome
    exact ⟨status, hstatus, hchild.trans hstatus⟩
  · rintro ⟨status, hstatus, hchild⟩
    rw [hstatus]
    exact ⟨rfl, hchild⟩

theorem buildNodes_of_error {e : Fault} (h : o.buildNode enter node b = .error e) :
    o.buildNodes enter kind.stop? (node :: rest) b = .error e := by
  rw [buildNodes, h]
  rfl

theorem buildNodes_of_stops (h : o.buildNode enter node b = .ok (child, after))
    (hstop : kind.Stops child) :
    o.buildNodes enter kind.stop? (node :: rest) b = .ok ([child], after) := by
  rw [buildNodes, h]
  exact if_pos (stops_iff.mpr hstop)

theorem buildNodes_of_goes (h : o.buildNode enter node b = .ok (child, after))
    (hstop : ¬kind.Stops child) :
    o.buildNodes enter kind.stop? (node :: rest) b = (do
      let (children, b) ← o.buildNodes enter kind.stop? rest after
      return (child :: children, b)) := by
  rw [buildNodes, h]
  exact if_neg (mt stops_iff.mp hstop)

theorem buildNodes_settled (hscoped : ∀ node ∈ nodes, Scoped (o.buildNode enter node))
    (hbalanced : ∀ node, Balanced (o.buildNode enter node)) (hb : b.SameScope b₀)
    {children : List ShipNode} {after₀ : Builder}
    (hbuilt : o.buildNodes enter kind.stop? nodes b₀ = .ok (children, after₀))
    (hconstant : kind.Constant children) :
    ∃ after, o.buildNodes enter kind.stop? nodes b = .ok (children, after) ∧
      after.dice = b.dice := by
  induction nodes generalizing b b₀ children with
  | nil =>
    rw [buildNodes] at hbuilt
    cases hbuilt
    exact ⟨b, by rw [buildNodes], rfl⟩
  | cons node rest ih =>
    have hnode := hscoped node List.mem_cons_self
    cases hchild : o.buildNode enter node b₀ with
    | error e =>
      rw [buildNodes_of_error hchild] at hbuilt
      cases hbuilt
    | ok p =>
      obtain ⟨child, b₁⟩ := p
      by_cases hstop : kind.Stops child
      · rw [buildNodes_of_stops hchild hstop] at hbuilt
        cases hbuilt
        obtain ⟨after, hafter, hdice⟩ := hnode.settled b b₀ hb _ _ hchild hconstant.head
        exact ⟨after, buildNodes_of_stops hafter hstop, hdice⟩
      · rw [buildNodes_of_goes hchild hstop] at hbuilt
        obtain ⟨⟨tail, b₂⟩, htail, h⟩ := bind_eq_ok.mp hbuilt
        cases h
        obtain ⟨after, hafter, hdice⟩ := hnode.settled b b₀ hb _ _ hchild hconstant.head
        have hb₀ := hbalanced node _ _ _ hchild
        have hb' := hbalanced node _ _ _ hafter
        obtain ⟨last, hlast, hsame⟩ := ih (fun x hx => hscoped x (List.mem_cons_of_mem _ hx))
          ((hb'.trans hb).trans hb₀.symm) htail (hconstant.tail hstop)
        rw [buildNodes_of_goes hafter hstop, hlast]
        exact ⟨last, rfl, hsame.trans hdice⟩

theorem buildNodes_scoped (hscoped : ∀ node ∈ nodes, Scoped (o.buildNode enter node))
    (hbalanced : ∀ node, Balanced (o.buildNode enter node)) (hb : b.SameScope b₀)
    (hdice : b.dice = b₀.dice) (stop : Option Status) :
    outcome (o.buildNodes enter stop nodes b) = outcome (o.buildNodes enter stop nodes b₀) := by
  induction nodes generalizing b b₀ with
  | nil =>
    rw [buildNodes, buildNodes]
    exact outcome_ok hdice
  | cons node rest ih =>
    rw [buildNodes, buildNodes]
    refine outcome_bind ((hscoped node List.mem_cons_self).congr b b₀ hb hdice) ?_
    intro child b₁ b₂ hx hy hdice
    have hb₁ := hbalanced node _ _ _ hx
    have hb₂ := hbalanced node _ _ _ hy
    dsimp only
    split
    · exact outcome_ok hdice
    · have hrest := ih (fun x hx => hscoped x (List.mem_cons_of_mem _ hx))
        ((hb₁.trans hb).trans hb₂.symm) hdice
      exact outcome_bind hrest fun children b₃ b₄ _ _ hdice => outcome_ok hdice

end Row

section Nodes

variable {enter : String → Builder → Built}

theorem scoped_buildNode (henter : ∀ name, Scoped (enter name))
    (hbalanced : ∀ name, Balanced (enter name)) (node : NodeDefinition) :
    Scoped (o.buildNode enter node) := by
  have hall := o.buildNode_sameScope hbalanced
  induction node with
  | leaf r kind => exact o.scoped_guarded (.leaf r kind) (o.scoped_leaf kind)
  | subTree r name => exact o.scoped_guarded (.subTree r name) (henter name)
  | group r kind nodes ih =>
    refine o.scoped_guarded (.group r kind nodes) ⟨fun b b₀ hb hdice => ?_, ?_⟩
    · refine outcome_bind (buildNodes_scoped ih hall hb hdice kind.stop?) ?_
      intro children b₁ b₂ _ _ hdice
      dsimp only
      rw [hb.policy]
      exact outcome_ok hdice
    · intro b b₀ hb built after₀ hbuilt hconstant
      obtain ⟨⟨children, b₁⟩, hchildren, h⟩ := bind_eq_ok.mp hbuilt
      cases h
      obtain ⟨after, hafter, hdice⟩ := buildNodes_settled ih hall hb hchildren
        (GroupKind.constant_of_assemble hconstant)
      rw [hafter, hb.policy]
      exact ⟨after, rfl, hdice⟩
  | bare r kind =>
    refine o.scoped_guarded (.wrapper r kind none) ⟨fun b b₀ _ hdice => outcome_ok hdice, ?_⟩
    intro b b₀ _ built after₀ hbuilt _
    cases hbuilt
    exact ⟨b, rfl, rfl⟩
  | wrapper r kind node ih =>
    refine o.scoped_guarded (.wrapper r kind (some node)) ⟨fun b b₀ hb hdice => ?_, ?_⟩
    · exact outcome_bind (ih.congr b b₀ hb hdice) fun child b₁ b₂ _ _ hdice => outcome_ok hdice
    · intro b b₀ hb built after₀ hbuilt hconstant
      obtain ⟨⟨child, b₁⟩, hchild, h⟩ := bind_eq_ok.mp hbuilt
      cases h
      obtain ⟨after, hafter, hdice⟩ :=
        ih.settled b b₀ hb _ _ hchild (WrapperKind.constant_of_wrap hconstant)
      rw [hafter]
      exact ⟨after, rfl, hdice⟩

theorem scoped_buildOptional (henter : ∀ name, Scoped (enter name))
    (hbalanced : ∀ name, Balanced (enter name)) (node : Option NodeDefinition) :
    Scoped (o.buildOptional enter node) := by
  cases node with
  | none => exact scoped_unbuilt fun _ => rfl
  | some node => exact o.scoped_buildNode henter hbalanced node

theorem scoped_buildRoot (henter : ∀ name, Scoped (enter name))
    (hbalanced : ∀ name, Balanced (enter name)) (tree : TreeDefinition) :
    Scoped (o.buildRoot enter tree) :=
  scoped_inside (o.scoped_buildOptional henter hbalanced tree.root)
    (fun b => { b with policy := tree.parallelPolicy })
    (fun b after => { after with policy := b.policy })
    (fun _ _ hb => ⟨rfl, hb.openTrees⟩) (fun _ => rfl) fun _ _ => rfl

end Nodes

theorem enter_of_unknown {name : String} (hname : o.tree? name = none) (room : Nat) :
    o.enter room name = fun b => unbuilt (b.warn (.unknownSubTree name)) := by
  funext b
  cases room <;> rw [enter, hname]

/-- Which trees are open decides what is entered, and a tree that is entered is built in the scope
that it opens. -/
theorem scoped_enter (room : Nat) (name : String) : Scoped (o.enter room name) := by
  induction room generalizing name with
  | zero =>
    cases hname : o.tree? name with
    | none =>
      rw [o.enter_of_unknown hname]
      exact scoped_unbuilt fun _ => rfl
    | some tree =>
      have henter : o.enter 0 name = fun b =>
          if name ∈ b.openTrees then unbuilt (b.warn (.subTreeCycle b.openTrees name))
          else unbuilt b := by
        funext b
        rw [enter, hname]
      rw [henter]
      exact scoped_ite name (scoped_unbuilt fun _ => rfl) (scoped_unbuilt fun _ => rfl)
  | succ room ih =>
    cases hname : o.tree? name with
    | none =>
      rw [o.enter_of_unknown hname]
      exact scoped_unbuilt fun _ => rfl
    | some tree =>
      have henter : o.enter (room + 1) name = fun b =>
          if name ∈ b.openTrees then unbuilt (b.warn (.subTreeCycle b.openTrees name))
          else do
            let (node, after) ← o.buildRoot (o.enter room) tree (b.opening name)
            return (node, after.closing) := by
        funext b
        rw [enter, hname]
      rw [henter]
      have hroot := o.scoped_buildRoot ih (o.enter_balanced room) tree
      refine scoped_ite name (scoped_unbuilt fun _ => rfl) ?_
      have hopened : ∀ b b₀ : Builder, b.SameScope b₀ →
          (b.opening name).SameScope (b₀.opening name) :=
        fun _ _ hb => ⟨hb.policy, congrArg (· ++ [name]) hb.openTrees⟩
      exact scoped_inside hroot (·.opening name) (fun _ after => after.closing) hopened
        (fun _ => rfl) fun _ _ => rfl

theorem scoped_build (node : Option NodeDefinition) : Scoped (o.build node) :=
  o.scoped_buildOptional (o.scoped_enter o.treeCount) (o.enter_balanced o.treeCount) node

end Outfit

end Helm
