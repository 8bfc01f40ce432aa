import Helm.Proofs.Tree.Collapse

/-!
# Helm.Proofs.Tree.Expression

Tree expressions, and the two ways to build a tree from one. `TreeExpr.plain` puts every node in
its place, with the constructors that refuse an empty list of children. `TreeExpr.collapsed` uses
the collapsing constructors, from the leaves up. `run_collapsed` says that nobody who watches the
two trees tick can tell them apart: over every run, whatever happens to the context between two
ticks, they give the same statuses and the same contexts.
-/

namespace Helm

/-- A tree as it is written down, over leaves in their first state. -/
inductive TreeExpr (L : Type) where
  | leaf (leaf : L)
  | alwaysSuccess
  | alwaysFailure
  | sequence (children : List (TreeExpr L))
  | selector (children : List (TreeExpr L))
  /-- A parallel node of two or more children. -/
  | parallel (policy : ParallelPolicy) (first second : TreeExpr L) (rest : List (TreeExpr L))
  /-- A random selector of two or more children. -/
  | random (cooldown : Float32) (mode : RandomMode) (policy : RandomPolicy)
      (first second : TreeExpr L) (rest : List (TreeExpr L))
  | inverter (child : TreeExpr L)
  | constantResult (result : Status) (child : TreeExpr L)
  | completeOnce (result : Status) (child : TreeExpr L)

namespace TreeExpr

variable {L C : Type}

/-- Induction over expressions, with the statement for every child of a composite. -/
@[elab_as_elim, induction_eliminator]
theorem induct {motive : TreeExpr L → Prop} (leaf : ∀ l, motive (leaf l))
    (alwaysSuccess : motive alwaysSuccess) (alwaysFailure : motive alwaysFailure)
    (sequence : ∀ children, (∀ child ∈ children, motive child) → motive (sequence children))
    (selector : ∀ children, (∀ child ∈ children, motive child) → motive (selector children))
    (parallel : ∀ policy first second rest, (∀ child ∈ first :: second :: rest, motive child) →
      motive (parallel policy first second rest))
    (random : ∀ cooldown mode policy first second rest,
      (∀ child ∈ first :: second :: rest, motive child) →
      motive (random cooldown mode policy first second rest))
    (inverter : ∀ child, motive child → motive (inverter child))
    (constantResult : ∀ result child, motive child → motive (constantResult result child))
    (completeOnce : ∀ result child, motive child → motive (completeOnce result child))
    (e : TreeExpr L) : motive e :=
  @TreeExpr.rec L motive (fun children => ∀ child ∈ children, motive child) leaf alwaysSuccess
    alwaysFailure sequence selector
    (fun policy first second rest h₁ h₂ h => parallel policy first second rest
      (List.forall_mem_cons.mpr ⟨h₁, List.forall_mem_cons.mpr ⟨h₂, h⟩⟩))
    (fun cooldown mode policy first second rest h₁ h₂ h => random cooldown mode policy first second
      rest (List.forall_mem_cons.mpr ⟨h₁, List.forall_mem_cons.mpr ⟨h₂, h⟩⟩))
    inverter constantResult completeOnce (fun _ h => absurd h List.not_mem_nil)
    (fun _ _ head tail => List.forall_mem_cons.mpr ⟨head, tail⟩) e

mutual

/-- The tree with a node for every node written. A sequence of nothing is read as the leaf that
succeeds and a selector of nothing as the leaf that fails. -/
def plain : TreeExpr L → Except Fault (Node L)
  | leaf l => .ok (.leaf l)
  | alwaysSuccess => .ok .alwaysSuccess
  | alwaysFailure => .ok .alwaysFailure
  | sequence children =>
    if children.isEmpty then .ok .alwaysSuccess
    else do
      let nodes ← plainAll children
      Node.sequenceOf nodes
  | selector children =>
    if children.isEmpty then .ok .alwaysFailure
    else do
      let nodes ← plainAll children
      Node.selectorOf nodes
  | parallel policy first second rest => do
    let first ← plain first
    let second ← plain second
    let rest ← plainAll rest
    Node.parallelOf policy (first :: second :: rest)
  | random cooldown mode policy first second rest => do
    let first ← plain first
    let second ← plain second
    let rest ← plainAll rest
    Node.randomOf cooldown mode policy (first :: second :: rest)
  | inverter child => do
    let node ← plain child
    return .inverter node
  | constantResult result child => do
    let node ← plain child
    return .constantResult result node
  | completeOnce result child => do
    let node ← plain child
    return .completeOnce result false node

/-- The trees of several expressions, with a node for every node written. -/
def plainAll : List (TreeExpr L) → Except Fault (List (Node L))
  | [] => .ok []
  | child :: rest => do
    let node ← plain child
    let nodes ← plainAll rest
    return node :: nodes

end

mutual

/-- The tree that the collapsing constructors build. -/
def collapsed : TreeExpr L → Node L
  | leaf l => .leaf l
  | alwaysSuccess => .alwaysSuccess
  | alwaysFailure => .alwaysFailure
  | sequence children => Collapse.sequence (collapsedAll children)
  | selector children => Collapse.selector (collapsedAll children)
  | parallel policy first second rest =>
    Collapse.parallel policy (collapsed first :: collapsed second :: collapsedAll rest)
  | random cooldown mode policy first second rest =>
    Collapse.random cooldown mode policy (collapsed first :: collapsed second :: collapsedAll rest)
  | inverter child => Collapse.inverter (collapsed child)
  | constantResult result child => Collapse.constantResult result (collapsed child)
  | completeOnce result child => Collapse.completeOnce result (collapsed child)

/-- The trees of several expressions that the collapsing constructors build. -/
def collapsedAll : List (TreeExpr L) → List (Node L)
  | [] => []
  | child :: rest => collapsed child :: collapsedAll rest

end

/-! ## The two trees of an expression -/

/-- The plain tree exists, and its collapsed form is the tree of the collapsing constructors. -/
def Agrees (e : TreeExpr L) : Prop := ∃ node, e.plain = .ok node ∧ node.collapse = e.collapsed

theorem agrees_all {children : List (TreeExpr L)} (h : ∀ child ∈ children, child.Agrees) :
    ∃ nodes, plainAll children = .ok nodes ∧ nodes.length = children.length ∧
      Node.collapseAll nodes = collapsedAll children := by
  induction children with
  | nil => exact ⟨[], rfl, rfl, rfl⟩
  | cons child rest ih =>
    obtain ⟨node, hnode, hcollapse⟩ := h child List.mem_cons_self
    obtain ⟨nodes, hnodes, hlen, hall⟩ := ih fun x hx => h x (List.mem_cons_of_mem _ hx)
    refine ⟨node :: nodes, ?_, ?_, ?_⟩
    · simp [plainAll, hnode, hnodes]
    · simp [hlen]
    · rw [Node.collapseAll, collapsedAll, hcollapse, hall]

theorem agrees_two {first second : TreeExpr L} {rest : List (TreeExpr L)}
    (h : ∀ child ∈ first :: second :: rest, child.Agrees) :
    ∃ node₁ node₂ nodes, first.plain = .ok node₁ ∧ second.plain = .ok node₂ ∧
      plainAll rest = .ok nodes ∧
      Node.collapseAll (node₁ :: node₂ :: nodes) = collapsedAll (first :: second :: rest) := by
  obtain ⟨h₁, h₂, h⟩ := List.forall_mem_cons.mp h |>.imp_right List.forall_mem_cons.mp
  obtain ⟨node₁, hnode₁, hc₁⟩ := h₁
  obtain ⟨node₂, hnode₂, hc₂⟩ := h₂
  obtain ⟨nodes, hnodes, -, hall⟩ := agrees_all h
  refine ⟨node₁, node₂, nodes, hnode₁, hnode₂, hnodes, ?_⟩
  rw [Node.collapseAll, Node.collapseAll, hc₁, hc₂, hall, collapsedAll, collapsedAll]

theorem agrees (e : TreeExpr L) : e.Agrees := by
  induction e with
  | leaf l => exact ⟨.leaf l, rfl, rfl⟩
  | alwaysSuccess => exact ⟨.alwaysSuccess, rfl, rfl⟩
  | alwaysFailure => exact ⟨.alwaysFailure, rfl, rfl⟩
  | sequence children ih =>
    obtain ⟨nodes, hnodes, hlen, hall⟩ := agrees_all ih
    match children, nodes, hlen with
    | [], [], _ => exact ⟨.alwaysSuccess, rfl, rfl⟩
    | child :: rest, node :: nodes, _ =>
      refine ⟨.sequence (node :: nodes), ?_, by rw [Node.collapse, hall, collapsed]⟩
      simp [plain, hnodes, Node.sequenceOf, Node.ofChildren]
  | selector children ih =>
    obtain ⟨nodes, hnodes, hlen, hall⟩ := agrees_all ih
    match children, nodes, hlen with
    | [], [], _ => exact ⟨.alwaysFailure, rfl, rfl⟩
    | child :: rest, node :: nodes, _ =>
      refine ⟨.selector (node :: nodes), ?_, by rw [Node.collapse, hall, collapsed]⟩
      simp [plain, hnodes, Node.selectorOf, Node.ofChildren]
  | parallel policy first second rest ih =>
    obtain ⟨node₁, node₂, nodes, h₁, h₂, hnodes, hall⟩ := agrees_two ih
    refine ⟨.parallel policy (node₁ :: node₂ :: nodes), ?_, ?_⟩
    · simp [plain, h₁, h₂, hnodes, Node.parallelOf, Node.ofChildren]
    · rw [Node.collapse, hall]; rfl
  | random cooldown mode policy first second rest ih =>
    obtain ⟨node₁, node₂, nodes, h₁, h₂, hnodes, hall⟩ := agrees_two ih
    refine ⟨Node.freshRandom cooldown mode policy (node₁ :: node₂ :: nodes), ?_, ?_⟩
    · simp [plain, h₁, h₂, hnodes, Node.randomOf, Node.ofChildren]
    · -- the wheel is made for the number of children, which collapsing leaves as it is
      rw [Node.freshRandom, Node.collapse, ← Node.length_collapseAll, hall]; rfl
  | inverter child ih =>
    obtain ⟨node, hnode, hc⟩ := ih
    exact ⟨.inverter node, by simp [plain, hnode], by rw [Node.collapse, hc, collapsed]⟩
  | constantResult result child ih =>
    obtain ⟨node, hnode, hc⟩ := ih
    exact ⟨.constantResult result node, by simp [plain, hnode],
      by rw [Node.collapse, hc, collapsed]⟩
  | completeOnce result child ih =>
    obtain ⟨node, hnode, hc⟩ := ih
    exact ⟨.completeOnce result false node, by simp [plain, hnode],
      by rw [Node.collapse, hc, collapsed, Collapse.completeOnce]⟩

end TreeExpr

/-! ## Runs -/

namespace Node

variable {L C : Type} [Behavior L C] [TickContext C]

/-- What a run shows: the status of each tick and the context after it, up to a tick that is
abandoned. Each step changes the context in its own way and then lets the tree tick. -/
def run : List (C → C) → Node L → C → List (Except Fault (Status × C))
  | [], _, _ => []
  | change :: rest, node, c =>
    match node.tick (change c) with
    | .error e => [.error e]
    | .ok (status, node, c) => .ok (status, c) :: run rest node c

/-- Two trees that stand for one machine in one state cannot be told apart. -/
theorem Mirrors.run_eq {σ : Type} {step : σ → C → Except Fault (Status × σ × C)}
    {view view' : σ → Node L} (h : Mirrors C step view) (h' : Mirrors C step view')
    (steps : List (C → C)) (s : σ) (c : C) : run steps (view s) c = run steps (view' s) c := by
  induction steps generalizing s c with
  | nil => rfl
  | cons change rest ih =>
    rw [run, run, h, h']
    cases step s (change c) with
    | error e => rfl
    | ok r => simp only [map_ok, onTree, ih]

theorem run_collapse (steps : List (C → C)) (node : Node L) (c : C) :
    run steps node.collapse c = run steps node c := by
  have hself : Mirrors C tick (id : Node L → Node L) := by
    intro node c
    cases h : node.tick c <;> simp [h, onTree]
  exact Mirrors.run_eq tick_collapse hself steps node c

end Node

namespace TreeExpr

/-- Every expression has a plain tree, and over every run it shows what the collapsed tree shows,
tick by tick, the random source being part of the context. -/
theorem run_collapsed {L C : Type} [Behavior L C] [TickContext C] (e : TreeExpr L) :
    ∃ node, e.plain = .ok node ∧
      ∀ (steps : List (C → C)) (c : C), Node.run steps e.collapsed c = Node.run steps node c := by
  obtain ⟨node, hplain, hcollapse⟩ := e.agrees
  refine ⟨node, hplain, fun steps c => ?_⟩
  rw [← hcollapse, Node.run_collapse]

end TreeExpr

end Helm
