import Helm.Proofs.Tree.Collapse
import Helm.Proofs.Tree.Invariant

/-!
# Helm.Proofs.Tree.NormalForm

The shape that the collapsing constructors give to a tree. `Node.Tidy` says it for one node: a
composite has at least two children and no constant child that could be left out, and a decorator
does not stand around a constant child that decides its result. Each constructor, applied to trees
that are tidy everywhere, gives a tree that is tidy everywhere, and never asks a plain constructor
for a composite without children (`unwrapOf_ofChildren`).
-/

namespace Helm

namespace Node

variable {L : Type}

/-- Two children or more, of which none always gives `go`, and only the last may always give
`stop`. -/
structure Pruned (go stop : Status) (children : List (Node L)) : Prop where
  two : 2 ≤ children.length
  go : ∀ child ∈ children, child.constant? ≠ some go
  stop : ∀ child ∈ children.dropLast, child.constant? ≠ some stop

/-- The node itself is in normal form. -/
def Tidy : Node L → Prop
  | leaf _ => True
  | alwaysSuccess => True
  | alwaysFailure => True
  | sequence children => Pruned .success .failure children
  | selector children => Pruned .failure .success children
  | parallel _ children => 2 ≤ children.length
  | randomSelector _ children => 2 ≤ children.length
  | inverter child => child.constant? = none
  | constantResult result child => result.isTerminal = true → child.constant? = none
  | completeOnce result _ child => child.constant? ≠ some result

end Node

namespace Collapse

open Node

variable {L : Type} {P : Node L → Prop} {children : List (Node L)} {child : Node L}

theorem mem_of_mem_keep {skip stop : Status} (h : child ∈ keep skip stop children) :
    child ∈ children := by
  induction children with
  | nil => cases h
  | cons first rest ih =>
    rw [keep] at h
    split at h
    · exact List.mem_cons_of_mem _ (ih h)
    · split at h
      · rw [List.mem_singleton.mp h]
        exact List.mem_cons_self
      · rcases List.mem_cons.mp h with rfl | h
        · exact List.mem_cons_self
        · exact List.mem_cons_of_mem _ (ih h)

theorem keep_skips {skip stop : Status} (h : child ∈ keep skip stop children) :
    child.constant? ≠ some skip := by
  induction children with
  | nil => cases h
  | cons first rest ih =>
    rw [keep] at h
    split at h
    · exact ih h
    · rename_i hskip
      split at h
      · rw [List.mem_singleton.mp h]
        exact hskip
      · rcases List.mem_cons.mp h with rfl | h
        · exact hskip
        · exact ih h

theorem keep_stops {skip stop : Status} (h : child ∈ (keep skip stop children).dropLast) :
    child.constant? ≠ some stop := by
  induction children with
  | nil => cases h
  | cons first rest ih =>
    rw [keep] at h
    split at h
    · exact ih h
    · split at h
      · cases h
      · rename_i hstop
        cases hrest : keep skip stop rest with
        | nil => rw [hrest] at h; cases h
        | cons next more =>
          rw [hrest, List.dropLast_cons_cons] at h
          rcases List.mem_cons.mp h with rfl | h
          · exact hstop
          · exact ih (hrest ▸ h)

/-- What is kept of children is pruned, unless it is hardly anything. -/
theorem pruned_keep {go stop : Status} (h : 2 ≤ (keep go stop children).length) :
    Pruned go stop (keep go stop children) :=
  ⟨h, fun _ => keep_skips, fun _ => keep_stops⟩

/-! ## Trees that are in normal form everywhere -/

theorem everywhere_unwrap {empty : Node L} {make : List (Node L) → Node L}
    (hempty : empty.Everywhere P) (hchildren : ∀ child ∈ children, child.Everywhere P)
    (hmake : 2 ≤ children.length → (make children).Everywhere P) :
    (unwrap empty make children).Everywhere P := by
  match children with
  | [] => exact hempty
  | [child] => exact hchildren child List.mem_cons_self
  | first :: second :: rest => exact hmake (Nat.le_add_left 2 rest.length)

theorem everywhere_constant {s : Status} (hchild : child.constant? = some s) (h : P child) :
    child.Everywhere P :=
  everywhere_of_isLeaf (isLeaf_of_constant? hchild) h

theorem everywhere_sequence (hempty : P alwaysSuccess)
    (hchildren : ∀ child ∈ children, child.Everywhere P)
    (hmake : ∀ kept, Pruned .success .failure kept → P (.sequence kept)) :
    (sequence children).Everywhere P := by
  have hkept : ∀ child ∈ keep .success .failure children, child.Everywhere P :=
    fun child hchild => hchildren child (mem_of_mem_keep hchild)
  refine everywhere_unwrap (everywhere_constant rfl hempty) hkept fun htwo => ?_
  exact everywhere_iff.mpr ⟨hmake _ (pruned_keep htwo), hkept⟩

theorem everywhere_selector (hempty : P alwaysFailure)
    (hchildren : ∀ child ∈ children, child.Everywhere P)
    (hmake : ∀ kept, Pruned .failure .success kept → P (.selector kept)) :
    (selector children).Everywhere P := by
  have hkept : ∀ child ∈ keep .failure .success children, child.Everywhere P :=
    fun child hchild => hchildren child (mem_of_mem_keep hchild)
  refine everywhere_unwrap (everywhere_constant rfl hempty) hkept fun htwo => ?_
  exact everywhere_iff.mpr ⟨hmake _ (pruned_keep htwo), hkept⟩

theorem everywhere_parallel {policy : ParallelPolicy} (hempty : P alwaysSuccess)
    (hchildren : ∀ child ∈ children, child.Everywhere P)
    (hmake : 2 ≤ children.length → P (.parallel policy children)) :
    (parallel policy children).Everywhere P := by
  refine everywhere_unwrap (everywhere_constant rfl hempty) hchildren fun htwo => ?_
  exact everywhere_iff.mpr ⟨hmake htwo, hchildren⟩

theorem everywhere_random {cooldown : Float32} {mode : RandomMode} {policy : RandomPolicy}
    (hempty : P alwaysFailure) (hchildren : ∀ child ∈ children, child.Everywhere P)
    (hmake : 2 ≤ children.length → P (freshRandom cooldown mode policy children)) :
    (random cooldown mode policy children).Everywhere P := by
  refine everywhere_unwrap (everywhere_constant rfl hempty) hchildren fun htwo => ?_
  exact everywhere_iff.mpr ⟨hmake htwo, hchildren⟩

theorem everywhere_inverter (hsuccess : P alwaysSuccess) (hfailure : P alwaysFailure)
    (hchild : child.Everywhere P) (hmake : child.constant? = none → P (.inverter child)) :
    (inverter child).Everywhere P := by
  rw [inverter]
  split
  · exact everywhere_constant rfl hfailure
  · exact everywhere_constant rfl hsuccess
  · rename_i hs hf
    have hnone : child.constant? = none := by
      cases child with
      | alwaysSuccess => exact absurd rfl hs
      | alwaysFailure => exact absurd rfl hf
      | _ => rfl
    exact everywhere_iff.mpr ⟨hmake hnone, List.forall_mem_singleton.mpr hchild⟩

theorem everywhere_constantResult {result : Status} (hsuccess : P alwaysSuccess)
    (hfailure : P alwaysFailure) (hchild : child.Everywhere P)
    (hmake : (result.isTerminal = true → child.constant? = none) →
      P (.constantResult result child)) :
    (constantResult result child).Everywhere P := by
  cases hconstant : child.constant? with
  | none =>
    have hkept : constantResult result child = .constantResult result child := by
      unfold constantResult
      rw [hconstant]
    rw [hkept]
    exact everywhere_iff.mpr ⟨hmake fun _ => hconstant, List.forall_mem_singleton.mpr hchild⟩
  | some s =>
    unfold constantResult
    rw [hconstant]
    cases result with
    | success => exact everywhere_constant rfl hsuccess
    | failure => exact everywhere_constant rfl hfailure
    | running =>
      have hfinal : Status.running.isTerminal = true → child.constant? = none := nofun
      exact everywhere_iff.mpr ⟨hmake hfinal, List.forall_mem_singleton.mpr hchild⟩

theorem everywhere_completeOnce {result : Status} (hchild : child.Everywhere P)
    (hmake : child.constant? ≠ some result → P (.completeOnce result false child)) :
    (completeOnce result child).Everywhere P := by
  rw [completeOnce]
  split
  · exact hchild
  · rename_i hconstant
    exact everywhere_iff.mpr ⟨hmake hconstant, List.forall_mem_singleton.mpr hchild⟩

/-! ## Plain constructors that refuse an empty list -/

/-- As `unwrap`, around a constructor that may refuse. -/
def unwrapOf (empty : Node L) (make : List (Node L) → Except Fault (Node L)) :
    List (Node L) → Except Fault (Node L)
  | [] => .ok empty
  | [child] => .ok child
  | children => make children

/-- A composite is never asked for without children. -/
theorem unwrapOf_ofChildren (kind : CompositeKind) (empty : Node L)
    (make : List (Node L) → Node L) (children : List (Node L)) :
    unwrapOf empty (ofChildren kind make) children = .ok (unwrap empty make children) := by
  match children with
  | [] => rfl
  | [_] => rfl
  | _ :: _ :: _ => rfl

end Collapse

end Helm
