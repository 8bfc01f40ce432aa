import Helm.Proofs.Tree.Machine
import Helm.Tree.Collapse

/-!
# Helm.Proofs.Tree.Collapse

The collapsing constructors keep the meaning of a tree. `Node.collapse` maps a tree, in the state
it is in between two ticks, to the tree that the collapsing constructors would have in its place:
children that were left out have no counterpart, and a decorator that was left out is mapped to
its child. `tick_collapse` says that this map commutes with a tick: the collapsed tree gives the
same status and context, and what it keeps is again the collapsed form of what the tree keeps.

* `tick_of_constant?`, `constant?_tick`: a constant node changes nothing, and no tick makes a
  node constant that was not.
* `tickWhile_keep`: the children that a sequence or a selector leaves out do not count.
* `mirrors_collapse_sequence`, `mirrors_collapse_selector`, `mirrors_collapse_inverter`: what the
  collapsing constructors make ticks as the plain nodes do, whatever the children are.
-/

namespace Helm
namespace Node

variable {L C : Type}

mutual

/-- The tree, in the state it is in, as the collapsing constructors would have it. -/
def collapse : Node L → Node L
  | leaf l => leaf l
  | alwaysSuccess => alwaysSuccess
  | alwaysFailure => alwaysFailure
  | sequence children => Collapse.sequence (collapseAll children)
  | selector children => Collapse.selector (collapseAll children)
  | parallel policy children => parallel policy (collapseAll children)
  | randomSelector wheel children => randomSelector wheel (collapseAll children)
  | inverter child => Collapse.inverter (collapse child)
  | constantResult result child => Collapse.constantResult result (collapse child)
  | completeOnce result completed child =>
    if (collapse child).constant? = some result then collapse child
    else completeOnce result completed (collapse child)

/-- The trees of a list, each as the collapsing constructors would have it. -/
def collapseAll : List (Node L) → List (Node L)
  | [] => []
  | child :: rest => collapse child :: collapseAll rest

end

theorem collapseAll_eq_map : (collapseAll : List (Node L) → List (Node L)) = List.map collapse := by
  funext children
  induction children with
  | nil => rfl
  | cons child rest ih => rw [collapseAll, List.map_cons, ih]

theorem length_collapseAll (children : List (Node L)) :
    (collapseAll children).length = children.length := by
  rw [collapseAll_eq_map, List.length_map]

theorem constant?_ne_running (node : Node L) : node.constant? ≠ some .running := by
  cases node <;> simp [constant?]

variable [Behavior L C] [TickContext C]

/-! ## Constant nodes -/

theorem tick_of_constant? {node : Node L} {s : Status} (h : node.constant? = some s) (c : C) :
    node.tick c = .ok (s, node, c) := by
  cases node <;> simp only [constant?, Option.some.injEq, reduceCtorEq] at h <;> subst h <;> rfl

theorem constant?_tick {node next : Node L} {s : Status} {c c' : C}
    (h : node.tick c = .ok (s, next, c')) : next.constant? = node.constant? := by
  cases node with
  | alwaysSuccess => cases h; rfl
  | alwaysFailure => cases h; rfl
  | completeOnce result completed child =>
    rw [tick] at h
    split at h
    · cases h; rfl
    · obtain ⟨r, -, hr⟩ := bind_eq_ok.mp h
      cases hr; rfl
  | randomSelector wheel children =>
    obtain ⟨r, -, hr⟩ := bind_eq_ok.mp h
    obtain ⟨q, -, hq⟩ := bind_eq_ok.mp hr
    cases hq; rfl
  | _ =>
    obtain ⟨r, -, hr⟩ := bind_eq_ok.mp h
    cases hr; rfl

/-! ## Collapsing constructors -/

theorem tickWhile_keep {go stop : Status} (hne : stop ≠ go) (children : List (Node L)) (c : C) :
    tickWhile go (Collapse.keep go stop children) c =
      (tickWhile go children c).map (onTree (Collapse.keep go stop)) := by
  induction children generalizing c with
  | nil => rfl
  | cons child rest ih =>
    rw [Collapse.keep, tickWhile]
    by_cases hgo : child.constant? = some go
    · -- left out: the child lets the tick go on with an unchanged context
      rw [if_pos hgo, tick_of_constant? hgo, ih]
      cases hr : tickWhile go rest c with
      | error e => simp [hr]
      | ok r => simp [hr, onTree, Collapse.keep, hgo]
    · rw [if_neg hgo]
      by_cases hstop : child.constant? = some stop
      · -- the last one kept: nothing behind it is ticked
        rw [if_pos hstop, tickWhile, tick_of_constant? hstop]
        simp [onTree, Collapse.keep, hstop, hne]
      · rw [if_neg hstop, tickWhile]
        cases ht : child.tick c with
        | error e => rfl
        | ok r =>
          obtain ⟨s, next, c'⟩ := r
          have hk := constant?_tick ht
          by_cases hs : s = go
          · cases hr : tickWhile go rest c' with
            | error e => simp [hr, hs, ih]
            | ok r => simp [hr, onTree, Collapse.keep, hk, hgo, hstop, hs, ih]
          · simp [onTree, Collapse.keep, hk, hgo, hstop, hs]

theorem length_tickWhile {go s : Status} {children next : List (Node L)} {c c' : C}
    (h : tickWhile go children c = .ok (s, next, c')) : next.length = children.length := by
  induction children generalizing s next c with
  | nil => cases h; rfl
  | cons child rest ih =>
    rw [tickWhile] at h
    obtain ⟨⟨s₁, child', c₁⟩, -, h⟩ := bind_eq_ok.mp h
    dsimp only at h
    split at h
    · obtain ⟨⟨s₂, rest', c₂⟩, hr, h⟩ := bind_eq_ok.mp h
      cases h
      rw [List.length_cons, List.length_cons, ih hr]
    · cases h; rfl

theorem tickWhile_concat (go : Status) (front back : List (Node L)) (c : C) :
    tickWhile go (front ++ back) c = (do
      let (status, front, c) ← tickWhile go front c
      if status = go then
        let (status, back, c) ← tickWhile go back c
        return (status, front ++ back, c)
      else return (status, front ++ back, c)) := by
  induction front generalizing c with
  | nil =>
    rw [List.nil_append]
    cases h : tickWhile go back c <;> simp [tickWhile, h]
  | cons child rest ih =>
    rw [List.cons_append, tickWhile, tickWhile]
    cases child.tick c with
    | error e => rfl
    | ok r =>
      obtain ⟨s, next, c'⟩ := r
      by_cases hs : s = go
      · simp only [ok_bind, hs, if_true, ih]
        cases tickWhile go rest c' with
        | error e => rfl
        | ok r =>
          obtain ⟨s', rest', c''⟩ := r
          by_cases hs' : s' = go
          · simp only [ok_bind, pure_eq_ok, hs', if_true]
            cases tickWhile go back c'' <;> rfl
          · simp [hs']
      · simp [hs]

theorem unwrap_of_two {empty : Node L} {make : List (Node L) → Node L} {children : List (Node L)}
    (h : 2 ≤ children.length) : Collapse.unwrap empty make children = make children := by
  cases children with
  | nil => simp at h
  | cons first rest =>
    cases rest with
    | nil => simp at h
    | cons second rest => rfl

/-- A composite that gives `go` to the end ticks like its children, also when it is unwrapped. -/
theorem mirrors_unwrap {go : Status} {empty : Node L} {make : List (Node L) → Node L}
    (hempty : empty.constant? = some go) (hmake : Mirrors C (tickWhile go) make) :
    Mirrors C (tickWhile go) (Collapse.unwrap empty make) := by
  intro children c
  cases children with
  | nil =>
    rw [Collapse.unwrap, tick_of_constant? hempty]
    rfl
  | cons first rest =>
    cases rest with
    | nil =>
      rw [Collapse.unwrap, tickWhile]
      cases first.tick c with
      | error e => rfl
      | ok r =>
        obtain ⟨s, next, c'⟩ := r
        by_cases hs : s = go <;> simp [hs, tickWhile, onTree, Collapse.unwrap]
    | cons second rest =>
      rw [unwrap_of_two (by simp), hmake]
      cases ht : tickWhile go (first :: second :: rest) c with
      | error e => rfl
      | ok r =>
        -- as many children are kept, so there is still nothing to unwrap
        have hlen : 2 ≤ r.2.1.length := by
          rw [length_tickWhile ht]
          simp
        rw [map_ok, map_ok, onTree, onTree, unwrap_of_two hlen]

/-- Leaving children out and unwrapping does not show. -/
theorem mirrors_unwrap_keep {go stop : Status} {empty : Node L} {make : List (Node L) → Node L}
    (hne : stop ≠ go) (hempty : empty.constant? = some go) (hmake : Mirrors C (tickWhile go) make) :
    Mirrors C (tickWhile go) fun children =>
      Collapse.unwrap empty make (Collapse.keep go stop children) := by
  intro children c
  dsimp only
  rw [mirrors_unwrap hempty hmake, tickWhile_keep hne]
  cases tickWhile go children c <;> rfl

theorem mirrors_collapse_sequence :
    Mirrors C (tickWhile .success) (Collapse.sequence : List (Node L) → Node L) :=
  mirrors_unwrap_keep (by decide) rfl mirrors_sequence

theorem mirrors_collapse_selector :
    Mirrors C (tickWhile .failure) (Collapse.selector : List (Node L) → Node L) :=
  mirrors_unwrap_keep (by decide) rfl mirrors_selector

/-- A tick with the status that it gives inverted. -/
def tickInverted (child : Node L) (c : C) : Except Fault (Status × Node L × C) :=
  (child.tick c).map fun r => (r.1.invert, r.2)

theorem mirrors_collapse_inverter :
    Mirrors C tickInverted (Collapse.inverter : Node L → Node L) := by
  intro child c
  rw [tickInverted]
  cases hs : child.constant? with
  | some s =>
    rw [tick_of_constant? hs]
    cases s with
    | success => simp [Collapse.inverter, hs, tick, onTree, Status.invert]
    | failure => simp [Collapse.inverter, hs, tick, onTree, Status.invert]
    | running => exact absurd hs (constant?_ne_running child)
  | none =>
    rw [Collapse.inverter, hs, tick]
    cases ht : child.tick c with
    | error e => rfl
    | ok r =>
      have hk := constant?_tick ht
      simp [onTree, Collapse.inverter, hk, hs]

/-! ## One tick of a whole tree -/

/-- The collapsed tree does in one tick what the tree does. -/
def Follows (C : Type) [Behavior L C] [TickContext C] (node : Node L) : Prop :=
  ∀ c : C, node.collapse.tick c = (node.tick c).map (onTree collapse)

/-- A tree that collapses to a constant leaf gives that constant and changes nothing that
matters. -/
theorem Follows.tick_of_constant? {node : Node L} (h : Follows C node) {s : Status}
    (hs : node.collapse.constant? = some s) (c : C) :
    ∃ next, node.tick c = .ok (s, next, c) ∧ next.collapse = node.collapse := by
  have ht := h c
  rw [Node.tick_of_constant? hs] at ht
  cases hn : node.tick c with
  | error e => rw [hn] at ht; cases ht
  | ok r =>
    obtain ⟨s', next, c'⟩ := r
    rw [hn, map_ok, Except.ok.injEq, onTree, Prod.mk.injEq, Prod.mk.injEq] at ht
    obtain ⟨rfl, hnext, rfl⟩ := ht
    exact ⟨next, rfl, hnext.symm⟩

theorem Follows.constant?_tick {node next : Node L} (h : Follows C node) {s : Status} {c c' : C}
    (ht : node.tick c = .ok (s, next, c')) :
    next.collapse.constant? = node.collapse.constant? := by
  have hc := h c
  rw [ht] at hc
  exact Node.constant?_tick hc

section Lists

variable {children : List (Node L)}

theorem tickWhile_collapseAll {go : Status} (h : ∀ child ∈ children, Follows C child) (c : C) :
    tickWhile go (collapseAll children) c =
      (tickWhile go children c).map (onTree collapseAll) := by
  rw [collapseAll_eq_map]
  exact tickWhile_image id collapse id (fun _ hs => hs) h c

theorem tickAll_collapseAll (h : ∀ child ∈ children, Follows C child) (c : C) :
    tickAll (collapseAll children) c = (tickAll children c).map fun r =>
      (r.1, collapseAll r.2.1, r.2.2) := by
  rw [collapseAll_eq_map]
  exact tickAll_image collapse id h c

theorem tickAt_collapseAll (h : ∀ child ∈ children, Follows C child) (index : Nat) (c : C) :
    tickAt index (collapseAll children) c =
      (tickAt index children c).map (onTree collapseAll) := by
  rw [collapseAll_eq_map]
  exact tickAt_image collapse id h index c

end Lists

theorem follows_inverter {child : Node L} (h : Follows C child) : Follows C (inverter child) := by
  intro c
  rw [collapse, mirrors_collapse_inverter, tickInverted, h c, tick]
  cases child.tick c <;> rfl

theorem follows_constantResult {child : Node L} (h : Follows C child) (result : Status) :
    Follows C (constantResult result child) := by
  intro c
  rw [collapse, tick]
  unfold Collapse.constantResult
  split
  · rename_i s hs
    obtain ⟨next, ht, hnext⟩ := h.tick_of_constant? hs c
    have hr : s ≠ .running := fun e => constant?_ne_running _ (e ▸ hs)
    simp [ht, tick, onTree, collapse, Collapse.constantResult, hnext, hs, hr]
  · rename_i s hs
    obtain ⟨next, ht, hnext⟩ := h.tick_of_constant? hs c
    have hr : s ≠ .running := fun e => constant?_ne_running _ (e ▸ hs)
    simp [ht, tick, onTree, collapse, Collapse.constantResult, hnext, hs, hr]
  · rw [tick, h c]
    cases ht : child.tick c with
    | error e => rfl
    | ok r =>
      obtain ⟨s, next, c'⟩ := r
      have hk := h.constant?_tick ht
      simp only [map_ok, onTree, ok_bind, pure_eq_ok, collapse, Collapse.constantResult, hk]

theorem follows_completeOnce {child : Node L} (h : Follows C child) (result : Status)
    (completed : Bool) : Follows C (completeOnce result completed child) := by
  intro c
  rw [collapse, tick]
  by_cases hs : child.collapse.constant? = some result
  · -- latched or not, the answer is the child's constant
    obtain ⟨next, ht, hnext⟩ := h.tick_of_constant? hs c
    rw [if_pos hs, Node.tick_of_constant? hs]
    cases completed <;> simp [ht, onTree, collapse, hnext, hs]
  · rw [if_neg hs, tick]
    cases completed with
    | true => simp [onTree, collapse, hs]
    | false =>
      rw [h c]
      cases ht : child.tick c with
      | error e => rfl
      | ok r =>
        obtain ⟨s, next, c'⟩ := r
        have hk := h.constant?_tick ht
        simp [onTree, collapse, hk, hs]

/-- One tick of the collapsed tree gives the status and the context that the tree gives, and
leaves the collapsed form of what the tree becomes. -/
theorem tick_collapse (node : Node L) : Follows C node := by
  induction node with
  | leaf l =>
    intro c
    rw [collapse, tick]
    cases Behavior.tick l c <;> rfl
  | alwaysSuccess => intro c; rfl
  | alwaysFailure => intro c; rfl
  | sequence children ih =>
    intro c
    rw [collapse, mirrors_collapse_sequence, tickWhile_collapseAll ih, mirrors_sequence]
    cases tickWhile .success children c <;> rfl
  | selector children ih =>
    intro c
    rw [collapse, mirrors_collapse_selector, tickWhile_collapseAll ih, mirrors_selector]
    cases tickWhile .failure children c <;> rfl
  | parallel policy children ih =>
    intro c
    rw [collapse, tick, tick, tickAll_collapseAll ih]
    cases tickAll children c <;> rfl
  | randomSelector wheel children ih =>
    intro c
    rw [collapse, tick, tick]
    cases wheel.turn (TickContext.time c) c with
    | error e => rfl
    | ok r =>
      obtain ⟨index, wheel', c'⟩ := r
      simp only [ok_bind, tickAt_collapseAll ih]
      cases tickAt index children c' <;> rfl
  | inverter child ih => exact follows_inverter ih
  | constantResult result child ih => exact follows_constantResult ih result
  | completeOnce result completed child ih => exact follows_completeOnce ih result completed

end Node
end Helm
