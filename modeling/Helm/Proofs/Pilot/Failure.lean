import Helm.Proofs.Pilot.Effect
import Helm.Proofs.Tree.Collapse
import Helm.Proofs.Tree.Invariant

/-!
# Helm.Proofs.Pilot.Failure

A leaf that fails does not meddle with the context, so that a selector can try one leaf after the
other (`failing_leaves`). There are two leaves that leave something behind when they fail: a search
for an enemy gives up a target that cannot be kept, and a recharge that has come to its end stops
holding the ship back.
-/

namespace Helm

/-! ## Selectors -/

section Selectors

variable {L C : Type} [Behavior L C] [TickContext C] {go : Status} {c c' : C}

/-- The children have all been ticked when the last status lets the next one have its turn. -/
theorem Node.tickWhile_cons_go {child : Node L} {rest after : List (Node L)}
    (h : tickWhile go (child :: rest) c = .ok (go, after, c')) :
    ∃ next after' c₁, child.tick c = .ok (go, next, c₁) ∧
      tickWhile go rest c₁ = .ok (go, after', c') ∧ after = next :: after' := by
  rw [tickWhile] at h
  obtain ⟨⟨status, next, c₁⟩, hchild, h⟩ := bind_eq_ok.mp h
  dsimp only at h
  split at h
  · rename_i hgo
    obtain ⟨⟨status', after', c₂⟩, hrest, h⟩ := bind_eq_ok.mp h
    simp only [pure_eq_ok, Except.ok.injEq, Prod.mk.injEq] at h
    obtain ⟨hstatus, hafter, hc⟩ := h
    rw [hgo] at hchild
    rw [hstatus, hc] at hrest
    exact ⟨next, after', c₁, hchild, hrest, hafter.symm⟩
  · rename_i hstop
    simp only [pure_eq_ok, Except.ok.injEq, Prod.mk.injEq] at h
    exact absurd h.1 hstop

/-- Children that have all let the next one have its turn matter for what comes after them only
through the context. -/
theorem Node.tickWhile_append {children after : List (Node L)}
    (h : tickWhile go children c = .ok (go, after, c')) (rest : List (Node L)) :
    tickWhile go (children ++ rest) c = (do
      let (status, rest, c) ← tickWhile go rest c'
      return (status, after ++ rest, c)) := by
  rw [tickWhile_concat, h, ok_bind]
  exact if_pos rfl

end Selectors

/-! ## Leaves -/

namespace ShipNode

/-- What is left of a context in which a node without children has failed. -/
def AfterFailure (c : Context) : ShipNode → Context → Prop
  | .leaf l, c' => l.AfterFailure c c'
  | _, c' => c' = c

/-- Not one of the leaves that leave something behind when they fail. -/
def Traceless : ShipNode → Prop
  | .leaf (.findEnemy _) => False
  | .leaf (.action (.rechargeEnergy _ _)) => False
  | _ => True

/-- What is left of a context in which nodes without children have failed one after the other. -/
inductive AfterFailures : Context → List ShipNode → Context → Prop where
  | nil (c : Context) : AfterFailures c [] c
  | cons {c c' c'' : Context} {node : ShipNode} {rest : List ShipNode} :
      AfterFailure c node c' → AfterFailures c' rest c'' → AfterFailures c (node :: rest) c''

theorem AfterFailure.eq_of_traceless {c c' : Context} {node : ShipNode}
    (h : AfterFailure c node c') (hnode : Traceless node) : c' = c := by
  cases node with
  | leaf l =>
    cases l with
    | findEnemy => exact hnode.elim
    | action a =>
      cases a with
      | rechargeEnergy => exact hnode.elim
      | _ => exact h
    | _ => exact h
  | _ => exact h

theorem AfterFailures.eq_of_traceless {c c' : Context} {nodes : List ShipNode}
    (h : AfterFailures c nodes c') (hnodes : ∀ node ∈ nodes, Traceless node) : c' = c := by
  induction h with
  | nil => rfl
  | cons hnode _ ih =>
    obtain ⟨hfirst, hrest⟩ := List.forall_mem_cons.mp hnodes
    rw [ih hrest, hnode.eq_of_traceless hfirst]

theorem afterFailure_of_tick {c c' : Context} {node next : ShipNode} (hnode : node.IsLeaf)
    (h : node.tick c = .ok (.failure, next, c')) : AfterFailure c node c' := by
  cases node with
  | leaf l =>
    obtain ⟨⟨status, l', after⟩, hl, h⟩ := bind_eq_ok.mp h
    cases h
    obtain ⟨heffect, -⟩ := (l.tick_effect c).of_eq_ok hl
    cases heffect with
    | fails hfailure => exact hfailure
    | acts hs => exact absurd rfl hs
  | alwaysFailure =>
    cases h
    rfl
  | alwaysSuccess => cases h
  | _ => exact hnode.elim

theorem afterFailures_of_tickWhile {c c' : Context} {nodes after : List ShipNode}
    (hnodes : ∀ node ∈ nodes, node.IsLeaf)
    (h : Node.tickWhile .failure nodes c = .ok (.failure, after, c')) :
    AfterFailures c nodes c' := by
  induction nodes generalizing c after with
  | nil =>
    cases h
    exact .nil c'
  | cons node rest ih =>
    obtain ⟨hnode, hrest⟩ := List.forall_mem_cons.mp hnodes
    obtain ⟨next, after', c₁, htick, htail, -⟩ := Node.tickWhile_cons_go h
    exact .cons (afterFailure_of_tick hnode htick) (ih hrest htail)

/-- A failing leaf leaves the context as it was, or what the two leaves that leave something behind
make of it; and a selector whose first leaves fail hands on just that to the next child. -/
theorem failing_leaves (c : Context) :
    (∀ (node next : ShipNode) (c' : Context), node.IsLeaf →
      node.tick c = .ok (.failure, next, c') → AfterFailure c node c') ∧
    ∀ (leaves after : List ShipNode) (c' : Context), (∀ node ∈ leaves, node.IsLeaf) →
      (Node.selector leaves).tick c = .ok (.failure, .selector after, c') →
      AfterFailures c leaves c' ∧ ((∀ node ∈ leaves, Traceless node) → c' = c) ∧
        ∀ rest : List ShipNode, (Node.selector (leaves ++ rest)).tick c = (do
          let (status, rest, c) ← Node.tickWhile .failure rest c'
          return (status, .selector (after ++ rest), c)) := by
  refine ⟨fun _ _ _ => afterFailure_of_tick, fun leaves after c' hleaves hselector => ?_⟩
  have hticks : Node.tickWhile .failure leaves c = .ok (.failure, after, c') := by
    rw [Node.tick] at hselector
    obtain ⟨⟨status, after', c₁⟩, hticks, h⟩ := bind_eq_ok.mp hselector
    cases h
    exact hticks
  have hchain := afterFailures_of_tickWhile hleaves hticks
  refine ⟨hchain, hchain.eq_of_traceless, fun rest => ?_⟩
  rw [Node.tick, Node.tickWhile_append hticks rest]
  cases Node.tickWhile .failure rest c' with
  | ok r => rfl
  | error e => rfl

/-- A ship alone in the scene, with a target that has left. -/
def deserted : Context where
  scene := Scene.addShip {} (.create ⟨1⟩ .zero) 0
  memory := { ship := ⟨1⟩, arsenal := ⟨[]⟩, dice := .ofSeed 0, target := some ⟨2⟩ }

/-- A search that takes one second. -/
def searching : ShipNode := .leaf (.findEnemy (.create 1 1 false false none))

/-- Two nodes that fail and leave nothing behind. -/
def refusals : List ShipNode := [.leaf (.action .isControlledByPlayer), .alwaysFailure]

theorem failing_leaves_deserted :
    (∃ next c', searching.tick deserted = .ok (.failure, next, c') ∧ c'.memory.target = none ∧
        AfterFailure deserted searching c') ∧
      ∃ after c', (Node.selector refusals).tick deserted = .ok (.failure, .selector after, c') ∧
        c' = deserted := by
  constructor
  · exact ⟨_, _, rfl, rfl, (failing_leaves deserted).1 searching _ _ trivial rfl⟩
  · have hrefusals : ∀ node ∈ refusals, node.IsLeaf ∧ Traceless node := by
      simp [refusals, Node.IsLeaf, Traceless]
    have htick : (Node.selector refusals).tick deserted =
        .ok (.failure, .selector refusals, deserted) := rfl
    obtain ⟨-, heq, -⟩ :=
      (failing_leaves deserted).2 refusals _ _ (fun node h => (hrefusals node h).1) htick
    exact ⟨_, _, htick, heq fun node h => (hrefusals node h).2⟩

end ShipNode

end Helm
