import Helm.Pilot.Agent
import Helm.Proofs.Pilot.Assembly

/-!
# Helm.Proofs.Pilot.Run

Runs of an agent. Between two ticks anything may happen to the scene, and messages may be taken;
nothing else reaches the agent from outside. `Agent.Invariant` is what one tick and one change from
outside keep, and `holds_of_reaches` carries it along a run. The tree that a run starts with comes
from the builder, so what is asked of its leaves follows from the definitions they stand for
(`fit_of_assembled`).
-/

namespace Helm

namespace Agent

/-- The second agent is what a run makes of the first. -/
inductive Reaches : Agent → Agent → Prop where
  | refl (a : Agent) : Reaches a a
  | tick {a b c : Agent} {timeStep : Float32} {status : Status} :
      Reaches a b → b.tick timeStep = .ok (status, c) → Reaches a c
  | inScene {a b : Agent} (f : Scene → Scene) : Reaches a b → Reaches a (b.inScene f)
  | takeMessages {a b : Agent} : Reaches a b → Reaches a b.takeMessages.2

/-- A property of leaves and one of the context that ticks and changes from outside keep. -/
structure Invariant (allowed : Fault → Prop) (leafOk : Leaf → Prop) (inv : Context → Prop) :
    Prop where
  upholds : Node.Upholds allowed leafOk inv
  start : ∀ c timeStep, inv c → inv ((c.advance timeStep).command Controls.beginTick)
  inScene : ∀ c f, inv c → inv (c.inScene f)
  takeMessages : ∀ c, inv c → inv c.takeMessages.2

/-- The agent's tree can be ticked, and both properties hold of it. -/
structure Holds (leafOk : Leaf → Prop) (inv : Context → Prop) (a : Agent) : Prop where
  root : a.root.Everywhere (Node.Fit leafOk)
  context : inv a.context

variable {allowed : Fault → Prop} {leafOk : Leaf → Prop} {inv : Context → Prop} {a b : Agent}

theorem tick_yields (h : Invariant allowed leafOk inv) (ha : a.Holds leafOk inv)
    (timeStep : Float32) :
    Yields allowed (fun r => r.2.Holds leafOk inv) (a.tick timeStep) := by
  have hstart := h.start a.context timeStep ha.context
  exact (Node.tick_yields h.upholds a.root ha.root _ hstart).bind fun r hr => ⟨hr.1, hr.2⟩

theorem holds_of_reaches (h : Invariant allowed leafOk inv) (hrun : a.Reaches b)
    (ha : a.Holds leafOk inv) : b.Holds leafOk inv := by
  induction hrun with
  | refl => exact ha
  | tick _ htick ih => exact (tick_yields h ih _).of_eq_ok htick
  | inScene f _ ih => exact ⟨ih.root, h.inScene _ f ih.context⟩
  | takeMessages _ ih => exact ⟨ih.root, h.takeMessages _ ih.context⟩

end Agent

namespace Outfit

/-- A tree that has been assembled can be ticked, when all leaves that may be fitted are of the kind
asked for. -/
theorem fit_of_assembled {o : Outfit} {S : Sources} {leafOk : Leaf → Prop}
    (hleaf : ∀ r kind scope roll, S (.leaf r kind) scope →
      (∀ x ∈ kind.parameters, x.isFinite = true) → Node.Fit leafOk (o.fit roll kind))
    {node : ShipNode} (h : o.Assembled S node) : Node.Fit leafOk node := by
  obtain ⟨htidy, hsource⟩ := h
  cases node with
  | leaf l =>
    obtain ⟨r, kind, scope, dice, roll, rest, hS, hfinite, -, hfit⟩ := hsource
    rw [← hfit]
    exact hleaf r kind scope roll hS hfinite
  | randomSelector wheel children =>
    obtain ⟨r, mode, cooldown, choice, nodes, scope, -, -, rfl, hnodes⟩ := hsource
    rw [hnodes.length_eq]
    exact ⟨Wheel.fits_create .., Nat.lt_of_lt_of_le Nat.two_pos htidy⟩
  | _ => trivial

/-- The definitions that may play a part in an agent's tree. -/
abbrev treeSources (o : Outfit) (tree : TreeDefinition) : Sources :=
  o.Mentions tree.root tree.parallelPolicy

/-- An agent starts with a tree that can be ticked, in the context it is created with. Its leaves
are fitted from definitions whose parameters are finite. -/
theorem agent_yields_of_finite (o : Outfit) {leafOk : Leaf → Prop} {inv : Context → Prop}
    (scene : Scene) (tree : TreeDefinition) (unseeded : Purpose → Dice)
    (hleaf : ∀ r kind scope roll, o.treeSources tree (.leaf r kind) scope →
      (∀ x ∈ kind.parameters, x.isFinite = true) → Node.Fit leafOk (o.fit roll kind))
    (hcontext : inv (.create o.ship o.loadout scene (o.dice unseeded .runtime))) :
    Yields (o.treeSources tree).Overflow (fun a => a.Holds leafOk inv)
      (o.agent scene tree unseeded) := by
  refine (o.builtFrom_buildTree tree (o.builder unseeded)).bind fun r hr => ⟨?_, hcontext⟩
  exact hr.mono fun _ => fit_of_assembled hleaf

theorem agent_yields (o : Outfit) {leafOk : Leaf → Prop} {inv : Context → Prop} (scene : Scene)
    (tree : TreeDefinition) (unseeded : Purpose → Dice)
    (hleaf : ∀ r kind scope roll, o.treeSources tree (.leaf r kind) scope →
      Node.Fit leafOk (o.fit roll kind))
    (hcontext : inv (.create o.ship o.loadout scene (o.dice unseeded .runtime))) :
    Yields (o.treeSources tree).Overflow (fun a => a.Holds leafOk inv)
      (o.agent scene tree unseeded) :=
  o.agent_yields_of_finite scene tree unseeded
    (fun r kind scope roll hS _ => hleaf r kind scope roll hS) hcontext

/-- The tree of a single leaf. -/
theorem buildTree_leaf (o : Outfit) (kind : LeafKind) (b : Builder)
    (h : ∀ x ∈ kind.parameters, x.isFinite = true) :
    o.buildTree { root := some (.leaf .always kind) } b = (do
      let (roll, dice) ← kind.roll b.dice
      return (o.fit roll kind, { b with dice := dice })) := by
  have hfinite : kind.parameters.any (fun x => !x.isFinite) = false := by simpa using h
  simp only [buildTree, buildRoot, buildOptional, buildNode, guarded, NodeDefinition.requirement,
    Requirement.isMet, NodeDefinition.parameters, hfinite]
  cases kind.roll b.dice <;> rfl

end Outfit

end Helm
