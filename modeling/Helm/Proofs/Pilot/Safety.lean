import Helm.Proofs.Pilot.Effect
import Helm.Proofs.Pilot.Run

/-!
# Helm.Proofs.Pilot.Safety

When building and running an agent can be abandoned. The only reason is a random number asked for
between two finite ends whose distance is not finite, and only leaves that draw between two
parameters of their definition ask for one: circling the mothership once, when it is built, and the
search for an enemy whenever it decides on a target (`agent_run`).
-/

namespace Helm

open Single

/-- A search draws its cooldowns from the range that a source gives. -/
def Sources.Searches (S : Sources) : Leaf → Prop
  | .findEnemy f => ∃ r lo hi inAttackRange ignoreDrones scope,
      S (.leaf r (.findEnemy lo hi inAttackRange ignoreDrones)) scope ∧
      f.minCooldown = lo ∧ f.maxCooldown = maximum hi lo
  | _ => True

namespace Outfit

theorem searches_fit (o : Outfit) {S : Sources} {r : Requirement} {kind : LeafKind}
    {scope : ParallelPolicy} (roll : Float32) (hS : S (.leaf r kind) scope) :
    Node.Fit S.Searches (o.fit roll kind) := by
  cases kind with
  | findEnemy lo hi inAttackRange ignoreDrones =>
    exact ⟨r, lo, hi, inAttackRange, ignoreDrones, scope, hS, rfl, rfl⟩
  | selectWeapon => exact armed_cases trivial trivial
  | chargeWeapons => exact armed_cases trivial trivial
  | useRecoil => exact armed_cases trivial trivial
  | activateDevice => exact equipped_cases trivial trivial
  | defendWithFrontalShield => exact equipped_cases trivial trivial
  | trackControllableAmmo => exact capable_cases trivial fun _ => trivial
  | spawnDrones => exact capable_cases trivial fun _ => trivial
  | _ => trivial

end Outfit

section Leaves

variable {S : Sources} {l : Leaf}

theorem Sources.Searches.overflow (h : S.Searches l) {e : Fault} (he : l.Overflow e) :
    S.Overflow e := by
  cases l with
  | findEnemy f =>
    obtain ⟨r, lo, hi, inAttackRange, ignoreDrones, scope, hS, hmin, hmax⟩ := h
    obtain ⟨rfl, hwide⟩ := he
    refine ⟨rfl, r, _, scope, lo, hi, hS, rfl, fun hdrawable => hwide ?_⟩
    rw [hmin, hmax]
    exact drawable_maximum hdrawable
  | _ => exact he.elim

theorem Sources.Searches.continues (h : S.Searches l) {next : Leaf} (hnext : l.Continues next) :
    S.Searches next := by
  cases l with
  | findEnemy f => obtain ⟨cooldown, rfl⟩ := hnext; exact h
  | attack a => obtain ⟨aim, rfl⟩ := hnext; trivial
  | wait w => obtain ⟨lastCompletion, lastFrame, rfl⟩ := hnext; trivial
  | showMessage announcement => obtain ⟨shown, rfl⟩ := hnext; trivial
  | action a => cases hnext; trivial

/-- In any context: the range of a search stays what it was. -/
theorem invariant_searches (S : Sources) :
    Agent.Invariant S.Overflow S.Searches fun _ => True where
  upholds :=
    { leaf := fun l c hl _ => ((l.tick_effect c).weaken fun _ => hl.overflow).mono fun _ h =>
        ⟨hl.continues h.2, trivial⟩
      word := fun _ _ => trivial }
  start _ _ _ := trivial
  inScene _ _ _ := trivial
  takeMessages _ _ := trivial

end Leaves

namespace Outfit

/-- Building an agent, and every tick of every run of it, is abandoned only for a leaf that draws
from too wide a range; without such a leaf the agent is built and each of the ticks gives a status.
-/
theorem agent_run (o : Outfit) (scene : Scene) (tree : TreeDefinition) (unseeded : Purpose → Dice) :
    Yields (o.treeSources tree).Overflow
        (fun a => ∀ b, a.Reaches b → ∀ timeStep,
          Yields (o.treeSources tree).Overflow (fun _ => True) (b.tick timeStep))
        (o.agent scene tree unseeded) ∧
      ((∀ r kind scope lo hi, o.treeSources tree (.leaf r kind) scope →
          kind.range? = some (lo, hi) → Drawable lo hi) →
        ∃ a, o.agent scene tree unseeded = .ok a ∧
          ∀ b, a.Reaches b → ∀ timeStep, ∃ status c, b.tick timeStep = .ok (status, c)) := by
  have hinvariant := invariant_searches (o.treeSources tree)
  have hrun : Yields (o.treeSources tree).Overflow
      (fun a => ∀ b, a.Reaches b → ∀ timeStep,
        Yields (o.treeSources tree).Overflow (fun _ => True) (b.tick timeStep))
      (o.agent scene tree unseeded) := by
    have hstart := @agent_yields o (o.treeSources tree).Searches (fun _ => True) scene tree unseeded
      (fun r kind scope roll hS => o.searches_fit roll hS) trivial
    refine hstart.mono fun a ha b hb timeStep => ?_
    exact (Agent.tick_yields hinvariant (Agent.holds_of_reaches hinvariant hb ha) timeStep).mono
      fun _ _ => trivial
  refine ⟨hrun, fun hdrawable => ?_⟩
  have hnone : ∀ e, ¬(o.treeSources tree).Overflow e := by
    rintro e ⟨-, r, kind, scope, lo, hi, hS, hrange, hwide⟩
    exact hwide (hdrawable r kind scope lo hi hS hrange)
  obtain ⟨a, ha, hticks⟩ := yields_false_iff.mp (hrun.weaken hnone)
  refine ⟨a, ha, fun b hb timeStep => ?_⟩
  obtain ⟨⟨status, c⟩, hc, -⟩ := yields_false_iff.mp ((hticks b hb timeStep).weaken hnone)
  exact ⟨status, c, hc⟩

/-- A ship with nothing fitted. -/
def hulk : Outfit := { ship := ⟨1⟩, loadout := {} }

/-- Two leaves that draw from ranges of a common size. -/
def scouting : TreeDefinition :=
  { root := some (.group .always .sequence
      [.leaf .always (.findEnemy 1 2 false true), .leaf .always (.flyAroundMothership 10 20)]) }

theorem mentions_scouting {node : NodeDefinition} {scope : ParallelPolicy}
    (h : hulk.treeSources scouting node scope) :
    some node = scouting.root ∨ node = .leaf .always (.findEnemy 1 2 false true) ∨
      node = .leaf .always (.flyAroundMothership 10 20) := by
  induction h with
  | start h => exact .inl h.symm
  | deeper _ hchild ih =>
    rcases ih with h | rfl | rfl
    · cases h
      exact .inr (by simpa [NodeDefinition.children] using hchild)
    · cases hchild
    · cases hchild
  | within _ htree => cases htree

theorem agent_run_scouting :
    (∀ r kind scope lo hi, hulk.treeSources scouting (.leaf r kind) scope →
        kind.range? = some (lo, hi) → Drawable lo hi) ∧
      ∃ a, hulk.agent {} scouting default = .ok a ∧
        ∀ b, a.Reaches b → ∀ timeStep, ∃ status c, b.tick timeStep = .ok (status, c) := by
  have hdrawable : ∀ r kind scope lo hi, hulk.treeSources scouting (.leaf r kind) scope →
      kind.range? = some (lo, hi) → Drawable lo hi := by
    intro r kind scope lo hi h hrange
    rcases mentions_scouting h with h | h | h
    · cases h
    · cases h
      cases hrange
      decide +kernel
    · cases h
      cases hrange
      decide +kernel
  exact ⟨hdrawable, (agent_run hulk {} scouting default).2 hdrawable⟩

/-! ## Ranges that are too wide -/

/-- A ship cannot be built to circle at a distance from too wide a range. -/
theorem agent_of_not_drawable (o : Outfit) (scene : Scene) (unseeded : Purpose → Dice)
    {lo hi : Float32} (h : ¬Drawable lo hi) :
    o.agent scene { root := some (.leaf .always (.flyAroundMothership lo hi)) } unseeded =
      .error .rangeOverflow := by
  have hroll : LeafKind.roll (.flyAroundMothership lo hi) (o.builder unseeded).dice =
      .error .rangeOverflow := Dice.inRange_of_not_drawable _ h
  simp only [Drawable, Classical.not_imp] at h
  have hfinite : ∀ x ∈ LeafKind.parameters (.flyAroundMothership lo hi), x.isFinite = true := by
    simp [LeafKind.parameters, h]
  rw [agent, o.buildTree_leaf _ _ hfinite, hroll]
  rfl

/-- A ship that is in the scene and has no target cannot be made to search for one with a cooldown
from too wide a range, though it can be built to do so. -/
theorem tick_of_not_drawable (o : Outfit) (scene : Scene) (unseeded : Purpose → Dice)
    {lo hi : Float32} {own : ShipState} (hown : scene.ship? o.ship = some own) (h : ¬Drawable lo hi)
    (timeStep : Float32) :
    ∃ a, o.agent scene { root := some (.leaf .always (.findEnemy lo hi false false)) } unseeded =
        .ok a ∧ a.tick timeStep = .error .rangeOverflow := by
  have hrange := h
  simp only [Drawable, Classical.not_imp] at hrange
  obtain ⟨hlo, hhi, hlt, -⟩ := hrange
  have hfinite : ∀ x ∈ LeafKind.parameters (.findEnemy lo hi false false), x.isFinite = true := by
    simp [LeafKind.parameters, hlo, hhi]
  rw [agent, o.buildTree_leaf _ _ hfinite]
  refine ⟨_, rfl, ?_⟩
  have hsearch : ∀ c : Context, c.own? = some own → c.memory.target = none →
      (FindEnemy.create lo hi false false o.droneRange?).tick c = .error .rangeOverflow := by
    intro c hc htarget
    have hdraw : c.randomRange lo (maximum hi lo) = .error .rangeOverflow := by
      rw [maximum_of_lt hlo hhi hlt]
      exact Dice.inRange_of_not_drawable c h
    rw [FindEnemy.tick, hc]
    simp [FindEnemy.current?, htarget, FindEnemy.create, hdraw]
  let c := Context.create o.ship o.loadout scene (o.dice unseeded .runtime)
  simp only [Agent.tick, fit, Node.tick, Behavior.tick, Leaf.tick]
  rw [hsearch ((c.advance timeStep).command Controls.beginTick) hown rfl]
  rfl

/-- Finite parameters alone do not keep an evaluation from being abandoned: neither a build nor a
tick of what has been built. -/
theorem agent_wide_range :
    hulk.agent {} { root := some (.leaf .always (.flyAroundMothership (-3e38) 3e38)) } default =
        .error .rangeOverflow ∧
      ∃ a, hulk.agent (Scene.addShip {} (.create ⟨1⟩ .zero) 0)
          { root := some (.leaf .always (.findEnemy (-3e38) 3e38 false false)) } default = .ok a ∧
        a.tick 1 = .error .rangeOverflow := by
  have hwide : ¬Drawable (-3e38) 3e38 := by decide +kernel
  exact ⟨hulk.agent_of_not_drawable {} default hwide,
    hulk.tick_of_not_drawable _ default rfl hwide 1⟩

end Outfit

end Helm
