import Helm.Proofs.Pilot.Assembly

/-!
# Helm.Proofs.Pilot.NormalForm

Every tree that is built is in normal form, at any depth (`build_normal`). Besides the shape of each
node this covers the numbers in it: a definition with a number that is not finite is not built, and
what is computed from finite numbers on the way into a leaf is finite again.
-/

namespace Helm

/-! ## Numbers in a tree -/

/-- The numbers that an action has from its definition. -/
def Action.numbers : Action → List Float32
  | lookForSecondaryTargets cooldown => [cooldown]
  | lookForThreats cooldown _ => [cooldown]
  | moveToAttackRange share multiplier => [share, multiplier]
  | maintainAttackRange share tolerance => [share, tolerance]
  | isWithinAttackRange share => [share]
  | flyAroundMothership radius => [radius]
  | haveIncomingThreat timeToCollision => [timeToCollision]
  | haveEnoughEnergy failIfLess => [failIfLess]
  | rechargeEnergy failIfLess restoreUntil => [failIfLess, restoreUntil]
  | isLowOnHp minValue => [minValue]
  | mothershipLowHp minValue => [minValue]
  | _ => []

/-- The numbers that a leaf has from its definition. -/
def Leaf.numbers : Leaf → List Float32
  | findEnemy search => [search.minCooldown, search.maxCooldown, search.cooldown]
  | wait w => [w.cooldown]
  | action a => a.numbers
  | _ => []

/-- The numbers that a node of a ship's tree has from its definition. -/
def ShipNode.numbers : ShipNode → List Float32
  | .leaf l => l.numbers
  | .randomSelector wheel _ => [wheel.cooldown]
  | _ => []

namespace Outfit

/-- Every number in the node is finite. -/
def Finite (node : ShipNode) : Prop := ∀ x ∈ ShipNode.numbers node, x.isFinite = true

theorem finite_of_numbers {node : ShipNode} (h : ShipNode.numbers node = []) : Finite node := by
  intro x hx
  rw [h] at hx
  cases hx

theorem finite_pair {x y : Float32} :
    (∀ z ∈ [x, y], z.isFinite = true) ↔ x.isFinite = true ∧ y.isFinite = true := by
  simp

/-- What is computed on the way from a definition into a leaf stays finite. -/
theorem finite_fit (o : Outfit) {kind : LeafKind} {dice rest : Dice} {roll : Float32}
    (h : ∀ x ∈ kind.parameters, x.isFinite = true) (hroll : kind.roll dice = .ok (roll, rest)) :
    Finite (o.fit roll kind) := by
  have hzero : (0 : Float32).isFinite = true := by decide
  have hone : (1 : Float32).isFinite = true := by decide
  have hnone : Finite .alwaysFailure := finite_of_numbers rfl
  cases kind with
  | findEnemy lo hi inAttackRange ignoreDrones =>
    obtain ⟨hlo, hhi⟩ := finite_pair.mp h
    have hmax := Single.isFinite_maximum hhi hlo
    exact List.forall_mem_cons.mpr ⟨hlo, finite_pair.mpr ⟨hmax, hzero⟩⟩
  | moveToAttackRange share multiplier =>
    obtain ⟨hshare, hmultiplier⟩ := finite_pair.mp h
    refine finite_pair.mpr ⟨hshare, ?_⟩
    split
    · exact hmultiplier
    · exact hone
  | maintainAttackRange share tolerance =>
    obtain ⟨hshare, htolerance⟩ := finite_pair.mp h
    exact finite_pair.mpr ⟨hshare, Single.isFinite_abs htolerance⟩
  | flyAroundMothership lo hi =>
    obtain ⟨hlo, -⟩ := finite_pair.mp h
    exact List.forall_mem_singleton.mpr (Dice.inRange_isFinite hlo hroll)
  | rechargeEnergy failIfLess restoreUntil =>
    obtain ⟨hfail, hrestore⟩ := finite_pair.mp h
    exact finite_pair.mpr ⟨hfail, Single.isFinite_maximum hrestore hfail⟩
  | selectWeapon => exact armed_cases hnone (finite_of_numbers rfl)
  | chargeWeapons => exact armed_cases hnone (finite_of_numbers rfl)
  | useRecoil => exact armed_cases hnone (finite_of_numbers rfl)
  | activateDevice => exact equipped_cases hnone (finite_of_numbers rfl)
  | defendWithFrontalShield => exact equipped_cases hnone (finite_of_numbers rfl)
  | trackControllableAmmo => exact capable_cases hnone fun _ => finite_of_numbers rfl
  | spawnDrones => exact capable_cases hnone fun _ => finite_of_numbers rfl
  | _ => exact h

theorem finite_of_standsFor {o : Outfit} {S : Sources} {node : ShipNode}
    (h : o.StandsFor S node) : Finite node := by
  cases node with
  | leaf l =>
    obtain ⟨r, kind, scope, dice, roll, rest, -, hparameters, hroll, hfit⟩ := h
    rw [← hfit]
    exact o.finite_fit hparameters hroll
  | randomSelector wheel children =>
    obtain ⟨r, mode, cooldown, choice, nodes, scope, -, hcooldown, rfl, -⟩ := h
    have hzero : (0 : Float32).isFinite = true := by decide
    exact List.forall_mem_singleton.mpr (Single.isFinite_maximum hcooldown hzero)
  | _ => exact finite_of_numbers rfl

end Outfit

/-! ## Construction that refuses an empty list -/

/-- As `assemble`, with the constructors that refuse a composite without children. -/
def GroupKind.assembleOf (policy : ParallelPolicy) :
    GroupKind → List ShipNode → Except Fault ShipNode
  | selector, children =>
    Collapse.unwrapOf .alwaysFailure Node.selectorOf (Collapse.keep .failure .success children)
  | sequence, children =>
    Collapse.unwrapOf .alwaysSuccess Node.sequenceOf (Collapse.keep .success .failure children)
  | parallel own, children =>
    Collapse.unwrapOf .alwaysSuccess (Node.parallelOf (own.getD policy)) children
  | random mode cooldown choice, children =>
    Collapse.unwrapOf .alwaysFailure (Node.randomOf cooldown mode choice) children

theorem GroupKind.assembleOf_eq (policy : ParallelPolicy) (kind : GroupKind)
    (children : List ShipNode) :
    kind.assembleOf policy children = .ok (kind.assemble policy children) := by
  cases kind with
  | selector => exact Collapse.unwrapOf_ofChildren _ _ _ _
  | sequence => exact Collapse.unwrapOf_ofChildren _ _ _ _
  | parallel own => exact Collapse.unwrapOf_ofChildren _ _ _ _
  | random mode cooldown choice => exact Collapse.unwrapOf_ofChildren _ _ _ _

namespace Outfit

/-- The node is in normal form, has the children that its source lists, and holds no number that is
not finite. -/
structure Normal (o : Outfit) (S : Sources) (node : ShipNode) : Prop where
  tidy : node.Tidy
  source : o.StandsFor S node
  finite : Finite node

/-- What is built is in normal form at every depth, and putting children together is never refused
for want of children. -/
theorem build_normal (o : Outfit) (node : Option NodeDefinition) (b : Builder) :
    Yields (· = .rangeOverflow)
        (fun r => r.1.Everywhere (o.Normal (o.Mentions node b.policy))) (o.build node b) ∧
      ∀ policy (kind : GroupKind) children,
        kind.assembleOf policy children = .ok (kind.assemble policy children) := by
  refine ⟨?_, GroupKind.assembleOf_eq⟩
  refine ((o.builtFrom_build node b).weaken fun _ h => h.1).mono fun r hr => hr.mono ?_
  exact fun _ h => ⟨h.1, h.2, finite_of_standsFor h.2⟩

end Outfit

end Helm
