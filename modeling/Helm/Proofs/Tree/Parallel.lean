import Helm.Proofs.Tree.Expression
import Helm.Proofs.Tree.History
import Mathlib.Data.List.Forall2

/-!
# Helm.Proofs.Tree.Parallel

Parallel nodes. A tick ticks all of the children, one after the other (`InTurn`), and gives what can
be said about the threshold while some of them are still running: success if it will be met however
they end, failure if it will be missed however they end, and running otherwise (`ThreeValued`).

* `tick_parallel`: a tick of a parallel node, and that better children never make it worse.
* `run_parallel`: the collapsing constructor follows the same rule over every run. It goes by the
  policy it is given, except that an only child has to succeed where no success is asked for
  (`effectivePolicy`, `run_parallel_alone`).
-/

namespace Helm

/-! ## Thresholds -/

namespace Status

/-- From the worst result to the best. -/
def worth : Status → Nat
  | failure => 0
  | running => 1
  | success => 2

instance : LE Status := ⟨fun s t => s.worth ≤ t.worth⟩

theorem le_iff (s t : Status) : s ≤ t ↔ s.worth ≤ t.worth := Iff.rfl

/-- How a child may end: one that is running either way, the others as they have. -/
inductive Resolves : Status → Status → Prop where
  | success : Resolves success success
  | failure : Resolves failure failure
  | succeeds : Resolves running success
  | fails : Resolves running failure

end Status

open Status (Resolves)

variable {statuses statuses' final : List Status} {status status' : Status} {needed : Nat}

/-- What is known of a threshold while some children are running. -/
structure ThreeValued (needed : Nat) (statuses : List Status) (status : Status) : Prop where
  success : status = .success ↔
    ∀ final, List.Forall₂ Resolves statuses final → needed ≤ final.count .success
  failure : status = .failure ↔
    ∀ final, List.Forall₂ Resolves statuses final → ¬needed ≤ final.count .success
  running : status = .running ↔
    (∃ final, List.Forall₂ Resolves statuses final ∧ needed ≤ final.count .success) ∧
      ∃ final, List.Forall₂ Resolves statuses final ∧ ¬needed ≤ final.count .success

theorem ThreeValued.unique (h : ThreeValued needed statuses status)
    (h' : ThreeValued needed statuses status') : status = status' := by
  cases status with
  | success => exact (h'.success.mpr (h.success.mp rfl)).symm
  | failure => exact (h'.failure.mpr (h.failure.mp rfl)).symm
  | running => exact (h'.running.mpr (h.running.mp rfl)).symm

theorem count_success_of_resolves (h : List.Forall₂ Resolves statuses final) :
    statuses.count .success ≤ final.count .success ∧
      final.count .success ≤ statuses.count .success + statuses.count .running := by
  induction h with
  | nil => simp
  | cons hs _ ih => cases hs <;> simp <;> omega

theorem exists_worst (statuses : List Status) : ∃ final, List.Forall₂ Resolves statuses final ∧
    final.count .success = statuses.count .success := by
  induction statuses with
  | nil => exact ⟨[], .nil, rfl⟩
  | cons s rest ih =>
    obtain ⟨final, hfinal, hcount⟩ := ih
    cases s with
    | success => exact ⟨_, .cons .success hfinal, by simp [hcount]⟩
    | failure => exact ⟨_, .cons .failure hfinal, by simp [hcount]⟩
    | running => exact ⟨_, .cons .fails hfinal, by simp [hcount]⟩

theorem exists_best (statuses : List Status) : ∃ final, List.Forall₂ Resolves statuses final ∧
    final.count .success = statuses.count .success + statuses.count .running := by
  induction statuses with
  | nil => exact ⟨[], .nil, rfl⟩
  | cons s rest ih =>
    obtain ⟨final, hfinal, hcount⟩ := ih
    cases s with
    | success => exact ⟨_, .cons .success hfinal, by simp [hcount]; omega⟩
    | failure => exact ⟨_, .cons .failure hfinal, by simp [hcount]⟩
    | running => exact ⟨_, .cons .succeeds hfinal, by simp [hcount]; omega⟩

theorem certain_iff : (∀ final, List.Forall₂ Resolves statuses final →
    needed ≤ final.count .success) ↔ needed ≤ statuses.count .success := by
  constructor
  · intro h
    obtain ⟨final, hfinal, hcount⟩ := exists_worst statuses
    rw [← hcount]
    exact h final hfinal
  · intro h final hfinal
    exact Nat.le_trans h (count_success_of_resolves hfinal).1

theorem possible_iff : (∃ final, List.Forall₂ Resolves statuses final ∧
    needed ≤ final.count .success) ↔
      needed ≤ statuses.count .success + statuses.count .running := by
  constructor
  · rintro ⟨final, hfinal, h⟩
    exact Nat.le_trans h (count_success_of_resolves hfinal).2
  · intro h
    obtain ⟨final, hfinal, hcount⟩ := exists_best statuses
    exact ⟨final, hfinal, hcount ▸ h⟩

/-- The rule by which statuses are aggregated when so many successes are needed. -/
def aggregate (needed : Nat) (statuses : List Status) : Status :=
  if needed ≤ statuses.count .success then .success
  else if needed ≤ statuses.count .success + statuses.count .running then .running
  else .failure

theorem verdict_eq_aggregate (policy : ParallelPolicy) (statuses : List Status) :
    policy.verdict statuses = aggregate (policy.required statuses.length) statuses := rfl

theorem aggregate_eq_success_iff (needed : Nat) (statuses : List Status) :
    aggregate needed statuses = .success ↔ needed ≤ statuses.count .success := by
  unfold aggregate
  split
  · simp [*]
  · split <;> simp [*]

theorem aggregate_eq_failure_iff (needed : Nat) (statuses : List Status) :
    aggregate needed statuses = .failure ↔
      ¬needed ≤ statuses.count .success + statuses.count .running := by
  unfold aggregate
  split
  · simp
    omega
  · split <;> simp [*]

theorem aggregate_threeValued (needed : Nat) (statuses : List Status) :
    ThreeValued needed statuses (aggregate needed statuses) := by
  have hsuccess := aggregate_eq_success_iff needed statuses
  have hfailure := aggregate_eq_failure_iff needed statuses
  rw [← certain_iff] at hsuccess
  rw [← possible_iff] at hfailure
  refine ⟨hsuccess, ?_, ?_⟩
  · rw [hfailure]
    push Not
    rfl
  · have hrunning : aggregate needed statuses = .running ↔
        ¬aggregate needed statuses = .failure ∧ ¬aggregate needed statuses = .success := by
      cases aggregate needed statuses <;> simp
    rw [hrunning, hfailure, hsuccess, not_not]
    push Not
    rfl

theorem count_mono (h : List.Forall₂ (· ≤ ·) statuses statuses') :
    statuses.count .success ≤ statuses'.count .success ∧
      statuses.count .success + statuses.count .running ≤
        statuses'.count .success + statuses'.count .running := by
  induction h with
  | nil => simp
  | @cons s s' _ _ hs _ ih =>
    rw [Status.le_iff] at hs
    cases s <;> cases s' <;> simp [Status.worth] at hs ⊢ <;> omega

theorem aggregate_mono (needed : Nat) (h : List.Forall₂ (· ≤ ·) statuses statuses') :
    aggregate needed statuses ≤ aggregate needed statuses' := by
  obtain ⟨hcertain, hpossible⟩ := count_mono h
  cases hs : aggregate needed statuses with
  | failure => exact Nat.zero_le _
  | running =>
    have hmay : ¬aggregate needed statuses = .failure := by simp [hs]
    have hmay' : ¬aggregate needed statuses' = .failure := by
      rw [aggregate_eq_failure_iff] at hmay ⊢
      omega
    cases hs' : aggregate needed statuses' with
    | failure => exact absurd hs' hmay'
    | running => exact Nat.le_refl _
    | success => exact Nat.le_succ _
  | success =>
    have hs' : aggregate needed statuses' = .success := by
      rw [aggregate_eq_success_iff] at hs ⊢
      omega
    rw [hs']
    exact Nat.le_refl _

theorem aggregate_singleton (status : Status) : aggregate 1 [status] = status := by
  cases status <;> rfl

/-- The policy that the collapsing constructor goes by. An only child stands for the node, and so it
has to succeed even where no success is asked for. -/
def effectivePolicy (policy : ParallelPolicy) (children : Nat) : ParallelPolicy :=
  if children = 1 ∧ policy = .requireCount 0 then .requireCount 1 else policy

theorem required_effectivePolicy_one (policy : ParallelPolicy) :
    (effectivePolicy policy 1).required 1 = 1 := by
  unfold effectivePolicy
  split
  · rfl
  · rename_i hsome
    cases policy with
    | requireAll => rfl
    | requireAny => rfl
    | requireCount count =>
      simp only [true_and, ParallelPolicy.requireCount.injEq] at hsome
      simp only [ParallelPolicy.required]
      omega

/-! ## Ticks -/

namespace Node

variable {L C : Type} [Behavior L C] [TickContext C]

/-- Every one of the children is ticked once, in the context that the one before it leaves. -/
inductive InTurn : List (Node L) → C → List Status → List (Node L) → C → Prop where
  | nil (c : C) : InTurn [] c [] [] c
  | cons {child next : Node L} {rest after : List (Node L)} {c c₁ c₂ : C} {status : Status}
      {statuses : List Status} : child.tick c = .ok (status, next, c₁) →
      InTurn rest c₁ statuses after c₂ →
      InTurn (child :: rest) c (status :: statuses) (next :: after) c₂

theorem InTurn.length {children after : List (Node L)} {c c' : C}
    (h : InTurn children c statuses after c') :
    statuses.length = children.length ∧ after.length = children.length := by
  induction h with
  | nil => exact ⟨rfl, rfl⟩
  | cons _ _ ih => simp [ih]

theorem tickAll_eq_ok_iff {children after : List (Node L)} {c c' : C} :
    tickAll children c = .ok (statuses, after, c') ↔ InTurn children c statuses after c' := by
  constructor
  · intro h
    induction children generalizing c statuses after with
    | nil =>
      cases h
      exact .nil _
    | cons child rest ih =>
      rw [tickAll] at h
      obtain ⟨⟨status, next, c₁⟩, hchild, h⟩ := bind_eq_ok.mp h
      obtain ⟨⟨statuses', after', c₂⟩, hrest, h⟩ := bind_eq_ok.mp h
      cases h
      exact .cons hchild (ih hrest)
  · intro h
    induction h with
    | nil => rfl
    | cons hchild _ ih => simp [tickAll, hchild, ih]

/-- Only a child can make the others miss their turn, by being abandoned itself. -/
theorem tickAll_eq_error_iff {children : List (Node L)} {c : C} {e : Fault} :
    tickAll children c = .error e ↔ ∃ front child back statuses after c₁,
      children = front ++ child :: back ∧ InTurn front c statuses after c₁ ∧
        child.tick c₁ = .error e := by
  constructor
  · intro h
    induction children generalizing c with
    | nil => cases h
    | cons child rest ih =>
      cases hchild : child.tick c with
      | error e' =>
        rw [tickAll, hchild] at h
        cases h
        exact ⟨[], child, rest, [], [], c, rfl, .nil c, hchild⟩
      | ok r =>
        obtain ⟨status, next, c₁⟩ := r
        cases hrest : tickAll rest c₁ with
        | ok r => simp [tickAll, hchild, hrest] at h
        | error e' =>
          simp only [tickAll, hchild, hrest, ok_bind, error_bind] at h
          cases h
          obtain ⟨front, last, back, statuses, after, c₂, rfl, hfront, hlast⟩ := ih hrest
          exact ⟨child :: front, last, back, status :: statuses, next :: after, c₂, rfl,
            .cons hchild hfront, hlast⟩
  · rintro ⟨front, child, back, statuses, after, c₁, rfl, hfront, hchild⟩
    induction hfront with
    | nil => simp [tickAll, hchild]
    | cons hfirst _ ih => simp [tickAll, hfirst, ih hchild]

theorem InTurn.parallel {children after : List (Node L)} {c c' : C}
    (h : InTurn children c statuses after c') (policy : ParallelPolicy) :
    tick (.parallel policy children) c =
      .ok (aggregate (policy.required children.length) statuses, .parallel policy after, c') := by
  simp [tick, tickAll_eq_ok_iff.mpr h, verdict_eq_aggregate, h.length.1]

/-- A tick of a parallel node ticks every child once and in order, whatever the others give, and
gives what is known of the threshold; it is abandoned only where a child is. Children that give
better statuses never make it give a worse one. -/
theorem tick_parallel (policy : ParallelPolicy) (children : List (Node L)) (c : C) :
    (∀ e, tick (parallel policy children) c = .error e ↔
      ∃ front child back statuses after c₁, children = front ++ child :: back ∧
        InTurn front c statuses after c₁ ∧ child.tick c₁ = .error e) ∧
    (∀ status node c', tick (parallel policy children) c = .ok (status, node, c') ↔
      ∃ statuses after, InTurn children c statuses after c' ∧ node = parallel policy after ∧
        ThreeValued (policy.required children.length) statuses status) ∧
    ∀ statuses after (c' : C), InTurn children c statuses after c' →
      ∀ (others : List (Node L)) (d : C) statuses' others' d',
      InTurn others d statuses' others' d' → List.Forall₂ (· ≤ ·) statuses statuses' →
      ∃ status status',
        tick (parallel policy children) c = .ok (status, parallel policy after, c') ∧
        tick (parallel policy others) d = .ok (status', parallel policy others', d') ∧
        status ≤ status' := by
  refine ⟨fun e => ?_, fun status node c' => ⟨fun h => ?_, ?_⟩, ?_⟩
  · rw [← tickAll_eq_error_iff, tick]
    cases tickAll children c <;> simp
  · rw [tick] at h
    obtain ⟨⟨statuses, after, c₁⟩, hall, h⟩ := bind_eq_ok.mp h
    cases h
    have hturns := tickAll_eq_ok_iff.mp hall
    refine ⟨statuses, after, hturns, rfl, ?_⟩
    rw [← hturns.length.1, verdict_eq_aggregate]
    exact aggregate_threeValued _ statuses
  · rintro ⟨statuses, after, hturns, rfl, hstatus⟩
    rw [hturns.parallel, (aggregate_threeValued _ statuses).unique hstatus]
  · intro statuses after c' hturns others d statuses' others' d' hturns' hbetter
    have hlength : children.length = others.length := by
      rw [← hturns.length.1, ← hturns'.length.1, hbetter.length_eq]
    refine ⟨_, _, hturns.parallel policy, hturns'.parallel policy, ?_⟩
    rw [hlength]
    exact aggregate_mono _ hbetter

/-- One child that fails, one that is running and one that succeeds. -/
def quorum : List (Node Script) :=
  [.leaf ⟨[.failure]⟩, .leaf ⟨[.running]⟩, .leaf ⟨[.success]⟩]

/-- Whether two of the three succeed is not known yet; with children that succeed in the place of
the others the answer is no worse. -/
theorem tick_parallel_quorum :
    ThreeValued 2 [.failure, .running, .success] .running ∧
      ∃ status node c,
        tick (parallel (.requireCount 2) trio) Stage.opening = .ok (status, node, c) ∧
          .running ≤ status := by
  have hquorum : InTurn quorum Stage.opening [.failure, .running, .success] quorum Stage.opening :=
    tickAll_eq_ok_iff.mp rfl
  have htrio : InTurn trio Stage.opening [.success, .success, .success] trio Stage.opening :=
    tickAll_eq_ok_iff.mp rfl
  have hbetter : List.Forall₂ (· ≤ ·) [Status.failure, .running, .success]
      [.success, .success, .success] := by
    simp [Status.le_iff, Status.worth]
  obtain ⟨-, hticks, hmono⟩ := tick_parallel (.requireCount 2) quorum Stage.opening
  constructor
  · obtain ⟨statuses, after, hturns, -, hvalue⟩ := (hticks .running _ _).mp rfl
    cases (tickAll_eq_ok_iff.mpr hquorum).symm.trans (tickAll_eq_ok_iff.mpr hturns)
    exact hvalue
  · obtain ⟨status, status', hstatus, hstatus', hle⟩ :=
      hmono _ _ _ hquorum trio Stage.opening _ _ _ htrio hbetter
    cases hstatus
    exact ⟨status', _, _, hstatus', hle⟩

/-! ## Runs -/

/-- What the children of a run show when each of them is ticked at every step: their statuses and
the context after them. -/
def rounds : List (C → C) → List (Node L) → C → List (Except Fault (List Status × C))
  | [], _, _ => []
  | change :: rest, children, c =>
    match tickAll children (change c) with
    | .error e => [.error e]
    | .ok (statuses, children, c) => .ok (statuses, c) :: rounds rest children c

/-- The node `make` builds from children ticks all of them, and needs so many successes. -/
def Aggregates (C : Type) [Behavior L C] [TickContext C] (need : Nat → Nat)
    (make : List (Node L) → Node L) : Prop :=
  ∀ children (c : C), (make children).tick c = (tickAll children c).map fun r =>
    (aggregate (need children.length) r.1, make r.2.1, r.2.2)

theorem Aggregates.run {need : Nat → Nat} {make : List (Node L) → Node L}
    (h : Aggregates C need make) (steps : List (C → C)) (children : List (Node L)) (c : C) :
    run steps (make children) c = (rounds steps children c).map (Except.map fun r =>
      (aggregate (need children.length) r.1, r.2)) := by
  induction steps generalizing children c with
  | nil => rfl
  | cons change rest ih =>
    rw [Node.run, rounds, h]
    cases hall : tickAll children (change c) with
    | error e => rfl
    | ok r =>
      obtain ⟨statuses, after, c'⟩ := r
      have hafter := (tickAll_eq_ok_iff.mp hall).length.2
      simp [ih, hafter]

theorem aggregates_parallel (policy : ParallelPolicy) :
    Aggregates C policy.required (parallel policy : List (Node L) → Node L) := by
  intro children c
  cases hall : tickAll children c with
  | error e => simp [tick, hall]
  | ok r => exact (tickAll_eq_ok_iff.mp hall).parallel policy

theorem aggregates_collapse_parallel (policy : ParallelPolicy) :
    Aggregates C (fun children => (effectivePolicy policy children).required children)
      (Collapse.parallel policy : List (Node L) → Node L) := by
  intro children c
  rcases Nat.lt_or_ge children.length 2 with hfew | htwo
  · cases children with
    | nil =>
      have hnone := Nat.le_zero.mp ((effectivePolicy policy 0).required_le 0)
      simp [Collapse.parallel, Collapse.unwrap, tick, tickAll, aggregate, hnone]
    | cons child rest =>
      obtain rfl : rest = [] := by
        rw [List.length_cons] at hfew
        exact List.eq_nil_of_length_eq_zero (by omega)
      dsimp only
      rw [List.length_singleton, required_effectivePolicy_one, Collapse.parallel, Collapse.unwrap,
        tickAll]
      cases child.tick c with
      | error e => rfl
      | ok r => simp [tickAll, aggregate_singleton, Collapse.parallel, Collapse.unwrap]
  · have hpolicy : effectivePolicy policy children.length = policy := by
      rw [effectivePolicy, if_neg]
      omega
    dsimp only
    rw [Collapse.parallel, unwrap_of_two htwo, hpolicy, aggregates_parallel]
    cases hall : tickAll children c with
    | error e => rfl
    | ok r =>
      have hafter : 2 ≤ r.2.1.length := by
        rw [(tickAll_eq_ok_iff.mp hall).length.2]
        exact htwo
      rw [map_ok, map_ok, Collapse.parallel, unwrap_of_two hafter]

/-- Over every run the node that the collapsing constructor builds gives at each tick what the rule
says of the statuses that its children give at that tick, and so it does what the plain node
does. -/
theorem run_parallel (policy : ParallelPolicy) (children : List (Node L)) (steps : List (C → C))
    (c : C) :
    let effective := effectivePolicy policy children.length
    run steps (Collapse.parallel policy children) c =
        (rounds steps children c).map (Except.map fun r =>
          (aggregate (effective.required children.length) r.1, r.2)) ∧
      run steps (Collapse.parallel policy children) c =
        run steps (.parallel effective children) c := by
  intro effective
  have hrule := (aggregates_collapse_parallel policy).run steps children c
  exact ⟨hrule, hrule.trans ((aggregates_parallel effective).run steps children c).symm⟩

/-- No success is needed, and still the node fails with its only child. -/
theorem run_parallel_alone :
    let children : List (Node Script) := [.leaf ⟨[.failure]⟩]
    let policy := ParallelPolicy.requireCount 0
    rounds [id] children Stage.opening = [.ok ([.failure], Stage.opening)] ∧
      aggregate (policy.required children.length) [.failure] = .success ∧
      run [id] (.parallel policy children) Stage.opening = [.ok (.success, Stage.opening)] ∧
      run [id] (Collapse.parallel policy children) Stage.opening =
        [.ok (.failure, Stage.opening)] :=
  ⟨rfl, rfl, rfl, rfl⟩

end Node
end Helm
