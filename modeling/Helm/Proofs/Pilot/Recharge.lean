import Helm.Pilot.Outfit
import Helm.Proofs.Number.Monotone
import Helm.Proofs.Pilot.Effect
import Helm.Proofs.Pilot.Recall

/-!
# Helm.Proofs.Pilot.Recharge

Holding back until energy is restored. A recharge has two bounds and keeps nothing but a flag in the
memory of the ship, which no other leaf touches. `Recharge.Ran` relates a context to the evaluations
there have been in it, and the flag is up when energy was below the lower bound at one of them and
has not reached the upper one since (`Recharge.Since`). This is an equivalence because no energy is
both too low and restored, whichever way round the bounds were given.
-/

namespace Helm
namespace Recharge

/-- The recharge that a definition with these bounds stands for. It restores at least as much as it
asks for. -/
def leaf (failIfLess restoreUntil : Float32) : Leaf :=
  .action (.rechargeEnergy failIfLess (Single.maximum restoreUntil failIfLess))

/-- The ship has less energy than the lower bound. -/
def Low (failIfLess : Float32) (c : Context) : Prop :=
  ∃ me, c.own? = some me ∧ me.energy < failIfLess

/-- The ship has as much energy as both bounds ask for. -/
def Full (failIfLess restoreUntil : Float32) (c : Context) : Prop :=
  ∃ me, c.own? = some me ∧ Single.maximum restoreUntil failIfLess ≤ me.energy

/-- At one of the turns energy was low, and at no later one it was full. -/
def Since (failIfLess restoreUntil : Float32) (past : List Turn) : Prop :=
  ∃ later turn earlier, past = later ++ turn :: earlier ∧ Low failIfLess turn.context ∧
    ∀ other ∈ later, ¬Full failIfLess restoreUntil other.context

/-- A context and the evaluations of the leaf there have been in it, the latest one first. In
between anything may happen to the context that leaves the flag alone. -/
inductive Ran (l : Leaf) : List Turn → Context → Prop where
  | start {c : Context} : c.memory.restoringEnergy = false → Ran l [] c
  | meanwhile {past : List Turn} {c c' : Context} :
      Ran l past c → c'.memory.restoringEnergy = c.memory.restoringEnergy → Ran l past c'
  | turn {past : List Turn} {c c' : Context} {status : Status} {next : Leaf} :
      Ran l past c → l.tick c = .ok (status, next, c') → Ran l (⟨c, status⟩ :: past) c'

variable {failIfLess restoreUntil : Float32} {past : List Turn} {turn : Turn} {c : Context}

theorem Ran.inScene {l : Leaf} (f : Scene → Scene) (h : Ran l past c) :
    Ran l past (c.inScene f) :=
  .meanwhile h rfl

theorem not_since_nil : ¬Since failIfLess restoreUntil [] := by
  rintro ⟨later, low, earlier, hpast, -⟩
  cases later <;> cases hpast

/-- The latest turn decides, or leaves it to the ones before. -/
theorem since_cons :
    Since failIfLess restoreUntil (turn :: past) ↔ Low failIfLess turn.context ∨
      ¬Full failIfLess restoreUntil turn.context ∧ Since failIfLess restoreUntil past := by
  constructor
  · rintro ⟨later, low, earlier, hpast, hlow, hlater⟩
    cases later with
    | nil =>
      cases hpast
      exact .inl hlow
    | cons first later =>
      cases hpast
      obtain ⟨hfirst, hlater⟩ := List.forall_mem_cons.mp hlater
      exact .inr ⟨hfirst, later, low, earlier, rfl, hlow, hlater⟩
  · rintro (hlow | ⟨hfull, later, low, earlier, rfl, hlow, hlater⟩)
    · exact ⟨[], turn, past, rfl, hlow, fun _ h => absurd h List.not_mem_nil⟩
    · exact ⟨turn :: later, low, earlier, rfl, hlow, List.forall_mem_cons.mpr ⟨hfull, hlater⟩⟩

theorem Low.not_full (h : Low failIfLess c) : ¬Full failIfLess restoreUntil c := by
  rintro ⟨me, hown, hfull⟩
  obtain ⟨me', hown', hlow⟩ := h
  cases hown.symm.trans hown'
  have hbound : failIfLess ≤ Single.maximum restoreUntil failIfLess :=
    Single.le_maximum_right restoreUntil (Single.isNaN_of_lt hlow).2
  exact Single.not_lt_of_le (Single.le_trans hbound hfull) hlow

/-! ## One evaluation -/

/-- The ship holds back when it is asked in this context: its energy is low, or was before and is
not restored yet. -/
def HoldsBack (failIfLess restoreUntil : Float32) (c : Context) : Prop :=
  Low failIfLess c ∨ ¬Full failIfLess restoreUntil c ∧ c.memory.restoringEnergy = true

/-- The status of an evaluation, and the context after it. -/
inductive Evaluates (failIfLess restoreUntil : Float32) (c : Context) :
    Status × Context → Prop where
  | absent (hown : c.own? = none) : Evaluates failIfLess restoreUntil c (.failure, c)
  | runs {me : ShipState} (hown : c.own? = some me) (h : HoldsBack failIfLess restoreUntil c) :
      Evaluates failIfLess restoreUntil c (.running, c.setRestoringEnergy true)
  | fails {me : ShipState} (hown : c.own? = some me) (h : ¬HoldsBack failIfLess restoreUntil c) :
      Evaluates failIfLess restoreUntil c (.failure, c.setRestoringEnergy false)

theorem setRestoringEnergy_self {restoring : Bool} (h : c.memory.restoringEnergy = restoring) :
    c.setRestoringEnergy restoring = c := by
  subst h
  rfl

theorem perform_evaluates (failIfLess restoreUntil : Float32) (c : Context) :
    Evaluates failIfLess restoreUntil c
      (Perform.rechargeEnergy failIfLess (Single.maximum restoreUntil failIfLess) c) := by
  rw [Perform.rechargeEnergy]
  cases hown : c.own? with
  | none => exact .absent hown
  | some me =>
    have hlow : Low failIfLess c ↔ me.energy < failIfLess := by simp [Low, hown]
    have hfull : Full failIfLess restoreUntil c ↔
        Single.maximum restoreUntil failIfLess ≤ me.energy := by simp [Full, hown]
    dsimp only
    cases hflag : c.memory.restoringEnergy with
    | true =>
      rw [if_pos rfl]
      split
      · rename_i henergy
        refine .fails hown ?_
        rintro (h | ⟨h, -⟩)
        · exact h.not_full (hfull.mpr henergy)
        · exact h (hfull.mpr henergy)
      · rename_i henergy
        have hruns := Evaluates.runs hown (.inr ⟨mt hfull.mp henergy, hflag⟩)
        rwa [setRestoringEnergy_self hflag] at hruns
    | false =>
      rw [if_neg Bool.false_ne_true]
      split
      · rename_i henergy
        exact .runs hown (.inl (hlow.mpr henergy))
      · rename_i henergy
        have hready : ¬HoldsBack failIfLess restoreUntil c := by
          simp [HoldsBack, hlow, henergy, hflag]
        have hfails := Evaluates.fails hown hready
        rwa [setRestoringEnergy_self hflag] at hfails

theorem tick_evaluates (failIfLess restoreUntil : Float32) (c : Context) :
    ∃ status c',
      (leaf failIfLess restoreUntil).tick c = .ok (status, leaf failIfLess restoreUntil, c') ∧
        Evaluates failIfLess restoreUntil c (status, c') :=
  ⟨_, _, rfl, perform_evaluates failIfLess restoreUntil c⟩

/-- An evaluation raises the flag when the ship holds back. Without the ship there is nothing to
see, and the flag stays. -/
theorem Evaluates.restoringEnergy_iff {r : Status × Context}
    (h : Evaluates failIfLess restoreUntil c r) :
    r.2.memory.restoringEnergy = true ↔ HoldsBack failIfLess restoreUntil c := by
  cases h with
  | absent hown => simp [HoldsBack, Low, Full, hown]
  | runs _ h => simp [Context.setRestoringEnergy, Context.remember, h]
  | fails _ h => simp [Context.setRestoringEnergy, Context.remember, h]

/-! ## Any number of evaluations -/

theorem Ran.restoringEnergy_iff (h : Ran (leaf failIfLess restoreUntil) past c) :
    c.memory.restoringEnergy = true ↔ Since failIfLess restoreUntil past := by
  induction h with
  | start hflag => simp [hflag, not_since_nil]
  | meanwhile _ hsame ih => rw [hsame, ih]
  | turn _ htick ih =>
    obtain ⟨status, c', htick', heval⟩ := tick_evaluates failIfLess restoreUntil _
    cases htick.symm.trans htick'
    rw [since_cons, ← ih]
    exact heval.restoringEnergy_iff

/-- After any history the flag is up when energy was low at some evaluation and has not been full at
any later one. The next evaluation runs when the flag is up after it and fails when it is down; with
the ship gone it fails and changes nothing. As long as the flag is up no check finds enough energy,
and no other leaf raises or lowers it. -/
theorem recharge_turns (o : Outfit) (roll failIfLess restoreUntil : Float32) {past : List Turn}
    {c : Context} (h : Ran (leaf failIfLess restoreUntil) past c) :
    o.fit roll (.rechargeEnergy failIfLess restoreUntil) = .leaf (leaf failIfLess restoreUntil) ∧
      (c.memory.restoringEnergy = true ↔ Since failIfLess restoreUntil past) ∧
      (∃ status c',
        (leaf failIfLess restoreUntil).tick c = .ok (status, leaf failIfLess restoreUntil, c') ∧
        (c'.memory.restoringEnergy = true ↔
          Since failIfLess restoreUntil (⟨c, status⟩ :: past)) ∧
        (c.own? ≠ none → (status = .running ↔ c'.memory.restoringEnergy = true) ∧
          (status = .failure ↔ c'.memory.restoringEnergy = false)) ∧
        (c.own? = none → status = .failure ∧ c' = c)) ∧
      (c.memory.restoringEnergy = true → ∀ bound, ∃ l : Leaf,
        o.fit roll (.haveEnoughEnergy bound) = .leaf l ∧ l.tick c = .ok (.failure, l, c)) ∧
      ∀ l next c' status, (∀ f u, l ≠ .action (.rechargeEnergy f u)) →
        Leaf.tick l c = .ok (status, next, c') →
        c'.memory.restoringEnergy = c.memory.restoringEnergy := by
  obtain ⟨status, c', htick, heval⟩ := tick_evaluates failIfLess restoreUntil c
  refine ⟨rfl, h.restoringEnergy_iff,
    ⟨status, c', htick, (h.turn htick).restoringEnergy_iff, ?_, ?_⟩,
    fun hflag bound => ⟨.action (.haveEnoughEnergy bound), rfl, ?_⟩, ?_⟩
  · intro hown
    cases heval with
    | absent hnone => exact absurd hnone hown
    | runs => simp [Context.setRestoringEnergy, Context.remember]
    | fails => simp [Context.setRestoringEnergy, Context.remember]
  · intro hnone
    cases heval with
    | absent => exact ⟨rfl, rfl⟩
    | runs hown => simp [hnone] at hown
    | fails hown => simp [hnone] at hown
  · simp [Leaf.tick, Action.perform, Perform.haveEnoughEnergy, hflag]
  · intro l next c' status hl htick
    exact (Leaf.spares_of_tick htick).restoringEnergy hl

/-- A ship with so much energy, alone in the scene. -/
def drained (energy : Float32) : Context :=
  let me : ShipState := { ShipState.create ⟨1⟩ .zero with energy := energy }
  .create ⟨1⟩ {} (({} : Scene).addShip me 0) (Dice.forShip 0 1 .runtime)

/-- Half of its energy would do for a ship that has never run low, but not for one that has. -/
theorem recharge_turns_recovering : ∃ (o : Outfit) (c c' : Context),
    Ran (leaf 0.25 0.75) [⟨drained 0.125, .running⟩] c ∧ c.scene = (drained 0.5).scene ∧
      (leaf 0.25 0.75).tick c = .ok (.running, leaf 0.25 0.75, c') ∧
      ∃ l : Leaf, o.fit 0 (.haveEnoughEnergy 0.25) = .leaf l ∧ l.tick c = .ok (.failure, l, c) := by
  let o : Outfit := { ship := ⟨1⟩, loadout := {} }
  let first : Context := (drained 0.125).setRestoringEnergy true
  let c : Context := first.inScene fun _ => (drained 0.5).scene
  have hfirst : (leaf 0.25 0.75).tick (drained 0.125) = .ok (.running, leaf 0.25 0.75, first) := by
    decide +kernel
  have hran : Ran (leaf 0.25 0.75) [⟨drained 0.125, .running⟩] c :=
    .inScene _ (.turn (.start rfl) hfirst)
  obtain ⟨-, hflag, ⟨status, c', htick, hafter, hstatus, -⟩, henough, -⟩ :=
    recharge_turns o 0 0.25 0.75 hran
  have hlow : Low 0.25 (drained 0.125) := ⟨_, rfl, by decide +kernel⟩
  have hsince : Since 0.25 0.75 [⟨drained 0.125, .running⟩] :=
    ⟨[], _, [], rfl, hlow, fun _ h => absurd h List.not_mem_nil⟩
  have hnot : ¬Full 0.25 0.75 c := by
    rintro ⟨me, hown, hfull⟩
    cases hown
    exact absurd hfull (by decide +kernel)
  have hpresent : c.own? ≠ none := nofun
  obtain rfl := (hstatus hpresent).1.mpr (hafter.mpr (since_cons.mpr (.inr ⟨hnot, hsince⟩)))
  exact ⟨o, c, c', hran, rfl, htick, henough (hflag.mpr hsince) 0.25⟩

end Recharge
end Helm
