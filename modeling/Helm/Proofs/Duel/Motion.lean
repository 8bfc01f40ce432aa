import Helm.Duel.Play
import Helm.Proofs.World.Heading
import Helm.Proofs.World.Scene

/-!
# Helm.Proofs.Duel.Motion

How the ship of a duel comes round to its course. `turned?` is the rule by which it turns, written
for any arithmetic; in single precision it gives the rotation after a tick (`rotationAfter_eq`).
Computed exactly, the rule takes the ship the short way round, by as much as a tick leaves room for
and no further than to the course (`deltaAngle_turnTowards`, `turns_short_way`).
-/

namespace Helm.Duel

open Exact

/-- The rotation after a tick, unless there is no room to turn. -/
def turned? {α : Type} [Scalar α] (step rotation course : α) : Option α :=
  let most := Scalar.ofNat 180 * step
  if Scalar.le (-most) most then some (turnTowards most rotation course) else none

/-! ## Turns in single precision -/

theorem toOption_turned (step rotation course : Float32) :
    (turned step rotation course).toOption = turned? step rotation course := by
  have hle (x y : Float32) : Scalar.le x y = true ↔ x ≤ y := decide_eq_true_iff
  have hrate : turnRate = Scalar.ofNat 180 := rfl
  simp only [turned, turned?, hrate, hle]
  split <;> rfl

theorem steered_eq {controls : Controls} {course : Float32} (step : Float32) (ship : ShipState)
    (hcourse : controls.course = some course) :
    ∃ f : Float32 → ShipState, (∀ rotation, (f rotation).rotation = rotation) ∧
      steered step controls ship = (turned step ship.rotation course).map f := by
  refine ⟨fun rotation => drift step { ship with
    rotation := rotation
    velocity := (Vec2.ofHeading rotation).scale (controls.thrust * maxSpeed) }, fun _ => rfl, ?_⟩
  simp only [steered, hcourse]
  cases turned step ship.rotation course <;> rfl

theorem moveShips_eq {d : Duel} {me : ShipState} (step : Float32)
    (hown : d.scene.ship? ownShip = some me) :
    d.moveShips step = (steered step d.controls me).map fun moved =>
      (d.inScene (·.updateShip ownShip fun _ => moved)).inScene
        (·.updateShip targetShip (drift step)) := by
  simp only [moveShips, hown]
  cases steered step d.controls me <;> rfl

/-- The rotation of the ship once both ships have moved. -/
def rotationAfter (d : Duel) (step : Float32) : Option Float32 := do
  let next ← (d.moveShips step).toOption
  let me ← next.scene.ship? ownShip
  return me.rotation

theorem rotationAfter_eq {d : Duel} {me : ShipState} {course : Float32} (step : Float32)
    (hown : d.scene.ship? ownShip = some me) (hcourse : d.controls.course = some course) :
    d.rotationAfter step = turned? step me.rotation course := by
  obtain ⟨f, hf, hsteered⟩ := steered_eq step me hcourse
  rw [rotationAfter, moveShips_eq step hown, hsteered, ← toOption_turned]
  cases turned step me.rotation course with
  | error fault => rfl
  | ok rotation =>
    let scene := (d.scene.updateShip ownShip fun _ => f rotation).updateShip targetShip (drift step)
    have hfound : scene.ship? ownShip = some (f rotation) := by
      rw [Scene.ship?_updateShip, if_neg (by decide), Scene.ship?_updateShip, if_pos rfl, hown]
      rfl
    show (scene.ship? ownShip).bind (fun me => some me.rotation) = some rotation
    rw [hfound, Option.bind_some, hf]

/-! ## Exact turns -/

section Exact

variable {most : ℚ}

/-- What a turn by at most so many degrees leaves of an angle. -/
def remaining (most angle : ℚ) : ℚ := angle - Scalar.clamp (-most) most angle

theorem remaining_cases (hmost : 0 ≤ most) (angle : ℚ) :
    (angle < -most ∧ remaining most angle = angle + most) ∨
      (-most ≤ angle ∧ angle ≤ most ∧ remaining most angle = 0) ∨
      most < angle ∧ remaining most angle = angle - most := by
  rw [remaining, clamp_eq (neg_le_self hmost)]
  grind

theorem abs_remaining (hmost : 0 ≤ most) (angle : ℚ) :
    |remaining most angle| = max 0 (|angle| - most) := by
  rcases remaining_cases hmost angle with ⟨hleft, heq⟩ | ⟨hlow, hhigh, heq⟩ | ⟨hright, heq⟩
  · rw [heq, abs_of_neg (by linarith), abs_of_neg (by linarith), max_eq_right (by linarith)]
    ring
  · rw [heq, abs_zero, max_eq_left (by linarith [abs_le.mpr ⟨hlow, hhigh⟩])]
  · rw [heq, abs_of_pos (by linarith), abs_of_pos (by linarith), max_eq_right (by linarith)]

/-- A turn does not go on past the end of the angle. -/
theorem mul_remaining_nonneg (hmost : 0 ≤ most) (angle : ℚ) : 0 ≤ angle * remaining most angle := by
  rcases remaining_cases hmost angle with ⟨hleft, heq⟩ | ⟨-, -, heq⟩ | ⟨hright, heq⟩
  · rw [heq]
    exact mul_nonneg_of_nonpos_of_nonpos (by linarith) (by linarith)
  · rw [heq, mul_zero]
  · rw [heq]
    exact mul_nonneg (by linarith) (by linarith)

theorem turnTowards_eq (most rotation course : ℚ) :
    turnTowards most rotation course = Scalar.modulo (rotation +
      (deltaAngle rotation course - remaining most (deltaAngle rotation course))) 360 := by
  rw [remaining, sub_sub_cancel]
  rfl

theorem deltaAngle_turnTowards (hmost : 0 ≤ most) (rotation course : ℚ) :
    deltaAngle (turnTowards most rotation course) course =
      remaining most (deltaAngle rotation course) := by
  obtain ⟨⟨hlow, hhigh⟩, turns, hturns⟩ := deltaAngle_spec rotation course
  obtain ⟨wraps, hwraps⟩ := exists_modulo_eq (rotation +
    (deltaAngle rotation course - remaining most (deltaAngle rotation course))) fullTurn_pos
  rw [← turnTowards_eq] at hwraps
  refine deltaAngle_eq_iff.mpr ⟨?_, turns + wraps, ?_⟩
  -- what is left lies between zero and the old angle, so it needs no turn to be the short way
  · rcases remaining_cases hmost (deltaAngle rotation course) with
      ⟨hleft, heq⟩ | ⟨-, -, heq⟩ | ⟨hright, heq⟩ <;> rw [heq] <;> constructor <;> linarith
  · rw [hwraps]
    push_cast
    linarith

theorem turned?_eq {step : ℚ} (hstep : 0 < step) (rotation course : ℚ) :
    turned? step rotation course = some (turnTowards (180 * step) rotation course) := by
  have hroom : Scalar.le (-(180 * step)) (180 * step) = true := le_iff.mpr (by linarith)
  exact if_pos hroom

end Exact

/-- Computed exactly, the angle between two headings is the short way round, and in a tick the ship
turns that way as far as it can, but not past its course. The ship of a duel is moved by this rule,
computed in single precision. -/
theorem turns_short_way :
    (∀ start finish : ℚ, -180 < deltaAngle start finish ∧ deltaAngle start finish ≤ 180 ∧
      ∃ turns : ℤ, deltaAngle start finish = finish - start + turns * 360) ∧
    (∀ step rotation course : ℚ, 0 < step → ∃ next, turned? step rotation course = some next ∧
      0 ≤ next ∧ next < 360 ∧
      |deltaAngle next course| = max 0 (|deltaAngle rotation course| - 180 * step) ∧
      0 ≤ deltaAngle rotation course * deltaAngle next course) ∧
    ∀ (d : Duel) (me : ShipState) (course step : Float32),
      d.scene.ship? ownShip = some me → d.controls.course = some course →
      d.rotationAfter step = turned? step me.rotation course := by
  refine ⟨fun start finish => ?_, fun step rotation course hstep => ?_,
    fun d me course step hown hcourse => rotationAfter_eq step hown hcourse⟩
  · obtain ⟨⟨hlow, hhigh⟩, turns, hturns⟩ := deltaAngle_spec start finish
    refine ⟨hlow, hhigh, -turns, ?_⟩
    push_cast
    linarith
  · have hmost : 0 ≤ 180 * step := by linarith
    obtain ⟨hlow, hhigh⟩ : turnTowards (180 * step) rotation course ∈ Set.Ico 0 360 := by
      rw [turnTowards_eq]
      exact modulo_mem _ fullTurn_pos
    refine ⟨_, turned?_eq hstep rotation course, hlow, hhigh, ?_⟩
    rw [deltaAngle_turnTowards hmost]
    exact ⟨abs_remaining hmost _, mul_remaining_nonneg hmost _⟩

/-- A ship that is to turn left by a quarter. -/
def manoeuvre : Duel where
  agent := { context := (Context.create ownShip gunship (startingScene 20)
               (Dice.forShip 0 1 .runtime)).command fun controls => controls.steer 90 1
             root := .alwaysSuccess }

/-- Of the twenty degrees across zero, nine are made in the twentieth part of a second. -/
theorem turns_short_way_across_zero :
    (∃ next, turned? (1 / 20 : ℚ) 350 10 = some next ∧ |deltaAngle next 10| = 11) ∧
      manoeuvre.rotationAfter 0.05 = turned? 0.05 0 90 := by
  obtain ⟨-, hexact, hsingle⟩ := turns_short_way
  obtain ⟨next, hnext, -, -, hangle, -⟩ := hexact (1 / 20) 350 10 (by norm_num)
  have hangles : max 0 (|deltaAngle (350 : ℚ) 10| - 180 * (1 / 20)) = 11 := by decide +kernel
  have hown : manoeuvre.scene.ship? ownShip = some (.create ownShip .zero) := rfl
  have hcourse : manoeuvre.controls.course = some 90 := rfl
  exact ⟨⟨next, hnext, hangle.trans hangles⟩,
    hsingle manoeuvre (.create ownShip .zero) 90 0.05 hown hcourse⟩

end Helm.Duel
