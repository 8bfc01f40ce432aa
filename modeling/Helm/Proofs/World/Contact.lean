import Helm.Proofs.Number.Exact
import Helm.World.Threat
import Mathlib.Algebra.QuadraticDiscriminant
import Mathlib.Analysis.Real.Sqrt

/-!
# Helm.Proofs.World.Contact

The first contact of two moving discs, predicted exactly. The square of the distance between their
centres less the square of the sum of their radii is a quadratic in time, and the discs touch while
it is not positive, which is between its roots (`quadratic_nonpos_iff`). When the discs are apart
now, both roots lie ahead or both lie behind (`roots_mul_pos`): either the smaller one is the first
contact, or there is none to come (`timeToHit?_isLeast`).
-/

namespace Helm

open Exact

/-! ## Quadratics -/

section Quadratic

variable {a b c s t : ℝ}

theorem quadratic_pos_iff (ha : 0 < a) (b c t : ℝ) :
    0 < a * (t * t) + b * t + c ↔ discrim a b c < (2 * a * t + b) ^ 2 := by
  have hsquare : 4 * a * (a * (t * t) + b * t + c) = (2 * a * t + b) ^ 2 - discrim a b c := by
    rw [discrim]
    ring
  rw [← mul_pos_iff_of_pos_left (by linarith : 0 < 4 * a), hsquare, sub_pos]

theorem quadratic_nonpos_iff (ha : 0 < a) (hs : 0 ≤ s) (hdiscrim : discrim a b c = s * s) :
    a * (t * t) + b * t + c ≤ 0 ↔ (-b - s) / (2 * a) ≤ t ∧ t ≤ (-b + s) / (2 * a) := by
  have h2a : 0 < 2 * a := by linarith
  rw [← not_lt, quadratic_pos_iff ha, not_lt, hdiscrim, ← sq, sq_le_sq, abs_of_nonneg hs, abs_le,
    div_le_iff₀ h2a, le_div_iff₀ h2a]
  constructor <;> rintro ⟨hlow, hhigh⟩ <;> constructor <;> linarith

theorem roots_mul_pos (ha : 0 < a) (hc : 0 < c) (hdiscrim : discrim a b c = s * s) :
    0 < (-b - s) / (2 * a) * ((-b + s) / (2 * a)) := by
  have hproduct : (-b - s) / (2 * a) * ((-b + s) / (2 * a)) = c / a := by
    rw [discrim] at hdiscrim
    field_simp
    linarith
  rw [hproduct]
  exact div_pos hc ha

end Quadratic

/-! ## Contact -/

namespace Disc

variable {ship unit : Disc ℚ} {horizon : ℚ} {τ : ℝ}

/-- The discs touch after both have kept their velocity for so long: `|p + v τ| ≤ r`, where `p` and
`v` are the position and velocity of the unit relative to the ship and `r` is the sum of the
radii. -/
def TouchesAt (ship unit : Disc ℚ) (τ : ℝ) : Prop :=
  let p := unit.position - ship.position
  let v := unit.velocity - ship.velocity
  √((p.x + v.x * τ) ^ 2 + (p.y + v.y * τ) ^ 2) ≤ ((unit.radius + ship.radius : ℚ) : ℝ)

/-- The times from now up to the horizon at which the discs touch. -/
def contacts (horizon : ℚ) (ship unit : Disc ℚ) : Set ℝ :=
  {τ | 0 ≤ τ ∧ τ ≤ horizon ∧ TouchesAt ship unit τ}

/-- The square of the relative speed. -/
def speedSquared (ship unit : Disc ℚ) : ℚ := (unit.velocity - ship.velocity).lengthSquared

/-- Twice the inner product of relative position and velocity, negative while the discs approach. -/
def parting (ship unit : Disc ℚ) : ℚ :=
  2 * (unit.position - ship.position).dot (unit.velocity - ship.velocity)

/-- The square of the distance less that of the sum of the radii. -/
def clearance (ship unit : Disc ℚ) : ℚ :=
  (unit.position - ship.position).lengthSquared -
    (unit.radius + ship.radius) * (unit.radius + ship.radius)

/-- What a root is taken of in a prediction. -/
def discriminant (ship unit : Disc ℚ) : ℚ :=
  parting ship unit * parting ship unit - 4 * speedSquared ship unit * clearance ship unit

def firstRoot (ship unit : Disc ℚ) : ℚ :=
  (-parting ship unit - Scalar.sqrt (discriminant ship unit)) / (2 * speedSquared ship unit)

def lastRoot (ship unit : Disc ℚ) : ℚ :=
  (-parting ship unit + Scalar.sqrt (discriminant ship unit)) / (2 * speedSquared ship unit)

theorem timeToHit?_eq (horizon : ℚ) (ship unit : Disc ℚ) :
    timeToHit? horizon ship unit =
      if clearance ship unit ≤ 0 then some 0
      else if speedSquared ship unit ≤ Scalar.epsilon then none
      else if discriminant ship unit < 0 then none
      else if 0 ≤ firstRoot ship unit ∧ firstRoot ship unit ≤ horizon then
        some (firstRoot ship unit)
      else none := by
  have hrange : (Scalar.le 0 (firstRoot ship unit) && Scalar.le (firstRoot ship unit) horizon) =
      true ↔ 0 ≤ firstRoot ship unit ∧ firstRoot ship unit ≤ horizon := by
    rw [Bool.and_eq_true, le_iff, le_iff]
  exact if_congr le_iff rfl (if_congr le_iff rfl (if_congr lt_iff rfl (if_congr hrange rfl rfl)))

theorem touchesAt_iff (hreach : 0 ≤ unit.radius + ship.radius) :
    TouchesAt ship unit τ ↔
      (speedSquared ship unit : ℝ) * (τ * τ) + parting ship unit * τ + clearance ship unit ≤ 0 := by
  rw [TouchesAt, Real.sqrt_le_left (Rat.cast_nonneg.mpr hreach), ← sub_nonpos]
  refine iff_of_eq (congrArg (· ≤ 0) ?_)
  simp only [speedSquared, parting, clearance, Vec2.lengthSquared, Vec2.dot]
  push_cast
  ring

theorem cast_discriminant (ship unit : Disc ℚ) :
    (discriminant ship unit : ℝ) =
      discrim (speedSquared ship unit : ℝ) (parting ship unit) (clearance ship unit) := by
  rw [discriminant, discrim]
  push_cast
  ring

theorem touchesAt_zero_iff (hreach : 0 ≤ unit.radius + ship.radius) :
    TouchesAt ship unit 0 ↔ clearance ship unit ≤ 0 := by
  rw [touchesAt_iff hreach, mul_zero, mul_zero, mul_zero, zero_add, zero_add]
  exact Rat.cast_nonpos

theorem not_touchesAt_of_discriminant_neg (hreach : 0 ≤ unit.radius + ship.radius)
    (hmoves : 0 < speedSquared ship unit) (h : discriminant ship unit < 0) (τ : ℝ) :
    ¬TouchesAt ship unit τ := by
  have hdiscrim : discrim (speedSquared ship unit : ℝ) (parting ship unit) (clearance ship unit) <
      0 := by
    rw [← cast_discriminant]
    exact Rat.cast_lt_zero.mpr h
  rw [touchesAt_iff hreach, not_le, quadratic_pos_iff (Rat.cast_pos.mpr hmoves)]
  exact hdiscrim.trans_le (sq_nonneg _)

section Roots

variable (hreach : 0 ≤ unit.radius + ship.radius) (hmoves : 0 < speedSquared ship unit)
  (hsquare : IsSquare (discriminant ship unit))

include hsquare in
theorem discrim_eq_sqrt_mul_self :
    discrim (speedSquared ship unit : ℝ) (parting ship unit) (clearance ship unit) =
      (Scalar.sqrt (discriminant ship unit) : ℚ) * (Scalar.sqrt (discriminant ship unit) : ℚ) := by
  rw [← cast_discriminant, ← Rat.cast_mul, sqrt_mul_self hsquare]

include hmoves in
theorem firstRoot_le_lastRoot : firstRoot ship unit ≤ lastRoot ship unit := by
  have hsqrt := sqrt_nonneg (discriminant ship unit)
  exact div_le_div_of_nonneg_right (by linarith) (by linarith)

include hreach hmoves hsquare in
theorem touchesAt_iff_between :
    TouchesAt ship unit τ ↔ (firstRoot ship unit : ℝ) ≤ τ ∧ τ ≤ lastRoot ship unit := by
  have hsqrt : (0 : ℝ) ≤ (Scalar.sqrt (discriminant ship unit) : ℚ) :=
    Rat.cast_nonneg.mpr (sqrt_nonneg _)
  rw [touchesAt_iff hreach, quadratic_nonpos_iff (Rat.cast_pos.mpr hmoves) hsqrt
    (discrim_eq_sqrt_mul_self hsquare), firstRoot, lastRoot]
  push_cast
  rfl

include hmoves hsquare in
/-- Discs that are apart will not touch once the first contact is past. -/
theorem lastRoot_neg (hapart : 0 < clearance ship unit) (hpast : firstRoot ship unit < 0) :
    lastRoot ship unit < 0 := by
  have hproduct := roots_mul_pos (Rat.cast_pos.mpr hmoves) (Rat.cast_pos.mpr hapart)
    (discrim_eq_sqrt_mul_self hsquare)
  have hproduct : 0 < firstRoot ship unit * lastRoot ship unit := by
    rw [firstRoot, lastRoot]
    exact_mod_cast hproduct
  exact neg_of_mul_pos_right hproduct hpast.le

end Roots

/-- What is predicted is the first of the times, and nothing is predicted when there is none. -/
def Foretells (times : Set ℝ) : Option ℚ → Prop
  | some t => IsLeast times t
  | none => times = ∅

theorem Foretells.iff {times : Set ℝ} {prediction : Option ℚ} (h : Foretells times prediction) :
    ((∃ t, prediction = some t) ↔ times.Nonempty) ∧
      ∀ t, prediction = some t → IsLeast times (t : ℝ) := by
  cases prediction with
  | none =>
    subst h
    simp
  | some t => simpa using ⟨⟨_, h.1⟩, h⟩

theorem foretells_now (hreach : 0 ≤ unit.radius + ship.radius) (hhorizon : 0 ≤ horizon)
    (htouch : clearance ship unit ≤ 0) : Foretells (contacts horizon ship unit) (some 0) := by
  have hnow : (0 : ℝ) ∈ contacts horizon ship unit :=
    ⟨le_rfl, Rat.cast_nonneg.mpr hhorizon, (touchesAt_zero_iff hreach).mpr htouch⟩
  rw [Foretells, Rat.cast_zero]
  exact ⟨hnow, fun τ hτ => hτ.1⟩

/-- The discs are apart now, and touch at some time or other. -/
theorem foretells_firstRoot (hreach : 0 ≤ unit.radius + ship.radius)
    (hmoves : 0 < speedSquared ship unit) (hsquare : IsSquare (discriminant ship unit))
    (hapart : 0 < clearance ship unit) :
    Foretells (contacts horizon ship unit)
      (if 0 ≤ firstRoot ship unit ∧ firstRoot ship unit ≤ horizon then some (firstRoot ship unit)
        else none) := by
  have hbetween {τ : ℝ} : TouchesAt ship unit τ ↔
      firstRoot ship unit ≤ τ ∧ τ ≤ lastRoot ship unit :=
    touchesAt_iff_between hreach hmoves hsquare
  split
  · rename_i hrange
    have hfirst : TouchesAt ship unit (firstRoot ship unit) :=
      hbetween.mpr ⟨le_rfl, Rat.cast_le.mpr (firstRoot_le_lastRoot hmoves)⟩
    exact ⟨⟨Rat.cast_nonneg.mpr hrange.1, Rat.cast_le.mpr hrange.2, hfirst⟩,
      fun τ hτ => (hbetween.mp hτ.2.2).1⟩
  · rename_i hrange
    refine Set.eq_empty_iff_forall_notMem.mpr fun τ ⟨hfuture, hhorizon, htouch⟩ => hrange ?_
    obtain ⟨hlow, hhigh⟩ := hbetween.mp htouch
    refine ⟨?_, Rat.cast_le.mp (hlow.trans hhorizon)⟩
    -- if the first root were behind, the last one would be too, but it is after `τ`
    by_contra hpast
    have hlast := lastRoot_neg hmoves hsquare hapart (not_le.mp hpast)
    exact absurd (hfuture.trans hhigh) (not_le.mpr (Rat.cast_lt_zero.mpr hlast))

theorem timeToHit?_foretells (hreach : 0 ≤ unit.radius + ship.radius) (hhorizon : 0 ≤ horizon)
    (hmoves : Scalar.epsilon < speedSquared ship unit ∨ TouchesAt ship unit 0)
    (hroot : discriminant ship unit < 0 ∨ IsSquare (discriminant ship unit)) :
    Foretells (contacts horizon ship unit) (timeToHit? horizon ship unit) := by
  rw [timeToHit?_eq]
  -- the cases are the exits of the prediction, in their order; the second one is ruled out
  split
  · rename_i htouch
    exact foretells_now hreach hhorizon htouch
  · rename_i hapart
    have hfast := hmoves.resolve_right (mt (touchesAt_zero_iff hreach).mp hapart)
    have hmoves := epsilon_pos.trans hfast
    rw [if_neg (not_le.mpr hfast)]
    split
    · rename_i hmisses
      exact Set.eq_empty_iff_forall_notMem.mpr fun τ hτ =>
        not_touchesAt_of_discriminant_neg hreach hmoves hmisses τ hτ.2.2
    · rename_i hmeets
      exact foretells_firstRoot hreach hmoves (hroot.resolve_left hmeets) (not_le.mp hapart)

/-- Computed exactly, a hit is predicted just when the discs touch at some time up to the horizon,
and the first such time is predicted. This leaves out discs that are apart and hardly move relative
to each other, and roots that are not rational. -/
theorem timeToHit?_isLeast (hship : 0 ≤ ship.radius) (hunit : 0 ≤ unit.radius)
    (hhorizon : 0 ≤ horizon)
    (hmoves : Scalar.epsilon < speedSquared ship unit ∨ TouchesAt ship unit 0)
    (hroot : discriminant ship unit < 0 ∨ IsSquare (discriminant ship unit)) :
    ((∃ t, timeToHit? horizon ship unit = some t) ↔ (contacts horizon ship unit).Nonempty) ∧
      ∀ t, timeToHit? horizon ship unit = some t →
        IsLeast (contacts horizon ship unit) (t : ℝ) :=
  (timeToHit?_foretells (add_nonneg hunit hship) hhorizon hmoves hroot).iff

/-- A disc at rest. -/
def target : Disc ℚ := ⟨⟨0, 0⟩, ⟨0, 0⟩, 1⟩

/-- A disc that flies at the other one a little off its centre. -/
def incoming : Disc ℚ := ⟨⟨10, 9 / 10⟩, ⟨-5, 0⟩, 1 / 2⟩

theorem timeToHit?_isLeast_incoming :
    timeToHit? 5 target incoming = some (44 / 25) ∧
      IsLeast (contacts 5 target incoming) ((44 / 25 : ℚ) : ℝ) := by
  have hpredicted : timeToHit? 5 target incoming = some (44 / 25) := by decide +kernel
  have hsquare : discriminant target incoming = 12 * 12 := by decide +kernel
  have hfast : Scalar.epsilon < speedSquared target incoming := by decide +kernel
  obtain ⟨-, hleast⟩ := @timeToHit?_isLeast target incoming 5 (by decide +kernel)
    (by decide +kernel) (by decide +kernel) (.inl hfast) (.inr ⟨12, hsquare⟩)
  exact ⟨hpredicted, hleast _ hpredicted⟩

end Disc

end Helm
