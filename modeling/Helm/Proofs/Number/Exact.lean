import Helm.Number.Scalar
import Mathlib.Data.Rat.Floor
import Mathlib.Data.Rat.Sqrt

/-!
# Helm.Proofs.Number.Exact

Rational numbers as scalars: a formula over them is computed without rounding. Only roots can be
inexact, and the root of a square is not (`sqrt_mul_self`). A remainder that has been moved up lies
between zero and the divisor (`modulo_mem`), whole multiples of the divisor away from the dividend
(`exists_modulo_eq`).
-/

namespace Helm.Exact

/-- The whole part of a number. -/
def truncate (q : ℚ) : ℤ := if 0 ≤ q then ⌊q⌋ else ⌈q⌉

instance : Scalar ℚ where
  ofNat n := n
  lt a b := decide (a < b)
  le a b := decide (a ≤ b)
  abs a := |a|
  sqrt := Rat.sqrt
  remainder a b := a - truncate (a / b) * b
  epsilon := 1 / 2 ^ 23

theorem ofNat_eq (n : Nat) : (Scalar.ofNat n : ℚ) = n := rfl

theorem lt_iff {a b : ℚ} : Scalar.lt a b = true ↔ a < b := decide_eq_true_iff

theorem le_iff {a b : ℚ} : Scalar.le a b = true ↔ a ≤ b := decide_eq_true_iff

theorem epsilon_pos : (0 : ℚ) < Scalar.epsilon := by
  show (0 : ℚ) < 1 / 2 ^ 23
  norm_num

theorem remainder_eq (a b : ℚ) : Scalar.remainder a b = a - truncate (a / b) * b := rfl

/-! ## Roots -/

theorem sqrt_nonneg (d : ℚ) : 0 ≤ Scalar.sqrt d := by
  show (0 : ℚ) ≤ Rat.sqrt d
  exact Rat.sqrt_nonneg d

theorem sqrt_mul_self {d : ℚ} (h : IsSquare d) : Scalar.sqrt d * Scalar.sqrt d = d := by
  obtain ⟨r, hr⟩ := h
  exact (Rat.exists_mul_self d).mp ⟨r, hr.symm⟩

/-! ## Bounds -/

theorem clamp_eq {lower upper : ℚ} (h : lower ≤ upper) (x : ℚ) :
    Scalar.clamp lower upper x = max lower (min upper x) := by
  simp only [Scalar.clamp, lt_iff]
  grind

/-! ## Remainders -/

theorem remainder_bounds (a : ℚ) {b : ℚ} (hb : 0 < b) :
    -b < Scalar.remainder a b ∧ Scalar.remainder a b < b := by
  have hmul : a / b * b = a := div_mul_cancel₀ a hb.ne'
  rw [remainder_eq, truncate]
  split
  · have hlow := Int.floor_le (a / b)
    have hhigh := Int.lt_floor_add_one (a / b)
    constructor <;> nlinarith
  · have hlow := Int.le_ceil (a / b)
    have hhigh := Int.ceil_lt_add_one (a / b)
    constructor <;> nlinarith

theorem modulo_eq (a : ℚ) {b : ℚ} (hb : 0 < b) :
    Scalar.modulo a b =
      if Scalar.remainder a b < 0 then Scalar.remainder a b + b else Scalar.remainder a b := by
  have habs : Scalar.abs b = b := abs_of_pos hb
  simp only [Scalar.modulo, lt_iff, ofNat_eq, Nat.cast_zero, habs]

theorem modulo_mem (a : ℚ) {b : ℚ} (hb : 0 < b) : Scalar.modulo a b ∈ Set.Ico 0 b := by
  obtain ⟨hlow, hhigh⟩ := remainder_bounds a hb
  rw [modulo_eq a hb]
  split
  · exact ⟨by linarith, by linarith⟩
  · exact ⟨by linarith, hhigh⟩

theorem exists_modulo_eq (a : ℚ) {b : ℚ} (hb : 0 < b) :
    ∃ n : ℤ, Scalar.modulo a b = a - n * b := by
  rw [modulo_eq a hb, remainder_eq]
  split
  · refine ⟨truncate (a / b) - 1, ?_⟩
    push_cast
    ring
  · exact ⟨truncate (a / b), rfl⟩

end Helm.Exact
