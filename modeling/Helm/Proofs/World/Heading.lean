import Helm.Proofs.Number.Exact
import Helm.World.Vec2
import Mathlib.Algebra.Order.ToIntervalMod

/-!
# Helm.Proofs.World.Heading

The angle between two headings, computed exactly. It is the only rotation above -180 and up to 180
degrees that leads from the one to the other, give or take whole turns (`deltaAngle_eq_iff`).
-/

namespace Helm

open Exact

variable {start finish : ℚ}

theorem fullTurn_pos : (0 : ℚ) < 360 := by norm_num

theorem deltaAngle_eq_toIocMod (start finish : ℚ) :
    deltaAngle start finish = toIocMod fullTurn_pos (-180) (finish - start) := by
  obtain ⟨hlow, hhigh⟩ := modulo_mem (finish - start) fullTurn_pos
  obtain ⟨turns, hturns⟩ := exists_modulo_eq (finish - start) fullTurn_pos
  symm
  rw [toIocMod_eq_iff]
  have hdelta : deltaAngle start finish = if 180 < Scalar.modulo (finish - start) 360 then
      Scalar.modulo (finish - start) 360 - 360 else Scalar.modulo (finish - start) 360 :=
    if_congr lt_iff rfl rfl
  rw [hdelta]
  split
  · refine ⟨⟨by linarith, by linarith⟩, turns + 1, ?_⟩
    rw [hturns, zsmul_eq_mul]
    push_cast
    ring
  · refine ⟨⟨by linarith, by linarith⟩, turns, ?_⟩
    rw [hturns, zsmul_eq_mul]
    ring

theorem deltaAngle_eq_iff {x : ℚ} :
    deltaAngle start finish = x ↔
      x ∈ Set.Ioc (-180) 180 ∧ ∃ turns : ℤ, finish - start = x + turns * 360 := by
  have hend : (-180 : ℚ) + 360 = 180 := by norm_num
  simp only [deltaAngle_eq_toIocMod, toIocMod_eq_iff, zsmul_eq_mul, hend]

theorem deltaAngle_spec (start finish : ℚ) :
    (-180 < deltaAngle start finish ∧ deltaAngle start finish ≤ 180) ∧
      ∃ turns : ℤ, finish - start = deltaAngle start finish + turns * 360 :=
  deltaAngle_eq_iff.mp rfl

end Helm
