import Helm.Random.Dice
import Mathlib.Logic.Function.Basic

/-!
# Helm.Proofs.Random.Seed

Every step in the derivation of a seed can be taken back. Folding the high half down twice changes
nothing, because no bit is left after two shifts, and the factors are odd, so that they have
inverses modulo `2 ^ 64`. So a seed tells each of base, ship and stream apart once the other two are
given, and every word is the seed of some base (`streamSeed_separates`).
-/

namespace Helm

open Function

/-! ## Steps that can be taken back -/

theorem foldHigh_involutive : Involutive foldHigh := by
  intro x
  have hgone : x >>> 33 >>> 33 = 0 := by
    refine UInt64.toBitVec_inj.mp ?_
    show x.toBitVec >>> 33 >>> 33 = 0#64
    rw [← BitVec.shiftRight_add]
    exact BitVec.ushiftRight_eq_zero (by decide)
  rw [foldHigh, foldHigh, UInt64.shiftRight_xor, hgone, UInt64.xor_zero, UInt64.xor_assoc,
    UInt64.xor_self, UInt64.xor_zero]

theorem xor_involutive (mask : UInt64) : Involutive fun x => x ^^^ mask := by
  intro x
  show x ^^^ mask ^^^ mask = x
  rw [UInt64.xor_assoc, UInt64.xor_self, UInt64.xor_zero]

/-- A factor with an inverse loses nothing of what it multiplies. -/
theorem mul_bijective {factor inverse : UInt64} (h : factor * inverse = 1) :
    Bijective fun x => x * factor := by
  refine bijective_iff_has_inverse.mpr ⟨fun x => x * inverse, fun x => ?_, fun x => ?_⟩
  · show x * factor * inverse = x
    rw [UInt64.mul_assoc, h, UInt64.mul_one]
  · show x * inverse * factor = x
    rw [UInt64.mul_assoc, UInt64.mul_comm inverse, h, UInt64.mul_one]

/-- A ship's or stream's number with an invertible factor. -/
theorem widened_mul_injective {factor inverse : UInt64} (h : factor * inverse = 1) :
    Injective fun number : UInt32 => number.toUInt64 * factor :=
  (mul_bijective h).injective.comp fun _ _ => UInt32.toUInt64_inj.mp

/-! ## Seeds -/

/-- What becomes of base, ship and stream once they are mixed into one word. -/
def stir (mixed : UInt64) : UInt64 := foldHigh (foldHigh mixed * 0xff51afd7ed558ccd)

theorem streamSeed_eq_stir (base : UInt64) (ship stream : UInt32) :
    streamSeed base ship stream = stir (base ^^^ ship.toUInt64 * 0x517cc1b727220a95 ^^^
      stream.toUInt64 * 0x9e3779b97f4a7c15) :=
  rfl

theorem stir_bijective : Bijective stir := by
  have hfactor : (0xff51afd7ed558ccd : UInt64) * 0x4f74430c22a54005 = 1 := by decide
  exact foldHigh_involutive.bijective.comp
    ((mul_bijective hfactor).comp foldHigh_involutive.bijective)

/-- For each ship and stream every word is the seed of exactly one base, and no two ships and no two
streams have a seed in common. -/
theorem streamSeed_separates :
    (∀ ship stream, Bijective fun base => streamSeed base ship stream) ∧
      (∀ base stream, Injective fun ship => streamSeed base ship stream) ∧
      ∀ base ship, Injective fun stream => streamSeed base ship stream := by
  have hship : (0x517cc1b727220a95 : UInt64) * 0x2040003d780970bd = 1 := by decide
  have hstream : (0x9e3779b97f4a7c15 : UInt64) * 0xf1de83e19937733d = 1 := by decide
  simp only [streamSeed_eq_stir]
  refine ⟨fun ship stream => ?_, fun base stream => ?_, fun base ship => ?_⟩
  · exact stir_bijective.comp ((xor_involutive _).bijective.comp (xor_involutive _).bijective)
  · intro a b hab
    have hmixed := stir_bijective.injective hab
    exact widened_mul_injective hship
      ((UInt64.xor_right_inj base).mp ((UInt64.xor_left_inj _).mp hmixed))
  · intro a b hab
    have hmixed := stir_bijective.injective hab
    exact widened_mul_injective hstream ((UInt64.xor_right_inj _).mp hmixed)

end Helm
