import Mathlib
import Helm.Number.Single

/-!
# Helm.Proofs.Number.Packing

Single precision numbers as a sign, a mantissa and an exponent. A number is `Rounded` when its
mantissa fits in 24 bits and is as large as the exponent's lower bound lets it be, and `InRange`
when its exponent does not exceed the largest one. Every bit pattern unpacks to such a number
(`rounded_unpack`, `inRange_unpack`), and packing a rounded number loses nothing but what is out of
range, which becomes infinite (`unpack_pack`).
-/

namespace Helm.Single

open Float.Model (Format UnpackedFloat)
open Float.Model.UnpackedFloat (Sign)

/-- The mantissa fits, and it is a full one unless the exponent is the least. -/
def Rounded : UnpackedFloat → Prop
  | .finite _ m e _ => m < 2 ^ 24 ∧ -149 ≤ e ∧ (e = -149 ∨ 2 ^ 23 ≤ m)
  | _ => True

/-- The exponent does not exceed the largest one. -/
def InRange : UnpackedFloat → Prop
  | .finite _ _ e _ => e ≤ 104
  | _ => True

/-- A number that is out of range becomes infinite. -/
def saturate : UnpackedFloat → UnpackedFloat
  | .finite s m e h => if e ≤ 104 then .finite s m e h else .infinity s
  | x => x

theorem saturate_of_inRange {x : UnpackedFloat} (h : InRange x) : saturate x = x := by
  cases x with
  | finite s m e hm => exact if_pos h
  | _ => rfl

/-- The number behind a bit pattern. -/
def unpack (bits : BitVec 32) : UnpackedFloat := UnpackedFloat.unpack .binary32 bits

/-- The bit pattern of a number. -/
def pack (x : UnpackedFloat) : BitVec 32 := UnpackedFloat.pack .binary32 x

/-! ## Unpacking -/

theorem toNat_ne_of_ne {w : Nat} {v u : BitVec w} (h : v ≠ u) : v.toNat ≠ u.toNat :=
  fun e => h (BitVec.eq_of_toNat_eq e)

/-- The leading bit of a mantissa is not part of the pattern. -/
theorem toNat_leading {w : Nat} (v : BitVec w) : (1#1 ++ v).toNat = 2 ^ w + v.toNat := by
  rw [BitVec.toNat_append, ← Nat.shiftLeft_add_eq_or_of_lt v.isLt, Nat.shiftLeft_eq]
  simp

theorem rounded_inRange_unpack (bits : BitVec 32) :
    Rounded (unpack bits) ∧ InRange (unpack bits) := by
  have hexponent := (@UnpackedFloat.unpackExponent .binary32 bits).isLt
  have hmantissa := (@UnpackedFloat.unpackMantissa .binary32 bits).isLt
  rw [unpack, UnpackedFloat.unpack]
  split
  · split <;> trivial
  · rename_i hmax
    have hmax := toNat_ne_of_ne hmax
    split
    · rename_i hzero
      split
      · trivial
      · simp [Rounded, InRange, hzero, Format.exponentBias] at *
        omega
    · rename_i hzero
      have hzero := toNat_ne_of_ne hzero
      simp only [Rounded, InRange, toNat_leading, Format.exponentBias]
      simp at *
      omega

theorem rounded_unpack (bits : BitVec 32) : Rounded (unpack bits) :=
  (rounded_inRange_unpack bits).1

theorem inRange_unpack (bits : BitVec 32) : InRange (unpack bits) :=
  (rounded_inRange_unpack bits).2

theorem toNat_unpackExponent (bits : BitVec 32) :
    (@UnpackedFloat.unpackExponent .binary32 bits).toNat =
      bits.toNat / 2 ^ 23 % 2 ^ 8 := by
  simp [UnpackedFloat.unpackExponent, Nat.shiftRight_eq_div_pow]

theorem toNat_unpackMantissa (bits : BitVec 32) :
    (@UnpackedFloat.unpackMantissa .binary32 bits).toNat = bits.toNat % 2 ^ 23 := by
  simp [UnpackedFloat.unpackMantissa]

theorem unpackSign_of_lt {bits : BitVec 32} (h : bits.toNat < 2 ^ 31) :
    @UnpackedFloat.unpackSign .binary32 bits = 0#1 := by
  apply BitVec.eq_of_toNat_eq
  simp [UnpackedFloat.unpackSign, Nat.shiftRight_eq_div_pow]
  omega

/-! ## Packing -/

theorem unpackSign_packComponents {spec : Format} (s : Sign) (e : BitVec spec.exponentBits)
    (m : BitVec spec.mantissaBitsWithoutImplicit) :
    UnpackedFloat.unpackSign (UnpackedFloat.packComponents spec s e m) = s.toBitVec := by
  ext i hi
  obtain rfl : i = 0 := by omega
  simp [UnpackedFloat.unpackSign, UnpackedFloat.packComponents, BitVec.getLsbD_append,
    BitVec.getElem_append]

theorem ofBitVec_toBitVec (s : Sign) : Sign.ofBitVec s.toBitVec = s := by
  cases s <;> rfl

theorem unpack_normal (s : Sign) {field m : Nat} (hfield : 0 < field) (hfield' : field < 255)
    (hm : 2 ^ 23 ≤ m) (hm' : m < 2 ^ 24) :
    unpack (UnpackedFloat.packComponents .binary32 s (.ofNat _ field) (.ofNat _ m)) =
      .finite s m (field - 150) (by omega) := by
  have hexponent : (BitVec.ofNat 8 field).toNat = field := by rw [BitVec.toNat_ofNat]; omega
  have hmantissa : (BitVec.ofNat 23 m).toNat = m - 2 ^ 23 := by rw [BitVec.toNat_ofNat]; omega
  have hmax : BitVec.ofNat 8 field ≠ -1#8 := by
    intro h
    rw [h] at hexponent
    simp at hexponent
    omega
  have hzero : BitVec.ofNat 8 field ≠ 0#8 := by
    intro h
    rw [h] at hexponent
    simp at hexponent
    omega
  simp only [unpack, UnpackedFloat.unpack, UnpackedFloat.unpackExponent_packComponents,
    UnpackedFloat.unpackMantissa_packComponents, unpackSign_packComponents, ofBitVec_toBitVec]
  rw [if_neg hmax, if_neg hzero]
  simp only [toNat_leading, hexponent, hmantissa, UnpackedFloat.finite.injEq, true_and]
  constructor
  · show 2 ^ 23 + (m - 2 ^ 23) = m
    omega
  · rfl

theorem unpack_subnormal (s : Sign) {m : Nat} (hm : 0 < m) (hm' : m < 2 ^ 23) :
    unpack (UnpackedFloat.packComponents .binary32 s 0#_ (.ofNat _ m)) =
      .finite s m (-149) hm := by
  have hmantissa : (BitVec.ofNat 23 m).toNat = m := by rw [BitVec.toNat_ofNat]; omega
  have hzero : BitVec.ofNat 23 m ≠ 0#23 := by
    intro h
    rw [h] at hmantissa
    simp at hmantissa
    omega
  simp only [unpack, UnpackedFloat.unpack, UnpackedFloat.unpackExponent_packComponents,
    UnpackedFloat.unpackMantissa_packComponents, unpackSign_packComponents, ofBitVec_toBitVec]
  rw [if_neg (by decide), if_pos trivial, dif_neg hzero]
  simp only [hmantissa]
  rfl

theorem unpack_pack {x : UnpackedFloat} (h : Rounded x) : unpack (pack x) = saturate x := by
  cases x with
  | notANumber => rfl
  | infinity s => cases s <;> rfl
  | zero s => cases s <;> rfl
  | finite s m e hm =>
    obtain ⟨hlt, he, hform⟩ := h
    have hbits : Format.binary32.mantissaBits = 24 := rfl
    have hfield : e + Format.binary32.exponentBias +
        Format.binary32.mantissaBitsWithoutImplicit = e + 150 := by
      simp [Format.exponentBias]
      omega
    rw [pack, UnpackedFloat.pack, saturate]
    simp only [hfield, hbits]
    by_cases hrange : e ≤ 104
    · rw [if_neg (by omega), if_pos hrange]
      by_cases hnormal : 2 ^ 23 ≤ m
      · have hlog : m.log2 = 23 := (Nat.log2_eq_iff (Nat.ne_of_gt hm)).mpr ⟨hnormal, hlt⟩
        have hexponent : 0 < (e + 150).toNat ∧ (e + 150).toNat < 255 := by omega
        rw [if_pos (by omega), unpack_normal s hexponent.1 hexponent.2 hnormal hlt]
        simp only [UnpackedFloat.finite.injEq, true_and]
        omega
      · have hlog : m.log2 < 23 := (Nat.log2_lt (Nat.ne_of_gt hm)).mpr (by omega)
        obtain rfl : e = -149 := by omega
        rw [if_neg (by omega), unpack_subnormal s hm (by omega)]
    · have hover : 2 ^ Format.binary32.exponentBits ≤ (e + 150).toNat + 1 := by
        show 256 ≤ (e + 150).toNat + 1
        omega
      rw [if_neg hrange, if_pos hover]
      cases s <;> rfl

/-! ## The sign bit -/

/-- The sign is a plus. -/
def Plus : UnpackedFloat → Prop
  | .finite s _ _ _ => s = .positive
  | .zero s => s = .positive
  | .infinity s => s = .positive
  | .notANumber => False

theorem toNat_packComponents_lt (e : BitVec 8) (m : BitVec 23) :
    (UnpackedFloat.packComponents .binary32 .positive e m).toNat < 2 ^ 31 := by
  have hfields : (0#1 ++ e ++ m).toNat = (e ++ m).toNat := by
    rw [BitVec.toNat_append, BitVec.toNat_append, BitVec.toNat_append]
    simp
  show (0#1 ++ e ++ m).toNat < 2 ^ 31
  rw [hfields]
  exact (e ++ m).isLt

theorem toNat_pack_lt {x : UnpackedFloat} (h : Plus x) : (pack x).toNat < 2 ^ 31 := by
  cases x with
  | notANumber => cases h
  | infinity s => obtain rfl := h; decide
  | zero s => obtain rfl := h; decide
  | finite s m e hm =>
    obtain rfl := h
    rw [pack, UnpackedFloat.pack]
    split
    · exact toNat_packComponents_lt _ _
    · split <;> exact toNat_packComponents_lt _ _

end Helm.Single
