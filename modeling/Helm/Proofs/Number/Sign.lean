import Helm.Proofs.Number.Monotone

/-!
# Helm.Proofs.Number.Sign

Single precision numbers whose sign bit is not set. Squares have none, sums and roots of such
numbers have none, and neither has a difference that is not negative and starts from such a number
(`signBit_sub`): minus zero is not among them. On these numbers the total order by bit pattern is
the order of the numbers (`le_iff_rank`).
-/

namespace Helm.Single

open Float.Model (UnpackedFloat)
open Float.Model.UnpackedFloat

/-! ## Unpacked numbers -/

/-- The sign is not a minus. -/
def Unsigned : UnpackedFloat → Prop
  | .finite s _ _ _ => s = .positive
  | .zero s => s = .positive
  | .infinity s => s = .positive
  | .notANumber => True

theorem Plus.unsigned {x : UnpackedFloat} (h : Plus x) : Unsigned x := by
  cases x with
  | notANumber => trivial
  | _ => exact h

theorem toNat_pack_lt_of_unsigned {x : UnpackedFloat} (h : Unsigned x) :
    (pack x).toNat < 2 ^ 31 := by
  cases x with
  | notANumber => decide
  | zero s => exact toNat_pack_lt h
  | infinity s => exact toNat_pack_lt h
  | finite s m e hm => exact toNat_pack_lt h

theorem unsigned_unpack {bits : BitVec 32} (h : bits.toNat < 2 ^ 31) : Unsigned (unpack bits) := by
  have hsign : Sign.ofBitVec (@UnpackedFloat.unpackSign .binary32 bits) = .positive := by
    rw [unpackSign_of_lt h]
    rfl
  rw [unpack, UnpackedFloat.unpack]
  simp only [hsign]
  split
  · split <;> trivial
  · split
    · split <;> rfl
    · rfl

/-- The square of a number has no sign. -/
theorem unsigned_mul_self (x : UnpackedFloat) : Unsigned (mul .binary32 x x) := by
  have hsquare : ∀ s : Sign, s * s = .positive := by rintro (_ | _) <;> rfl
  cases x with
  | notANumber => trivial
  | zero s => exact hsquare s
  | infinity s => exact hsquare s
  | finite s m e hm =>
    rw [mul, hsquare]
    exact (plus_roundWithAccuracy _ _ _).unsigned

theorem unsigned_normalize {z : Int} (e : Int) (hz : 0 ≤ z) :
    Unsigned (normalize .binary32 z e .positive) := by
  rw [UnpackedFloat.normalize]
  split
  · rename_i h
    rw [Int.compare_eq_lt] at h
    omega
  · rfl
  · exact (plus_roundWithAccuracy _ _ _).unsigned

theorem unsigned_add {x y : UnpackedFloat} (hx : Unsigned x) (hy : Unsigned y) :
    Unsigned (add .binary32 x y) := by
  cases x with
  | notANumber => trivial
  | zero s =>
    obtain rfl := hx
    cases y with
    | zero t => obtain rfl := hy; rfl
    | _ => exact hy
  | infinity s =>
    obtain rfl := hx
    cases y with
    | notANumber => trivial
    | infinity t => obtain rfl := hy; rfl
    | _ => rfl
  | finite s m e hm =>
    obtain rfl := hx
    cases y with
    | notANumber => trivial
    | zero t => rfl
    | infinity t => exact hy
    | finite t n f hn =>
      obtain rfl := hy
      exact unsigned_normalize _ (Int.add_nonneg (Int.natCast_nonneg _) (Int.natCast_nonneg _))

theorem unsigned_sqrt {x : UnpackedFloat} (hx : Unsigned x) : Unsigned (sqrt .binary32 x) := by
  cases x with
  | notANumber => trivial
  | zero s => exact hx
  | infinity s => obtain rfl := hx; rfl
  | finite s m e hm =>
    obtain rfl := hx
    exact (plus_roundWithAccuracy _ _ _).unsigned

/-- A number above zero, or zero itself, has no sign unless it is minus zero. -/
theorem unsigned_of_place {x : UnpackedFloat} (hplace : 0 ≤ place x) (h : x ≠ .zero .negative) :
    Unsigned x := by
  rcases Int.lt_or_eq_of_le hplace with hpos | hzero
  · exact (plus_of_place_pos hpos).unsigned
  · cases x with
    | notANumber => trivial
    | zero s =>
      cases s with
      | positive => rfl
      | negative => exact absurd rfl h
    | infinity s =>
      cases s with
      | positive => rfl
      | negative => cases hzero
    | finite s m e hm =>
      have := seat_pos e hm
      cases s <;> simp only [place, Sign.apply] at hzero <;> omega

/-- Rounding makes no difference that is not zero vanish. -/
theorem normalize_ne_negative_zero (z : Int) {e : Int} (he : -149 ≤ e) :
    normalize .binary32 z e .positive ≠ .zero .negative := by
  intro h
  obtain ⟨j, hj⟩ := Int.eq_ofNat_of_zero_le (show 0 ≤ e + 149 by omega)
  have hplace : 0 = roundedPlace 0 (z * 2 ^ j) := by
    rw [← (normalize_exact hj).place, h]
    rfl
  have hone : roundedPlace 0 1 = 1 ∧ roundedPlace 0 (-1) = -1 := by decide
  have hpow : (0 : Int) < 2 ^ j := Int.pow_pos (by decide)
  rcases Int.lt_trichotomy z 0 with hz | rfl | hz
  · have := roundedPlace_mono 0 (show z * 2 ^ j ≤ -1 by nlinarith)
    omega
  · cases h
  · have := roundedPlace_mono 0 (show 1 ≤ z * 2 ^ j by nlinarith)
    omega

/-- A difference is minus zero only where it starts from minus zero. -/
theorem sub_ne_negative_zero {x y : UnpackedFloat} (hx : Unsigned x) (hxr : Rounded x)
    (hyr : Rounded y) : sub .binary32 x y ≠ .zero .negative := by
  cases x with
  | notANumber => cases y <;> nofun
  | zero s =>
    obtain rfl := hx
    cases y with
    | zero t => cases t <;> nofun
    | _ => nofun
  | infinity s =>
    cases y with
    | infinity t => cases s <;> cases t <;> nofun
    | _ => nofun
  | finite s m e hm =>
    cases y with
    | finite t n f hn =>
      have hlow : -149 ≤ min e f := by
        have := hxr.2.1
        have := hyr.2.1
        omega
      exact normalize_ne_negative_zero _ hlow
    | _ => nofun

/-! ## Packed numbers -/

theorem signBit_iff {x : Float32} : signBit x = false ↔ x.toBits.toNat < 2 ^ 31 := by
  have hshift : (x.toBits >>> 31).toNat = x.toBits.toNat / 2 ^ 31 := by
    rw [UInt32.toNat_shiftRight, Nat.shiftRight_eq_div_pow]
    rfl
  rw [signBit, beq_eq_false_iff_ne, ne_eq, ← UInt32.toNat_inj, hshift]
  have := x.toBits.toNat_lt
  have hone : (1 : UInt32).toNat = 1 := rfl
  omega

variable {x y : Float32}

theorem signBit_of_unsigned {u : UnpackedFloat} (hx : x.toBits.toBitVec = pack u)
    (hu : Unsigned u) : signBit x = false := by
  rw [signBit_iff, ← UInt32.toNat_toBitVec, hx]
  exact toNat_pack_lt_of_unsigned hu

theorem unsigned_number (hx : signBit x = false) : Unsigned (number x) :=
  unsigned_unpack (signBit_iff.mp hx)

theorem signBit_mul_self (x : Float32) : signBit (x * x) = false :=
  signBit_of_unsigned rfl (unsigned_mul_self (number x))

theorem signBit_add (hx : signBit x = false) (hy : signBit y = false) : signBit (x + y) = false :=
  signBit_of_unsigned rfl (unsigned_add (unsigned_number hx) (unsigned_number hy))

theorem signBit_sqrt (hx : signBit x = false) : signBit x.sqrt = false :=
  signBit_of_unsigned rfl (unsigned_sqrt (unsigned_number hx))

theorem rounded_sub {x y : UnpackedFloat} (hx : Rounded x) (hy : Rounded y) :
    Rounded (sub .binary32 x y) := by
  by_cases hfinite : x.isFinite = true ∧ y.isFinite = true
  · exact (sub_exact hx hy hfinite.1 hfinite.2).rounded
  · cases x with
    | notANumber => cases y <;> trivial
    | infinity s =>
      cases y with
      | infinity t => cases s <;> cases t <;> trivial
      | _ => trivial
    | zero s =>
      cases y with
      | zero t => exact absurd ⟨rfl, rfl⟩ hfinite
      | finite t n f hn => exact absurd ⟨rfl, rfl⟩ hfinite
      | _ => trivial
    | finite s m e hm =>
      cases y with
      | zero t => exact absurd ⟨rfl, rfl⟩ hfinite
      | finite t n f hn => exact absurd ⟨rfl, rfl⟩ hfinite
      | _ => trivial

theorem place_nonneg_of_pack {u : UnpackedFloat} (hu : Rounded u)
    (h : 0 ≤ place (unpack (pack u))) : 0 ≤ place u := by
  rw [unpack_pack hu] at h
  cases u with
  | finite s m e hm =>
    rw [place_saturate hu rfl, cut, infinitePlace] at h
    omega
  | _ => exact h

/-- A difference that is not negative has no sign, where the number it starts from has none. -/
theorem signBit_sub (hx : signBit x = false) (h : 0 ≤ x - y) : signBit (x - y) = false := by
  have hround : Rounded (sub .binary32 (number x) (number y)) :=
    rounded_sub (rounded_number x) (rounded_number y)
  have hplace : 0 ≤ place (number (x - y)) := by
    have hnumbers := isNaN_of_le h
    exact (le_iff hnumbers.1 hnumbers.2).mp h
  refine signBit_of_unsigned rfl (unsigned_of_place (place_nonneg_of_pack hround hplace) ?_)
  exact sub_ne_negative_zero (unsigned_number hx) (rounded_number x) (rounded_number y)

/-! ## The total order -/

theorem rank_of_signBit (hx : signBit x = false) : rank x = x.toBits.toNat := by
  have hlow : (x.toBits &&& 0x7fffffff).toNat = x.toBits.toNat % 2 ^ 31 := by
    rw [UInt32.toNat_and]
    exact Nat.and_two_pow_sub_one_eq_mod _ 31
  have hlt := signBit_iff.mp hx
  rw [rank, hx, hlow, Nat.mod_eq_of_lt hlt]
  rfl

/-- Without the sign bit, the pattern counts the numbers from zero, up to infinity. -/
theorem place_of_signBit (hx : signBit x = false) (hn : x.isNaN = false) :
    place (number x) = x.toBits.toNat := by
  have hlt := signBit_iff.mp hx
  rcases Nat.lt_or_ge x.toBits.toNat infinitePlace with hfinite | htop
  · exact (place_unpack hfinite).2
  · -- the exponent is the largest one, so that the number is infinite and its fraction zero
    rw [infinitePlace] at htop
    have hmax : @UnpackedFloat.unpackExponent .binary32 x.toBits.toBitVec = -1#8 := by
      apply BitVec.eq_of_toNat_eq
      rw [toNat_unpackExponent, UInt32.toNat_toBitVec]
      show _ = 255
      omega
    change (number x).isNaN = false at hn
    rw [number, unpack, UnpackedFloat.unpack, unpackSign_of_lt hlt] at hn ⊢
    simp only [if_pos hmax] at hn ⊢
    split at hn
    · rename_i hzero
      have hmantissa := toNat_unpackMantissa x.toBits.toBitVec
      rw [hzero, UInt32.toNat_toBitVec] at hmantissa
      have hbits : x.toBits.toNat = infinitePlace := by
        rw [infinitePlace]
        simp at hmantissa
        omega
      rw [if_pos hzero, hbits]
      rfl
    · cases hn

/-- Without their sign bits, the total order of numbers is their order. -/
theorem le_iff_rank (hx : signBit x = false) (hy : signBit y = false) (hxn : x.isNaN = false)
    (hyn : y.isNaN = false) : x ≤ y ↔ rank x ≤ rank y := by
  rw [le_iff hxn hyn, place_of_signBit hx hxn, place_of_signBit hy hyn, rank_of_signBit hx,
    rank_of_signBit hy]

theorem place_unpack_nonpos {bits : BitVec 32} (h : 2 ^ 31 ≤ bits.toNat) :
    place (unpack bits) ≤ 0 := by
  have hsign : Sign.ofBitVec (@UnpackedFloat.unpackSign .binary32 bits) = .negative := by
    have hone : @UnpackedFloat.unpackSign .binary32 bits = 1#1 := by
      apply BitVec.eq_of_toNat_eq
      have := bits.isLt
      simp [UnpackedFloat.unpackSign, Nat.shiftRight_eq_div_pow]
      omega
    rw [hone]
    rfl
  rw [unpack, UnpackedFloat.unpack]
  simp only [hsign]
  split
  · split
    · decide
    · exact Int.le_refl 0
  · split
    · split
      · exact Int.le_refl 0
      · simp only [place, Sign.apply]
        omega
    · simp only [place, Sign.apply]
      omega

theorem rank_neg_iff : rank x < 0 ↔ signBit x = true := by
  rw [rank]
  cases signBit x with
  | true =>
    simp only [if_true, iff_true]
    omega
  | false => simp

/-- In the total order minus zero comes before zero; apart from that, numbers that are not negative
stand in their order. -/
theorem le_of_rank_le (hx : 0 ≤ x) (hy : 0 ≤ y) (h : rank x ≤ rank y) : x ≤ y := by
  obtain ⟨hzero, hxn⟩ := isNaN_of_le hx
  have hyn := (isNaN_of_le hy).2
  cases hxs : signBit x with
  | true =>
    have hbits : 2 ^ 31 ≤ x.toBits.toNat := by
      by_contra hlt
      rw [signBit_iff.mpr (by omega)] at hxs
      cases hxs
    have hplace : place (number x) ≤ 0 := place_unpack_nonpos hbits
    have hnone : place (number 0) = 0 := by decide
    rw [le_iff hzero hyn, hnone] at hy
    rw [le_iff hxn hyn]
    omega
  | false =>
    have hys : signBit y = false := by
      have hxr := rank_neg_iff.not.mpr (Bool.eq_false_iff.mp hxs)
      refine Bool.eq_false_iff.mpr (rank_neg_iff.not.mp ?_)
      omega
    exact (le_iff_rank hxs hys hxn hyn).mpr h

theorem not_infinity_le (h : x.isFinite = true) : ¬infinity ≤ x := by
  intro hle
  obtain ⟨htop, hnumber⟩ := isNaN_of_le hle
  have hplace : place (number infinity) = infinitePlace := by decide
  have hbound := (isFinite_iff hnumber).mp h
  rw [le_iff htop hnumber, hplace] at hle
  omega

end Helm.Single
