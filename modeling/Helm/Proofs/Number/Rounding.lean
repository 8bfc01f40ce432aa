import Helm.Proofs.Number.Order

/-!
# Helm.Proofs.Number.Rounding

Rounding to single precision as a function on places. The exact result of an operation is a whole
multiple of a power of two; `roundedSeat` is the place it is rounded to. `nearest` rounds to a whole
number, ties to even, which is what shifting with a round and a sticky bit comes to
(`roundedMantissa_shifted`).

* `roundedSeat_mono`: rounding keeps the order, also from one exponent to the next.
* `round_exact`: a rounded number stands at the place of the exact one (`StandsAt`).
* `add_exact`, `sub_exact`, `mul_exact`: so do sums, differences and products.
-/

namespace Helm.Single

open Float.Model (Format UnpackedFloat totalExponent)
open Float.Model.UnpackedFloat

/-! ## Rounding to whole numbers -/

/-- The whole number nearest to `n / 2 ^ k`, and the even one of two that are equally near. -/
def nearest (n k : Nat) : Nat :=
  if 2 * (n % 2 ^ k) < 2 ^ k then n / 2 ^ k
  else if 2 * (n % 2 ^ k) = 2 ^ k then n / 2 ^ k + n / 2 ^ k % 2
  else n / 2 ^ k + 1

theorem nearest_zero (n : Nat) : nearest n 0 = n := by
  simp [nearest, Nat.mod_one]

theorem div_le_nearest (n k : Nat) : n / 2 ^ k ≤ nearest n k := by
  rw [nearest]
  split
  · exact Nat.le_refl _
  · split <;> exact Nat.le_add_right ..

theorem nearest_le (n k : Nat) : nearest n k ≤ n / 2 ^ k + 1 := by
  rw [nearest]
  split
  · exact Nat.le_succ _
  · split <;> omega

theorem nearest_mono {m n : Nat} (k : Nat) (h : m ≤ n) : nearest m k ≤ nearest n k := by
  rcases Nat.lt_or_ge (m / 2 ^ k) (n / 2 ^ k) with hlt | hge
  · exact Nat.le_trans (nearest_le m k) (Nat.le_trans hlt (div_le_nearest n k))
  · have hquotient : m / 2 ^ k = n / 2 ^ k := Nat.le_antisymm (Nat.div_le_div_right h) hge
    have hm := Nat.div_add_mod m (2 ^ k)
    have hn := Nat.div_add_mod n (2 ^ k)
    have hrest : m % 2 ^ k ≤ n % 2 ^ k := by
      rw [← hquotient] at hn
      omega
    rw [nearest, nearest, hquotient]
    split <;> split <;> (try split) <;> (try split) <;> omega

theorem nearest_mul_pow (n k j : Nat) : nearest (n * 2 ^ j) (k + j) = nearest n k := by
  have hpos : 0 < 2 ^ j := Nat.two_pow_pos j
  have hquotient : n * 2 ^ j / 2 ^ (k + j) = n / 2 ^ k := by
    rw [Nat.pow_add, Nat.mul_div_mul_right _ _ hpos]
  have hrest : n * 2 ^ j % 2 ^ (k + j) = n % 2 ^ k * 2 ^ j := by
    rw [Nat.pow_add, Nat.mul_mod_mul_right]
  have hlt : 2 * (n % 2 ^ k * 2 ^ j) < 2 ^ (k + j) ↔ 2 * (n % 2 ^ k) < 2 ^ k := by
    rw [Nat.pow_add, ← Nat.mul_assoc, Nat.mul_lt_mul_right hpos]
  have heq : 2 * (n % 2 ^ k * 2 ^ j) = 2 ^ (k + j) ↔ 2 * (n % 2 ^ k) = 2 ^ k := by
    rw [Nat.pow_add, ← Nat.mul_assoc, Nat.mul_left_inj (Nat.ne_of_gt hpos)]
  rw [nearest, nearest, hquotient, hrest]
  simp only [hlt, heq]

/-! ## The shift with a round and a sticky bit -/

/-- What is left of a mantissa after shifting it to the right by some places. -/
def shifted (n : Nat) : Nat → ExtendedMantissa
  | 0 => ⟨n, false, false⟩
  | k + 1 => ⟨n / 2 ^ (k + 1), n / 2 ^ k % 2 != 0, n % 2 ^ k != 0⟩

theorem shiftRight_eq (n k : Nat) :
    ExtendedMantissa.ofMantissaAndAccuracy n .exact >>> k = shifted n k := by
  induction k with
  | zero => rfl
  | succ k ih =>
    have hstep : ExtendedMantissa.ofMantissaAndAccuracy n .exact >>> (k + 1) =
        (ExtendedMantissa.ofMantissaAndAccuracy n .exact >>> k).shiftRightOne := rfl
    rw [hstep, ih]
    cases k with
    | zero => simp [shifted, ExtendedMantissa.shiftRightOne, Nat.mod_one]
    | succ k =>
      have hrest := Nat.mod_pow_succ (b := 2) (x := n) (k := k)
      have hquotient : n / 2 ^ (k + 1) / 2 = n / 2 ^ (k + 1 + 1) := by
        rw [Nat.div_div_eq_div_mul, ← Nat.pow_succ]
      have hbit := Nat.mod_two_eq_zero_or_one (n / 2 ^ k)
      simp only [shifted, ExtendedMantissa.shiftRightOne, hquotient, hrest]
      rcases hbit with hbit | hbit <;> simp [hbit]

theorem roundedMantissa_of_bits (m : Nat) (round sticky : Bool) :
    (ExtendedMantissa.mk m round sticky).roundedMantissa =
      if round then (if sticky then m + 1 else m + m % 2) else m := by
  cases round <;> cases sticky <;> rfl

theorem roundedMantissa_shifted (n k : Nat) : (shifted n k).roundedMantissa = nearest n k := by
  cases k with
  | zero => rw [nearest_zero]; rfl
  | succ k =>
    have hrest := Nat.mod_pow_succ (b := 2) (x := n) (k := k)
    have hlow := Nat.mod_lt n (Nat.two_pow_pos k)
    have hpow : 2 ^ (k + 1) = 2 * 2 ^ k := by rw [Nat.pow_succ, Nat.mul_comm]
    rw [shifted, roundedMantissa_of_bits, nearest]
    rcases Nat.mod_two_eq_zero_or_one (n / 2 ^ k) with hbit | hbit
    · have hbelow : 2 * (n % 2 ^ (k + 1)) < 2 ^ (k + 1) := by rw [hrest, hbit]; omega
      simp [hbit, hbelow]
    · have hnot : ¬2 * (n % 2 ^ (k + 1)) < 2 ^ (k + 1) := by rw [hrest, hbit]; omega
      have hhalf : 2 * (n % 2 ^ (k + 1)) = 2 ^ (k + 1) ↔ n % 2 ^ k = 0 := by
        rw [hrest, hbit]; omega
      by_cases hzero : n % 2 ^ k = 0 <;> simp [hbit, hnot, hhalf, hzero]

/-! ## Places after rounding -/

/-- The place of `n / 2 ^ (149 + d)` after rounding. -/
def roundedSeat (d n : Nat) : Nat :=
  (max (n.log2 - 23) d - d) * 2 ^ 23 + nearest n (max (n.log2 - 23) d)

theorem nearest_log2_le {n k : Nat} (hk : n.log2 ≤ k + 23) : nearest n k ≤ 2 ^ 24 := by
  have hlt : n < 2 ^ (n.log2 + 1) := Nat.lt_log2_self
  have hpow : 2 ^ (n.log2 + 1) ≤ 2 ^ 24 * 2 ^ k := by
    rw [← Nat.pow_add]
    exact Nat.pow_le_pow_right (by decide) (by omega)
  have hquotient : n / 2 ^ k < 2 ^ 24 := by
    rw [Nat.div_lt_iff_lt_mul (Nat.two_pow_pos k)]
    omega
  have := nearest_le n k
  omega

theorem le_nearest_of_log2 {n k : Nat} (hn : n ≠ 0) (hk : k + 23 ≤ n.log2) :
    2 ^ 23 ≤ nearest n k := by
  have hle : 2 ^ n.log2 ≤ n := Nat.log2_self_le hn
  have hpow : 2 ^ 23 * 2 ^ k ≤ 2 ^ n.log2 := by
    rw [← Nat.pow_add]
    exact Nat.pow_le_pow_right (by decide) (by omega)
  have hquotient : 2 ^ 23 ≤ n / 2 ^ k := by
    rw [Nat.le_div_iff_mul_le (Nat.two_pow_pos k)]
    omega
  have := div_le_nearest n k
  omega

theorem log2_mono {m n : Nat} (h : m ≤ n) : m.log2 ≤ n.log2 := by
  rcases Nat.eq_zero_or_pos m with rfl | hm
  · simp
  · have hn : n ≠ 0 := by omega
    rw [Nat.le_log2 hn]
    exact Nat.le_trans (Nat.log2_self_le (Nat.ne_of_gt hm)) h

theorem roundedSeat_zero (d : Nat) : roundedSeat d 0 = 0 := by
  simp [roundedSeat, nearest]

theorem roundedSeat_mono (d : Nat) {m n : Nat} (h : m ≤ n) : roundedSeat d m ≤ roundedSeat d n := by
  have hlog := log2_mono h
  rcases Nat.lt_or_ge (max (m.log2 - 23) d) (max (n.log2 - 23) d) with hlt | hge
  · -- a larger scale: the rounded mantissa can at most reach the start of the next one
    have hn : n ≠ 0 := by
      rintro rfl
      rw [Nat.log2_zero] at hlt
      omega
    have hlow : nearest m (max (m.log2 - 23) d) ≤ 2 ^ 24 := nearest_log2_le (by omega)
    have hhigh : 2 ^ 23 ≤ nearest n (max (n.log2 - 23) d) := le_nearest_of_log2 hn (by omega)
    rw [roundedSeat, roundedSeat]
    omega
  · have hscale : max (m.log2 - 23) d = max (n.log2 - 23) d := by omega
    have := nearest_mono (max (n.log2 - 23) d) h
    rw [roundedSeat, roundedSeat, hscale]
    omega

/-! ## Rounding a number -/

/-- The exponent that `n * 2 ^ e` has after rounding, unless that makes the mantissa too long. -/
def scale (n : Nat) (e : Int) : Int := max (n.log2 + e - 23) (-149)

theorem targetExponent_eq (n : Nat) (e : Int) :
    Format.binary32.targetExponent (totalExponent n e) = scale n e := by
  have hbits : Format.binary32.mantissaBits = 24 := rfl
  have hleast : Format.binary32.minExponent = -149 := rfl
  rw [Format.targetExponent, totalExponent, scale, hbits, hleast]
  omega

theorem shiftToTargetExponent_eq (n : Nat) (e : Int) :
    shiftToTargetExponent .binary32 n e .exact =
      (shifted n (scale n e - e).toNat, e + (scale n e - e).toNat) := by
  rw [shiftToTargetExponent, targetExponent_eq, shiftToExponent, shiftRight_eq]

theorem shiftToTargetExponent_of_lt {m : Nat} {e : Int} (hm : m < 2 ^ 24) (he : -149 ≤ e) :
    shiftToTargetExponent .binary32 m e .exact = (⟨m, false, false⟩, e) := by
  have hlog : m.log2 ≤ 23 := by
    rcases Nat.eq_zero_or_pos m with rfl | hpos
    · simp
    · exact Nat.le_of_lt_succ ((Nat.log2_lt (Nat.ne_of_gt hpos)).mpr hm)
  have hshift : (scale m e - e).toNat = 0 := by rw [scale]; omega
  rw [shiftToTargetExponent_eq, hshift, shifted, Int.natCast_zero, Int.add_zero]

theorem shiftToTargetExponent_of_eq {e : Int} (he : -149 ≤ e) :
    shiftToTargetExponent .binary32 (2 ^ 24) e .exact = (⟨2 ^ 23, false, false⟩, e + 1) := by
  have hlog : (2 ^ 24).log2 = 24 := Nat.log2_two_pow
  have hshift : (scale (2 ^ 24) e - e).toNat = 1 := by rw [scale, hlog]; omega
  rw [shiftToTargetExponent_eq, hshift]
  rfl

/-- The number is the result of rounding, and stands at the place given. -/
structure StandsAt (x : UnpackedFloat) (p : Int) : Prop where
  rounded : Rounded x
  finite : x.isFinite = true
  place : place x = p

/-- The second stage of rounding: a mantissa that has become too long is halved. -/
def settle (s : Sign) (m : Nat) (e : Int) : UnpackedFloat :=
  let (final, e) := shiftToTargetExponent .binary32 m e .exact
  if h : final.mantissa = 0 then .zero s
  else .finite s final.mantissa e (Nat.pos_of_ne_zero h)

theorem roundWithAccuracy_eq_settle (s : Sign) (n : Nat) (e : Int) :
    roundWithAccuracy .binary32 s n e .exact =
      settle s (nearest n (scale n e - e).toNat) (e + (scale n e - e).toNat) := by
  have hstages : roundWithAccuracy .binary32 s n e .exact =
      settle s (shiftToTargetExponent .binary32 n e .exact).1.roundedMantissa
        (shiftToTargetExponent .binary32 n e .exact).2 := rfl
  rw [hstages, shiftToTargetExponent_eq, roundedMantissa_shifted]

/-- Halving a mantissa that has become too long does not move the number: it stands at the start
of the next scale. -/
theorem settle_spec (s : Sign) {m : Nat} {e : Int} (hm : m ≤ 2 ^ 24) (he : -149 ≤ e)
    (hfull : e = -149 ∨ 2 ^ 23 ≤ m) :
    StandsAt (settle s m e) (s.apply (seat m e)) := by
  rcases Nat.lt_or_ge m (2 ^ 24) with hlt | hge
  · rw [settle, shiftToTargetExponent_of_lt hlt he]
    dsimp only
    split
    · rename_i hzero
      subst hzero
      obtain rfl : e = -149 := hfull.resolve_right (by decide)
      cases s <;> exact ⟨trivial, rfl, rfl⟩
    · exact ⟨⟨hlt, he, hfull⟩, rfl, rfl⟩
  · obtain rfl : m = 2 ^ 24 := by omega
    have hseat : seat (2 ^ 23) (e + 1) = seat (2 ^ 24) e := by rw [seat, seat]; omega
    rw [settle, shiftToTargetExponent_of_eq he]
    rw [← hseat]
    exact ⟨⟨by decide, by omega, .inr (Nat.le_refl _)⟩, rfl, rfl⟩

theorem roundWithAccuracy_exact (s : Sign) {n : Nat} {e : Int} (hn : n ≠ 0) (he : e ≤ scale n e) :
    StandsAt (roundWithAccuracy .binary32 s n e .exact)
      (s.apply (seat (nearest n (scale n e - e).toNat) (scale n e))) := by
  have hleast : -149 ≤ scale n e := by rw [scale]; omega
  have hfits : nearest n (scale n e - e).toNat ≤ 2 ^ 24 := by
    refine nearest_log2_le ?_
    rw [scale]
    omega
  have hfull : scale n e = -149 ∨ 2 ^ 23 ≤ nearest n (scale n e - e).toNat := by
    rcases Int.lt_or_le (-149) (scale n e) with h | h
    · refine .inr (le_nearest_of_log2 hn ?_)
      rw [scale] at h he ⊢
      omega
    · exact .inl (by omega)
  have hexponent : e + (scale n e - e).toNat = scale n e := by omega
  rw [roundWithAccuracy_eq_settle, hexponent]
  exact settle_spec s hfits hleast hfull

theorem log2_mul_two_pow {n : Nat} (hn : n ≠ 0) (j : Nat) : (n * 2 ^ j).log2 = n.log2 + j := by
  have hpos : 0 < 2 ^ j := Nat.two_pow_pos j
  rw [Nat.log2_eq_iff (Nat.mul_ne_zero hn (Nat.ne_of_gt hpos))]
  constructor
  · rw [Nat.pow_add]
    exact Nat.mul_le_mul_right _ (Nat.log2_self_le hn)
  · rw [Nat.add_right_comm, Nat.pow_add]
    exact Nat.mul_lt_mul_of_pos_right Nat.lt_log2_self hpos

/-- An exact number of `n * 2 ^ j` steps of `2 ^ (-149 - d)` each. -/
theorem seat_nearest {n d : Nat} {e : Int} (hn : n ≠ 0) (he : e ≤ scale n e) {j : Nat}
    (hj : e + 149 + d = j) :
    seat (nearest n (scale n e - e).toNat) (scale n e) = roundedSeat d (n * 2 ^ j) := by
  have hlog : (n * 2 ^ j).log2 = n.log2 + j := log2_mul_two_pow hn j
  have hscale : max ((n * 2 ^ j).log2 - 23) d = (scale n e - e).toNat + j := by
    rw [hlog]
    rw [scale] at he ⊢
    omega
  rw [roundedSeat, hscale, nearest_mul_pow, seat]
  omega

theorem round_exact (s : Sign) {n : Nat} {e : Int} (hn : n ≠ 0) {j : Nat} (hj : e + 149 = j) :
    StandsAt (UnpackedFloat.round .binary32 s n e) (s.apply (roundedSeat 0 (n * 2 ^ j))) := by
  have hstages : UnpackedFloat.round .binary32 s n e =
      roundWithAccuracy .binary32 s (n <<< (e - scale n e).toNat) (e - (e - scale n e).toNat)
        .exact := by
    rw [UnpackedFloat.round, targetExponent_eq]
    rfl
  have hn' : n * 2 ^ (e - scale n e).toNat ≠ 0 :=
    Nat.mul_ne_zero hn (Nat.ne_of_gt (Nat.two_pow_pos _))
  have hscale : scale (n * 2 ^ (e - scale n e).toNat) (e - (e - scale n e).toNat) =
      scale n e := by
    rw [scale, log2_mul_two_pow hn, scale]
    omega
  have hle : e - (e - scale n e).toNat ≤
      scale (n * 2 ^ (e - scale n e).toNat) (e - (e - scale n e).toNat) := by
    rw [hscale]
    omega
  have hleast : -149 ≤ scale n e := by rw [scale]; omega
  have hstands := roundWithAccuracy_exact s hn' hle
  have hj' : e - (e - scale n e).toNat + 149 + (0 : Nat) = (j - (e - scale n e).toNat : Nat) := by
    omega
  have hsum : (e - scale n e).toNat + (j - (e - scale n e).toNat) = j := by omega
  rw [seat_nearest hn' hle hj', Nat.mul_assoc, ← Nat.pow_add, hsum] at hstands
  rw [hstages, Nat.shiftLeft_eq]
  exact hstands

/-! ## Sums and products -/

/-- The number as a multiple of the least positive one. -/
def amount : UnpackedFloat → Int
  | .finite s m e _ => s.apply (m * 2 ^ (e + 149).toNat : Nat)
  | _ => 0

/-- The place of `z / 2 ^ (149 + d)` after rounding. -/
def roundedPlace (d : Nat) (z : Int) : Int := z.sign * roundedSeat d z.natAbs

theorem roundedPlace_apply (d : Nat) (s : Sign) (n : Nat) :
    roundedPlace d (s.apply n) = s.apply (roundedSeat d n) := by
  rcases Nat.eq_zero_or_pos n with rfl | hn
  · cases s <;> simp [roundedPlace, Sign.apply, roundedSeat_zero]
  · have hsign : (n : Int).sign = 1 := Int.sign_eq_one_of_pos (by omega)
    cases s <;> simp [roundedPlace, Sign.apply, hsign]

theorem roundedPlace_natCast (d n : Nat) : roundedPlace d n = roundedSeat d n :=
  roundedPlace_apply d .positive n

theorem roundedPlace_neg_natCast (d n : Nat) : roundedPlace d (-n) = -roundedSeat d n :=
  roundedPlace_apply d .negative n

theorem roundedPlace_mono (d : Nat) {z w : Int} (h : z ≤ w) :
    roundedPlace d z ≤ roundedPlace d w := by
  obtain ⟨m, rfl | rfl⟩ := Int.eq_nat_or_neg z <;> obtain ⟨n, rfl | rfl⟩ := Int.eq_nat_or_neg w
  · have := roundedSeat_mono d (Int.ofNat_le.mp h)
    rw [roundedPlace_natCast, roundedPlace_natCast]
    omega
  · obtain rfl : m = 0 := by omega
    obtain rfl : n = 0 := by omega
    exact Int.le_refl _
  · rw [roundedPlace_neg_natCast, roundedPlace_natCast]
    omega
  · have := roundedSeat_mono d (m := n) (n := m) (by omega)
    rw [roundedPlace_neg_natCast, roundedPlace_neg_natCast]
    omega

theorem scale_of_rounded {m : Nat} {e : Int} (hm : 0 < m) (hlt : m < 2 ^ 24) (he : -149 ≤ e)
    (hfull : e = -149 ∨ 2 ^ 23 ≤ m) : scale m e = e := by
  have hlog : m.log2 < 24 := (Nat.log2_lt (Nat.ne_of_gt hm)).mpr hlt
  rw [scale]
  rcases hfull with rfl | hfull
  · omega
  · have hlog' : 23 ≤ m.log2 := (Nat.le_log2 (Nat.ne_of_gt hm)).mpr hfull
    omega

/-- A number that is exact stays as it is. -/
theorem roundedPlace_amount {x : UnpackedFloat} (h : Rounded x) (hx : x.isFinite = true) :
    roundedPlace 0 (amount x) = place x := by
  cases x with
  | notANumber => cases hx
  | infinity s => cases hx
  | zero s => exact roundedPlace_natCast 0 0
  | finite s m e hm =>
    obtain ⟨hlt, he, hfull⟩ := h
    have hscale := scale_of_rounded hm hlt he hfull
    have hj : e + 149 + (0 : Nat) = (e + 149).toNat := by omega
    have hseat := seat_nearest (Nat.ne_of_gt hm) (Int.le_of_eq hscale.symm) hj
    rw [hscale, Int.sub_self, Int.toNat_zero, nearest_zero] at hseat
    rw [amount, roundedPlace_apply, place, hseat]

theorem normalize_exact {z e : Int} {j : Nat} (hj : e + 149 = j) :
    StandsAt (UnpackedFloat.normalize .binary32 z e .positive) (roundedPlace 0 (z * 2 ^ j)) := by
  rw [UnpackedFloat.normalize]
  rcases Int.lt_trichotomy z 0 with h | rfl | h
  · obtain ⟨n, rfl⟩ : ∃ n : Nat, z = -n := ⟨z.natAbs, by omega⟩
    have hexact : -(n : Int) * 2 ^ j = Sign.apply .negative (n * 2 ^ j : Nat) := by
      rw [Int.neg_mul, Int.natCast_mul, Int.natCast_pow]
      rfl
    have hback : (- -(n : Int)).toNat = n := by omega
    rw [Int.compare_eq_lt.mpr h, hexact, roundedPlace_apply]
    simp only [hback]
    exact round_exact .negative (by omega) hj
  · rw [Int.compare_eq_eq.mpr rfl, Int.zero_mul]
    exact ⟨trivial, rfl, (roundedPlace_natCast 0 0).symm⟩
  · obtain ⟨n, rfl⟩ : ∃ n : Nat, z = n := ⟨z.toNat, by omega⟩
    have hexact : (n : Int) * 2 ^ j = Sign.apply .positive (n * 2 ^ j : Nat) := by
      simp [Sign.apply]
    rw [Int.compare_eq_gt.mpr h, hexact, roundedPlace_apply]
    exact round_exact .positive (by omega) hj

theorem apply_mul (s : Sign) (a : Int) (b : Nat) : s.apply a * b = s.apply (a * b) := by
  cases s with
  | positive => rfl
  | negative => exact Int.neg_mul a b

theorem standsAt_self {x : UnpackedFloat} (h : Rounded x) (hx : x.isFinite = true) :
    StandsAt x (roundedPlace 0 (amount x)) :=
  ⟨h, hx, (roundedPlace_amount h hx).symm⟩

theorem amount_aligned (s : Sign) {m : Nat} {e low : Int} (hm : 0 < m) (hlow : -149 ≤ low)
    (hle : low ≤ e) {j : Nat} (hj : low + 149 = j) :
    s.apply (decreaseExponent m e low).1 * 2 ^ j = amount (.finite s m e hm) := by
  have hsum : (e - low).toNat + j = (e + 149).toNat := by omega
  rw [amount, decreaseExponent, Nat.shiftLeft_eq, ← hsum, Nat.pow_add, ← Nat.mul_assoc,
    Int.natCast_mul (m * _), ← apply_mul]
  simp

/-- A sum is rounded once. -/
theorem add_exact {x y : UnpackedFloat} (hx : Rounded x) (hy : Rounded y)
    (hxf : x.isFinite = true) (hyf : y.isFinite = true) :
    StandsAt (add .binary32 x y) (roundedPlace 0 (amount x + amount y)) := by
  cases x with
  | notANumber => cases hxf
  | infinity s => cases hxf
  | zero s =>
    cases y with
    | notANumber => cases hyf
    | infinity t => cases hyf
    | zero t => cases s <;> cases t <;> exact standsAt_self (x := zero _) trivial rfl
    | finite t n f hn =>
      have hzero : amount (zero s) = 0 := rfl
      rw [hzero, Int.zero_add]
      exact standsAt_self hy hyf
  | finite s m e hm =>
    cases y with
    | notANumber => cases hyf
    | infinity t => cases hyf
    | zero t =>
      have hzero : amount (zero t) = 0 := rfl
      rw [hzero, Int.add_zero]
      exact standsAt_self hx hxf
    | finite t n f hn =>
      have hlow : -149 ≤ min e f := by have := hx.2.1; have := hy.2.1; omega
      have hj : min e f + 149 = (min e f + 149).toNat := by omega
      have hsum := normalize_exact (z := s.apply (decreaseExponent m e (min e f)).1 +
        t.apply (decreaseExponent n f (min e f)).1) hj
      rw [Int.add_mul, amount_aligned s hm hlow (by omega) hj,
        amount_aligned t hn hlow (by omega) hj] at hsum
      exact hsum

theorem neg_apply (s : Sign) (z : Int) : (-s).apply z = -s.apply z := by
  cases s <;> simp [Sign.apply]

theorem mul_apply (s t : Sign) (a b : Nat) :
    (s * t).apply (a * b : Nat) = s.apply a * t.apply b := by
  cases s <;> cases t
  · exact (Int.neg_mul_neg a b).symm
  · exact (Int.neg_mul a b).symm
  · exact (Int.mul_neg a b).symm
  · rfl

theorem sub_eq_add_neg (x y : UnpackedFloat) :
    sub .binary32 x y = add .binary32 x y.neg := by
  cases x with
  | notANumber => cases y <;> rfl
  | infinity s =>
    cases y with
    | infinity t => cases s <;> cases t <;> rfl
    | _ => rfl
  | zero s =>
    cases y with
    | zero t => cases s <;> cases t <;> rfl
    | _ => rfl
  | finite s m e hm =>
    cases y with
    | finite t n f hn =>
      simp only [sub, add, neg, neg_apply, Int.sub_eq_add_neg]
    | _ => rfl

theorem neg_exact {x : UnpackedFloat} (h : Rounded x) (hx : x.isFinite = true) :
    Rounded x.neg ∧ x.neg.isFinite = true ∧ amount x.neg = -amount x := by
  cases x with
  | notANumber => cases hx
  | infinity s => cases hx
  | zero s => exact ⟨trivial, rfl, rfl⟩
  | finite s m e hm =>
    refine ⟨h, rfl, ?_⟩
    cases s <;> simp [neg, amount, Sign.apply]

/-- A difference is rounded once. -/
theorem sub_exact {x y : UnpackedFloat} (hx : Rounded x) (hy : Rounded y)
    (hxf : x.isFinite = true) (hyf : y.isFinite = true) :
    StandsAt (sub .binary32 x y) (roundedPlace 0 (amount x - amount y)) := by
  obtain ⟨hround, hfinite, hamount⟩ := neg_exact hy hyf
  rw [sub_eq_add_neg, Int.sub_eq_add_neg, ← hamount]
  exact add_exact hx hround hxf hfinite

/-- A product is rounded once. -/
theorem mul_exact {x y : UnpackedFloat} (hx : Rounded x) (hy : Rounded y)
    (hxf : x.isFinite = true) (hyf : y.isFinite = true) :
    StandsAt (mul .binary32 x y) (roundedPlace 149 (amount x * amount y)) := by
  have hnone : roundedPlace 149 0 = 0 := roundedPlace_natCast 149 0
  cases x with
  | notANumber => cases hxf
  | infinity s => cases hxf
  | zero s =>
    have hzero : amount (zero s) = 0 := rfl
    rw [hzero, Int.zero_mul, hnone]
    cases y with
    | notANumber => cases hyf
    | infinity t => cases hyf
    | _ => exact ⟨trivial, rfl, rfl⟩
  | finite s m e hm =>
    cases y with
    | notANumber => cases hyf
    | infinity t => cases hyf
    | zero t =>
      have hzero : amount (zero t) = 0 := rfl
      rw [hzero, Int.mul_zero, hnone]
      exact ⟨trivial, rfl, rfl⟩
    | finite t n f hn =>
      have hmn : m * n ≠ 0 := Nat.mul_ne_zero (Nat.ne_of_gt hm) (Nat.ne_of_gt hn)
      have hlow : e + f ≤ scale (m * n) (e + f) := by
        rw [scale]
        rcases Nat.lt_or_ge (m * n) (2 ^ 23) with hlt | hge
        · have := Nat.le_mul_of_pos_right m hn
          have := Nat.le_mul_of_pos_left n hm
          have := hx.2.2.resolve_right (by omega)
          have := hy.2.2.resolve_right (by omega)
          omega
        · have := (Nat.le_log2 hmn).mpr hge
          omega
      have hj : e + f + 149 + (149 : Nat) = (e + 149).toNat + (f + 149).toNat := by
        have := hx.2.1; have := hy.2.1; omega
      have hproduct := roundWithAccuracy_exact (s * t) hmn hlow
      have hexact : m * n * 2 ^ ((e + 149).toNat + (f + 149).toNat) =
          m * 2 ^ (e + 149).toNat * (n * 2 ^ (f + 149).toNat) := by
        rw [Nat.pow_add, Nat.mul_mul_mul_comm]
      rw [seat_nearest hmn hlow hj, ← roundedPlace_apply, hexact, mul_apply] at hproduct
      exact hproduct

end Helm.Single
