import Helm.Proofs.Number.Rounding

/-!
# Helm.Proofs.Number.Monotone

Single precision operations keep the order: in sums, differences and products with a common operand,
the smaller operand gives no larger result. A result `Lands` at the place that its exact value is
rounded to, or at infinity when that place is beyond the largest number, so that the results are in
the order of the exact amounts.
-/

namespace Helm.Single

open Float.Model (UnpackedFloat)
open Float.Model.UnpackedFloat

/-! ## Exact amounts -/

theorem magnitude_le {m n : Nat} {e f : Int} (hm : m < 2 ^ 24) (hn : n < 2 ^ 24)
    (he : -149 ≤ e) (hf : -149 ≤ f) (hem : e = -149 ∨ 2 ^ 23 ≤ m) (hfn : f = -149 ∨ 2 ^ 23 ≤ n)
    (h : seat m e ≤ seat n f) : m * 2 ^ (e + 149).toNat ≤ n * 2 ^ (f + 149).toNat := by
  rcases Int.lt_trichotomy e f with hlt | rfl | hlt
  · have hn : 2 ^ 23 ≤ n := hfn.resolve_left (by omega)
    have hpow : 2 ^ ((e + 149).toNat + 1) ≤ 2 ^ (f + 149).toNat :=
      Nat.pow_le_pow_right (by decide) (by omega)
    calc m * 2 ^ (e + 149).toNat
        ≤ 2 ^ 24 * 2 ^ (e + 149).toNat := Nat.mul_le_mul_right _ (Nat.le_of_lt hm)
      _ = 2 ^ 23 * 2 ^ ((e + 149).toNat + 1) := by rw [← Nat.pow_add, ← Nat.pow_add]; congr 1; omega
      _ ≤ n * 2 ^ (f + 149).toNat := Nat.mul_le_mul hn hpow
  · have hle : m ≤ n := by
      rw [seat, seat] at h
      omega
    exact Nat.mul_le_mul_right _ hle
  · have := seat_lt_of_exponent_lt hn hf hem hlt
    omega

theorem apply_nonneg_of_place {s : Sign} {m : Nat} {e : Int} (hm : 0 < m)
    (h : 0 ≤ s.apply (seat m e)) (k : Nat) : 0 ≤ s.apply (k : Int) := by
  have := seat_pos e hm
  cases s <;> simp only [Sign.apply] at h ⊢ <;> omega

/-- Numbers stand in the order of their amounts. -/
theorem amount_mono {x y : UnpackedFloat} (hx : Rounded x) (hy : Rounded y)
    (hxf : x.isFinite = true) (hyf : y.isFinite = true) (h : place x ≤ place y) :
    amount x ≤ amount y := by
  cases x with
  | notANumber => cases hxf
  | infinity s => cases hxf
  | zero s =>
    cases y with
    | notANumber => cases hyf
    | infinity t => cases hyf
    | zero t => exact Int.le_refl _
    | finite t n f hn => exact apply_nonneg_of_place hn h _
  | finite s m e hm =>
    have hpos := seat_pos e hm
    cases y with
    | notANumber => cases hyf
    | infinity t => cases hyf
    | zero t =>
      cases s <;> simp only [place, amount, Sign.apply] at h ⊢ <;> omega
    | finite t n f hn =>
      have hpos' := seat_pos f hn
      have hup := magnitude_le hx.1 hy.1 hx.2.1 hy.2.1 hx.2.2 hy.2.2
      have hdown := magnitude_le hy.1 hx.1 hy.2.1 hx.2.1 hy.2.2 hx.2.2
      cases s <;> cases t <;> simp only [place, amount, Sign.apply] at h ⊢
      · have := hdown (by omega)
        omega
      · omega
      · omega
      · have := hup (by omega)
        omega

/-! ## Operations on single precision numbers -/

/-- Places beyond the largest number are those of infinity. -/
def cut (p : Int) : Int := max (-infinitePlace) (min infinitePlace p)

theorem cut_mono {p q : Int} (h : p ≤ q) : cut p ≤ cut q := by
  rw [cut, cut]
  omega

theorem place_saturate {x : UnpackedFloat} (h : Rounded x) (hx : x.isFinite = true) :
    place (saturate x) = cut (place x) := by
  cases x with
  | notANumber => cases hx
  | infinity s => cases hx
  | zero s => rfl
  | finite s m e hm =>
    rw [saturate]
    split
    · rename_i hrange
      have := place_lt_infinitePlace h hrange rfl
      rw [cut]
      omega
    · rename_i hrange
      have hfull := h.2.2.resolve_left (by omega)
      have hseat : infinitePlace ≤ seat m e := by
        rw [infinitePlace, seat]
        omega
      cases s <;> simp only [place, Sign.apply, cut] <;> omega

/-- The single precision number at the place given, or infinity when there is none. -/
structure Lands (r : Float32) (p : Int) : Prop where
  isNaN : r.isNaN = false
  place : place (number r) = cut p

theorem lands_of_standsAt {x : UnpackedFloat} {p : Int} (h : StandsAt x p) {r : Float32}
    (hr : number r = unpack (pack x)) : Lands r p := by
  rw [unpack_pack h.rounded] at hr
  constructor
  · change (number r).isNaN = false
    rw [hr]
    have hfinite := h.finite
    cases x with
    | finite s m e hm =>
      rw [saturate]
      split <;> rfl
    | _ => cases hfinite <;> rfl
  · rw [hr, place_saturate h.rounded h.finite, h.place]

theorem Lands.le {r q : Float32} {p p' : Int} (hr : Lands r p) (hq : Lands q p') (h : p ≤ p') :
    r ≤ q := by
  rw [le_iff hr.isNaN hq.isNaN, hr.place, hq.place]
  exact cut_mono h

variable {x y z : Float32}

theorem rounded_number (x : Float32) : Rounded (number x) := rounded_unpack _

theorem amount_le (hx : x.isFinite = true) (hy : y.isFinite = true) (h : x ≤ y) :
    amount (number x) ≤ amount (number y) := by
  rw [le_iff (isNaN_of_isFinite hx) (isNaN_of_isFinite hy)] at h
  exact amount_mono (rounded_number x) (rounded_number y) hx hy h

theorem lands_add (hx : x.isFinite = true) (hy : y.isFinite = true) :
    Lands (x + y) (roundedPlace 0 (amount (number x) + amount (number y))) :=
  lands_of_standsAt (add_exact (rounded_number x) (rounded_number y) hx hy) rfl

theorem lands_sub (hx : x.isFinite = true) (hy : y.isFinite = true) :
    Lands (x - y) (roundedPlace 0 (amount (number x) - amount (number y))) :=
  lands_of_standsAt (sub_exact (rounded_number x) (rounded_number y) hx hy) rfl

theorem lands_mul (hx : x.isFinite = true) (hy : y.isFinite = true) :
    Lands (x * y) (roundedPlace 149 (amount (number x) * amount (number y))) :=
  lands_of_standsAt (mul_exact (rounded_number x) (rounded_number y) hx hy) rfl

theorem add_le_add_right (hx : x.isFinite = true) (hy : y.isFinite = true)
    (hz : z.isFinite = true) (h : x ≤ y) : x + z ≤ y + z := by
  have := amount_le hx hy h
  exact (lands_add hx hz).le (lands_add hy hz) (roundedPlace_mono 0 (by omega))

theorem sub_le_sub_right (hx : x.isFinite = true) (hy : y.isFinite = true)
    (hz : z.isFinite = true) (h : x ≤ y) : x - z ≤ y - z := by
  have := amount_le hx hy h
  exact (lands_sub hx hz).le (lands_sub hy hz) (roundedPlace_mono 0 (by omega))

theorem mul_le_mul_right (hx : x.isFinite = true) (hy : y.isFinite = true)
    (hz : z.isFinite = true) (hpos : 0 ≤ z) (h : x ≤ y) : x * z ≤ y * z := by
  have hamount := amount_le hx hy h
  have hnonneg : 0 ≤ amount (number z) := amount_le (x := 0) (by decide) hz hpos
  exact (lands_mul hx hz).le (lands_mul hy hz)
    (roundedPlace_mono 149 (Int.mul_le_mul_of_nonneg_right hamount hnonneg))

theorem mul_le_mul_comm (hx : x.isFinite = true) (hy : y.isFinite = true) : x * y ≤ y * x :=
  (lands_mul hx hy).le (lands_mul hy hx) (Int.le_of_eq (by rw [Int.mul_comm]))

theorem le_trans (hxy : x ≤ y) (hyz : y ≤ z) : x ≤ z := by
  have hx := (isNaN_of_le hxy).1
  have hy := (isNaN_of_le hxy).2
  have hz := (isNaN_of_le hyz).2
  rw [le_iff hx hy] at hxy
  rw [le_iff hy hz] at hyz
  rw [le_iff hx hz]
  omega

theorem le_of_not_lt (hx : x.isNaN = false) (hy : y.isNaN = false) (h : ¬y < x) : x ≤ y := by
  rw [lt_iff hy hx] at h
  rw [le_iff hx hy]
  omega

theorem not_lt_of_le (h : x ≤ y) : ¬y < x := by
  obtain ⟨hx, hy⟩ := isNaN_of_le h
  rw [le_iff hx hy] at h
  rw [lt_iff hy hx]
  omega

theorem le_self (hx : x.isNaN = false) : x ≤ x :=
  le_of_not_lt hx hx (lt_irrefl x)

theorem le_maximum_right (x : Float32) (hy : y.isNaN = false) : y ≤ maximum x y := by
  rw [maximum]
  split
  · exact le_self hy
  · rename_i hx
    rw [hy, if_neg Bool.false_ne_true]
    split
    · exact le_self hy
    · rename_i hlt
      exact le_of_not_lt hy (Bool.eq_false_iff.mpr hx) hlt

theorem number_of_not_isFinite (hpos : 0 ≤ x) (hx : x.isFinite = false) :
    number x = .infinity .positive := by
  have hnan := isNaN_of_le hpos
  have hplace : 0 ≤ place (number x) := (le_iff hnan.1 hnan.2).mp hpos
  change (number x).isFinite = false at hx
  cases hn : number x with
  | notANumber =>
    have hnan : (number x).isNaN = false := hnan.2
    rw [hn] at hnan
    cases hnan
  | infinity s =>
    rw [hn] at hplace
    cases s with
    | positive => rfl
    | negative => exact absurd hplace (by decide)
  | _ =>
    rw [hn] at hx
    cases hx

/-- Taking something from a number that is not negative, infinity included, gives no less than
taking it from zero. -/
theorem zero_sub_le (hy : y.isFinite = true) (hpos : 0 ≤ x) : 0 - y ≤ x - y := by
  cases hx : x.isFinite with
  | true => exact sub_le_sub_right (by decide) hx hy hpos
  | false =>
    have hsub : number (x - y) = .infinity .positive := by
      change unpack (pack (sub .binary32 (number x) (number y))) = _
      change (number y).isFinite = true at hy
      rw [number_of_not_isFinite hpos hx]
      cases hn : number y with
      | notANumber => rw [hn] at hy; cases hy
      | infinity s => rw [hn] at hy; cases hy
      | _ => exact unpack_pack trivial
    have hzero := lands_sub (x := 0) (by decide) hy
    have hnan : (number (x - y)).isNaN = false := by rw [hsub]; rfl
    rw [le_iff hzero.isNaN hnan, hzero.place, hsub, cut]
    change _ ≤ (infinitePlace : Int)
    omega

/-- A number is what it is rounded to. -/
theorem lands_self (hx : x.isFinite = true) : Lands x (roundedPlace 0 (amount (number x))) := by
  have hplace := roundedPlace_amount (rounded_number x) hx
  have hbound := place_lt_infinitePlace (rounded_number x) (inRange_unpack _) hx
  refine ⟨isNaN_of_isFinite hx, ?_⟩
  rw [hplace, cut]
  omega

theorem zero_add_le (hx : x.isFinite = true) : 0 + x ≤ x ∧ x ≤ 0 + x := by
  have hzero : amount (number 0) = 0 := by decide
  have hsum := lands_add (x := 0) (by decide) hx
  rw [hzero, Int.zero_add] at hsum
  exact ⟨hsum.le (lands_self hx) (Int.le_refl _), (lands_self hx).le hsum (Int.le_refl _)⟩

theorem zero_le_zero_mul (hx : x.isFinite = true) : 0 ≤ 0 * x := by
  have hzero : amount (number 0) = 0 := by decide
  have hself := lands_self (x := 0) (by decide)
  have hproduct := lands_mul (x := 0) (by decide) hx
  rw [hzero, Int.zero_mul] at hproduct
  rw [hzero] at hself
  exact hself.le hproduct (Int.le_refl _)

theorem roundedSeat_mul_pow (d j : Nat) {n : Nat} (hn : n ≠ 0) :
    roundedSeat (d + j) (n * 2 ^ j) = roundedSeat d n := by
  have hscale : max ((n * 2 ^ j).log2 - 23) (d + j) = max (n.log2 - 23) d + j := by
    rw [log2_mul_two_pow hn]
    omega
  rw [roundedSeat, roundedSeat, hscale, nearest_mul_pow]
  omega

theorem one_mul_le (hx : x.isFinite = true) (hpos : 0 ≤ x) : 1 * x ≤ x := by
  have hone : amount (number 1) = 2 ^ 149 := by decide
  have hnonneg : 0 ≤ amount (number x) := amount_le (x := 0) (by decide) hx hpos
  obtain ⟨n, hn⟩ := Int.eq_ofNat_of_zero_le hnonneg
  have hplace : roundedPlace 149 (2 ^ 149 * (n : Int)) = roundedPlace 0 n := by
    have hcast : 2 ^ 149 * (n : Int) = (n * 2 ^ 149 : Nat) := by
      rw [Int.mul_comm, Int.natCast_mul]
      rfl
    rw [hcast, roundedPlace_natCast, roundedPlace_natCast]
    rcases Nat.eq_zero_or_pos n with rfl | hpos
    · rfl
    · exact congrArg _ (roundedSeat_mul_pow 0 149 (Nat.ne_of_gt hpos))
  have hproduct := lands_mul (x := 1) (by decide) hx
  rw [hone, hn, hplace, ← hn] at hproduct
  exact hproduct.le (lands_self hx) (Int.le_refl _)

/-! ## Quotients of positive numbers -/

theorem plus_of_place_pos {x : UnpackedFloat} (h : 0 < place x) : Plus x := by
  cases x with
  | notANumber => exact absurd h (Int.lt_irrefl 0)
  | zero s => exact absurd h (Int.lt_irrefl 0)
  | infinity s =>
    cases s with
    | positive => rfl
    | negative => simp only [place, Sign.apply] at h; omega
  | finite s m e hm =>
    cases s with
    | positive => rfl
    | negative => simp only [place, Sign.apply] at h; omega

theorem plus_roundWithAccuracy (m : Nat) (e : Int) (a : Accuracy) :
    Plus (roundWithAccuracy .binary32 .positive m e a) := by
  rw [roundWithAccuracy]
  dsimp only
  split <;> exact rfl

theorem plus_div {x : UnpackedFloat} (h : Plus x) {n : Nat} {f : Int} (hn : 0 < n) :
    Plus (div .binary32 x (.finite .positive n f hn)) := by
  cases x with
  | notANumber => cases h
  | zero s => obtain rfl := h; rfl
  | infinity s => obtain rfl := h; rfl
  | finite s m e hm => obtain rfl := h; exact plus_roundWithAccuracy _ _ _

/-- The difference of two numbers in strict order is positive. -/
theorem plus_sub (hx : x.isFinite = true) (hy : y.isFinite = true) (h : x < y) :
    Plus (number (y - x)) := by
  have hamount : amount (number x) < amount (number y) := by
    rw [lt_iff (isNaN_of_isFinite hx) (isNaN_of_isFinite hy)] at h
    rcases Int.lt_or_le (amount (number x)) (amount (number y)) with hlt | hle
    · exact hlt
    · have hplace := roundedPlace_mono 0 hle
      rw [roundedPlace_amount (rounded_number x) hx, roundedPlace_amount (rounded_number y) hy]
        at hplace
      omega
  have hone : roundedPlace 0 1 = 1 := by decide
  have hstep : 1 ≤ amount (number y) - amount (number x) := by omega
  have hplace := roundedPlace_mono 0 hstep
  refine plus_of_place_pos ?_
  rw [(lands_sub hy hx).place, cut, infinitePlace]
  omega

end Helm.Single
