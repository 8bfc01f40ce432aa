import Helm.Proofs.Number.Packing

/-!
# Helm.Proofs.Number.Order

The order of single precision numbers as an order of integers. `place` counts the numbers between
zero and a number, the number included, with the number's sign; both zeros are at place zero and
infinity is one place above the largest number. Apart from what is not a number, comparing two
numbers is comparing their places (`le_iff`, `lt_iff`).
-/

namespace Helm.Single

open Float.Model (Format UnpackedFloat)
open Float.Model.UnpackedFloat (Sign)

/-- The place of a positive number among all of them. -/
def seat (m : Nat) (e : Int) : Nat := (e + 149).toNat * 2 ^ 23 + m

/-- The place of infinity. -/
def infinitePlace : Nat := 255 * 2 ^ 23

/-- The place of a number, counted from zero. -/
def place : UnpackedFloat → Int
  | .finite s m e _ => s.apply (seat m e)
  | .zero _ => 0
  | .infinity s => s.apply infinitePlace
  | .notANumber => 0

theorem seat_lt_infinitePlace {m : Nat} {e : Int} (hm : m < 2 ^ 24) (he : e ≤ 104) :
    seat m e < infinitePlace := by
  rw [seat, infinitePlace]
  omega

/-- A larger exponent goes with a larger place, whatever the mantissas. -/
theorem seat_lt_of_exponent_lt {m n : Nat} {e f : Int} (hm : m < 2 ^ 24) (he : -149 ≤ e)
    (hn : f = -149 ∨ 2 ^ 23 ≤ n) (hef : e < f) : seat m e < seat n f := by
  have hn : 2 ^ 23 ≤ n := hn.resolve_left (by omega)
  have hstep : (e + 149).toNat + 1 ≤ (f + 149).toNat := by omega
  rw [seat, seat]
  omega

theorem compare_seat {m n : Nat} {e f : Int} (hm : m < 2 ^ 24) (hn : n < 2 ^ 24)
    (he : -149 ≤ e) (hf : -149 ≤ f) (hem : e = -149 ∨ 2 ^ 23 ≤ m) (hfn : f = -149 ∨ 2 ^ 23 ≤ n) :
    compare (seat m e) (seat n f) = (compare e f).then (compare m n) := by
  rcases Int.lt_trichotomy e f with h | rfl | h
  · have hseat := seat_lt_of_exponent_lt hm he hfn h
    rw [Int.compare_eq_lt.mpr h, Nat.compare_eq_lt.mpr hseat]; rfl
  · rw [Int.compare_eq_eq.mpr rfl, Ordering.eq_then]
    rw [seat, seat]
    rcases Nat.lt_trichotomy m n with h | rfl | h
    · rw [Nat.compare_eq_lt.mpr h, Nat.compare_eq_lt.mpr (by omega)]
    · rw [Nat.compare_eq_eq.mpr rfl, Nat.compare_eq_eq.mpr rfl]
    · rw [Nat.compare_eq_gt.mpr h, Nat.compare_eq_gt.mpr (by omega)]
  · have hseat := seat_lt_of_exponent_lt hn hf hem h
    rw [Int.compare_eq_gt.mpr h, Nat.compare_eq_gt.mpr hseat]; rfl

theorem seat_pos {m : Nat} (e : Int) (hm : 0 < m) : 0 < seat m e :=
  Nat.lt_of_lt_of_le hm (Nat.le_add_left ..)

theorem place_lt_infinitePlace {x : UnpackedFloat} (h : Rounded x) (hx : InRange x)
    (hfinite : x.isFinite = true) : -infinitePlace < place x ∧ place x < infinitePlace := by
  cases x with
  | notANumber => cases hfinite
  | infinity s => cases hfinite
  | zero s => simp only [place, infinitePlace]; omega
  | finite s m e hm =>
    have hseat := seat_lt_infinitePlace h.1 hx
    cases s <;> simp only [place, Sign.apply] <;> omega

theorem compare_natCast (a b : Nat) : compare (a : Int) (b : Int) = compare a b := by
  rcases Nat.lt_trichotomy a b with h | h | h
  · rw [Nat.compare_eq_lt.mpr h, Int.compare_eq_lt.mpr (by omega)]
  · rw [Nat.compare_eq_eq.mpr h, Int.compare_eq_eq.mpr (by omega)]
  · rw [Nat.compare_eq_gt.mpr h, Int.compare_eq_gt.mpr (by omega)]

theorem compare_neg_natCast (a b : Nat) :
    compare (-(a : Int)) (-(b : Int)) = (compare a b).swap := by
  rw [Nat.compare_swap, ← compare_natCast]
  rcases Nat.lt_trichotomy a b with h | h | h
  · rw [Int.compare_eq_gt.mpr (by omega), Int.compare_eq_gt.mpr (by omega)]
  · rw [Int.compare_eq_eq.mpr (by omega), Int.compare_eq_eq.mpr (by omega)]
  · rw [Int.compare_eq_lt.mpr (by omega), Int.compare_eq_lt.mpr (by omega)]

theorem some_lt {a b : Int} (h : a < b) : some Ordering.lt = some (compare a b) :=
  congrArg some (Int.compare_eq_lt.mpr h).symm

theorem some_gt {a b : Int} (h : b < a) : some Ordering.gt = some (compare a b) :=
  congrArg some (Int.compare_eq_gt.mpr h).symm

/-- Comparing two numbers is comparing their places. -/
theorem compare_eq {x y : UnpackedFloat} (hx : Rounded x) (hx' : InRange x) (hy : Rounded y)
    (hy' : InRange y) (hxn : x.isNaN = false) (hyn : y.isNaN = false) :
    x.compare y = some (compare (place x) (place y)) := by
  cases x with
  | notANumber => cases hxn
  | infinity s =>
    cases y with
    | notANumber => cases hyn
    | infinity t => cases s <;> cases t <;> rfl
    | zero t => cases s <;> rfl
    | finite t n f hn =>
      have hbound := place_lt_infinitePlace hy hy' rfl
      cases s with
      | positive => exact some_gt hbound.2
      | negative => exact some_lt hbound.1
  | zero s =>
    cases y with
    | notANumber => cases hyn
    | infinity t => cases t <;> rfl
    | zero t => rfl
    | finite t n f hn =>
      have hpos := Int.natCast_pos.mpr (seat_pos f hn)
      cases t with
      | positive => exact some_lt hpos
      | negative => exact some_gt (Int.neg_neg_of_pos hpos)
  | finite s m e hm =>
    have hpos := Int.natCast_pos.mpr (seat_pos e hm)
    cases y with
    | notANumber => cases hyn
    | infinity t =>
      have hbound := place_lt_infinitePlace hx hx' rfl
      cases s <;> cases t
      · exact some_gt hbound.1
      · exact some_lt hbound.2
      · exact some_gt hbound.1
      · exact some_lt hbound.2
    | zero t =>
      cases s with
      | positive => exact some_gt hpos
      | negative => exact some_lt (Int.neg_neg_of_pos hpos)
    | finite t n f hn =>
      have hpos' := Int.natCast_pos.mpr (seat_pos f hn)
      have hseat := compare_seat hx.1 hy.1 hx.2.1 hy.2.1 hx.2.2 hy.2.2
      cases s <;> cases t
      · simp only [UnpackedFloat.compare, place, Sign.apply, compare_neg_natCast, hseat]
      · exact some_lt (Int.lt_trans (Int.neg_neg_of_pos hpos) hpos')
      · exact some_gt (Int.lt_trans (Int.neg_neg_of_pos hpos') hpos)
      · simp only [UnpackedFloat.compare, place, Sign.apply, compare_natCast, hseat]

/-! ## Bit patterns -/

/-- Without the sign bit, the pattern of a finite number is its place. -/
theorem place_unpack {bits : BitVec 32} (h : bits.toNat < infinitePlace) :
    (unpack bits).isFinite = true ∧ place (unpack bits) = bits.toNat := by
  have hexponent := toNat_unpackExponent bits
  have hmantissa := toNat_unpackMantissa bits
  rw [infinitePlace] at h
  rw [unpack, UnpackedFloat.unpack, unpackSign_of_lt (by omega)]
  split
  · rename_i hmax
    rw [hmax] at hexponent
    simp at hexponent
    omega
  · split
    · rename_i hzero
      rw [hzero] at hexponent
      split
      · rename_i hm
        rw [hm] at hmantissa
        simp at *
        refine ⟨rfl, ?_⟩
        simp [place]
        omega
      · refine ⟨rfl, ?_⟩
        simp [place, hzero, Format.exponentBias, Sign.ofBitVec, Sign.apply, seat] at *
        omega
    · rename_i hzero
      have hzero := toNat_ne_of_ne hzero
      refine ⟨rfl, ?_⟩
      simp only [place, toNat_leading, Format.exponentBias, seat, hexponent, hmantissa]
      simp [Sign.ofBitVec, Sign.apply] at *
      omega

theorem toNat_lt_of_isFinite {bits : BitVec 32} (h : bits.toNat < 2 ^ 31)
    (hfinite : (unpack bits).isFinite = true) : bits.toNat < infinitePlace := by
  rcases Nat.lt_or_ge bits.toNat infinitePlace with hlt | hge
  · exact hlt
  · rw [infinitePlace] at hge
    have hmax : @UnpackedFloat.unpackExponent .binary32 bits = -1#8 := by
      apply BitVec.eq_of_toNat_eq
      rw [toNat_unpackExponent]
      show _ = 255
      omega
    rw [unpack, UnpackedFloat.unpack] at hfinite
    simp only [if_pos hmax] at hfinite
    split at hfinite <;> cases hfinite

/-! ## Single precision -/

/-- The number that a single precision number is. -/
def number (x : Float32) : UnpackedFloat := unpack x.toBits.toBitVec

variable {x y z : Float32}

theorem isNaN_of_isFinite (h : x.isFinite = true) : x.isNaN = false := by
  change (number x).isFinite = true at h
  change (number x).isNaN = false
  cases hx : number x with
  | notANumber => rw [hx] at h; cases h
  | _ => rfl

theorem compare_number (hx : x.isNaN = false) (hy : y.isNaN = false) :
    (number x).compare (number y) = some (compare (place (number x)) (place (number y))) :=
  compare_eq (rounded_unpack _) (inRange_unpack _) (rounded_unpack _) (inRange_unpack _) hx hy

theorem le_iff_compare : x ≤ y ↔ ((number x).compare (number y)).any (·.isLE) = true :=
  decide_eq_true_iff

theorem lt_iff_compare : x < y ↔ ((number x).compare (number y) == some .lt) = true :=
  decide_eq_true_iff

theorem le_iff (hx : x.isNaN = false) (hy : y.isNaN = false) :
    x ≤ y ↔ place (number x) ≤ place (number y) := by
  rw [le_iff_compare, compare_number hx hy, Option.any_some, Int.isLE_compare]

theorem lt_iff (hx : x.isNaN = false) (hy : y.isNaN = false) :
    x < y ↔ place (number x) < place (number y) := by
  rw [lt_iff_compare, compare_number hx hy, beq_iff_eq, Option.some.injEq, Int.compare_eq_lt]

/-- What is not a number is not below anything, nor above. -/
theorem isNaN_of_compare {o : Ordering} (h : (number x).compare (number y) = some o) :
    x.isNaN = false ∧ y.isNaN = false := by
  change (number x).isNaN = false ∧ (number y).isNaN = false
  cases hx : number x with
  | notANumber => rw [hx] at h; cases h
  | _ =>
    cases hy : number y with
    | notANumber => rw [hx, hy] at h; cases h
    | _ => exact ⟨rfl, rfl⟩

theorem isNaN_of_le (h : x ≤ y) : x.isNaN = false ∧ y.isNaN = false := by
  rw [le_iff_compare, Option.any_eq_true] at h
  obtain ⟨o, ho, -⟩ := h
  exact isNaN_of_compare ho

theorem isNaN_of_lt (h : x < y) : x.isNaN = false ∧ y.isNaN = false := by
  rw [lt_iff_compare, beq_iff_eq] at h
  exact isNaN_of_compare h

theorem lt_irrefl (x : Float32) : ¬x < x := by
  rw [lt_iff_compare]
  cases hx : x.isNaN with
  | false => simp [compare_number hx hx]
  | true =>
    change (number x).isNaN = true at hx
    cases hn : number x with
    | notANumber => exact Bool.false_ne_true
    | _ => rw [hn] at hx; cases hx

theorem lt_of_not_le (hx : x.isFinite = true) (hy : y.isFinite = true) (h : ¬y ≤ x) : x < y := by
  rw [le_iff (isNaN_of_isFinite hy) (isNaN_of_isFinite hx)] at h
  rw [lt_iff (isNaN_of_isFinite hx) (isNaN_of_isFinite hy)]
  omega

theorem le_of_lt (hx : x.isFinite = true) (hy : y.isFinite = true) (h : x < y) : x ≤ y := by
  rw [lt_iff (isNaN_of_isFinite hx) (isNaN_of_isFinite hy)] at h
  rw [le_iff (isNaN_of_isFinite hx) (isNaN_of_isFinite hy)]
  omega

theorem isFinite_iff (hx : x.isNaN = false) :
    x.isFinite = true ↔
      -infinitePlace < place (number x) ∧ place (number x) < infinitePlace := by
  constructor
  · intro h
    exact place_lt_infinitePlace (rounded_unpack _) (inRange_unpack _) h
  · intro h
    change (number x).isFinite = true
    change (number x).isNaN = false at hx
    cases hn : number x with
    | notANumber => rw [hn] at hx; cases hx
    | infinity s =>
      rw [hn] at h
      cases s <;> simp only [place, Sign.apply] at h <;> omega
    | _ => rfl

theorem not_le_of_lt (hx : x.isFinite = true) (hy : y.isFinite = true) (h : x < y) : ¬y ≤ x := by
  rw [lt_iff (isNaN_of_isFinite hx) (isNaN_of_isFinite hy)] at h
  rw [le_iff (isNaN_of_isFinite hy) (isNaN_of_isFinite hx)]
  omega

/-- Between two finite numbers there are finite numbers only. -/
theorem isFinite_of_between (hx : x.isFinite = true) (hz : z.isFinite = true) (hxy : x ≤ y)
    (hyz : y ≤ z) : y.isFinite = true := by
  have hy := (isNaN_of_le hxy).2
  have hlow := (isFinite_iff (isNaN_of_isFinite hx)).mp hx
  have hhigh := (isFinite_iff (isNaN_of_isFinite hz)).mp hz
  rw [le_iff (isNaN_of_isFinite hx) hy] at hxy
  rw [le_iff hy (isNaN_of_isFinite hz)] at hyz
  rw [isFinite_iff hy]
  omega

/-! ## Numbers by their pattern -/

theorem number_ofBits (bits : UInt32) : number (ofBits bits) = unpack bits.toBitVec :=
  (unpack_pack (rounded_unpack _)).trans (saturate_of_inRange (inRange_unpack _))

theorem isFinite_ofBits {bits : UInt32} (h : bits.toNat < infinitePlace) :
    (ofBits bits).isFinite = true := by
  change (number (ofBits bits)).isFinite = true
  rw [number_ofBits]
  exact (place_unpack h).1

/-- Without the sign bit, patterns are in the order of the numbers. -/
theorem ofBits_le {low high : UInt32} (hhigh : high.toNat < infinitePlace)
    (h : low.toNat ≤ high.toNat) : ofBits low ≤ ofBits high := by
  have hlow : low.toNat < infinitePlace := Nat.lt_of_le_of_lt h hhigh
  rw [le_iff (isNaN_of_isFinite (isFinite_ofBits hlow)) (isNaN_of_isFinite (isFinite_ofBits hhigh)),
    number_ofBits, number_ofBits, (place_unpack hlow).2, (place_unpack hhigh).2]
  exact Int.ofNat_le.mpr h

/-! ## Operations that stay finite -/

theorem maximum_eq_or (x y : Float32) : maximum x y = x ∨ maximum x y = y := by
  rw [maximum]
  split
  · exact .inr rfl
  · split
    · exact .inl rfl
    · split
      · exact .inr rfl
      · exact .inl rfl

theorem maximum_of_lt (hx : x.isFinite = true) (hy : y.isFinite = true) (h : x < y) :
    maximum y x = y := by
  have hx := isNaN_of_isFinite hx
  have hy := isNaN_of_isFinite hy
  have hnot : ¬y < x := by
    intro h'
    rw [lt_iff hx hy] at h
    rw [lt_iff hy hx] at h'
    omega
  rw [maximum, if_neg (Bool.eq_false_iff.mp hy), if_neg (Bool.eq_false_iff.mp hx), if_neg hnot]

theorem isFinite_maximum (hx : x.isFinite = true) (hy : y.isFinite = true) :
    (maximum x y).isFinite = true := by
  rcases maximum_eq_or x y with h | h <;> rw [h]
  · exact hx
  · exact hy

theorem number_abs (x : Float32) : number x.abs = (number x).abs := by
  have hround : Rounded (number x).abs := by
    have h := rounded_unpack x.toBits.toBitVec
    rw [← number] at h
    cases hn : number x <;> rw [hn] at h <;> exact h
  have hrange : InRange (number x).abs := by
    have h := inRange_unpack x.toBits.toBitVec
    rw [← number] at h
    cases hn : number x <;> rw [hn] at h <;> exact h
  exact (unpack_pack hround).trans (saturate_of_inRange hrange)

theorem isFinite_abs (hx : x.isFinite = true) : x.abs.isFinite = true := by
  change (number x).isFinite = true at hx
  change (number x.abs).isFinite = true
  rw [number_abs]
  cases hn : number x <;> rw [hn] at hx <;> exact hx

end Helm.Single
