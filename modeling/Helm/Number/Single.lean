/-!
# Helm.Number.Single

Single precision operations that core does not offer: the exact remainder, the maximum and
minimum that pass over a missing number, the total order by bit pattern, and the split of a
finite number into a signed multiple of a power of two. All of them work on the bit pattern,
so they can be evaluated in proofs.
-/

namespace Helm.Single

/-- The number whose bit pattern is `bits`. -/
abbrev ofBits (bits : UInt32) : Float32 := Float32.ofBits bits

/-- Not a number. -/
def nan : Float32 := ofBits 0x7fc00000

/-- Positive infinity. -/
def infinity : Float32 := ofBits 0x7f800000

/-- The distance from one to the next number above it. -/
def epsilon : Float32 := ofBits 0x34000000

/-- True for a number with its sign bit set, minus zero included. -/
def signBit (x : Float32) : Bool := x.toBits >>> 31 == 1

/-- The exponent field. -/
def exponentField (x : Float32) : Nat := (x.toBits >>> 23 &&& 0xff).toNat

/-- The fraction field. -/
def fractionField (x : Float32) : Nat := (x.toBits &&& 0x7fffff).toNat

/--
The magnitude of a finite number is `mantissa * 2 ^ exponent`; this is the pair, with the
exponent never below -149.
-/
def magnitude (x : Float32) : Nat × Int :=
  if exponentField x = 0 then (fractionField x, -149)
  else (fractionField x + 0x800000, (exponentField x : Int) - 150)

/--
The number `± mantissa * 2 ^ exponent`, for a mantissa below `2 ^ 24` and an exponent of at
least -149 that keep the product in range. The result is exact.
-/
def ofMagnitude (negative : Bool) (mantissa : Nat) (exponent : Int) : Float32 :=
  let room := if mantissa = 0 then 0 else 23 - mantissa.log2
  let shift := min room (exponent + 149).toNat
  let scaled := mantissa <<< shift
  let field := if scaled < 0x800000 then 0 else (exponent - shift + 150).toNat
  let bits := field <<< 23 + scaled % 0x800000
  ofBits (UInt32.ofNat (if negative then bits + 0x80000000 else bits))

/--
The remainder of `x` by `y` after truncated division. It is exact, has the sign of `x`, and is
not a number when `x` is infinite or `y` is zero.
-/
def remainder (x y : Float32) : Float32 :=
  if !x.isFinite || y.isNaN || y == 0 then nan
  else if y.isInf || x == 0 then x
  else
    let (m, e) := magnitude x
    let (n, f) := magnitude y
    let low := min e f
    let rest := (m <<< (e - low).toNat) % (n <<< (f - low).toNat)
    ofMagnitude (signBit x) rest low

/-- The larger of two numbers; the other one when one of them is not a number. -/
def maximum (x y : Float32) : Float32 :=
  if x.isNaN then y else if y.isNaN then x else if x < y then y else x

/-- The smaller of two numbers; the other one when one of them is not a number. -/
def minimum (x y : Float32) : Float32 :=
  if x.isNaN then y else if y.isNaN then x else if y < x then y else x

/-- Position of a number in the total order by bit pattern: minus zero lies just below zero. -/
def rank (x : Float32) : Int :=
  let low := (x.toBits &&& 0x7fffffff).toNat
  if signBit x then -(low : Int) - 1 else low

/-- The total order by `rank`. -/
def totalLE (x y : Float32) : Bool := rank x ≤ rank y

theorem totalLE_iff {x y : Float32} : totalLE x y = true ↔ rank x ≤ rank y :=
  decide_eq_true_iff

theorem totalLE_trans (x y z : Float32) (hxy : totalLE x y = true)
    (hyz : totalLE y z = true) : totalLE x z = true := by
  rw [totalLE_iff] at *
  omega

theorem totalLE_total (x y : Float32) : (totalLE x y || totalLE y x) = true := by
  simp only [Bool.or_eq_true, totalLE_iff]
  omega

end Helm.Single
