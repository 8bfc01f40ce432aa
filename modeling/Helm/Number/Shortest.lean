import Helm.Number.Single

/-!
# Helm.Number.Shortest

The text of a single precision number with the fewest digits that read back as it. Among the
decimals that round to the number, `shortest` takes one on the coarsest power of ten that has
any, and of two such the nearer one. Positional notation is used from 0.0001 up to, but not
including, 10^16.
-/

namespace Helm.Shortest

/-- The grids that are tried, coarsest first, as exponents of ten. -/
def grids : List Int := (List.range 86).map fun (i : Nat) => 39 - (i : Int)

/--
A fraction of natural numbers: the number is `num / den`, and the decimals that round to it lie
between `low / den` and `high / den`, the ends included when `closed`.
-/
structure Interval where
  low : Nat
  num : Nat
  high : Nat
  den : Nat
  closed : Bool

/-- The rounding interval of the magnitude of a finite number other than zero. -/
def Interval.ofSingle (x : Float32) : Interval :=
  let (m, e) := Single.magnitude x
  let below := if m = 0x800000 && e > -149 then 1 else 2
  let up := 1 <<< (e - 2).toNat
  { low := (4 * m - below) * up
    num := 4 * m * up
    high := (4 * m + 2) * up
    den := 1 <<< (2 - e).toNat
    closed := m % 2 = 0 }

/-- Ten to the power of an exponent, which counts as zero when it is negative. -/
def tenTo (exponent : Int) : Nat := Nat.pow 10 exponent.toNat

/-- True when `digits * 10 ^ grid` rounds to the number. -/
def Interval.holds (i : Interval) (digits : Nat) (grid : Int) : Bool :=
  let point := digits * tenTo grid * i.den
  let scale := tenTo (-grid)
  if i.closed then i.low * scale ≤ point && point ≤ i.high * scale
  else i.low * scale < point && point < i.high * scale

/-- The digits on one grid that round to the number, the nearer of the two neighbours. -/
def Interval.onGrid? (i : Interval) (grid : Int) : Option Nat :=
  let num := i.num * tenTo (-grid)
  let den := i.den * tenTo grid
  let down := num / den
  let up := down + 1
  let downHolds := down ≠ 0 && i.holds down grid
  if i.holds up grid then
    if downHolds && 2 * num < (down + up) * den then some down else some up
  else if downHolds then some down
  else none

/-- The fewest digits and their exponent of ten for a finite number other than zero. -/
def shortest (x : Float32) : Nat × Int :=
  let i := Interval.ofSingle x
  (grids.findSome? fun grid => (i.onGrid? grid).map (·, grid)).getD (0, 0)

/-- Lays digits out positionally, with at least one digit on either side of the point. -/
def positional (digits : List Char) (exponent : Int) : List Char :=
  let place := digits.length + exponent
  if 0 ≤ exponent then digits ++ List.replicate exponent.toNat '0' ++ ['.', '0']
  else if 0 < place then digits.take place.toNat ++ '.' :: digits.drop place.toNat
  else '0' :: '.' :: List.replicate (-place).toNat '0' ++ digits

/-- Lays digits out with one digit before the point and an exponent. -/
def scientific (digits : List Char) (exponent : Int) : List Char :=
  let power := (digits.length + exponent - 1 : Int)
  let sign := if power < 0 then ['-'] else []
  let fraction := match digits.drop 1 with
    | [] => []
    | more => '.' :: more
  digits.take 1 ++ fraction ++ 'e' :: sign ++ Nat.toDigits 10 power.natAbs

/-- The shortest text of a number. -/
def text (x : Float32) : String :=
  if x.isNaN then "NaN"
  else
    let sign := if Single.signBit x then ['-'] else []
    let body :=
      if x.isInf then ['i', 'n', 'f']
      else if x == 0 then ['0', '.', '0']
      else
        let (mantissa, exponent) := shortest x
        let digits := Nat.toDigits 10 mantissa
        let place := digits.length + exponent
        if -3 ≤ place && place ≤ 16 then positional digits exponent
        else scientific digits exponent
    String.ofList (sign ++ body)

/-- The texts of a list of numbers, in brackets. -/
def listText (xs : List Float32) : String :=
  "[" ++ ", ".intercalate (xs.map text) ++ "]"

end Helm.Shortest
