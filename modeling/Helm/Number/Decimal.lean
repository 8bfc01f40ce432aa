import Helm.Number.Single

/-!
# Helm.Number.Decimal

Numbers written in decimal. `Decimal.ofChars?` reads the usual notation with sign, point and
exponent; `Decimal.toSingle` and `Decimal.toDouble` give the nearest floating point number.
`single?` and `natural?` read a whole text as a number, the way settings are given.
-/

namespace Helm

/-- The number `± mantissa * 10 ^ exponent`. -/
structure Decimal where
  negative : Bool
  mantissa : Nat
  exponent : Int
  deriving DecidableEq, Repr

/-- The value of a digit in bases up to sixteen. -/
def digitValue? (c : Char) : Option Nat :=
  if '0' ≤ c ∧ c ≤ '9' then some (c.toNat - '0'.toNat)
  else if 'a' ≤ c ∧ c ≤ 'f' then some (c.toNat - 'a'.toNat + 10)
  else if 'A' ≤ c ∧ c ≤ 'F' then some (c.toNat - 'A'.toNat + 10)
  else none

/-- The number a row of digits stands for in the given base; no digits stand for zero. -/
def ofDigits? (base : Nat) (cs : List Char) : Option Nat :=
  cs.foldl
    (fun total c => do
      let n ← total
      let d ← digitValue? c
      if d < base then some (n * base + d) else none)
    (some 0)

/-- Splits off an optional sign; true means minus. -/
def splitSign : List Char → Bool × List Char
  | '-' :: rest => (true, rest)
  | '+' :: rest => (false, rest)
  | cs => (false, cs)

namespace Decimal

/-- Reads an exponent: an optional sign and at least one digit. -/
def exponent? (cs : List Char) : Option Int :=
  let (negative, digits) := splitSign cs
  if digits.isEmpty then none
  else (ofDigits? 10 digits).map fun n => if negative then -(n : Int) else n

/--
Reads a decimal: an optional sign, digits with at most one point among, before or after them,
and an optional exponent after `e` or `E`. All of the text has to belong to it.
-/
def ofChars? (cs : List Char) : Option Decimal := do
  let (negative, body) := splitSign cs
  let whole := body.takeWhile Char.isDigit
  let rest := body.dropWhile Char.isDigit
  let (fraction, tail) := match rest with
    | '.' :: more => (more.takeWhile Char.isDigit, more.dropWhile Char.isDigit)
    | _ => ([], rest)
  if whole.isEmpty && fraction.isEmpty then none
  let mantissa ← ofDigits? 10 (whole ++ fraction)
  let exponent ← match tail with
    | [] => some 0
    | c :: more => if c == 'e' || c == 'E' then exponent? more else none
  return ⟨negative, mantissa, exponent - fraction.length⟩

/-- One more than the exponent of the leading digit, for a mantissa other than zero. -/
def topPlace (d : Decimal) : Int :=
  (Nat.toDigits 10 d.mantissa).length + d.exponent

/-- The nearest single precision number; too large a decimal becomes an infinity. -/
def toSingle (d : Decimal) : Float32 :=
  let size : Float32 :=
    if d.mantissa = 0 || d.topPlace < -46 then 0
    else if d.topPlace > 40 then Single.infinity
    else Float32.ofScientific d.mantissa (d.exponent < 0) d.exponent.natAbs
  if d.negative then -size else size

/-- The nearest double precision number; too large a decimal becomes an infinity. -/
def toDouble (d : Decimal) : Float :=
  let size : Float :=
    if d.mantissa = 0 || d.topPlace < -325 then 0
    else if d.topPlace > 310 then Float.ofBits 0x7ff0000000000000
    else Float.ofScientific d.mantissa (d.exponent < 0) d.exponent.natAbs
  if d.negative then -size else size

/--
Reads a whole text as a single precision number. Besides decimals, the words for infinity and
for a missing number are taken in any case, with an optional sign.
-/
def single? (text : String) : Option Float32 :=
  let cs := text.toList
  let (negative, body) := splitSign cs
  let word := String.ofList (body.map Char.toLower)
  if word == "inf" || word == "infinity" then
    some (if negative then -Single.infinity else Single.infinity)
  else if word == "nan" then some Single.nan
  else (ofChars? cs).map toSingle

/-- Reads a whole text as a natural number below `bound`; a plus sign may stand in front. -/
def natural? (bound : Nat) (text : String) : Option Nat := do
  let digits := match text.toList with
    | '+' :: rest => rest
    | cs => cs
  if digits.isEmpty || !digits.all Char.isDigit then none
  let n ← ofDigits? 10 digits
  if n < bound then some n else none

end Decimal

end Helm
