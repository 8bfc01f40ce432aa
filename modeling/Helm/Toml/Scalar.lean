import Helm.Toml.Reader
import Helm.Toml.Value

/-!
# Helm.Toml.Scalar

Readers for the values of TOML that are written without quotes and brackets: numbers, flags and
moments. A moment is a date of the calendar, a time of day or both, the latter with an offset
from universal time if need be.
-/

namespace Helm.Toml

/-! ## Numbers -/

/-- Digits without the underscores between them; none when one stands anywhere else. -/
def plainDigits? (isDigit : Char → Bool) (cs : List Char) : Option (List Char) :=
  let rec go : Bool → List Char → Option (List Char)
    | afterDigit, [] => if afterDigit then some [] else none
    | afterDigit, c :: rest =>
      if c = '_' then if afterDigit then go false rest else none
      else if isDigit c then (go true rest).map (c :: ·)
      else none
  go false cs

/-- Reads a whole number in one of the bases that have a mark. -/
def marked? (base : Nat) (cs : List Char) : Option Int := do
  let isDigit (c : Char) : Bool := (digitValue? c).any (· < base)
  let n ← ofDigits? base (← plainDigits? isDigit cs)
  return n

/-- True for digits that have no zero in front, or are one zero. -/
def leadsWell (digits : List Char) : Bool :=
  match digits with
  | '0' :: _ :: _ => false
  | _ => true

/-- Reads a whole number. -/
def integer? (cs : List Char) : Option Int :=
  match cs with
  | '0' :: 'x' :: rest => marked? 16 rest
  | '0' :: 'o' :: rest => marked? 8 rest
  | '0' :: 'b' :: rest => marked? 2 rest
  | _ => do
    let (negative, body) := splitSign cs
    let digits ← plainDigits? Char.isDigit body
    if !leadsWell digits then none
    let n ← ofDigits? 10 digits
    return if negative then -(n : Int) else n

/-- True for whole numbers of at most 128 bits. -/
def isInRange (n : Int) : Bool :=
  -0x80000000000000000000000000000000 ≤ n && n ≤ 0xffffffffffffffffffffffffffffffff

/-- Reads the mark of an exponent and the exponent, or nothing. -/
def exponent? : List Char → Option Int
  | [] => some 0
  | _ :: more => do
    let (down, digits) := splitSign more
    let n ← ofDigits? 10 (← plainDigits? Char.isDigit digits)
    return if down then -(n : Int) else n

/-- Reads a number with a point or an exponent, or one of the words for special numbers. -/
def decimal? (cs : List Char) : Option Float := do
  let (negative, body) := splitSign cs
  let sign (x : Float) : Float := if negative then -x else x
  if body = ['i', 'n', 'f'] then return sign (Float.ofBits 0x7ff0000000000000)
  if body = ['n', 'a', 'n'] then return Float.ofBits 0x7ff8000000000000
  let isMark (c : Char) : Bool := c == 'e' || c == 'E'
  let number := body.takeWhile fun c => !isMark c
  let whole := number.takeWhile (· ≠ '.')
  let whole ← plainDigits? Char.isDigit whole
  if !leadsWell whole then none
  let fraction ← match number.dropWhile (· ≠ '.') with
    | [] => some []
    | _ :: digits => plainDigits? Char.isDigit digits
  let exponent ← exponent? (body.dropWhile fun c => !isMark c)
  let mantissa ← ofDigits? 10 (whole ++ fraction)
  let x := (Decimal.mk negative mantissa (exponent - fraction.length)).toDouble
  if x.isInf then none else return x

/-! ## Moments -/

/-- Reads digits, of which there have to be so many. -/
def digits? (count : Nat) (cs : List Char) : Option (Nat × List Char) := do
  let digits := cs.takeWhile Char.isDigit
  if digits.length ≠ count then none
  return (← ofDigits? 10 digits, cs.dropWhile Char.isDigit)

/-- Takes a character that passes a test. -/
def mark? (test : Char → Bool) : List Char → Option (List Char)
  | [] => none
  | c :: rest => if test c then some rest else none

/-- True for a year that has a 29th of February. -/
def isLeapYear (year : Nat) : Bool := year % 4 = 0 && (year % 100 ≠ 0 || year % 400 = 0)

/-- The number of days in a month. -/
def daysIn (year month : Nat) : Nat :=
  if month = 2 then (if isLeapYear year then 29 else 28)
  else if [4, 6, 9, 11].contains month then 30
  else 31

/-- Reads a date of the calendar, and gives what follows. -/
def date? (cs : List Char) : Option (List Char) := do
  let (year, cs) ← digits? 4 cs
  let (month, cs) ← digits? 2 (← mark? (· == '-') cs)
  let (day, cs) ← digits? 2 (← mark? (· == '-') cs)
  if month < 1 || 12 < month || day < 1 || daysIn year month < day then none
  return cs

/-- Reads an hour and a minute with a colon between them, and gives what follows. -/
def hourMinute? (cs : List Char) : Option (List Char) := do
  let (hour, cs) ← digits? 2 cs
  let (minute, cs) ← digits? 2 (← mark? (· == ':') cs)
  if 23 < hour || 59 < minute then none
  return cs

/-- Reads a fraction of a second, or nothing, and gives what follows. -/
def fraction? : List Char → Option (List Char)
  | '.' :: c :: rest => if c.isDigit then some (rest.dropWhile Char.isDigit) else none
  | ['.'] => none
  | cs => some cs

/-- Reads a time of day, which may do without seconds, and gives what follows. -/
def time? (cs : List Char) : Option (List Char) := do
  let cs ← hourMinute? cs
  match cs with
  | ':' :: rest =>
    let (second, rest) ← digits? 2 rest
    if 60 < second then none
    fraction? rest
  | _ => return cs

/-- Reads an offset from universal time, or nothing, and gives what follows. -/
def offset? (cs : List Char) : Option (List Char) :=
  match cs with
  | [] => some []
  | c :: rest =>
    if c = 'Z' || c = 'z' then some rest
    else if c = '+' || c = '-' then hourMinute? rest
    else none

/-- Reads a date, a time of day, or both, and gives what follows. -/
def moment? (cs : List Char) : Option (List Char) :=
  match date? cs with
  | some [] => some []
  | some after => do
    offset? (← time? (← mark? (fun c => c == 'T' || c == 't' || c == ' ') after))
  | none => time? cs

/-! ## Scalars -/

/-- The characters of numbers, flags and moments. -/
def isScalarChar (c : Char) : Bool :=
  c.isAlphanum || c == '+' || c == '-' || c == '_' || c == '.' || c == ':'

/-- Reads a number, a flag or a moment. -/
def scalar : Reader Value := do
  let cs ← takeWhile isScalarChar
  let after ← get
  let cs ← match after with
    | ' ' :: d :: _ =>
      if date? cs = some [] && d.isDigit then do
        set (after.drop 1)
        let time ← takeWhile isScalarChar
        pure (cs ++ ' ' :: time)
      else pure cs
    | _ => pure cs
  if cs = ['t', 'r', 'u', 'e'] then return .flag true
  if cs = ['f', 'a', 'l', 's', 'e'] then return .flag false
  if moment? cs = some [] then return .moment
  match integer? cs, decimal? cs with
  | some n, _ => if isInRange n then return .integer n else refuse
  | none, some x => return .decimal x
  | none, none => refuse

end Helm.Toml
