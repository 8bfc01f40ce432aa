import Helm.Number.Decimal
import Helm.Ron.Reader

/-!
# Helm.Ron.Number

Readers for the flags and numbers of RON. Numbers are read for the type that is expected, with
`single` and `natural`, or passed over with `skipRange` where nothing is expected. A number that
is passed over still has to be well-formed and in the range of the type behind it.
-/

namespace Helm.Ron

/-! ## Words -/

/-- Reads `true` or `false`. -/
def flag : Reader Bool := do
  if ← acceptWord "true" then return true
  else if ← acceptWord "false" then return false
  else refuse

/-- Takes the first of some words that is in front. -/
def acceptAny : List String → Reader Bool
  | [] => return false
  | word :: rest => do
    if ← acceptWord word then return true else acceptAny rest

/-! ## Floating point numbers -/

/-- The characters of a floating point number. -/
def isFloatChar (c : Char) : Bool :=
  c.isDigit || c == 'e' || c == 'E' || c == '.' || c == '+' || c == '-' || c == '_'

/-- The characters of a floating point number in front; two points in a row end it. -/
def floatChars : List Char → List Char
  | [] => []
  | '.' :: '.' :: _ => []
  | c :: rest => if isFloatChar c then c :: floatChars rest else []

/-- Takes the characters of a floating point number. -/
def takeFloat : Reader (List Char) := do
  let cs ← get
  let number := floatChars cs
  set (cs.drop number.length)
  return number

/--
A floating point number without its underscores, which may stand anywhere after the first digit
but not right behind a point; `allowed` tells whether one may come first.
-/
def withoutUnderscores? (allowed : Bool) : List Char → Option (List Char)
  | [] => some []
  | '_' :: rest => if allowed then withoutUnderscores? true rest else none
  | '.' :: rest => ('.' :: ·) <$> withoutUnderscores? false rest
  | c :: rest =>
    (c :: ·) <$> withoutUnderscores? (allowed || c.isDigit || c == 'e' || c == 'E') rest

/-- A floating point number in decimal. -/
def decimal? (cs : List Char) : Option Decimal :=
  (withoutUnderscores? false cs).bind Decimal.ofChars?

/-- The words for numbers that have no digits. -/
def specialNumbers : List (String × Float32) :=
  [("inf", Single.infinity), ("+inf", Single.infinity), ("-inf", -Single.infinity),
   ("NaN", Single.nan), ("+NaN", Single.nan), ("-NaN", Single.nan)]

/-- Takes the first of the special numbers that is in front, with or without its type. -/
def acceptSpecial : List (String × Float32) → Reader (Option Float32)
  | [] => return none
  | (word, value) :: rest => do
    if ← acceptWord word then return some value
    else if ← acceptWord (word ++ "f32") then return some value
    else acceptSpecial rest

/-- Reads a number in single precision, which may have its type behind it. -/
def single : Reader Float32 := do
  match ← acceptSpecial specialNumbers with
  | some value => return value
  | none =>
    let digits ← takeFloat
    let _ ← acceptWord "f32"
    if ← acceptWord "f64" then refuse
    match decimal? digits with
    | some d => return d.toSingle
    | none => refuse

/-! ## Whole numbers -/

/-- The characters of an integer after the mark of its base. -/
def isIntegerChar (c : Char) : Bool := (digitValue? c).isSome || c == '_'

/-- Takes the mark of a base other than ten. -/
def acceptBase : Reader Nat := do
  if ← acceptText "0b" then return 2
  else if ← acceptText "0o" then return 8
  else if ← acceptText "0x" then return 16
  else return 10

/-- Takes a sign; true means minus. -/
def acceptSign : Reader Bool := do
  if ← accept '-' then return true
  let _ ← accept '+'
  return false

/-- The number that digits stand for in a base, with underscores anywhere but in front. -/
def whole? (base : Nat) (digits : List Char) : Option Nat :=
  if digits.isEmpty || digits.head? = some '_' then none
  else ofDigits? base (digits.filter (· ≠ '_'))

/-- Reads a natural number below `2 ^ bits`, which may have its type behind it. -/
def natural (bits : Nat) : Reader Nat := do
  let negative ← acceptSign
  let base ← acceptBase
  let digits ← takeWhile isIntegerChar
  let _ ← acceptWord ("u" ++ toString bits)
  match whole? base digits with
  | some n => if n < 1 <<< bits && (!negative || n = 0) then return n else refuse
  | none => refuse

/-! ## Numbers of any type -/

/-- The integer types that may stand behind a number, with their least and greatest values. -/
def integerTypes : List (String × Int × Int) :=
  [("i8", -0x80, 0x7f), ("i16", -0x8000, 0x7fff), ("i32", -0x80000000, 0x7fffffff),
   ("i64", -0x8000000000000000, 0x7fffffffffffffff), ("u8", 0, 0xff), ("u16", 0, 0xffff),
   ("u32", 0, 0xffffffff), ("u64", 0, 0xffffffffffffffff)]

/-- Takes the first of some integer types that is in front, and gives its bounds. -/
def acceptType : List (String × Int × Int) → Reader (Option (Int × Int))
  | [] => return none
  | (word, bounds) :: rest => do
    if ← acceptWord word then return some bounds else acceptType rest

/-- The bounds of whole numbers without a type. -/
def widestBounds : Int × Int := (-0x8000000000000000, 0xffffffffffffffff)

/-- The special numbers without and with their types. -/
def specialWords : List String :=
  specialNumbers.flatMap fun special => [special.1, special.1 ++ "f32", special.1 ++ "f64"]

/-- Skips a floating point number. -/
def skipFloat : Reader Unit := do
  if (decimal? (← takeFloat)).isNone then refuse
  let _ ← acceptAny ["f32", "f64"]

/--
Skips a number. A whole number has to be in the bounds of its type. One in base ten without a
type may be of any size, because it counts as floating point once it is too large.
-/
def skipNumber : Reader Unit := do
  if ← acceptAny specialWords then return
  let before ← get
  let negative ← acceptSign
  let base ← acceptBase
  let digits ← takeWhile isIntegerChar
  let bounds? ← acceptType integerTypes
  match whole? base digits with
  | some n =>
    if bounds?.isNone && base = 10 then
      set before
      skipFloat
    else
      let (least, greatest) := bounds?.getD widestBounds
      let signed : Int := if negative then -(n : Int) else n
      if signed < least || greatest < signed then refuse
  | none =>
    if base ≠ 10 then refuse
    set before
    skipFloat

/-- True when a number begins the text. -/
def startsNumber (cs : List Char) : Bool :=
  let signs (c : Char) : Bool := c.isDigit || c == '+' || c == '-' || c == '.'
  cs.head?.any signs || specialWords.any fun word => startsWord word cs

end Helm.Ron
