import Helm.Number.Decimal
import Helm.Ron.Reader

/-!
# Helm.Ron.Text

Readers for what RON writes in quotes: texts, characters, and rows of bytes. They differ in what
an escape for a byte may stand for; `Quoting` tells them apart. A backslash at the end of a line
swallows the end of the line and the blank space that the next one begins with.
-/

namespace Helm.Ron

/-! ## Escapes -/

/-- What is in the quotes. -/
inductive Quoting where
  /-- Text, in which a character may be written as the escapes of its bytes. -/
  | text
  /-- A single character, which may be written as an escape if it is one byte. -/
  | character
  /-- Bytes, each of which may be written as an escape. -/
  | bytes
  deriving DecidableEq, Repr

/-- Reads two digits of base sixteen. -/
def hexPair : List Char → Option (Nat × List Char)
  | a :: b :: rest => do
    let high ← digitValue? a
    let low ← digitValue? b
    return (high * 16 + low, rest)
  | _ => none

/--
Reads bytes, each written as an escape, until they make up a character. There may be at most
`room` of them.
-/
def spelledChar? : Nat → List Nat → List Char → Option (Char × List Char)
  | 0, _, _ => none
  | room + 1, bytes, '\\' :: 'x' :: cs => do
    let (byte, rest) ← hexPair cs
    let all := bytes ++ [byte]
    match String.fromUTF8? ⟨(all.map UInt8.ofNat).toArray⟩ with
    | some text => return (text.toList.headD ' ', rest)
    | none => spelledChar? room all rest
  | _ + 1, _, _ => none

/-- Reads the digits of a code point in braces, from behind the opening one. -/
def codePoint? (cs : List Char) : Option (Char × List Char) := do
  let digits := cs.takeWhile (· ≠ '}')
  let code ← ofDigits? 16 digits
  if digits.isEmpty || 6 < digits.length || !code.isValidChar then none
  match cs.dropWhile (· ≠ '}') with
  | '}' :: rest => some (Char.ofNat code, rest)
  | _ => none

/-- Reads the escape after a backslash: the character it stands for and what follows. -/
def escape? (quoting : Quoting) : List Char → Option (Char × List Char)
  | 'n' :: rest => some ('\n', rest)
  | 'r' :: rest => some ('\r', rest)
  | 't' :: rest => some ('\t', rest)
  | '0' :: rest => some ('\x00', rest)
  | '\\' :: rest => some ('\\', rest)
  | '"' :: rest => some ('"', rest)
  | '\'' :: rest => some ('\'', rest)
  | 'x' :: cs =>
    match quoting with
    | .text => spelledChar? 4 [] ('\\' :: 'x' :: cs)
    | .character => spelledChar? 1 [] ('\\' :: 'x' :: cs)
    | .bytes => (hexPair cs).map fun (byte, rest) => (Char.ofNat byte, rest)
  | 'u' :: '{' :: cs => codePoint? cs
  | _ => none

/-- What is left after a backslash at the end of a line. -/
def continued? (cs : List Char) : Option (List Char) :=
  let isIndent (c : Char) : Bool := c == ' ' || c == '\t' || c == '\n' || c == '\r'
  match cs with
  | '\n' :: rest => some (rest.dropWhile isIndent)
  | '\r' :: '\n' :: rest => some (rest.dropWhile isIndent)
  | _ => none

/-! ## Rows of characters -/

/-- Reads up to the closing quote, at most `room` characters. -/
def quoted? (quoting : Quoting) :
    Nat → List Char → List Char → Option (List Char × List Char)
  | 0, _, _ => none
  | _ + 1, _, [] => none
  | room + 1, done, c :: rest =>
    if c = '"' then some (done.reverse, rest)
    else if c = '\\' then
      match continued? rest with
      | some rest => quoted? quoting room done rest
      | none => do
        let (char, rest) ← escape? quoting rest
        quoted? quoting room (char :: done) rest
    else quoted? quoting room (c :: done) rest

/-- Reads up to a closing quote with its hashes. -/
def rawQuoted? (ending : List Char) : List Char → List Char → Option (List Char × List Char)
  | _, [] => none
  | done, c :: rest =>
    match afterBeginning? ending (c :: rest) with
    | some after => some (done.reverse, after)
    | none => rawQuoted? ending (c :: done) rest

/-- Goes on with what a partial function on the text gives. -/
def taking {α : Type} (f : List Char → Option (α × List Char)) : Reader α := do
  match f (← get) with
  | some (value, rest) => set rest; return value
  | none => refuse

/-- Reads what is in double quotes, with escapes or raw. -/
def quotation (quoting : Quoting) : Reader String := do
  if ← accept '"' then
    String.ofList <$> taking fun cs => quoted? quoting (cs.length + 1) [] cs
  else if ← accept 'r' then
    let hashes ← takeWhile (· == '#')
    expect '"'
    String.ofList <$> taking (rawQuoted? ('"' :: hashes) [])
  else refuse

/-- Reads a text in quotes, with escapes or raw. -/
def text : Reader String := quotation .text

/-! ## Literals that are passed over -/

/-- Skips a character in single quotes. -/
def skipCharacter : Reader Unit := do
  expect '\''
  taking fun
    | '\\' :: cs => (escape? .character cs).map fun found => ((), found.2)
    | _ :: rest => some ((), rest)
    | [] => none
  expect '\''

/-- Skips a byte: an ASCII character or an escape in single quotes, with a mark in front. -/
def skipByte : Reader Unit := do
  expect 'b'
  expect '\''
  taking fun
    | '\\' :: 'u' :: _ => none
    | '\\' :: cs => (escape? .bytes cs).map fun found => ((), found.2)
    | c :: rest => if c.toNat < 0x80 then some ((), rest) else none
    | [] => none
  expect '\''

/-- Skips a row of bytes: a text with a mark in front. -/
def skipBytes : Reader Unit := do
  expect 'b'
  let _ ← quotation .bytes

/-! ## Attributes -/

/--
Skips the attributes in front of a document, each of which gives the name of its type or of its
schema. There may be at most `room` of them.
-/
def attributes : Nat → Reader Unit
  | 0 => refuse
  | room + 1 => do
    if ← accept '#' then
      blank
      expect '!'
      blank
      expect '['
      blank
      if !((← acceptWord "type") || (← acceptWord "schema")) then refuse
      blank
      expect '='
      blank
      let _ ← text
      blank
      expect ']'
      blank
      attributes room

end Helm.Ron
