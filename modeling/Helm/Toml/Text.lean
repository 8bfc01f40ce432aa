import Helm.Number.Decimal
import Helm.Toml.Reader

/-!
# Helm.Toml.Text

Readers for the texts and keys of TOML. Texts stand in quotes, with escapes, or in apostrophes,
without, and on one line or between three quotes over several. Keys stand in quotes or bare.
-/

namespace Helm.Toml

/-! ## Texts -/

/-- Reads a character given by so many digits of base sixteen. -/
def codePoint? (width : Nat) (cs : List Char) : Option (Char × List Char) := do
  let digits := cs.take width
  let code ← ofDigits? 16 digits
  if digits.length < width || !code.isValidChar then none
  return (Char.ofNat code, cs.drop width)

/-- Reads the escape after a backslash. -/
def escape? : List Char → Option (Char × List Char)
  | 'b' :: rest => some ('\x08', rest)
  | 't' :: rest => some ('\t', rest)
  | 'n' :: rest => some ('\n', rest)
  | 'f' :: rest => some ('\x0c', rest)
  | 'r' :: rest => some ('\r', rest)
  | 'e' :: rest => some ('\x1b', rest)
  | '"' :: rest => some ('"', rest)
  | '\\' :: rest => some ('\\', rest)
  | 'x' :: rest => codePoint? 2 rest
  | 'u' :: rest => codePoint? 4 rest
  | 'U' :: rest => codePoint? 8 rest
  | _ => none

/-- Reads up to the closing quote of a text on one line. -/
def basic? : Nat → List Char → List Char → Option (String × List Char)
  | 0, _, _ => none
  | _ + 1, _, [] => none
  | room + 1, done, c :: rest =>
    if c = '"' then some (String.ofList done.reverse, rest)
    else if c = '\\' then do
      let (char, rest) ← escape? rest
      basic? room (char :: done) rest
    else if isPlain c then basic? room (c :: done) rest
    else none

/-- Reads up to the closing apostrophe of a literal text. -/
def literal? (cs : List Char) : Option (String × List Char) :=
  match cs.dropWhile fun c => isPlain c && c ≠ '\'' with
  | '\'' :: rest => some (String.ofList (cs.takeWhile fun c => isPlain c && c ≠ '\''), rest)
  | _ => none

/-- What is left of a text after blank space and ends of lines. -/
def dropLines : List Char → List Char
  | ' ' :: rest => dropLines rest
  | '\t' :: rest => dropLines rest
  | '\n' :: rest => dropLines rest
  | '\r' :: '\n' :: rest => dropLines rest
  | cs => cs

/-- What a backslash at the end of a line swallows: the line's end and all blank space after it. -/
def continued? (cs : List Char) : Option (List Char) :=
  match cs.dropWhile fun c => c == ' ' || c == '\t' with
  | '\n' :: rest => some (dropLines rest)
  | '\r' :: '\n' :: rest => some (dropLines rest)
  | _ => none

/-- Reads up to the three closing quotes of a text over several lines. -/
def longText? (quote : Char) (escapes : Bool) :
    Nat → List Char → List Char → Option (String × List Char)
  | 0, _, _ => none
  | _ + 1, _, [] => none
  | room + 1, done, c :: rest =>
    if c = quote then
      let quotes := (c :: rest).takeWhile (· = quote)
      let after := (c :: rest).dropWhile (· = quote)
      if quotes.length < 3 then longText? quote escapes room (quotes ++ done) after
      else if quotes.length ≤ 5 then
        some (String.ofList (quotes.drop 3 ++ done).reverse, after)
      else none
    else if c = '\\' && escapes then
      match continued? rest with
      | some rest => longText? quote escapes room done rest
      | none => do
        let (char, rest) ← escape? rest
        longText? quote escapes room (char :: done) rest
    else if c = '\r' then
      match rest with
      | '\n' :: after => longText? quote escapes room ('\n' :: '\r' :: done) after
      | _ => none
    else if isPlain c || c = '\n' then longText? quote escapes room (c :: done) rest
    else none

/-- Goes on with what a partial function on the text gives. -/
def taking {α : Type} (f : List Char → Option (α × List Char)) : Reader α := f

/-- Reads a text on one line, whose quote is in front. -/
def lineText : Reader String := do
  if ← accept '"' then taking fun cs => basic? (cs.length + 1) [] cs
  else
    expect '\''
    taking literal?

/-- Reads a text of either form, whose quote is in front. -/
def text (quote : Char) : Reader String := do
  if ← acceptText [quote, quote, quote] then
    let _ ← acceptNewline
    taking fun cs => longText? quote (quote = '"') (cs.length + 1) [] cs
  else lineText

/-! ## Keys -/

/-- The characters of a key without quotes. -/
def isKeyChar (c : Char) : Bool := c.isAlphanum || c == '_' || c == '-'

/-- Reads one key. -/
def key : Reader String := do
  match ← peek? with
  | some '"' => lineText
  | some '\'' => lineText
  | _ =>
    let cs ← takeWhile isKeyChar
    if cs.isEmpty then refuse
    return String.ofList cs

/-- Reads keys with dots between them; `room` bounds their number. -/
def keysWithin : Nat → Reader (List String)
  | 0 => refuse
  | room + 1 => do
    space
    let first ← key
    space
    if ← accept '.' then return first :: (← keysWithin room)
    else return [first]

/-- Reads a key that may be dotted; it may lead through as many tables as values may be nested. -/
def keys : Reader (List String) := keysWithin depthLimit

end Helm.Toml
