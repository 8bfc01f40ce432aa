/-!
# Helm.Toml.Reader

Readers for TOML: each takes what it reads off the front of the text. This module holds the
characters, and the space, comments and ends of lines between tokens.
-/

namespace Helm.Toml

/-- A reader takes what it reads off the front of the text. -/
abbrev Reader := StateT (List Char) Option

/-- How deep values may be nested. -/
def depthLimit : Nat := 80

/-! ## Characters and space -/

/-- Refuses the text. -/
def refuse {α : Type} : Reader α := fun _ => none

/-- The character in front, if any is left. -/
def peek? : Reader (Option Char) := do return (← get).head?

/-- Takes a character if it is in front. -/
def accept (c : Char) : Reader Bool := do
  match ← get with
  | d :: rest => if c = d then set rest; return true else return false
  | [] => return false

/-- Takes a row of characters if it is in front. -/
def acceptText (text : List Char) : Reader Bool := do
  let cs ← get
  if text.isPrefixOf cs then set (cs.drop text.length); return true else return false

/-- Takes a character that has to be in front. -/
def expect (c : Char) : Reader Unit := do
  if !(← accept c) then refuse

/-- Takes the characters in front that pass a test. -/
def takeWhile (test : Char → Bool) : Reader (List Char) := do
  let cs ← get
  set (cs.dropWhile test)
  return cs.takeWhile test

/-- Skips spaces and tabs. -/
def space : Reader Unit := do
  let _ ← takeWhile fun c => c == ' ' || c == '\t'

/-- Takes the end of a line if it is in front. -/
def acceptNewline : Reader Bool := do
  if ← accept '\n' then return true else acceptText ['\r', '\n']

/-- Characters that may stand in comments and literal texts. -/
def isPlain (c : Char) : Bool := c == '\t' || (0x20 ≤ c.toNat && c.toNat ≠ 0x7f)

/-- Skips a comment up to the end of its line. -/
def comment : Reader Unit := do
  if ← accept '#' then
    let _ ← takeWhile isPlain

/-- Skips the rest of a line, which may hold nothing but a comment. -/
def endOfLine : Reader Unit := do
  space
  comment
  if (← peek?).isSome then
    if !(← acceptNewline) then refuse

/-- Skips space, comments and ends of lines; `room` bounds the number of lines. -/
def spaceAndLines : Nat → Reader Unit
  | 0 => refuse
  | room + 1 => do
    space
    comment
    if ← acceptNewline then spaceAndLines room

/-- Skips space, comments and ends of lines. -/
def anySpace : Reader Unit := do spaceAndLines ((← get).length + 1)

end Helm.Toml
