import Helm.Text.Identifier

/-!
# Helm.Ron.Reader

Readers for RON, the notation of tree libraries. A `Reader` takes what it reads off the front of
the text, and how deep values may still be nested is passed down to it. Readers are typed: they
know what they expect, so the first error met is the first one in the text.

This module holds the tokens: blank space and comments, identifiers, and the guard on depth.
-/

namespace Helm.Ron

/-- Why a text was refused. -/
inductive ReadError where
  /-- The text does not have the expected form. -/
  | malformed
  /-- A word that is none of the choices of its type. -/
  | noSuchVariant (outer found : String)
  /-- A record without a field that has no default. -/
  | missingField (outer field : String)
  /-- A record with the same field twice. -/
  | duplicateField (outer field : String)
  deriving DecidableEq, Repr

namespace ReadError

/-- The wording of the errors that name what is wrong. -/
def message? : ReadError → Option String
  | malformed => none
  | noSuchVariant outer found => some ("NoSuchEnumVariant " ++ outer ++ " " ++ found)
  | missingField outer field => some ("MissingStructField " ++ outer ++ " " ++ field)
  | duplicateField outer field => some ("DuplicateStructField " ++ outer ++ " " ++ field)

end ReadError

/-- A reader of values, given the depth left and the text. -/
abbrev Reader := ReaderT Nat (StateT (List Char) (Except ReadError))

/-- How deep values may be nested. -/
def depthLimit : Nat := 128

/-- Refuses the text. -/
def refuse {α : Type} : Reader α := throw .malformed

/-- Reads one level deeper, and refuses the text below the deepest level. -/
def nested {α : Type} (reader : Reader α) : Reader α := fun depth =>
  match depth with
  | 0 => throw .malformed
  | depth + 1 => reader depth

/-- Reads a whole text. -/
def run {α : Type} (reader : Reader α) (text : String) : Except ReadError α :=
  (·.1) <$> (reader depthLimit).run text.toList

/-! ## Characters -/

/-- The character in front, if any is left. -/
def peek? : Reader (Option Char) := do return (← get).head?

/-- Takes a character if it is in front. -/
def accept (c : Char) : Reader Bool := do
  match ← get with
  | d :: rest => if c = d then set rest; return true else return false
  | [] => return false

/-- Takes a character that has to be in front. -/
def expect (c : Char) : Reader Unit := do
  if !(← accept c) then refuse

/-- What is left of a text after a beginning. -/
def afterBeginning? : List Char → List Char → Option (List Char)
  | [], cs => some cs
  | _ :: _, [] => none
  | w :: word, c :: cs => if w = c then afterBeginning? word cs else none

/-- Takes a row of characters if it is in front. -/
def acceptText (text : String) : Reader Bool := do
  match afterBeginning? text.toList (← get) with
  | some rest => set rest; return true
  | none => return false

/-- What is left of a text after a word, unless an identifier goes on after it. -/
def afterWord? (word : String) (cs : List Char) : Option (List Char) :=
  (afterBeginning? word.toList cs).filter fun rest => !rest.head?.any Identifier.isContinue

/-- True for a text that begins with a word. -/
def startsWord (word : String) (cs : List Char) : Bool := (afterWord? word cs).isSome

/-- Takes a word if it is in front and no identifier goes on after it. -/
def acceptWord (word : String) : Reader Bool := do
  match afterWord? word (← get) with
  | some rest => set rest; return true
  | none => return false

/-- Takes the characters in front that pass a test. -/
def takeWhile (test : Char → Bool) : Reader (List Char) := do
  let cs ← get
  set (cs.dropWhile test)
  return cs.takeWhile test

/-! ## Blank space -/

/-- The characters that may stand between tokens. -/
def isBlank (c : Char) : Bool :=
  [' ', '\t', '\n', '\r', '\x0b', '\x0c', '\u0085', '\u200e', '\u200f', '\u2028',
    '\u2029'].contains c

/-- What the scan of blank space is in the middle of. -/
inductive BlankMode where
  | between
  /-- A comment to the end of the line. -/
  | line
  /-- A comment in brackets, within so many others. -/
  | block (outer : Nat)

/-- Drops blank space and comments; none when a comment is not closed. -/
def dropBlank? : BlankMode → List Char → Option (List Char)
  | .between, [] => some []
  | .between, '/' :: '/' :: rest => dropBlank? .line rest
  | .between, '/' :: '*' :: rest => dropBlank? (.block 0) rest
  | .between, c :: rest =>
    if isBlank c then dropBlank? .between rest
    else if c = '/' then none
    else some (c :: rest)
  | .line, [] => some []
  | .line, c :: rest => dropBlank? (if c = '\n' then .between else .line) rest
  | .block _, [] => none
  | .block 0, '*' :: '/' :: rest => dropBlank? .between rest
  | .block (outer + 1), '*' :: '/' :: rest => dropBlank? (.block outer) rest
  | .block outer, '/' :: '*' :: rest => dropBlank? (.block (outer + 1)) rest
  | .block outer, _ :: rest => dropBlank? (.block outer) rest

/-- Skips blank space and comments. -/
def blank : Reader Unit := do
  match dropBlank? .between (← get) with
  | some rest => set rest
  | none => refuse

/-! ## Identifiers -/

/-- The characters of an identifier that is marked as raw. -/
def isRaw (c : Char) : Bool := Identifier.isContinue c || c == '.' || c == '+' || c == '-'

/-- True for a text that begins with a quoted literal that has a letter in front. -/
def startsLiteral (cs : List Char) : Bool :=
  ["b'", "b\"", "br\"", "br#", "r\"", "r#\"", "r##"].any fun mark =>
    (afterBeginning? mark.toList cs).isSome

/-- Reads an identifier, which may be marked as raw. -/
def identifier : Reader String := do
  let cs ← get
  if startsLiteral cs then refuse
  match afterBeginning? ['r', '#'] cs with
  | some rest =>
    let name := rest.takeWhile isRaw
    if name.isEmpty then refuse
    set (rest.dropWhile isRaw)
    return String.ofList name
  | none =>
    if !cs.head?.any (fun c => Identifier.isStart c || c == '_') then refuse
    let rest := cs.dropWhile Identifier.isContinue
    if rest.head?.any isRaw then refuse
    set rest
    return String.ofList (cs.takeWhile Identifier.isContinue)

/-! ## Lists of elements -/

/--
True when another element follows, false in front of the closing character; `comma` tells
whether a comma came before.
-/
def hasElement (close : Char) (comma : Bool) : Reader Bool := do
  blank
  if (← peek?) = some close then return false
  else if comma then return true
  else refuse

/-- Skips blank space and at most one comma with the blank space after it. -/
def comma : Reader Bool := do
  blank
  if ← accept ',' then
    blank
    return true
  else return false

/--
Reads elements, with a comma between any two, up to the closing character, which is left in
place. The state is passed through the elements. At most `room` of them are read.
-/
def elements {σ : Type} (close : Char) (element : σ → Reader σ) :
    Nat → Bool → σ → Reader σ
  | 0, _, _ => refuse
  | room + 1, separated, state => do
    if ← hasElement close separated then
      let state ← element state
      elements close element room (← comma) state
    else return state

/-- Reads elements between two characters, one level deeper. -/
def enclosed {σ : Type} (start close : Char) (element : σ → Reader σ) (state : σ) :
    Reader σ := do
  expect start
  let room := (← get).length + 1
  let state ← nested (elements close element room true state)
  blank
  expect close
  return state

end Helm.Ron
