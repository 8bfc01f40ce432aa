import Helm.Toml.Scalar
import Helm.Toml.Text

/-!
# Helm.Toml.Document

Reads a TOML document as the fields of its outermost table: keys with values, and headers that
open tables. A key that is set twice, or a table that is opened twice, is refused.
-/

namespace Helm.Toml

/-! ## Values -/

/-- Reads the items of a list up to its bracket; `room` bounds their number. -/
def listItems (value : Reader Value) : Nat → Reader (List Value)
  | 0 => refuse
  | room + 1 => do
    anySpace
    if ← accept ']' then return []
    let item ← value
    anySpace
    if ← accept ',' then return item :: (← listItems value room)
    expect ']'
    return [item]

/-- Reads fields of an inline table up to its brace; `room` bounds their number. -/
def inlineFields (value : Reader Value) : Nat → Fields → Reader Fields
  | 0, _ => refuse
  | room + 1, fields => do
    anySpace
    if ← accept '}' then return fields
    let path ← keys
    anySpace
    expect '='
    anySpace
    let item ← value
    match fields.assign [] path item with
    | none => refuse
    | some fields =>
      anySpace
      if ← accept ',' then inlineFields value room fields
      else
        expect '}'
        return fields

/-- Reads a value with at most so many lists and tables inside each other. -/
def valueWithin (depth : Nat) : Reader Value := do
  match ← peek? with
  | some '"' => return .text (← text '"')
  | some '\'' => return .text (← text '\'')
  | some '[' =>
    expect '['
    match depth with
    | 0 => refuse
    | depth + 1 => return .list (← listItems (valueWithin depth) ((← get).length + 1))
  | some '\x7b' =>
    expect '\x7b'
    match depth with
    | 0 => refuse
    | depth + 1 =>
      return .table .inlined (← inlineFields (valueWithin depth) ((← get).length + 1) [])
  | _ => scalar

/-- Reads a value. -/
def value : Reader Value := valueWithin depthLimit

/-! ## Documents -/

/-- Reads lines into the fields of a document; `path` leads to the table that is open. -/
def lines : Nat → List String → Fields → Reader Fields
  | 0, _, _ => refuse
  | room + 1, path, fields => do
    anySpace
    if (← peek?).isNone then return fields
    else if ← acceptText ['[', '['] then
      let path ← keys
      if !(← acceptText [']', ']']) then refuse
      endOfLine
      match fields.openNext path with
      | some fields => lines room path fields
      | none => refuse
    else if ← accept '[' then
      let path ← keys
      expect ']'
      endOfLine
      match fields.openTable path with
      | some fields => lines room path fields
      | none => refuse
    else
      let names ← keys
      expect '='
      space
      let item ← value
      endOfLine
      match fields.assign path names item with
      | some fields => lines room path fields
      | none => refuse

/-- Reads a document. -/
def document (text : String) : Option Fields :=
  let cs := text.toList
  let body := match cs with
    | '\ufeff' :: rest => rest
    | _ => cs
  (·.1) <$> (lines (body.length + 1) [] []).run body

end Helm.Toml
