import Helm.Number.Decimal

/-!
# Helm.Toml.Value

The values of TOML, and how a document's lines build up its tables. Tables remember how they
came about, because that decides what may still be added to them: a table with a header has one
header only, a table made by dotted keys has none, and an inline table is complete.
-/

namespace Helm.Toml

/-- How a table came about. -/
inductive Origin where
  /-- Written in braces as a value. -/
  | inlined
  /-- By a header of its own. -/
  | headed
  /-- By the header of a table within it. -/
  | implied
  /-- By a dotted key. -/
  | dotted
  deriving DecidableEq, Repr

/-- A value in a document. -/
inductive Value where
  | text (text : String)
  | integer (n : Int)
  | decimal (x : Float)
  | flag (b : Bool)
  /-- A date, a time of day or both. -/
  | moment
  | list (items : List Value)
  | table (origin : Origin) (fields : List (String × Value))
  /-- The tables of a repeated header, the latest first. -/
  | tables (latestFirst : List (List (String × Value)))

/-- The fields of a table, in the order of their appearance. -/
abbrev Fields := List (String × Value)

/-- Replaces the value of a field. -/
def Fields.replace (fields : Fields) (key : String) (value : Value) : Fields :=
  fields.map fun field => if field.1 = key then (key, value) else field

/--
True when a path with tables of the given origin leads on through a table that was found. Headers
lead through all tables but inline ones. Dotted keys lead through tables without a header, and
have to end in a table that dotted keys have made.
-/
def Origin.enters (origin found : Origin) (isLast : Bool) : Bool :=
  match origin, found with
  | _, inlined => false
  | dotted, headed => false
  | dotted, implied => !isLast
  | _, _ => true

/--
Changes the table at the end of a path. Tables missing on the way are made with the given origin.
Of a repeated header the latest table is entered, though dotted keys may not end there.
-/
def Fields.changeAt (origin : Origin) :
    List String → (Fields → Option Fields) → Fields → Option Fields
  | [], change, fields => change fields
  | key :: path, change, fields =>
    match fields.lookup key with
    | none => do
      let inner ← changeAt origin path change []
      return fields ++ [(key, .table origin inner)]
    | some (.table found inner) =>
      if origin.enters found path.isEmpty then do
        let inner ← changeAt origin path change inner
        return fields.replace key (.table found inner)
      else none
    | some (.tables (latest :: earlier)) =>
      if origin = .dotted && path.isEmpty then none
      else do
        let latest ← changeAt origin path change latest
        return fields.replace key (.tables (latest :: earlier))
    | _ => none

/-- Splits a path into all but its last key and the last one. -/
def splitLast? : List String → Option (List String × String)
  | [] => none
  | [key] => some ([], key)
  | key :: rest => (splitLast? rest).map fun (path, last) => (key :: path, last)

/-- Sets a key, which must not have been set before, in the table at the end of `path`. -/
def Fields.assign (fields : Fields) (path keys : List String) (value : Value) : Option Fields := do
  let (inner, last) ← splitLast? keys
  let set (fields : Fields) : Option Fields :=
    if (fields.lookup last).isSome then none else some (fields ++ [(last, value)])
  changeAt .implied path (changeAt .dotted inner set) fields

/-- Opens the table of a header. -/
def Fields.openTable (fields : Fields) (path : List String) : Option Fields := do
  let (outer, last) ← splitLast? path
  let make (fields : Fields) : Option Fields :=
    match fields.lookup last with
    | none => some (fields ++ [(last, .table .headed [])])
    | some (.table .implied inner) => some (fields.replace last (.table .headed inner))
    | some _ => none
  changeAt .implied outer make fields

/-- Opens one more table of a repeated header. -/
def Fields.openNext (fields : Fields) (path : List String) : Option Fields := do
  let (outer, last) ← splitLast? path
  let make (fields : Fields) : Option Fields :=
    match fields.lookup last with
    | none => some (fields ++ [(last, .tables [[]])])
    | some (.tables earlier) => some (fields.replace last (.tables ([] :: earlier)))
    | some _ => none
  changeAt .implied outer make fields

end Helm.Toml
