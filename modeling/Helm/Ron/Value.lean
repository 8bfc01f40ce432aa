import Helm.Ron.Number
import Helm.Ron.Text

/-!
# Helm.Ron.Value

Readers for the compound values of RON: optional values, lists, maps, records and choices. `skip`
reads any well-formed value and forgets it, for fields that a record does not know.
-/

namespace Helm.Ron

/-! ## Compound values -/

/-- Reads `None`, or a value in `Some`. -/
def optional {α : Type} (value : Reader α) : Reader (Option α) := do
  if ← acceptWord "None" then return none
  else if ← acceptWord "Some" then
    blank
    expect '('
    blank
    let x ← nested value
    let _ ← comma
    expect ')'
    return some x
  else refuse

/-- Reads a list in square brackets. -/
def list {α : Type} (element : Reader α) : Reader (List α) := do
  let read (done : List α) : Reader (List α) := do return (← nested element) :: done
  return (← enclosed '[' ']' read []).reverse

/-- Reads a map in braces: its entries in the order of the text. -/
def entries {α β : Type} (key : Reader α) (value : Reader β) : Reader (List (α × β)) := do
  let read (done : List (α × β)) : Reader (List (α × β)) := do
    let k ← nested key
    blank
    expect ':'
    blank
    let v ← nested value
    return (k, v) :: done
  return (← enclosed '{' '}' read []).reverse

/-! ## Values of any type -/

/--
Skips a number or a range of numbers. Either end of a range may be left out, but the end of a
range that includes it has to be there.
-/
def skipRange : Reader Unit := do
  let isByte (cs : List Char) : Bool := (afterBeginning? ['b', '\''] cs).isSome
  let number : Reader Unit := do
    if isByte (← get) then skipByte else skipNumber
  let finish : Reader Unit := do
    if ← accept '=' then number
    else
      let cs ← get
      if isByte cs || startsNumber cs then number
  if ← acceptText ".." then finish
  else
    number
    if ← acceptText ".." then finish

/-- True when the text goes on, after an opening parenthesis, with the name of a field. -/
def startsRecord (cs : List Char) : Bool :=
  match cs with
  | '(' :: rest =>
    let field : Reader Bool := do
      blank
      let _ ← identifier
      blank
      return (← peek?) = some ':'
    match (field depthLimit).run rest with
    | .ok (found, _) => found
    | .error _ => false
  | _ => false

/-- Skips a value of any type, of at most `room` levels. -/
def skip : Nat → Reader Unit
  | 0 => refuse
  | room + 1 => do
    if ← acceptAny ["true", "false", "None"] then return
    else if ← acceptText "()" then return
    else if ← acceptWord "Some" then
      blank
      expect '('
      blank
      nested (skip room)
      let _ ← comma
      expect ')'
    else if startsNumber (← get) then skipRange
    else
      let cs ← get
      match (identifier depthLimit).run cs with
      | .ok (_, rest) =>
        set rest
        blank
        if (← peek?) = some '(' then group room
      | .error _ =>
        match cs.head? with
        | some '(' => group room
        | some '[' => enclosed '[' ']' (fun _ => nested (skip room)) ()
        | some '{' => enclosed '{' '}' (fun _ => pair (skip room) (skip room)) ()
        | some '\'' => skipCharacter
        | some 'b' => if cs[1]? = some '\'' then skipRange else skipBytes
        | some 'r' => let _ ← text
        | some '"' => let _ ← text
        | _ => refuse
where
  /-- Skips a key or field name, a colon and a value. -/
  pair (key value : Reader Unit) : Reader Unit := do
    nested key
    blank
    expect ':'
    blank
    nested value
  /-- Skips what stands in parentheses: named fields or a row of values. -/
  group (room : Nat) : Reader Unit := do
    if startsRecord (← get) then
      enclosed '(' ')' (fun _ => pair (do let _ ← identifier) (skip room)) ()
    else enclosed '(' ')' (fun _ => nested (skip room)) ()

/-! ## Records and choices -/

/-- A field of a record that is put together in a value of type `σ`. -/
structure Field (σ : Type) where
  name : String
  /-- True when the field has no default. -/
  required : Bool
  /-- Reads the value, and gives what it changes in the record. -/
  read : Reader (σ → σ)

/-- Turns a change of a part into a change of the whole. -/
def Field.within {σ τ : Type} (f : Field σ) (lift : (σ → σ) → τ → τ) : Field τ :=
  { name := f.name, required := f.required, read := lift <$> f.read }

/-- The fields of a record in the order of declaration, and the record before any is read. -/
structure Layout (σ : Type) where
  fields : List (Field σ)
  start : σ

namespace Layout

/-- A single field with a default. -/
def fieldOr {α : Type} (name : String) (value : Reader α) (default : α) : Layout α :=
  ⟨[⟨name, false, do let x ← value; return fun _ => x⟩], default⟩

/-- A single field without default. -/
def field {α : Type} [Inhabited α] (name : String) (value : Reader α) : Layout α :=
  ⟨[⟨name, true, do let x ← value; return fun _ => x⟩], default⟩

/-- The fields of one layout and then those of another. -/
def and {σ τ : Type} (l : Layout σ) (m : Layout τ) : Layout (σ × τ) :=
  ⟨l.fields.map (·.within fun change pair => (change pair.1, pair.2)) ++
    m.fields.map (·.within fun change pair => (pair.1, change pair.2)),
   (l.start, m.start)⟩

end Layout

/--
Reads fields in parentheses, in any order, on top of the defaults of a layout. Fields that are
not known are skipped, and one that comes twice is an error. Once the fields end, the first of
the missing ones is an error.
-/
def fields {σ : Type} (outer : String) (layout : Layout σ) : Reader σ := do
  let read (state : List String × σ) : Reader (List String × σ) := do
    let (seen, value) := state
    let name ← nested identifier
    match layout.fields.find? (·.name == name) with
    | some field =>
      if seen.contains name then throw (.duplicateField outer name)
      blank
      expect ':'
      blank
      let change ← nested field.read
      return (name :: seen, change value)
    | none =>
      blank
      expect ':'
      blank
      nested (skip depthLimit)
      return state
  expect '('
  let room := (← get).length + 1
  let value ← nested do
    let (seen, value) ← elements ')' read room true ([], layout.start)
    match layout.fields.find? fun field => field.required && !seen.contains field.name with
    | some field => throw (.missingField outer field.name)
    | none => return value
  blank
  expect ')'
  return value

/-- Reads a record, which may have its type's name in front. -/
def record {σ : Type} (outer : String) (layout : Layout σ) : Reader σ := do
  if (← peek?).any Identifier.isContinue then
    let name ← identifier
    if name ≠ outer then refuse
    blank
  fields outer layout

/-- Reads the fields of a choice. -/
def payloadFields {σ : Type} (variant : String) (layout : Layout σ) : Reader σ := do
  blank
  fields variant layout

/-- Reads the single value of a choice. -/
def payload {α : Type} (value : Reader α) : Reader α := do
  blank
  expect '('
  blank
  let x ← nested value
  let _ ← comma
  expect ')'
  return x

/-- Reads one of several choices: a word, and what the choice of that word goes on with. -/
def choice {α : Type} (outer : String) (variant? : String → Option (Reader α)) : Reader α :=
  nested do
    blank
    let name ← nested identifier
    match variant? name with
    | some reader => reader
    | none => throw (.noSuchVariant outer name)

/-- Reads one of several words. -/
def word {α : Type} (outer : String) (ofName? : String → Option α) : Reader α :=
  choice outer fun name => (ofName? name).map pure

/-- Reads a value with nothing but attributes in front and blank space around it. -/
def document {α : Type} (value : Reader α) : Reader α := do
  blank
  attributes ((← get).length + 1)
  let x ← value
  blank
  if (← peek?).isSome then refuse
  return x

end Helm.Ron
