import Helm.Settings.Basic
import Helm.Toml.Document

/-!
# Helm.Settings.Document

Settings written as a TOML document. A key that is left out has its default, and keys that are
no settings are passed over.
-/

namespace Helm

namespace Toml.Value

/-- True for a list or table without contents. -/
def isEmpty : Value → Bool
  | list items => items.isEmpty
  | table _ fields => fields.isEmpty
  | _ => false

/-- The word a value stands for: a text, or the key of a table with nothing under it. -/
def word? : Value → Option String
  | text word => some word
  | table _ [(word, payload)] => if payload.isEmpty then some word else none
  | _ => none

/-- The level a value stands for. -/
def level? (v : Value) : Option Level := v.word?.bind Level.ofName?

/-- A value in single precision; whole numbers of up to 64 bits count as well. -/
def single? : Value → Option Float32
  | integer n =>
    if -0x8000000000000000 ≤ n ∧ n < UInt64.size then
      some (Decimal.toSingle ⟨decide (n < 0), n.natAbs, 0⟩)
    else none
  | decimal x => some x.toFloat32
  | _ => none

/-- A value as a word of 64 bits. -/
def word64? : Value → Option UInt64
  | integer n => if 0 ≤ n ∧ n < UInt64.size then some (UInt64.ofNat n.toNat) else none
  | _ => none

end Toml.Value

namespace Settings

/-- The value of a key, or its default when it is left out; none when it cannot be read. -/
def field? {α : Type} (fields : Toml.Fields) (key : String) (read : Toml.Value → Option α)
    (default : α) : Option α :=
  match fields.lookup key with
  | none => some default
  | some value => read value

/-- The settings that the fields of a document give. -/
def ofFields? (fields : Toml.Fields) : Option Settings := do
  let standard : Settings := {}
  return {
    level := ← field? fields "level" Toml.Value.level? standard.level
    droneRange := ← field? fields "drone_range" Toml.Value.single? standard.droneRange
    seed := ← field? fields "seed" (fun value => some <$> value.word64?) standard.seed
    threatHorizon := ← field? fields "threat_horizon" Toml.Value.single? standard.threatHorizon
    threatScanRadius :=
      ← field? fields "threat_scan_radius" Toml.Value.single? standard.threatScanRadius }

/-- The settings that a document gives. -/
def ofText? (text : String) : Option Settings := (Toml.document text).bind ofFields?

end Settings

end Helm
