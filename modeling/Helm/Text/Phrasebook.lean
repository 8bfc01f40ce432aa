import Helm.Data.Table

/-!
# Helm.Text.Phrasebook

The texts that ships show. A key that the phrasebook does not hold stands for itself, without
the dollar sign that may mark it as a key.
-/

namespace Helm

/-- Display texts by key. -/
structure Phrasebook where
  phrases : Table String String := .empty
  deriving DecidableEq, Repr, Inhabited

namespace Phrasebook

/-- A key without its mark. -/
def unmark (key : String) : String :=
  match key.toList with
  | '$' :: rest => String.ofList rest
  | _ => key

/-- The text to show for a key. -/
def localize (p : Phrasebook) (key : String) : String := (p.phrases.get? key).getD (unmark key)

end Phrasebook

end Helm
