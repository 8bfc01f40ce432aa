/-!
# Helm.Fault

The causes for which evaluation stops instead of giving a status. A tree assembled by the
collapsing constructors never meets `childless`; the two range faults belong to random draws
and `unorderedBounds` to clamping.
-/

namespace Helm

/-- The composites that refuse an empty list of children. -/
inductive CompositeKind where
  | sequence
  | selector
  | parallel
  | randomSelector
  deriving DecidableEq, Repr

namespace CompositeKind

/-- The name of the composite in messages and diagnostics. -/
def name : CompositeKind → String
  | sequence => "Sequence"
  | selector => "Selector"
  | parallel => "Parallel"
  | randomSelector => "RandomSelector"

end CompositeKind

/-- Why an evaluation was abandoned. -/
inductive Fault where
  /-- A composite was constructed without children. -/
  | childless (kind : CompositeKind)
  /-- A random value was asked for in a range that holds none. -/
  | emptyRange
  /-- The width of a range of floating point numbers is not finite. -/
  | rangeOverflow
  /-- A clamp between bounds that are out of order, with the texts of both. -/
  | unorderedBounds (lower upper : String)
  deriving DecidableEq, Repr

namespace Fault

/-- The wording of a fault. -/
def message : Fault → String
  | childless kind => kind.name ++ " must have at least one child"
  | emptyRange => "cannot sample empty range"
  | rangeOverflow => "Uniform::new_inclusive: range overflow"
  | unorderedBounds lower upper =>
    "min > max, or either was NaN. min = " ++ lower ++ ", max = " ++ upper

end Fault

/-! ## Evaluations that may be abandoned -/

section Evaluation

variable {α β : Type}

@[simp] theorem ok_bind (a : α) (f : α → Except Fault β) : (Except.ok a >>= f) = f a := rfl

@[simp] theorem error_bind (e : Fault) (f : α → Except Fault β) :
    (Except.error e >>= f) = Except.error e := rfl

@[simp] theorem pure_eq_ok (a : α) : (pure a : Except Fault α) = .ok a := rfl

@[simp] theorem map_ok (f : α → β) (a : α) : (Except.ok a : Except Fault α).map f = .ok (f a) := rfl

@[simp] theorem map_error (f : α → β) (e : Fault) :
    (Except.error e : Except Fault α).map f = .error e := rfl

theorem bind_eq_ok {x : Except Fault α} {f : α → Except Fault β} {b : β} :
    x >>= f = .ok b ↔ ∃ a, x = .ok a ∧ f a = .ok b := by
  cases x <;> simp

end Evaluation

end Helm
