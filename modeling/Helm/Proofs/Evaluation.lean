import Helm.Fault

/-!
# Helm.Proofs.Evaluation

Both endings of an evaluation in one statement. `Yields allowed Q x` says that `x` gives a value
with `Q`, or is abandoned for a reason that `allowed` admits: with no reason admitted it is total
correctness, and with all of them partial correctness. `Yields.bind` follows a `do` block step by
step.
-/

namespace Helm

variable {α β : Type} {allowed : Fault → Prop} {Q R : α → Prop}

/-- The evaluation gives a value with `Q`, or is abandoned for an allowed reason. -/
def Yields (allowed : Fault → Prop) (Q : α → Prop) : Except Fault α → Prop
  | .ok a => Q a
  | .error e => allowed e

instance (x : Except Fault α) [DecidablePred allowed] [DecidablePred Q] :
    Decidable (Yields allowed Q x) :=
  match x with
  | .ok a => inferInstanceAs (Decidable (Q a))
  | .error e => inferInstanceAs (Decidable (allowed e))

namespace Yields

theorem bind {x : Except Fault α} {f : α → Except Fault β} {P : β → Prop}
    (hx : Yields allowed Q x) (hf : ∀ a, Q a → Yields allowed P (f a)) :
    Yields allowed P (x >>= f) := by
  cases x with
  | ok a => exact hf a hx
  | error e => exact hx

theorem mono {x : Except Fault α} (h : Yields allowed Q x) (hQ : ∀ a, Q a → R a) :
    Yields allowed R x := by
  cases x with
  | ok a => exact hQ a h
  | error e => exact h

/-- More reasons may be admitted. -/
theorem weaken {allowed' : Fault → Prop} {x : Except Fault α} (h : Yields allowed Q x)
    (hsub : ∀ e, allowed e → allowed' e) : Yields allowed' Q x := by
  cases x with
  | ok a => exact h
  | error e => exact hsub e h

theorem and {x : Except Fault α} (h : Yields allowed Q x) (h' : Yields allowed R x) :
    Yields allowed (fun a => Q a ∧ R a) x := by
  cases x with
  | ok a => exact ⟨h, h'⟩
  | error e => exact h

/-- The value of an evaluation is what it is evaluated to. -/
theorem self {x : Except Fault α} (h : Yields allowed Q x) :
    Yields allowed (fun a => x = .ok a ∧ Q a) x := by
  cases x with
  | ok a => exact ⟨rfl, h⟩
  | error e => exact h

theorem of_eq_ok {x : Except Fault α} {a : α} (h : Yields allowed Q x) (hx : x = .ok a) : Q a := by
  subst hx; exact h

end Yields

/-- When no reason is admitted, there is a value. -/
theorem yields_false_iff {x : Except Fault α} :
    Yields (fun _ => False) Q x ↔ ∃ a, x = .ok a ∧ Q a := by
  cases x <;> simp [Yields]

end Helm
