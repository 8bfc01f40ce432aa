import Helm.Tree.Node

/-!
# Helm.Proofs.Tree.Machine

A tree, as one tick sees it, is a machine: it takes its state and a context to a status, its next
state and the context afterwards. Two machines do the same if one is the other seen through
functions of the state, the context and the status (`image`), and a row of children is such an image
of another row as soon as each child is.

* `chain_image`: for children ticked in order until one does not give the status to go on with, and
  for any machines in their place; `tickAll_image` and `tickAt_image` for the other two ways to tick
  children.
* `Mirrors`: trees that tick as a machine does whose states they stand for.
-/

namespace Helm
namespace Node

variable {L M C D σ τ : Type}

/-- Applies a function to what is kept of a tree in the result of a tick. -/
def onTree {α β : Type} (f : α → β) (r : Status × α × C) : Status × β × C := (r.1, f r.2.1, r.2.2)

/-- The result of a tick with each of its parts seen through a function. -/
def image (flip : Status → Status) (f : σ → τ) (view : C → D) (r : Status × σ × C) :
    Status × τ × D :=
  (flip r.1, f r.2.1, view r.2.2)

/-! ## Rows of machines -/

/-- Steps machines in order for as long as they give `go`. -/
def chain (step : σ → C → Except Fault (Status × σ × C)) (go : Status) :
    List σ → C → Except Fault (Status × List σ × C)
  | [], c => .ok (go, [], c)
  | s :: rest, c => do
    let (status, s, c) ← step s c
    if status = go then
      let (status, rest, c) ← chain step go rest c
      return (status, s :: rest, c)
    else return (status, s :: rest, c)

theorem chain_image {step : σ → C → Except Fault (Status × σ × C)}
    {step' : τ → D → Except Fault (Status × τ × D)} (flip : Status → Status) (f : σ → τ)
    (view : C → D) {states : List σ} {go : Status} (hflip : ∀ s, flip s = flip go → s = go)
    (h : ∀ s ∈ states, ∀ c, step' (f s) (view c) = (step s c).map (image flip f view)) (c : C) :
    chain step' (flip go) (states.map f) (view c) =
      (chain step go states c).map (image flip (List.map f) view) := by
  induction states generalizing c with
  | nil => rfl
  | cons s rest ih =>
    obtain ⟨hs, hrest⟩ := List.forall_mem_cons.mp h
    rw [List.map_cons, chain, chain, hs]
    cases step s c with
    | error e => rfl
    | ok r =>
      obtain ⟨status, next, c'⟩ := r
      by_cases hgo : status = go
      · simp only [map_ok, image, ok_bind, hgo, if_true, ih hrest]
        cases chain step go rest c' <;> rfl
      · have hstop : flip status ≠ flip go := fun h => hgo (hflip status h)
        simp [image, hgo, hstop]

variable [Behavior L C] [TickContext C] [Behavior M D] [TickContext D]

theorem tickWhile_eq_chain (go : Status) (children : List (Node L)) (c : C) :
    tickWhile go children c = chain tick go children c := by
  induction children generalizing c with
  | nil => rfl
  | cons child rest ih => simp only [tickWhile, chain, ih]

section Children

variable {children : List (Node L)}

theorem tickWhile_image (flip : Status → Status) (f : Node L → Node M) (view : C → D) {go : Status}
    (hflip : ∀ s, flip s = flip go → s = go)
    (h : ∀ child ∈ children, ∀ c,
      (f child).tick (view c) = (child.tick c).map (image flip f view)) (c : C) :
    tickWhile (flip go) (children.map f) (view c) =
      (tickWhile go children c).map (image flip (List.map f) view) := by
  rw [tickWhile_eq_chain, tickWhile_eq_chain, chain_image flip f view hflip h]

theorem tickAll_image (f : Node L → Node M) (view : C → D)
    (h : ∀ child ∈ children, ∀ c, (f child).tick (view c) = (child.tick c).map (image id f view))
    (c : C) :
    tickAll (children.map f) (view c) =
      (tickAll children c).map fun r => (r.1, r.2.1.map f, view r.2.2) := by
  induction children generalizing c with
  | nil => rfl
  | cons child rest ih =>
    obtain ⟨hchild, hrest⟩ := List.forall_mem_cons.mp h
    rw [List.map_cons, tickAll, tickAll, hchild]
    cases child.tick c with
    | error e => rfl
    | ok r =>
      obtain ⟨s, next, c'⟩ := r
      simp only [map_ok, image, id, ok_bind, ih hrest]
      cases tickAll rest c' <;> rfl

theorem tickAt_image (f : Node L → Node M) (view : C → D)
    (h : ∀ child ∈ children, ∀ c, (f child).tick (view c) = (child.tick c).map (image id f view))
    (index : Nat) (c : C) :
    tickAt index (children.map f) (view c) =
      (tickAt index children c).map (image id (List.map f) view) := by
  induction children generalizing index with
  | nil => cases index <;> rfl
  | cons child rest ih =>
    obtain ⟨hchild, hrest⟩ := List.forall_mem_cons.mp h
    cases index with
    | zero =>
      rw [List.map_cons, tickAt, tickAt, hchild]
      cases child.tick c <;> rfl
    | succ index =>
      rw [List.map_cons, tickAt, tickAt, ih hrest]
      cases tickAt index rest c <;> rfl

end Children

/-! ## Trees as machines -/

/-- The trees that `view` makes of the states of a machine tick as the machine does. -/
def Mirrors {σ : Type} (C : Type) [Behavior L C] [TickContext C]
    (step : σ → C → Except Fault (Status × σ × C)) (view : σ → Node L) : Prop :=
  ∀ s c, (view s).tick c = (step s c).map (onTree view)

theorem mirrors_sequence : Mirrors C (tickWhile .success) (sequence : List (Node L) → Node L) := by
  intro children c
  rw [tick]
  cases tickWhile .success children c <;> rfl

theorem mirrors_selector : Mirrors C (tickWhile .failure) (selector : List (Node L) → Node L) := by
  intro children c
  rw [tick]
  cases tickWhile .failure children c <;> rfl

end Node
end Helm
