import Helm.Proofs.Tree.Watch

/-!
# Helm.Proofs.Tree.Laws

Laws of sequences and selectors, as the collapsing constructors build them. Each law is an equation
between runs of two trees that need not have the same shape, because what is left out, cut off or
unwrapped depends on which children are constant. It holds because the two trees stand for one
machine: they tick as the list of their children does.

* `run_dual`: a selector is an inverted sequence of inverted children and the other way round, also
  for those who see which leaves are ticked.
* `run_regrouped`: children in a row may be put into a composite of their own kind.
-/

namespace Helm

/-- The composite of the inverted children, inverted. -/
def Collapse.dual {L : Type} (make : List (Node L) → Node L) (children : List (Node L)) : Node L :=
  inverter (make (children.map inverter))

namespace Node

variable {L C : Type} [Behavior L C] [TickContext C] {go : Status} {make : List (Node L) → Node L}

/-! ## Duality -/

theorem tickWhile_inverter (go : Status) (children : List (Node L)) (c : C) :
    tickWhile go.invert (children.map Collapse.inverter) c =
      (tickWhile go children c).map (image Status.invert (List.map Collapse.inverter) id) := by
  refine tickWhile_image Status.invert Collapse.inverter id (fun s hs => ?_) (fun child _ c => ?_) c
  · rw [← Status.invert_invert s, hs, Status.invert_invert]
  · rw [id, mirrors_collapse_inverter, tickInverted]
    cases child.tick c <;> rfl

theorem Mirrors.dual (h : Mirrors C (tickWhile go.invert) make) :
    Mirrors C (tickWhile go) (Collapse.dual make) := by
  intro children c
  rw [Collapse.dual, mirrors_collapse_inverter, tickInverted, h, tickWhile_inverter]
  cases tickWhile go children c with
  | error e => rfl
  | ok r => simp [onTree, image, Collapse.dual]

/-- Over every run a selector shows what the inverted sequence of its inverted children shows, and
a sequence what the inverted selector of its inverted children shows: the same statuses and
contexts, and the same leaves ticked in the same order in every tick. -/
theorem run_dual (children : List (Node L)) (steps : List (C → C)) (c : C) :
    (run steps (Collapse.selector children) c =
        run steps (Collapse.dual Collapse.sequence children) c ∧
      watch steps (Collapse.selector children) c =
        watch steps (Collapse.dual Collapse.sequence children) c) ∧
    run steps (Collapse.sequence children) c =
        run steps (Collapse.dual Collapse.selector children) c ∧
      watch steps (Collapse.sequence children) c =
        watch steps (Collapse.dual Collapse.selector children) c := by
  have hselector : watch steps (Collapse.selector children) c =
      watch steps (Collapse.dual Collapse.sequence children) c :=
    Mirrors.run_eq mirrors_collapse_selector (Mirrors.dual mirrors_collapse_sequence) _ children _
  have hsequence : watch steps (Collapse.sequence children) c =
      watch steps (Collapse.dual Collapse.selector children) c :=
    Mirrors.run_eq mirrors_collapse_sequence (Mirrors.dual mirrors_collapse_selector) _ children _
  refine ⟨⟨?_, hselector⟩, ?_, hsequence⟩
  · rw [← watch_run, hselector, watch_run]
  · rw [← watch_run, hsequence, watch_run]

/-! ## Grouping

Groups of children are a row of rows: a chain goes from group to group as `tickWhile` does from
child to child. -/

theorem tickWhile_flatten (go : Status) (groups : List (List (Node L))) (c : C) :
    tickWhile go groups.flatten c =
      (chain (tickWhile go) go groups c).map (onTree List.flatten) := by
  induction groups generalizing c with
  | nil => rfl
  | cons group rest ih =>
    rw [List.flatten_cons, tickWhile_concat, chain]
    cases tickWhile go group c with
    | error e => rfl
    | ok r =>
      obtain ⟨s, after, c'⟩ := r
      by_cases hs : s = go
      · simp only [ok_bind, hs, if_true, ih]
        cases chain (tickWhile go) go rest c' <;> rfl
      · simp [hs, onTree]

theorem tickWhile_map (h : Mirrors C (tickWhile go) make) (groups : List (List (Node L))) (c : C) :
    tickWhile go (groups.map make) c =
      (chain (tickWhile go) go groups c).map (onTree (List.map make)) := by
  rw [tickWhile_eq_chain]
  exact chain_image id make id (fun _ hs => hs) (fun group _ c => h group c) c

/-- Any division of the children into groups will do. -/
theorem run_groups (h : Mirrors C (tickWhile go) make) (groups : List (List (Node L)))
    (steps : List (C → C)) (c : C) :
    run steps (make (groups.map make)) c = run steps (make groups.flatten) c := by
  have hgrouped : Mirrors C (chain (tickWhile go) go) fun groups => make (groups.map make) := by
    intro groups c
    dsimp only
    rw [h, tickWhile_map h]
    cases chain (tickWhile go) go groups c <;> rfl
  have hflat : Mirrors C (chain (tickWhile go) go) fun groups => make groups.flatten := by
    intro groups c
    dsimp only
    rw [h, tickWhile_flatten]
    cases chain (tickWhile go) go groups c <;> rfl
  exact hgrouped.run_eq hflat steps groups c

/-- One group among single children. -/
theorem run_group (h : Mirrors C (tickWhile go) make) (hsingle : ∀ child, make [child] = child)
    (front group back : List (Node L)) (steps : List (C → C)) (c : C) :
    run steps (make (front ++ [make group] ++ back)) c =
      run steps (make (front ++ group ++ back)) c := by
  let groups := front.map ([·]) ++ [group] ++ back.map ([·])
  have hgrouped : groups.map make = front ++ [make group] ++ back := by
    simp [groups, hsingle, Function.comp_def]
  have hflat : groups.flatten = front ++ group ++ back := by
    simp [groups, ← List.flatMap_def]
  rw [← hgrouped, ← hflat]
  exact run_groups h groups steps c

/-- Over every run a sequence with a sequence among its children shows what it shows with the
children of that one in its place, and the same holds of selectors. -/
theorem run_regrouped (front group back : List (Node L)) (steps : List (C → C)) (c : C) :
    run steps (Collapse.sequence (front ++ [Collapse.sequence group] ++ back)) c =
        run steps (Collapse.sequence (front ++ group ++ back)) c ∧
      run steps (Collapse.selector (front ++ [Collapse.selector group] ++ back)) c =
        run steps (Collapse.selector (front ++ group ++ back)) c := by
  constructor
  · refine run_group mirrors_collapse_sequence (fun child => ?_) front group back steps c
    cases child <;> rfl
  · refine run_group mirrors_collapse_selector (fun child => ?_) front group back steps c
    cases child <;> rfl

end Node
end Helm
