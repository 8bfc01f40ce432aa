import Helm.Proofs.Tree.Watch

/-!
# Helm.Proofs.Tree.Visit

Which leaves a tick comes to. The leaves of a tree are numbered from left to right, and a tick of
the numbered tree in a watched context records the numbers of the leaves that it ticks
(`Node.visited`). Numbering and watching make no difference to what the tick does (`tick_number`).

A tick is a `Tour` of the leaves: from left to right, each of them is ticked once or left as it was,
and in between the wheels of random selectors are turned (`tour_of_tick`). So whatever a tick makes
of the leaves and of the context can be followed along the list of leaves, without the tree.
-/

namespace Helm
namespace Node

variable {L M C : Type}

/-! ## Leaves -/

mutual

/-- The leaves that have behaviour of their own, from left to right. -/
def leaves : Node L → List L
  | leaf l => [l]
  | alwaysSuccess => []
  | alwaysFailure => []
  | sequence children => leavesOfAll children
  | selector children => leavesOfAll children
  | parallel _ children => leavesOfAll children
  | randomSelector _ children => leavesOfAll children
  | inverter child => leaves child
  | constantResult _ child => leaves child
  | completeOnce _ _ child => leaves child

/-- The leaves of several trees. -/
def leavesOfAll : List (Node L) → List L
  | [] => []
  | child :: rest => leaves child ++ leavesOfAll rest

end

mutual

/-- The tree with its leaves numbered from left to right. -/
def number (start : Nat) : Node L → Node (L × Nat)
  | leaf l => leaf (l, start)
  | alwaysSuccess => alwaysSuccess
  | alwaysFailure => alwaysFailure
  | sequence children => sequence (numberAll start children)
  | selector children => selector (numberAll start children)
  | parallel policy children => parallel policy (numberAll start children)
  | randomSelector wheel children => randomSelector wheel (numberAll start children)
  | inverter child => inverter (number start child)
  | constantResult result child => constantResult result (number start child)
  | completeOnce result completed child => completeOnce result completed (number start child)

/-- Several trees with their leaves numbered from left to right. -/
def numberAll (start : Nat) : List (Node L) → List (Node (L × Nat))
  | [] => []
  | child :: rest => number start child :: numberAll (start + child.leaves.length) rest

end

theorem leaves_map (f : L → M) (node : Node L) : (node.map f).leaves = node.leaves.map f := by
  have hall : ∀ {children : List (Node L)},
      (∀ child ∈ children, (child.map f).leaves = child.leaves.map f) →
      leavesOfAll (mapAll f children) = (leavesOfAll children).map f := by
    intro children h
    induction children with
    | nil => rfl
    | cons child rest ih =>
      obtain ⟨hchild, hrest⟩ := List.forall_mem_cons.mp h
      rw [mapAll, leavesOfAll, leavesOfAll, hchild, ih hrest, List.map_append]
  induction node with
  | leaf l => rfl
  | alwaysSuccess => rfl
  | alwaysFailure => rfl
  | sequence children ih => exact hall ih
  | selector children ih => exact hall ih
  | parallel policy children ih => exact hall ih
  | randomSelector wheel children ih => exact hall ih
  | inverter child ih => exact ih
  | constantResult result child ih => exact ih
  | completeOnce result completed child ih => exact ih

theorem leaves_number (start : Nat) (node : Node L) :
    (node.number start).leaves = node.leaves.zipIdx start := by
  have hall : ∀ {children : List (Node L)} (start : Nat),
      (∀ child ∈ children, ∀ start, (child.number start).leaves = child.leaves.zipIdx start) →
      leavesOfAll (numberAll start children) = (leavesOfAll children).zipIdx start := by
    intro children start h
    induction children generalizing start with
    | nil => rfl
    | cons child rest ih =>
      obtain ⟨hchild, hrest⟩ := List.forall_mem_cons.mp h
      rw [numberAll, leavesOfAll, leavesOfAll, hchild, ih _ hrest, List.zipIdx_append]
  induction node generalizing start with
  | leaf l => rfl
  | alwaysSuccess => rfl
  | alwaysFailure => rfl
  | sequence children ih => exact hall start fun child hmem start => ih child hmem start
  | selector children ih => exact hall start fun child hmem start => ih child hmem start
  | parallel policy children ih => exact hall start fun child hmem start => ih child hmem start
  | randomSelector wheel children ih => exact hall start fun child hmem start => ih child hmem start
  | inverter child ih => exact ih start
  | constantResult result child ih => exact ih start
  | completeOnce result completed child ih => exact ih start

theorem map_number (start : Nat) (node : Node L) : (node.number start).map Prod.fst = node := by
  have hall : ∀ {children : List (Node L)} (start : Nat),
      (∀ child ∈ children, ∀ start, (child.number start).map Prod.fst = child) →
      mapAll Prod.fst (numberAll start children) = children := by
    intro children start h
    induction children generalizing start with
    | nil => rfl
    | cons child rest ih =>
      obtain ⟨hchild, hrest⟩ := List.forall_mem_cons.mp h
      rw [numberAll, mapAll, hchild, ih _ hrest]
  induction node generalizing start with
  | leaf l => rfl
  | alwaysSuccess => rfl
  | alwaysFailure => rfl
  | sequence children ih => rw [number, map, hall start ih]
  | selector children ih => rw [number, map, hall start ih]
  | parallel policy children ih => rw [number, map, hall start ih]
  | randomSelector wheel children ih => rw [number, map, hall start ih]
  | inverter child ih => rw [number, map, ih]
  | constantResult result child ih => rw [number, map, ih]
  | completeOnce result completed child ih => rw [number, map, ih]

/-! ## Visits -/

variable [Behavior L C]

/-- A leaf keeps its number. -/
instance : Behavior (L × Nat) C where
  tick l c := (Behavior.tick l.1 c).map (onTree fun next => (next, l.2))

theorem tick_numbered {l next : L × Nat} {c c' : C} {status : Status}
    (h : Behavior.tick l c = .ok (status, next, c')) :
    next.2 = l.2 ∧ Behavior.tick l.1 c = .ok (status, next.1, c') := by
  change (Behavior.tick l.1 c).map _ = _ at h
  cases htick : Behavior.tick l.1 c with
  | error e => simp [htick] at h
  | ok r =>
    rw [htick] at h
    cases h
    exact ⟨rfl, rfl⟩

variable [TickContext C]

theorem pictures_number :
    Pictures (Prod.fst : L × Nat → L) (Watched.context : Watched (L × Nat) C → C) where
  leaf l w := by
    show _ = (((Behavior.tick l.1 w.context).map _).map _).map _
    cases Behavior.tick l.1 w.context <;> rfl
  word _ := rfl
  time _ := rfl

/-- A tick is a tick of the numbered tree, without the numbers and the record. -/
theorem tick_number (node : Node L) (c : C) :
    node.tick c = ((node.number 0).tick (⟨c, []⟩ : Watched (L × Nat) C)).map
      (image id (map Prod.fst) Watched.context) := by
  have hmap := tick_map pictures_number (node.number 0) (⟨c, []⟩ : Watched (L × Nat) C)
  rwa [map_number] at hmap

/-- The numbers of the leaves that a tick comes to, in order. -/
def visited (node : Node L) (c : C) : List Nat :=
  match (node.number 0).tick (⟨c, []⟩ : Watched (L × Nat) C) with
  | .ok (_, _, w) => w.ticked.map (·.2)
  | .error _ => []

/-! ## Tours -/

/-- The leaves in the third place are ticked, in order and each once; the others stay. -/
inductive Tour : List L → C → List L → List L → C → Prop where
  | nil (c : C) : Tour [] c [] [] c
  | turn {wheel wheel' : Wheel} {index : Nat} {ls ticked after : List L} {c c₁ c' : C} :
      wheel.turn (TickContext.time c) c = .ok (index, wheel', c₁) →
      Tour ls c₁ ticked after c' → Tour ls c ticked after c'
  | skip (l : L) {ls ticked after : List L} {c c' : C} :
      Tour ls c ticked after c' → Tour (l :: ls) c ticked (l :: after) c'
  | visit {l next : L} {status : Status} {ls ticked after : List L} {c c₁ c' : C} :
      Behavior.tick l c = .ok (status, next, c₁) → Tour ls c₁ ticked after c' →
      Tour (l :: ls) c (l :: ticked) (next :: after) c'

namespace Tour

variable {ls ls' ticked ticked' after after' : List L} {c c₁ c' : C}

theorem stay (ls : List L) (c : C) : Tour ls c [] ls c := by
  induction ls with
  | nil => exact .nil c
  | cons l rest ih => exact .skip l ih

theorem append (h : Tour ls c ticked after c₁) (h' : Tour ls' c₁ ticked' after' c') :
    Tour (ls ++ ls') c (ticked ++ ticked') (after ++ after') c' := by
  induction h with
  | nil => exact h'
  | turn hturn _ ih => exact .turn hturn (ih h')
  | skip l _ ih => exact .skip l (ih h')
  | visit htick _ ih => exact .visit htick (ih h')

theorem sublist (h : Tour ls c ticked after c') : ticked.Sublist ls := by
  induction h with
  | nil => exact .slnil
  | turn _ _ ih => exact ih
  | skip l _ ih => exact ih.cons l
  | visit _ _ ih => exact ih.cons_cons _

end Tour

/-- What comes of a tree and of a watched context is what a tour makes of the leaves and the
context, and the record is longer by the leaves that the tour comes to. -/
def Tours (before : List L) (w : Watched L C) (after : List L) (w' : Watched L C) : Prop :=
  ∃ ticked, w'.ticked = w.ticked ++ ticked ∧ Tour before w.context ticked after w'.context

namespace Tours

variable {ls ls' after after' : List L} {w w₁ w' : Watched L C}

theorem stay (ls : List L) (w : Watched L C) : Tours ls w ls w :=
  ⟨[], (List.append_nil _).symm, .stay ls w.context⟩

theorem append (h : Tours ls w after w₁) (h' : Tours ls' w₁ after' w') :
    Tours (ls ++ ls') w (after ++ after') w' := by
  obtain ⟨ticked, hticked, htour⟩ := h
  obtain ⟨ticked', hticked', htour'⟩ := h'
  exact ⟨ticked ++ ticked', by rw [hticked', hticked, List.append_assoc], htour.append htour'⟩

end Tours

/-- Ticks of the tree are tours of its leaves. -/
def TickTours (C : Type) [Behavior L C] [TickContext C] (node : Node L) : Prop :=
  ∀ (w : Watched L C) (status : Status) (next : Node L) (w' : Watched L C),
    node.tick w = .ok (status, next, w') → Tours node.leaves w next.leaves w'

section Lists

variable {children : List (Node L)} {w w' : Watched L C}

theorem tickWhile_tours
    (h : ∀ child ∈ children, child.TickTours C)
    {go status : Status} {after : List (Node L)}
    (hticks : tickWhile go children w = .ok (status, after, w')) :
    Tours (leavesOfAll children) w (leavesOfAll after) w' := by
  induction children generalizing w status after with
  | nil =>
    cases hticks
    exact .stay _ _
  | cons child rest ih =>
    obtain ⟨hchild, hrest⟩ := List.forall_mem_cons.mp h
    obtain ⟨⟨s, next, w₁⟩, htick, hticks⟩ := bind_eq_ok.mp hticks
    have hfirst := hchild _ _ _ _ htick
    dsimp only at hticks
    split at hticks
    · obtain ⟨⟨s', next', w₂⟩, hothers, hticks⟩ := bind_eq_ok.mp hticks
      cases hticks
      exact hfirst.append (ih hrest hothers)
    · cases hticks
      exact hfirst.append (.stay _ _)

theorem tickAll_tours
    (h : ∀ child ∈ children, child.TickTours C)
    {statuses : List Status} {after : List (Node L)}
    (hticks : tickAll children w = .ok (statuses, after, w')) :
    Tours (leavesOfAll children) w (leavesOfAll after) w' := by
  induction children generalizing w statuses after with
  | nil =>
    cases hticks
    exact .stay _ _
  | cons child rest ih =>
    obtain ⟨hchild, hrest⟩ := List.forall_mem_cons.mp h
    obtain ⟨⟨s, next, w₁⟩, htick, hticks⟩ := bind_eq_ok.mp hticks
    obtain ⟨⟨s', next', w₂⟩, hothers, hticks⟩ := bind_eq_ok.mp hticks
    cases hticks
    exact (hchild _ _ _ _ htick).append (ih hrest hothers)

theorem tickAt_tours
    (h : ∀ child ∈ children, child.TickTours C)
    {index : Nat} {status : Status} {after : List (Node L)}
    (hticks : tickAt index children w = .ok (status, after, w')) :
    Tours (leavesOfAll children) w (leavesOfAll after) w' := by
  induction children generalizing index status after with
  | nil => cases index <;> cases hticks
  | cons child rest ih =>
    obtain ⟨hchild, hrest⟩ := List.forall_mem_cons.mp h
    cases index with
    | zero =>
      obtain ⟨⟨s, next, w₁⟩, htick, hticks⟩ := bind_eq_ok.mp hticks
      cases hticks
      exact (hchild _ _ _ _ htick).append (.stay _ _)
    | succ index =>
      obtain ⟨⟨s, next, w₁⟩, hothers, hticks⟩ := bind_eq_ok.mp hticks
      cases hticks
      exact (Tours.stay _ _).append (ih hrest hothers)

end Lists

omit [Behavior L C] in
/-- A turn of a wheel in a watched context is one in the context. -/
theorem turn_watched {wheel wheel' : Wheel} {now : Float32} {index : Nat} {w w' : Watched L C}
    (h : wheel.turn now w = .ok (index, wheel', w')) :
    wheel.turn now w.context = .ok (index, wheel', w'.context) ∧ w'.ticked = w.ticked := by
  have hviews : Draw.Views fun c : C => (⟨c, w.ticked⟩ : Watched L C) := fun _ => rfl
  have hview := Wheel.turn_view hviews wheel now w.context
  rw [h] at hview
  cases hturn : wheel.turn now w.context with
  | error e => simp [hturn] at hview
  | ok r =>
    rw [hturn] at hview
    cases hview
    exact ⟨rfl, rfl⟩

theorem tick_tours (node : Node L) : node.TickTours C := by
  induction node with
  | leaf l =>
    intro w status next w' htick
    obtain ⟨⟨s, l', w₁⟩, hleaf, htick⟩ := bind_eq_ok.mp htick
    cases htick
    change (Behavior.tick l w.context).map _ = _ at hleaf
    cases hl : Behavior.tick l w.context with
    | error e => simp [hl] at hleaf
    | ok r =>
      rw [hl] at hleaf
      cases hleaf
      exact ⟨[l], rfl, .visit hl (.nil _)⟩
  | alwaysSuccess =>
    intro w status next w' htick
    cases htick
    exact .stay _ _
  | alwaysFailure =>
    intro w status next w' htick
    cases htick
    exact .stay _ _
  | sequence children ih =>
    intro w status next w' htick
    obtain ⟨⟨s, after, w₁⟩, hall, htick⟩ := bind_eq_ok.mp htick
    cases htick
    exact tickWhile_tours ih hall
  | selector children ih =>
    intro w status next w' htick
    obtain ⟨⟨s, after, w₁⟩, hall, htick⟩ := bind_eq_ok.mp htick
    cases htick
    exact tickWhile_tours ih hall
  | parallel policy children ih =>
    intro w status next w' htick
    obtain ⟨⟨statuses, after, w₁⟩, hall, htick⟩ := bind_eq_ok.mp htick
    cases htick
    exact tickAll_tours ih hall
  | randomSelector wheel children ih =>
    intro w status next w' htick
    obtain ⟨⟨index, wheel', w₁⟩, hturn, htick⟩ := bind_eq_ok.mp htick
    obtain ⟨⟨s, after, w₂⟩, hchild, htick⟩ := bind_eq_ok.mp htick
    cases htick
    obtain ⟨hturn, hticked⟩ := turn_watched hturn
    obtain ⟨ticked, hrecord, htour⟩ := tickAt_tours ih hchild
    exact ⟨ticked, by rw [hrecord, hticked], .turn hturn htour⟩
  | inverter child ih =>
    intro w status next w' htick
    obtain ⟨⟨s, after, w₁⟩, hchild, htick⟩ := bind_eq_ok.mp htick
    cases htick
    have htours := ih _ _ _ _ hchild
    exact htours
  | constantResult result child ih =>
    intro w status next w' htick
    obtain ⟨⟨s, after, w₁⟩, hchild, htick⟩ := bind_eq_ok.mp htick
    cases htick
    have htours := ih _ _ _ _ hchild
    exact htours
  | completeOnce result completed child ih =>
    intro w status next w' htick
    rw [tick] at htick
    split at htick
    · cases htick
      exact .stay _ _
    · obtain ⟨⟨s, after, w₁⟩, hchild, htick⟩ := bind_eq_ok.mp htick
      cases htick
      have htours := ih _ _ _ _ hchild
      exact htours

/-- A tick is a tour of the numbered leaves, which comes to those that are visited. -/
theorem tour_of_tick {node next : Node L} {c c' : C} {status : Status}
    (h : node.tick c = .ok (status, next, c')) :
    ∃ ticked after, Tour (node.leaves.zipIdx) c ticked after c' ∧
      node.visited c = ticked.map (·.2) ∧ next.leaves = after.map (·.1) := by
  rw [tick_number] at h
  cases hticks : (node.number 0).tick (⟨c, []⟩ : Watched (L × Nat) C) with
  | error e => simp [hticks] at h
  | ok r =>
    obtain ⟨s, node', w⟩ := r
    rw [hticks] at h
    cases h
    obtain ⟨ticked, hticked, htour⟩ := (node.number 0).tick_tours _ _ _ _ hticks
    rw [leaves_number] at htour
    refine ⟨ticked, node'.leaves, htour, ?_, leaves_map _ _⟩
    rw [visited, hticks]
    exact congrArg (List.map _) hticked

end Node
end Helm
