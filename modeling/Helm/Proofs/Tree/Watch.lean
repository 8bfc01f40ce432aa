import Helm.Proofs.Random.Share
import Helm.Proofs.Tree.Expression

/-!
# Helm.Proofs.Tree.Watch

Trees under observation. A watched context keeps a list of the leaves that are ticked, and `watch`
is a run in such contexts, with the list started afresh for every tick. Observing a tree changes
nothing: leave the lists out, and what is left is the run without an observer (`watch_run`). The
reason is that a tree knows of its context only what its leaves, the clock and the random words give
away, so that it ticks in a view of a context as it does in the context (`tick_view`).
-/

namespace Helm

/-! ## Views of a source of words -/

namespace Draw

open WordSource

variable {G H : Type} [WordSource G] [WordSource H] {view : G → H}

/-- The view of a source gives the words of the source. -/
def Views (view : G → H) : Prop :=
  ∀ g, nextWord (view g) = ((nextWord g).1, view (nextWord g).2)

theorem wide_view (hview : Views view) (g : G) : wide (view g) = ((wide g).1, view (wide g).2) := by
  simp only [wide, hview _]

omit [WordSource G] [WordSource H] in
theorem scaled_view {candidate : G → Nat × G} {candidate' : H → Nat × H}
    (h : ∀ g, candidate' (view g) = ((candidate g).1, view (candidate g).2))
    (size n zone tries : Nat) (g : G) :
    scaled candidate' size n zone tries (view g) =
      ((scaled candidate size n zone tries g).1,
        view (scaled candidate size n zone tries g).2) := by
  induction tries generalizing g with
  | zero => simp only [scaled, h]
  | succ tries ih =>
    simp only [scaled, h, ih]
    split <;> rfl

theorem index_view (hview : Views view) (n : Nat) (g : G) :
    index n (view g) = (index n g).map fun r => (r.1, view r.2) := by
  unfold index
  split
  · rfl
  · rw [scaled_view (wide_view hview)]
    rfl

theorem weighted_view (hview : Views view) (weights : List Nat) (g : G) :
    weighted weights (view g) = ((weighted weights g).1, view (weighted weights g).2) := by
  have hlot : lot weights (view g) = ((lot weights g).1, view (lot weights g).2) :=
    scaled_view (fun g => by rw [hview]) _ _ _ _ g
  rw [weighted_eq, weighted_eq, hlot]

end Draw

namespace Wheel

variable {G H : Type} [WordSource G] [WordSource H] {view : G → H}

theorem draw_view (hview : Draw.Views view) (w : Wheel) (g : G) :
    w.draw (view g) = (w.draw g).map fun r => (r.1, r.2.1, view r.2.2) := by
  unfold draw
  cases w.policy with
  | uniform =>
    dsimp only
    rw [Draw.index_view hview]
    cases Draw.index w.picked.length g <;> rfl
  | noRepeat =>
    dsimp only
    rw [Draw.index_view hview]
    cases Draw.index (untaken (cycle w.picked) 0).length g <;> rfl
  | weighted weights =>
    dsimp only
    cases Draw.usableWeights? w.picked.length weights with
    | some usable => simp [Draw.weighted_view hview]
    | none =>
      dsimp only
      rw [Draw.index_view hview]
      cases Draw.index w.picked.length g <;> rfl

theorem turn_view (hview : Draw.Views view) (w : Wheel) (now : Float32) (g : G) :
    w.turn now (view g) = (w.turn now g).map fun r => (r.1, r.2.1, view r.2.2) := by
  have hroll : w.roll now (view g) = (w.roll now g).map fun r => (r.1, r.2.1, view r.2.2) := by
    unfold roll
    rw [draw_view hview]
    cases w.draw g <;> rfl
  unfold turn
  cases w.selected with
  | none => exact hroll
  | some child =>
    dsimp only
    split
    · exact hroll
    · rfl

end Wheel

/-! ## Views of a tree in a context -/

namespace Node

variable {L M C D : Type}

mutual

/-- The tree with other leaves in the places of its own. -/
def map (f : L → M) : Node L → Node M
  | leaf l => leaf (f l)
  | alwaysSuccess => alwaysSuccess
  | alwaysFailure => alwaysFailure
  | sequence children => sequence (mapAll f children)
  | selector children => selector (mapAll f children)
  | parallel policy children => parallel policy (mapAll f children)
  | randomSelector wheel children => randomSelector wheel (mapAll f children)
  | inverter child => inverter (map f child)
  | constantResult result child => constantResult result (map f child)
  | completeOnce result completed child => completeOnce result completed (map f child)

/-- The trees with other leaves in the places of their own. -/
def mapAll (f : L → M) : List (Node L) → List (Node M)
  | [] => []
  | child :: rest => map f child :: mapAll f rest

end

theorem mapAll_eq (f : L → M) (children : List (Node L)) :
    mapAll f children = children.map (map f) := by
  induction children with
  | nil => rfl
  | cons child rest ih => rw [mapAll, ih, List.map_cons]

theorem map_id (node : Node L) : node.map id = node := by
  have hall : ∀ {children : List (Node L)}, (∀ child ∈ children, child.map id = child) →
      mapAll id children = children := by
    intro children h
    rw [mapAll_eq, List.map_congr_left h, List.map_id']
  induction node with
  | leaf l => rfl
  | alwaysSuccess => rfl
  | alwaysFailure => rfl
  | sequence children ih => rw [map, hall ih]
  | selector children ih => rw [map, hall ih]
  | parallel policy children ih => rw [map, hall ih]
  | randomSelector wheel children ih => rw [map, hall ih]
  | inverter child ih => rw [map, ih]
  | constantResult result child ih => rw [map, ih]
  | completeOnce result completed child ih => rw [map, ih]

variable [Behavior L C] [Behavior M D] [TickContext C] [TickContext D]

/-- What a leaf does, and what there is to know of a context besides, can be seen through functions
of the leaf and of the context. -/
structure Pictures (f : L → M) (view : C → D) : Prop where
  leaf : ∀ l c, Behavior.tick (f l) (view c) = (Behavior.tick l c).map (image id f view)
  word : Draw.Views view
  time : ∀ c, TickContext.time (view c) = TickContext.time c

/-- So can a tick of a tree. -/
theorem tick_map {f : L → M} {view : C → D} (h : Pictures f view) (node : Node L) (c : C) :
    (node.map f).tick (view c) = (node.tick c).map (image id (map f) view) := by
  induction node generalizing c with
  | leaf l =>
    rw [map, tick, tick, h.leaf]
    cases Behavior.tick l c <;> rfl
  | alwaysSuccess => rfl
  | alwaysFailure => rfl
  | sequence children ih =>
    have hall := tickWhile_image id (map f) view (fun s (hs : s = .success) => hs) ih c
    rw [id] at hall
    rw [map, mapAll_eq, tick, tick, hall]
    cases tickWhile .success children c <;> simp [image, map, mapAll_eq]
  | selector children ih =>
    have hall := tickWhile_image id (map f) view (fun s (hs : s = .failure) => hs) ih c
    rw [id] at hall
    rw [map, mapAll_eq, tick, tick, hall]
    cases tickWhile .failure children c <;> simp [image, map, mapAll_eq]
  | parallel policy children ih =>
    rw [map, mapAll_eq, tick, tick, tickAll_image (map f) view ih]
    cases tickAll children c <;> simp [image, map, mapAll_eq]
  | randomSelector wheel children ih =>
    rw [map, mapAll_eq, tick, tick, h.time, Wheel.turn_view h.word]
    cases wheel.turn (TickContext.time c) c with
    | error e => rfl
    | ok r =>
      obtain ⟨index, wheel', c'⟩ := r
      simp only [map_ok, ok_bind, tickAt_image (map f) view ih]
      cases tickAt index children c' <;> simp [image, map, mapAll_eq]
  | inverter child ih =>
    rw [map, tick, tick, ih]
    cases child.tick c <;> rfl
  | constantResult result child ih =>
    rw [map, tick, tick, ih]
    cases child.tick c <;> rfl
  | completeOnce result completed child ih =>
    rw [map, tick, tick]
    split
    · rfl
    · rw [ih]
      cases child.tick c <;> rfl

end Node

/-! ## Views of a context -/

namespace Node

variable {L C D : Type} [Behavior L C] [Behavior L D] [TickContext C] [TickContext D]
  {view : C → D}

/-- The result of a tick with a view of the context. -/
def onContext {α : Type} (view : C → D) (r : Status × α × C) : Status × α × D :=
  (r.1, r.2.1, view r.2.2)

/-- What a tree can know of a context is still there in the view of it. -/
structure Views (L : Type) [Behavior L C] [Behavior L D] (view : C → D) : Prop where
  leaf : ∀ (l : L) c, Behavior.tick l (view c) = (Behavior.tick l c).map (onContext view)
  word : Draw.Views view
  time : ∀ c, TickContext.time (view c) = TickContext.time c

/-- A tick in the view of a context is the view of a tick in the context. -/
theorem tick_view (h : Views L view) (node : Node L) (c : C) :
    node.tick (view c) = (node.tick c).map (onContext view) := by
  have hpictures : Pictures (id : L → L) view := ⟨h.leaf, h.word, h.time⟩
  have hmap := tick_map hpictures node c
  rw [map_id, show map id = id from funext map_id] at hmap
  exact hmap

end Node

/-! ## Watched contexts -/

/-- A context with a record of the leaves ticked in it, in order and as they were when it was their
turn. Leaves that are to be told apart have names in their states. -/
structure Watched (L C : Type) where
  context : C
  ticked : List L
  deriving DecidableEq, Repr

namespace Watched

variable {L C : Type} [Behavior L C] [TickContext C]

instance : TickContext (Watched L C) where
  nextWord w :=
    let (word, context) := WordSource.nextWord w.context
    (word, { w with context })
  time w := TickContext.time w.context

instance : Behavior L (Watched L C) where
  tick l w := (Behavior.tick l w.context).map fun r => (r.1, r.2.1, ⟨r.2.2, w.ticked ++ [l]⟩)

/-- The change of a context with nothing on the record yet. -/
def afresh (change : C → C) (w : Watched L C) : Watched L C := ⟨change w.context, []⟩

end Watched

namespace Node

variable {L C : Type} [Behavior L C] [TickContext C]

/-- What a run shows to those who see the leaves: the status of each tick, and the context after it
with the leaves that were ticked. -/
def watch (steps : List (C → C)) (node : Node L) (c : C) :
    List (Except Fault (Status × Watched L C)) :=
  run (steps.map Watched.afresh) node ⟨c, []⟩

theorem views_watched : Views L (Watched.context : Watched L C → C) where
  leaf l w := by
    show _ = ((Behavior.tick l w.context).map _).map _
    cases Behavior.tick l w.context <;> rfl
  word _ := rfl
  time _ := rfl

/-- Being watched makes no difference. -/
theorem watch_run (steps : List (C → C)) (node : Node L) (c : C) :
    (watch steps node c).map (Except.map fun r => (r.1, r.2.context)) = run steps node c := by
  have hrun : ∀ (steps : List (C → C)) (node : Node L) (w : Watched L C),
      (run (steps.map Watched.afresh) node w).map (Except.map fun r => (r.1, r.2.context)) =
        run steps node w.context := by
    intro steps
    induction steps with
    | nil => exact fun _ _ => rfl
    | cons change rest ih =>
      intro node w
      have hview := tick_view views_watched node (Watched.afresh change w)
      rw [List.map_cons, run, run]
      change node.tick (change w.context) = _ at hview
      rw [hview]
      cases node.tick (Watched.afresh change w) with
      | error e => rfl
      | ok r => simp [onContext, ih]
  exact hrun steps node ⟨c, []⟩

end Node
end Helm
