import Helm.Proofs.Tree.Wheel
import Helm.Random.Dice
import Helm.Tree.Node

/-!
# Helm.Proofs.Tree.History

Random selectors over the ticks they go through. `Spun` relates the selector to its history, a list
of `Spin`s with the latest tick first. The wheel keeps three things, the child chosen, the time of
the last roll and the last status, and they say as much as the whole history (`Recalls`). Whether a
tick rolls is read off the history by `Spin.Due`: the first one does, and later ones do when more
than the cooldown has passed since the latest roll, unless an executor's child is still running.

* `tick_randomSelector`: a tick is that of one of the children, in the context the wheel leaves.
* `randomSelector_turns`: the next tick after any history, whatever the children and draws do.
-/

namespace Helm

/-- A tick of a random selector as its history keeps it. -/
structure Spin where
  time : Float32
  /-- A child was drawn for this tick. -/
  rolled : Bool
  /-- The position of the child that was ticked. -/
  child : Nat
  status : Status
  deriving DecidableEq, Repr

namespace Spin

/-- The time of the latest roll. -/
def lastRoll? (past : List Spin) : Option Float32 := (past.find? (·.rolled)).map (·.time)

/-- More than the cooldown has passed since the latest roll. -/
def Elapsed (cooldown : Float32) (past : List Spin) (now : Float32) : Prop :=
  ∃ time, lastRoll? past = some time ∧ Single.maximum cooldown 0 < now - time

/-- The child of an executor was running at the tick before. -/
def Held (mode : RandomMode) (past : List Spin) : Prop :=
  mode = .executor ∧ past.head?.map (·.status) = some .running

/-- A tick at time `now` rolls after the ticks `past`. -/
def Due (cooldown : Float32) (mode : RandomMode) (past : List Spin) (now : Float32) : Prop :=
  past = [] ∨ Elapsed cooldown past now ∧ ¬Held mode past

/-- Every tick rolls when it is due, keeps the child of the tick before when it is not, and ticks
one of `count` children. -/
def Lawful (cooldown : Float32) (mode : RandomMode) (count : Nat) : List Spin → Prop
  | [] => True
  | spin :: past =>
    (spin.rolled = true ↔ Due cooldown mode past spin.time) ∧
      (spin.rolled = false → past.head?.map (·.child) = some spin.child) ∧
      spin.child < count ∧ Lawful cooldown mode count past

theorem lastRoll?_cons (spin : Spin) (past : List Spin) :
    lastRoll? (spin :: past) = if spin.rolled then some spin.time else lastRoll? past := by
  unfold lastRoll?
  rw [List.find?_cons]
  cases spin.rolled <;> rfl

end Spin

/-! ## One turn -/

namespace Wheel

/-- A child is drawn at time `now`. -/
def rolls (w : Wheel) (now : Float32) : Bool := w.selected.isNone || w.rollDue now

variable {G : Type} [WordSource G] {w w' : Wheel} {now : Float32} {g g' : G} {child : Nat}

theorem turn_of_rolls (h : w.rolls now = true) (g : G) : w.turn now g = w.roll now g := by
  unfold turn
  cases hselected : w.selected with
  | none => rfl
  | some child =>
    rw [rolls, hselected] at h
    exact if_pos h

theorem turn_of_not_rolls (h : w.rolls now = false) (g : G) :
    ∃ child, w.selected = some child ∧ w.turn now g = .ok (child, w, g) := by
  unfold turn
  cases hselected : w.selected with
  | none =>
    rw [rolls, hselected] at h
    cases h
  | some child =>
    rw [rolls, hselected] at h
    refine ⟨child, rfl, if_neg ?_⟩
    rw [Option.isNone_some, Bool.false_or] at h
    rw [h]
    exact Bool.false_ne_true

theorem roll_eq_ok (h : w.roll now g = .ok (child, w', g')) :
    ∃ picked, w.draw g = .ok (child, picked, g') ∧
      w' = { w with picked := picked, selected := some child, lastRoll := now } := by
  obtain ⟨⟨child', picked, g''⟩, hdraw, hr⟩ := bind_eq_ok.mp h
  cases hr
  exact ⟨picked, hdraw, rfl⟩

/-- A turn leaves all of the wheel alone but for the choice, its time and its marks. -/
theorem turn_eq_ok (h : w.turn now g = .ok (child, w', g')) :
    ∃ picked, w' = { w with
      picked := picked
      selected := some child
      lastRoll := if w.rolls now then now else w.lastRoll } := by
  cases hrolls : w.rolls now with
  | true =>
    rw [turn_of_rolls hrolls] at h
    obtain ⟨picked, -, hw⟩ := roll_eq_ok h
    exact ⟨picked, hw⟩
  | false =>
    obtain ⟨child', hselected, hturn⟩ := turn_of_not_rolls hrolls g
    rw [hturn] at h
    cases h
    refine ⟨w.picked, ?_⟩
    rw [← hselected]
    rfl

theorem turn_selected (h : w.turn now g = .ok (child, w', g')) : w'.selected = some child := by
  obtain ⟨picked, rfl⟩ := turn_eq_ok h
  rfl

end Wheel

/-! ## One tick -/

namespace Node

variable {L C : Type} [Behavior L C] [TickContext C]

theorem tickAt_eq {cs : List (Node L)} {index : Nat} {child : Node L}
    (h : cs[index]? = some child) (c : C) :
    tickAt index cs c = (child.tick c).map fun r => (r.1, cs.set index r.2.1, r.2.2) := by
  induction cs generalizing index with
  | nil => cases h
  | cons first rest ih =>
    cases index with
    | zero =>
      cases h
      rw [tickAt]
      cases child.tick c <;> rfl
    | succ index =>
      rw [tickAt, ih h]
      cases child.tick c <;> rfl

/-- Exactly one child is ticked, and the selector gives the status that it gives. -/
theorem tick_randomSelector {w : Wheel} {cs : List (Node L)} (hw : w.Fits cs.length)
    (hcs : 0 < cs.length) (c : C) :
    ∃ child node w' c', w.turn (TickContext.time c) c = .ok (child, w', c') ∧
      child < cs.length ∧ cs[child]? = some node ∧ w'.Fits cs.length ∧
      tick (randomSelector w cs) c = (node.tick c').map fun r =>
        (r.1, randomSelector (w'.record r.1) (cs.set child r.2.1), r.2.2) := by
  have hinv : Draw.Steady fun _ : C => True := fun _ _ => trivial
  have hturn : Yields (fun _ => False)
      (fun r => r.1 < cs.length ∧ r.2.1.Fits cs.length ∧ True) (w.turn (TickContext.time c) c) :=
    Wheel.turn_yields hinv hw hcs _ trivial
  obtain ⟨⟨child, w', c'⟩, hok, hchild, hfits, -⟩ := yields_false_iff.mp hturn
  have hnode : cs[child]? = some cs[child] := List.getElem?_eq_getElem hchild
  refine ⟨child, cs[child], w', c', hok, hchild, hnode, hfits, ?_⟩
  rw [tick, hok, ok_bind]
  dsimp only
  rw [tickAt_eq hnode]
  cases cs[child].tick c' <;> rfl

/-! ## Histories -/

/-- Ticked in one context after the other, whatever they are, a random selector has come to the
wheel and the children given. -/
inductive Spun (C : Type) [Behavior L C] [TickContext C] (start : Node L) :
    List Spin → Wheel → List (Node L) → Prop where
  | fresh {w : Wheel} {cs : List (Node L)} : start = randomSelector w cs → Spun C start [] w cs
  | tick {past : List Spin} {w w' : Wheel} {cs cs' : List (Node L)} {c c' : C} {child : Nat}
      {status : Status} : Spun C start past w cs →
      tick (randomSelector w cs) c = .ok (status, randomSelector w' cs', c') →
      w'.selected = some child →
      Spun C start (⟨TickContext.time c, w.rolls (TickContext.time c), child, status⟩ :: past)
        w' cs'

/-- What the wheel of a random selector keeps of the history. -/
structure Recalls (cooldown : Float32) (mode : RandomMode) (policy : RandomPolicy) (count : Nat)
    (past : List Spin) (w : Wheel) : Prop where
  lawful : Spin.Lawful cooldown mode count past
  fits : w.Fits count
  mode : w.mode = mode
  policy : w.policy = policy
  cooldown : w.cooldown = Single.maximum cooldown 0
  selected : w.selected = past.head?.map (·.child)
  lastRoll : past ≠ [] → Spin.lastRoll? past = some w.lastRoll
  lastStatus : ∀ spin, past.head? = some spin → w.lastStatus = spin.status

variable {cooldown : Float32} {mode : RandomMode} {policy : RandomPolicy}
  {children cs : List (Node L)} {past : List Spin} {w : Wheel} {now : Float32}

theorem Recalls.create (count : Nat) :
    Recalls cooldown mode policy count [] (Wheel.create count cooldown mode policy) where
  fits := Wheel.fits_create count cooldown mode policy
  mode := rfl
  policy := rfl
  cooldown := rfl
  selected := rfl
  lastRoll h := absurd rfl h
  lastStatus spin h := by cases h
  lawful := trivial

/-- The wheel rolls when the history says so. -/
theorem Recalls.rolls_iff {count : Nat} (h : Recalls cooldown mode policy count past w) :
    w.rolls now = true ↔ Spin.Due cooldown mode past now := by
  unfold Wheel.rolls Wheel.rollDue Spin.Due Spin.Elapsed Spin.Held
  cases past with
  | nil => simp [h.selected]
  | cons last past =>
    have hroll := h.lastRoll (List.cons_ne_nil _ _)
    have hstatus := h.lastStatus last rfl
    simp [h.selected, h.mode, h.cooldown, hroll, hstatus]
    rw [and_comm, ← Decidable.imp_iff_not_or]

/-- A turn and the status that follows it are recalled. -/
theorem Recalls.turn {G : Type} [WordSource G] {count child : Nat} {g g' : G} {w' : Wheel}
    (h : Recalls cooldown mode policy count past w)
    (hturn : w.turn now g = .ok (child, w', g')) (hfits : w'.Fits count) (status : Status) :
    Recalls cooldown mode policy count (⟨now, w.rolls now, child, status⟩ :: past)
      (w'.record status) := by
  have hkept : w.rolls now = false → past.head?.map (·.child) = some child := by
    intro hrolls
    obtain ⟨child', hselected, hsame⟩ := Wheel.turn_of_not_rolls hrolls g
    rw [hturn] at hsame
    cases hsame
    rw [← h.selected]
    exact hselected
  obtain ⟨picked, rfl⟩ := Wheel.turn_eq_ok hturn
  refine
    { fits := hfits.record status
      mode := h.mode
      policy := h.policy
      cooldown := h.cooldown
      selected := rfl
      lastRoll := fun _ => ?_
      lastStatus := fun spin hspin => by cases hspin; rfl
      lawful := ⟨h.rolls_iff, hkept, hfits.chosen child rfl, h.lawful⟩ }
  rw [Spin.lastRoll?_cons]
  dsimp only [Wheel.record]
  cases hrolls : w.rolls now with
  | true => rfl
  | false =>
    -- the first tick rolls, so that there has been one before
    have hpast : past ≠ [] := by
      intro hnil
      rw [h.rolls_iff.mpr (.inl hnil)] at hrolls
      cases hrolls
    exact h.lastRoll hpast

/-- A tick that is not abandoned turns the wheel and notes the status. -/
theorem turn_of_tick {w w' : Wheel} {cs cs' : List (Node L)} {status : Status} {child : Nat}
    {c c' : C} (hw : w.Fits cs.length) (hcs : 0 < cs.length)
    (h : tick (randomSelector w cs) c = .ok (status, randomSelector w' cs', c'))
    (hchild : w'.selected = some child) :
    ∃ w₁ c₁, w.turn (TickContext.time c) c = .ok (child, w₁, c₁) ∧ w₁.Fits cs.length ∧
      w' = w₁.record status ∧ cs'.length = cs.length := by
  obtain ⟨child', node, w₁, c₁, hturn, -, -, hfits, heq⟩ := tick_randomSelector hw hcs c
  rw [heq] at h
  cases hnode : node.tick c₁ with
  | error e => rw [hnode] at h; cases h
  | ok r =>
    rw [hnode, map_ok, Except.ok.injEq, Prod.mk.injEq, Prod.mk.injEq] at h
    obtain ⟨rfl, hnext, rfl⟩ := h
    cases hnext
    obtain rfl : child' = child :=
      Option.some.inj ((Wheel.turn_selected hturn).symm.trans hchild)
    exact ⟨w₁, c₁, hturn, hfits, rfl, List.length_set⟩

theorem Spun.recalls (hchildren : children ≠ [])
    (h : Spun C (freshRandom cooldown mode policy children) past w cs) :
    cs.length = children.length ∧ Recalls cooldown mode policy children.length past w := by
  induction h with
  | fresh hstart =>
    cases hstart
    exact ⟨rfl, .create _⟩
  | @tick past w w' cs cs' c c' child status _ htick hchild ih =>
    obtain ⟨hlength, hrecalls⟩ := ih
    have hpos : 0 < cs.length := by
      rw [hlength]
      exact List.length_pos_iff.mpr hchildren
    obtain ⟨w₁, c₁, hturn, hfits, rfl, hlength'⟩ :=
      turn_of_tick (hlength ▸ hrecalls.fits) hpos htick hchild
    rw [hlength] at hfits
    exact ⟨hlength'.trans hlength, hrecalls.turn hturn hfits status⟩

theorem Spun.fits (hchildren : children ≠ [])
    (h : Spun C (freshRandom cooldown mode policy children) past w cs) :
    w.Fits cs.length ∧ 0 < cs.length := by
  obtain ⟨hlength, hrecalls⟩ := h.recalls hchildren
  rw [hlength]
  exact ⟨hrecalls.fits, List.length_pos_iff.mpr hchildren⟩

/-- A tick after any history turns the wheel and notes the status. -/
theorem Spun.turn {w' : Wheel} {cs' : List (Node L)} {status : Status} {child : Nat} {c c' : C}
    (hchildren : children ≠ [])
    (h : Spun C (freshRandom cooldown mode policy children) past w cs)
    (htick : Node.tick (randomSelector w cs) c = .ok (status, randomSelector w' cs', c'))
    (hchild : w'.selected = some child) :
    ∃ w₁ c₁, w.turn (TickContext.time c) c = .ok (child, w₁, c₁) ∧ w' = w₁.record status := by
  obtain ⟨hfits, hpos⟩ := h.fits hchildren
  obtain ⟨w₁, c₁, hturn, -, hw, -⟩ := turn_of_tick hfits hpos htick hchild
  exact ⟨w₁, c₁, hturn, hw⟩

/-- After any history the selector rolls if the history says so, and otherwise keeps the child of
the tick before and leaves the random source alone. Either way it ticks one child, gives the status
that the child gives, and leaves the other children as they are. The draw of a roll gives up after
`Draw.patience` rejections in a row, a bound that drawing until acceptance does not have; all this
holds whichever child is drawn. -/
theorem randomSelector_turns (cooldown : Float32) (mode : RandomMode) (policy : RandomPolicy)
    (hchildren : children ≠ [])
    (h : Spun C (freshRandom cooldown mode policy children) past w cs) (c : C) :
    let now := TickContext.time c
    (w.rolls now = true ↔ Spin.Due cooldown mode past now) ∧
      ∃ child node w' c',
        (Spin.Due cooldown mode past now → w.roll now c = .ok (child, w', c')) ∧
        (¬Spin.Due cooldown mode past now →
          past.head?.map (·.child) = some child ∧ w' = w ∧ c' = c) ∧
        child < children.length ∧ cs.length = children.length ∧ cs[child]? = some node ∧
        w'.selected = some child ∧
        tick (randomSelector w cs) c = (node.tick c').map fun r =>
          (r.1, randomSelector (w'.record r.1) (cs.set child r.2.1), r.2.2) := by
  intro now
  obtain ⟨hlength, hrecalls⟩ := h.recalls hchildren
  obtain ⟨hfits, hpos⟩ := h.fits hchildren
  have hdue : w.rolls now = true ↔ Spin.Due cooldown mode past now := hrecalls.rolls_iff
  obtain ⟨child, node, w', c', hturn, hchild, hnode, -, htick⟩ := tick_randomSelector hfits hpos c
  refine ⟨hdue, child, node, w', c', fun hroll => ?_, fun hkeep => ?_, hlength ▸ hchild, hlength,
    hnode, Wheel.turn_selected hturn, htick⟩
  · rw [← Wheel.turn_of_rolls (hdue.mpr hroll)]
    exact hturn
  · have hrolls : w.rolls now = false := Bool.eq_false_iff.mpr fun hrolls => hkeep (hdue.mp hrolls)
    obtain ⟨child', hlast, hkept⟩ := Wheel.turn_of_not_rolls hrolls c
    rw [hturn] at hkept
    cases hkept
    rw [← hrecalls.selected]
    exact ⟨hlast, rfl, rfl⟩

/-! ## Histories that can be computed -/

/-- The history of a random selector that is ticked after each of the changes to the context, the
latest first. -/
def spins (w : Wheel) (cs : List (Node L)) (c : C) :
    List (C → C) → Except Fault (List Spin × Wheel × List (Node L) × C)
  | [] => .ok ([], w, cs, c)
  | change :: earlier => do
    let (past, w, cs, c) ← spins w cs c earlier
    let now := TickContext.time (change c)
    let (child, w', c') ← w.turn now (change c)
    let (status, cs', c') ← tickAt child cs c'
    return (⟨now, w.rolls now, child, status⟩ :: past, w'.record status, cs', c')

theorem spun_of_spins {w₀ : Wheel} {cs₀ : List (Node L)} {c₀ c : C} {changes : List (C → C)}
    (h : spins w₀ cs₀ c₀ changes = .ok (past, w, cs, c)) :
    Spun C (randomSelector w₀ cs₀) past w cs := by
  induction changes generalizing past w cs c with
  | nil =>
    cases h
    exact .fresh rfl
  | cons change earlier ih =>
    obtain ⟨⟨past₁, w₁, cs₁, c₁⟩, hpast, h⟩ := bind_eq_ok.mp h
    obtain ⟨⟨child, w', c'⟩, hturn, h⟩ := bind_eq_ok.mp h
    obtain ⟨⟨status, cs', c''⟩, hchild, h⟩ := bind_eq_ok.mp h
    cases h
    have htick : tick (randomSelector w₁ cs₁) (change c₁) =
        .ok (status, randomSelector (w'.record status) cs, c) := by
      rw [tick, hturn, ok_bind]
      dsimp only
      rw [hchild]
      rfl
    have hselected := Wheel.turn_selected hturn
    exact .tick (ih hpast) htick hselected

end Node

/-- A leaf that gives its statuses one after the other, and the last one for ever. -/
structure Script where
  statuses : List Status
  deriving DecidableEq, Repr

/-- A clock and a source of words. -/
structure Stage where
  time : Float32
  dice : Dice
  deriving DecidableEq, Repr

instance : TickContext Stage where
  nextWord s := (s.dice.next.1, { s with dice := s.dice.next.2 })
  time s := s.time

instance : Behavior Script Stage where
  tick script stage :=
    match script.statuses with
    | [] => .ok (.success, script, stage)
    | [last] => .ok (last, script, stage)
    | status :: rest => .ok (status, ⟨rest⟩, stage)

namespace Stage

/-- The stage before the clock has started and anything has been drawn. -/
def opening : Stage := ⟨0, .ofSeed 1⟩

def wait (seconds : Float32) (s : Stage) : Stage := { s with time := s.time + seconds }

end Stage

/-- Two leaves that are running when they are first ticked and then succeed. -/
def duo : List (Node Script) := [.leaf ⟨[.running, .success]⟩, .leaf ⟨[.running, .success]⟩]

/-- Three leaves that succeed. -/
def trio : List (Node Script) := List.replicate 3 (.leaf ⟨[.success]⟩)

/-- An executor keeps its running child, although the cooldown is over. -/
theorem Node.randomSelector_turns_duo :
    let past : List Spin := [⟨1, true, 0, .running⟩]
    duo ≠ [] ∧ ∃ w cs node,
      Spun Stage (freshRandom 0 .executor .uniform duo) past w cs ∧ cs[0]? = some node ∧
      ∀ stage : Stage, tick (randomSelector w cs) stage = (node.tick stage).map fun r =>
        (r.1, randomSelector (w.record r.1) (cs.set 0 r.2.1), r.2.2) := by
  intro past
  have hduo : duo ≠ [] := List.cons_ne_nil _ _
  obtain ⟨⟨past', w, cs, stage⟩, hspins, rfl⟩ : ∃ r,
      spins (Wheel.create 2 0 .executor .uniform) duo Stage.opening [Stage.wait 1] = .ok r ∧
        r.1 = past := yields_false_iff.mp (by decide +kernel)
  have hspun := spun_of_spins hspins
  have hnode : ∃ node, cs[0]? = some node := by
    have hpos := (hspun.fits hduo).2
    exact ⟨cs[0], List.getElem?_eq_getElem hpos⟩
  obtain ⟨node, hnode⟩ := hnode
  refine ⟨hduo, w, cs, node, hspun, hnode, fun stage => ?_⟩
  obtain ⟨-, child, node', w', c', -, hkept, -, -, hnode', -, htick⟩ :=
    randomSelector_turns 0 .executor .uniform hduo hspun stage
  have hheld : ¬Spin.Due 0 .executor past (TickContext.time stage) := by
    rintro (hnil | ⟨-, hfree⟩)
    · exact absurd hnil (List.cons_ne_nil _ _)
    · exact hfree ⟨rfl, rfl⟩
  obtain ⟨hchild, rfl, rfl⟩ := hkept hheld
  cases hchild
  obtain rfl : node = node' := Option.some.inj (hnode.symm.trans hnode')
  exact htick

end Helm
