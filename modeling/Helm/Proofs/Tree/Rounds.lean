import Mathlib.Data.List.Nodup
import Mathlib.Data.List.Perm.Subperm
import Helm.Proofs.Tree.History

/-!
# Helm.Proofs.Tree.Rounds

Random selectors that draw without repetition. The draws over a whole history come in rounds, as
many draws to a round as there are children. The marks of the wheel are the draws of the latest
round (`Round`), and a draw either adds to that round or, when all children are marked, begins a new
one (`InRounds.draw`). Hence every full round has each child once, and the round that is going on
has none twice (`noRepeat_rounds`).
-/

namespace Helm

open Wheel

/-- The children that have been drawn, in the order of the draws. -/
def Spin.drawn (past : List Spin) : List Nat := ((past.filter (·.rolled)).map (·.child)).reverse

theorem Spin.drawn_cons (spin : Spin) (past : List Spin) :
    drawn (spin :: past) = if spin.rolled then drawn past ++ [spin.child] else drawn past := by
  unfold drawn
  rw [List.filter_cons]
  split <;> simp

theorem Spin.Lawful.drawn_lt {cooldown : Float32} {mode : RandomMode} {count : Nat}
    {past : List Spin} (h : Lawful cooldown mode count past) :
    ∀ child ∈ drawn past, child < count := by
  induction past with
  | nil => exact fun child hchild => absurd hchild List.not_mem_nil
  | cons spin past ih =>
    obtain ⟨-, -, hspin, hpast⟩ := h
    intro child hchild
    rw [drawn_cons] at hchild
    split at hchild
    · rcases List.mem_append.mp hchild with hchild | hchild
      · exact ih hpast child hchild
      · rw [List.mem_singleton.mp hchild]
        exact hspin
    · exact ih hpast child hchild

/-- The round with the number `k`, counted from zero, of a list of draws. -/
def block (count k : Nat) (draws : List Nat) : List Nat := (draws.drop (k * count)).take count

theorem nodup_block_append {count : Nat} {done current : List Nat} (hwhole : count ∣ done.length)
    (hdone : ∀ k, (block count k done).Nodup) (hcurrent : current.Nodup) (k : Nat) :
    (block count k (done ++ current)).Nodup := by
  obtain ⟨rounds, hrounds⟩ := hwhole
  unfold block at *
  rcases Nat.lt_or_ge k rounds with hk | hk
  · have hfull : (k + 1) * count ≤ done.length := by
      rw [hrounds, Nat.mul_comm count]
      exact Nat.mul_le_mul_right _ hk
    rw [Nat.add_one_mul] at hfull
    rw [List.drop_append_of_le_length (by omega), List.take_append_of_le_length (by simp; omega)]
    exact hdone k
  · have hpast : done.length ≤ k * count := by
      rw [hrounds, Nat.mul_comm count]
      exact Nat.mul_le_mul_right _ hk
    rw [List.drop_append, List.drop_eq_nil_of_le hpast, List.nil_append]
    exact hcurrent.sublist ((List.take_sublist _ _).trans (List.drop_sublist _ _))

/-! ## Marks -/

theorem Wheel.mem_untaken_iff {marks : List Bool} {start child : Nat} :
    child ∈ untaken marks start ↔ start ≤ child ∧ marks[child - start]? = some false := by
  induction marks generalizing start with
  | nil => simp [untaken]
  | cons taken rest ih =>
    rcases Nat.lt_trichotomy child start with hlt | rfl | hlt
    · have hnot : ¬start ≤ child := by omega
      have hnot' : ¬start + 1 ≤ child := by omega
      cases taken <;> simp [untaken, ih, hnot, hnot', Nat.ne_of_lt hlt]
    · have hnot : ¬child + 1 ≤ child := by omega
      cases taken <;> simp [untaken, ih, hnot]
    · have hindex : child - start = child - (start + 1) + 1 := by omega
      have hne : child ≠ start := by omega
      rw [hindex, List.getElem?_cons_succ]
      cases taken <;> simp [untaken, ih, hne, Nat.le_of_lt hlt, Nat.succ_le_of_lt hlt]

theorem Wheel.getElem?_mark {marks : List Bool} {child : Nat} (h : child < marks.length) (i : Nat) :
    (marks.set child true)[i]? = some true ↔ i = child ∨ marks[i]? = some true := by
  rw [List.getElem?_set]
  by_cases hi : child = i
  · subst hi
    simp [h]
  · simp [hi, Ne.symm hi]

/-- What a draw without repetition does, the position of the child among those left included. -/
theorem Wheel.draw_noRepeat {G : Type} [WordSource G] {w : Wheel} (hpolicy : w.policy = .noRepeat)
    (hw : w.picked ≠ []) (g : G) :
    ∃ nth child g', untaken (cycle w.picked) 0 ≠ [] ∧
      Draw.index (untaken (cycle w.picked) 0).length g = .ok (nth, g') ∧
      (untaken (cycle w.picked) 0)[nth]? = some child ∧
      w.draw g = .ok (child, (cycle w.picked).set child true, g') := by
  have hsome := untaken_ne_nil (false_mem_cycle hw) 0
  have hinv : Draw.Steady fun _ : G => True := fun _ _ => trivial
  have hyields : Yields (fun _ => False)
      (fun r => r.1 < (untaken (cycle w.picked) 0).length ∧ True)
      (Draw.index (untaken (cycle w.picked) 0).length g) :=
    Draw.index_yields hinv (List.length_pos_iff.mpr hsome) trivial
  obtain ⟨⟨nth, g'⟩, hindex, hnth, -⟩ := yields_false_iff.mp hyields
  have hchild := List.getElem?_eq_getElem hnth
  refine ⟨nth, _, g', hsome, hindex, hchild, ?_⟩
  rw [draw, hpolicy]
  dsimp only
  rw [hindex, ok_bind]
  dsimp only
  rw [List.getD_eq_getElem?_getD, hchild]
  rfl

/-! ## Rounds -/

/-- The draws so far are full rounds and a round that may go on, whose children are marked. -/
structure Round (count : Nat) (picked : List Bool) (done current : List Nat) : Prop where
  whole : count ∣ done.length
  blocks : ∀ k, (block count k done).Nodup
  nodup : current.Nodup
  marks : ∀ child, picked[child]? = some true ↔ child ∈ current

theorem Round.fresh (count : Nat) : Round count (List.replicate count false) [] [] where
  whole := Nat.dvd_zero count
  blocks k := by simp [block]
  nodup := List.nodup_nil
  marks child := by simp [List.getElem?_replicate]

variable {count : Nat} {picked : List Bool} {done current : List Nat}

/-- When all children are marked, the round is full. -/
theorem Round.full (h : Round count picked done current) (hlength : picked.length = count)
    (hall : picked.all id = true) : current.length = count := by
  have hmem : ∀ child, child ∈ current ↔ child ∈ List.range count := by
    intro child
    rw [← h.marks, List.mem_range, ← hlength]
    constructor
    · intro hmark
      exact (List.getElem?_eq_some_iff.mp hmark).1
    · intro hchild
      rw [List.getElem?_eq_getElem hchild]
      exact congrArg some (List.all_eq_true.mp hall _ (List.getElem_mem hchild))
  have hperm := (List.perm_ext_iff_of_nodup h.nodup List.nodup_range).mpr hmem
  rw [hperm.length_eq, List.length_range]

/-- The draws of a history come in rounds, and the marks are the children of the last one. -/
def InRounds (count : Nat) (draws : List Nat) (picked : List Bool) : Prop :=
  ∃ done current, draws = done ++ current ∧ Round count picked done current

variable {draws : List Nat}

theorem InRounds.nodup (h : InRounds count draws picked) (k : Nat) :
    (block count k draws).Nodup := by
  obtain ⟨done, current, rfl, hround⟩ := h
  exact nodup_block_append hround.whole hround.blocks hround.nodup k

/-- A child that is drawn is new to the round it is drawn in. -/
theorem InRounds.draw (h : InRounds count draws picked) (hlength : picked.length = count)
    {child : Nat} (hchild : child ∈ untaken (cycle picked) 0) :
    InRounds count (draws ++ [child]) ((cycle picked).set child true) := by
  obtain ⟨done, current, rfl, h⟩ := h
  obtain ⟨-, hmark⟩ := mem_untaken_iff.mp hchild
  rw [Nat.sub_zero] at hmark
  have hbound : child < (cycle picked).length := (List.getElem?_eq_some_iff.mp hmark).1
  have hmarks := getElem?_mark hbound
  by_cases hall : picked.all id = true
  · -- the round is full, so that the child is the first of the next one
    have hcycle : ∀ i : Nat, (cycle picked)[i]? ≠ some true := by
      intro i
      rw [cycle, if_pos hall, List.getElem?_map]
      cases picked[i]? <;> simp
    refine ⟨done ++ current, [child], rfl, ?_, nodup_block_append h.whole h.blocks h.nodup,
      List.nodup_singleton child, fun i => ?_⟩
    · rw [List.length_append, h.full hlength hall]
      exact Nat.dvd_add h.whole (Nat.dvd_refl count)
    · rw [hmarks, List.mem_singleton]
      exact or_iff_left (hcycle i)
  · -- no mark is cleared, and the child is one without a mark
    have hcycle : cycle picked = picked := if_neg hall
    rw [hcycle] at hmark hmarks ⊢
    have hnew : child ∉ current := by
      intro hold
      rw [(h.marks child).mpr hold] at hmark
      cases hmark
    refine ⟨done, current ++ [child], List.append_assoc .., h.whole, h.blocks, ?_, fun i => ?_⟩
    · exact List.nodup_append.mpr ⟨h.nodup, List.nodup_singleton child, fun a ha b hb hab =>
        hnew (List.mem_singleton.mp hb ▸ hab ▸ ha)⟩
    · rw [hmarks, h.marks, List.mem_append, List.mem_singleton, or_comm]

/-! ## Histories -/

namespace Node

open Spin

variable {L C : Type} [Behavior L C] [TickContext C] {cooldown : Float32} {mode : RandomMode}
  {children cs : List (Node L)} {past : List Spin} {w : Wheel}

/-- One more tick adds its draw to the rounds, if it draws. -/
theorem inRounds_turn {G : Type} [WordSource G] {now : Float32} {g g' : G} {w' : Wheel}
    {child count : Nat} (h : InRounds count (drawn past) w.picked) (hpolicy : w.policy = .noRepeat)
    (hlength : w.picked.length = count) (hcount : 0 < count)
    (hturn : w.turn now g = .ok (child, w', g')) (status : Status) :
    InRounds count (drawn (⟨now, w.rolls now, child, status⟩ :: past)) w'.picked := by
  rw [drawn_cons]
  cases hrolls : w.rolls now with
  | false =>
    obtain ⟨child', -, hkept⟩ := turn_of_not_rolls hrolls g
    rw [hturn] at hkept
    cases hkept
    exact h
  | true =>
    have hpicked : w.picked ≠ [] := List.length_pos_iff.mp (by omega)
    rw [turn_of_rolls hrolls] at hturn
    obtain ⟨picked, hdraw, rfl⟩ := roll_eq_ok hturn
    obtain ⟨nth, child', g'', -, -, hchild, hdraw'⟩ := draw_noRepeat hpolicy hpicked g
    rw [hdraw] at hdraw'
    cases hdraw'
    rw [if_pos rfl]
    exact h.draw hlength (List.mem_of_getElem? hchild)

theorem Spun.inRounds (hchildren : children ≠ [])
    (h : Spun C (freshRandom cooldown mode .noRepeat children) past w cs) :
    InRounds children.length (drawn past) w.picked := by
  induction h with
  | fresh hstart =>
    cases hstart
    exact ⟨[], [], rfl, .fresh _⟩
  | @tick past w w' cs cs' c c' child status hspun htick hchild ih =>
    obtain ⟨-, hrecalls⟩ := hspun.recalls hchildren
    obtain ⟨w₁, c₁, hturn, rfl⟩ := hspun.turn hchildren htick hchild
    have hpos : 0 < children.length := List.length_pos_iff.mpr hchildren
    exact inRounds_turn ih hrecalls.policy hrecalls.fits.marks hpos hturn status

/-- Cut into rounds, the draws of a history have each child once in every full round and no child
twice in the last one. The draw to come is made from children that are left, is one of them, and
keeps to the rounds. `Draw.index` gives up after `Draw.patience` rejections in a row, a bound that
drawing until acceptance does not have; all this holds whichever of the children left is drawn. -/
theorem noRepeat_rounds (cooldown : Float32) (mode : RandomMode) (hchildren : children ≠ [])
    (h : Spun C (freshRandom cooldown mode .noRepeat children) past w cs) :
    let count := children.length
    let left := untaken (cycle w.picked) 0
    (∀ k, (block count k (drawn past)).Nodup ∧
        ((block count k (drawn past)).length = count →
          (block count k (drawn past)).Perm (List.range count))) ∧
      ∀ (now : Float32) (c : C), ∃ nth child w' c', left ≠ [] ∧
        Draw.index left.length c = .ok (nth, c') ∧ left[nth]? = some child ∧
        w.roll now c = .ok (child, w', c') ∧
        ∀ k, (block count k (drawn past ++ [child])).Nodup := by
  intro count left
  obtain ⟨-, hrecalls⟩ := h.recalls hchildren
  have hrounds := h.inRounds hchildren
  refine ⟨fun k => ⟨hrounds.nodup k, fun hfull => ?_⟩, fun now c => ?_⟩
  · -- as many different numbers below `count` as there are
    have hbelow : block count k (drawn past) ⊆ List.range count := by
      intro child hchild
      have hdrawn := List.drop_subset _ _ (List.take_subset _ _ hchild)
      exact List.mem_range.mpr (hrecalls.lawful.drawn_lt child hdrawn)
    exact (List.subperm_of_subset (hrounds.nodup k) hbelow).perm_of_length_le
      (Nat.le_of_eq (List.length_range.trans hfull.symm))
  · have hpos : 0 < w.picked.length := by
      rw [hrecalls.fits.marks]
      exact List.length_pos_iff.mpr hchildren
    obtain ⟨nth, child, c', hleft, hindex, hchild, hdraw⟩ :=
      draw_noRepeat hrecalls.policy (List.length_pos_iff.mp hpos) c
    have hnext := hrounds.draw hrecalls.fits.marks (List.mem_of_getElem? hchild)
    exact ⟨nth, child, _, c', hleft, hindex, hchild, by rw [roll, hdraw]; rfl, hnext.nodup⟩

/-- Five draws among three children: a full round, and two of the three. -/
theorem noRepeat_rounds_trio :
    trio ≠ [] ∧ ∃ past w cs,
      Spun Stage (freshRandom 0 .selector .noRepeat trio) past w cs ∧
      (block 3 0 (drawn past)).Perm (List.range 3) ∧ (block 3 1 (drawn past)).Nodup ∧
      (block 3 1 (drawn past)).length = 2 := by
  have htrio : trio ≠ [] := List.cons_ne_nil _ _
  obtain ⟨⟨past, w, cs, stage⟩, hspins, hfull, hrest⟩ : ∃ r,
      spins (Wheel.create 3 0 .selector .noRepeat) trio Stage.opening
          (List.replicate 5 (Stage.wait 1)) = .ok r ∧
        (block 3 0 (drawn r.1)).length = 3 ∧ (block 3 1 (drawn r.1)).length = 2 :=
    yields_false_iff.mp (by decide +kernel)
  have hspun := spun_of_spins hspins
  have hrounds := (noRepeat_rounds 0 .selector htrio hspun).1
  exact ⟨htrio, past, w, cs, hspun, (hrounds 0).2 hfull, (hrounds 1).1, hrest⟩

end Node

end Helm
