import Helm.Proofs.Random.Share
import Helm.Proofs.Tree.History

/-!
# Helm.Proofs.Tree.Shares

Random selectors that draw by weight. With one weight a child, not all of them zero, a roll looks up
one of as many values as the weights add up to. Every one of them may come up, and a child is chosen
for as many of them as its weight. With any other weights the selector cannot be told from one that
draws uniformly: what happens to the one happens to the other, tick by tick.
-/

namespace Helm

namespace Wheel

variable {G : Type} [WordSource G] {w : Wheel} {weights : List Nat} {now : Float32}

theorem roll_weighted (hpolicy : w.policy = .weighted weights)
    (hlength : weights.length = w.picked.length) (htotal : 0 < Draw.totalWeight weights)
    (now : Float32) (g : G) :
    w.roll now g = .ok (Draw.bucket weights (Draw.lot weights g).1,
      { w with
        selected := some (Draw.bucket weights (Draw.lot weights g).1)
        lastRoll := now },
      (Draw.lot weights g).2) := by
  have husable : Draw.usableWeights? w.picked.length weights = some weights :=
    if_pos ⟨hlength, Nat.ne_of_gt htotal⟩
  have hdraw : w.draw g = .ok (Draw.bucket weights (Draw.lot weights g).1, w.picked,
      (Draw.lot weights g).2) := by
    unfold draw
    rw [hpolicy]
    dsimp only
    rw [husable]
    dsimp only
    rw [Draw.weighted_eq]
  unfold roll
  rw [hdraw]
  rfl

/-- The wheel with a uniform draw in place of its own. -/
def evened (w : Wheel) : Wheel := { w with policy := .uniform }

theorem draw_evened (hpolicy : w.policy = .weighted weights)
    (hunusable : Draw.usableWeights? w.picked.length weights = none) (g : G) :
    w.evened.draw g = w.draw g := by
  unfold draw
  rw [hpolicy]
  dsimp only [evened]
  rw [hunusable]

theorem roll_evened (hpolicy : w.policy = .weighted weights)
    (hunusable : Draw.usableWeights? w.picked.length weights = none) (now : Float32) (g : G) :
    w.evened.roll now g = (w.roll now g).map fun r => (r.1, r.2.1.evened, r.2.2) := by
  unfold roll
  rw [draw_evened hpolicy hunusable]
  cases w.draw g <;> rfl

theorem turn_evened (hpolicy : w.policy = .weighted weights)
    (hunusable : Draw.usableWeights? w.picked.length weights = none) (now : Float32) (g : G) :
    w.evened.turn now g = (w.turn now g).map fun r => (r.1, r.2.1.evened, r.2.2) := by
  have hsame : w.evened.rolls now = w.rolls now := rfl
  cases hrolls : w.rolls now with
  | true =>
    rw [turn_of_rolls hrolls, turn_of_rolls (hsame.trans hrolls), roll_evened hpolicy hunusable]
  | false =>
    obtain ⟨child, hchild, hturn⟩ := turn_of_not_rolls hrolls g
    obtain ⟨child', hchild', hturn'⟩ := turn_of_not_rolls (hsame.trans hrolls) g
    obtain rfl : child = child' := Option.some.inj (hchild.symm.trans hchild')
    rw [hturn, hturn']
    rfl

end Wheel

namespace Node

open Draw

variable {L C : Type} [Behavior L C] [TickContext C] {cooldown : Float32} {mode : RandomMode}
  {policy : RandomPolicy} {weights : List Nat} {children cs : List (Node L)} {past : List Spin}
  {w : Wheel}

/-- What is true of every child that may be drawn is true of every child that has been ticked. -/
theorem Spun.forall_child {P : Nat → Prop} (hchildren : children ≠ [])
    (hroll : ∀ (w : Wheel), w.Fits children.length → w.policy = policy →
      ∀ (now : Float32) (c : C) child w' c', w.roll now c = .ok (child, w', c') → P child)
    (h : Spun C (freshRandom cooldown mode policy children) past w cs) :
    ∀ spin ∈ past, P spin.child := by
  induction h with
  | fresh => exact fun spin hspin => absurd hspin List.not_mem_nil
  | @tick past w w' cs cs' c c' child status hspun htick hchild ih =>
    obtain ⟨-, hrecalls⟩ := hspun.recalls hchildren
    obtain ⟨w₁, c₁, hturn, -⟩ := hspun.turn hchildren htick hchild
    refine List.forall_mem_cons.mpr ⟨?_, ih⟩
    dsimp only
    cases hrolls : w.rolls (TickContext.time c) with
    | true =>
      rw [Wheel.turn_of_rolls hrolls] at hturn
      exact hroll w hrecalls.fits hrecalls.policy _ c child w₁ c₁ hturn
    | false =>
      -- the child is that of the tick before
      obtain ⟨child', hselected, hkept⟩ := Wheel.turn_of_not_rolls hrolls c
      rw [hturn] at hkept
      cases hkept
      rw [hrecalls.selected] at hselected
      obtain ⟨last, hlast, rfl⟩ := Option.map_eq_some_iff.mp hselected
      exact ih last (List.mem_of_head? hlast)

/-- A selector with weights that cannot be used goes the way of a uniform one. -/
theorem Spun.evened (hchildren : children ≠ [])
    (hunusable : usableWeights? children.length weights = none)
    (h : Spun C (freshRandom cooldown mode (.weighted weights) children) past w cs) :
    Spun C (freshRandom cooldown mode .uniform children) past w.evened cs := by
  induction h with
  | fresh hstart =>
    cases hstart
    exact .fresh rfl
  | @tick past w w' cs cs' c c' child status hspun htick hchild ih =>
    obtain ⟨-, hrecalls⟩ := hspun.recalls hchildren
    obtain ⟨w₁, c₁, hturn, rfl⟩ := hspun.turn hchildren htick hchild
    have hturn' := Wheel.turn_evened hrecalls.policy (hrecalls.fits.marks ▸ hunusable)
      (TickContext.time c) c
    rw [hturn, map_ok] at hturn'
    have htick' : Node.tick (randomSelector w.evened cs) c =
        .ok (status, randomSelector (w₁.record status).evened cs', c') := by
      rw [Node.tick, hturn, ok_bind] at htick
      rw [Node.tick, hturn', ok_bind]
      dsimp only at htick ⊢
      cases hticked : tickAt child cs c₁ with
      | error e =>
        rw [hticked] at htick
        cases htick
      | ok r =>
        rw [hticked] at htick
        cases htick
        rfl
    -- the two wheels roll at the same times
    change Spun C _ (⟨_, w.evened.rolls _, _, _⟩ :: past) _ _
    exact .tick ih htick' hchild

/-- Usable weights share the values of a roll out among the children: a value goes to the child
whose position is the number of partial sums it reaches, the last left out, so that each child gets
as many values as its weight, and one without weight is never ticked. Weights that cannot be used
leave everything as it would be with uniform draws. The draw of a value gives up after
`Draw.patience` rejections in a row, a bound that drawing until acceptance does not have; the value
is below the total all the same, and the child it goes to is the same however it was drawn. -/
theorem weighted_shares (cooldown : Float32) (mode : RandomMode) (weights : List Nat)
    (hchildren : children ≠ [])
    (h : Spun C (freshRandom cooldown mode (.weighted weights) children) past w cs) :
    let total := totalWeight weights
    (weights.length = children.length → 0 < total → total < UInt32.size →
      (∀ value, bucket weights value = (List.range (weights.length - 1)).countP fun k =>
        totalWeight (weights.take (k + 1)) ≤ value) ∧
      (∀ i (hi : i < weights.length),
        ((Finset.range total).filter fun value => bucket weights value = i).card = weights[i]) ∧
      (∀ value < total, ∃ word : UInt32, ∀ c c' : C,
        WordSource.nextWord c = (word, c') → lot weights c = (value, c')) ∧
      (∀ (now : Float32) (c : C), ∃ value w' c',
        lot weights c = (value, c') ∧ value < total ∧
          w.roll now c = .ok (bucket weights value, w', c')) ∧
      ∀ spin ∈ past, spin.child < children.length ∧
        ∃ weight, weights[spin.child]? = some weight ∧ 0 < weight) ∧
    (weights.length ≠ children.length ∨ (∀ weight ∈ weights, weight = 0) →
      Spun C (freshRandom cooldown mode .uniform children) past w.evened cs ∧
      ∀ (now : Float32) (c : C),
        w.evened.roll now c = (w.roll now c).map fun r => (r.1, r.2.1.evened, r.2.2)) := by
  intro total
  obtain ⟨-, hrecalls⟩ := h.recalls hchildren
  refine ⟨fun hlength htotal hsize => ?_, fun hunfit => ?_⟩
  · have hroll : ∀ w : Wheel, w.Fits children.length → w.policy = .weighted weights →
        ∀ (now : Float32) (c : C), ∃ value w' c', lot weights c = (value, c') ∧ value < total ∧
          w.roll now c = .ok (bucket weights value, w', c') := by
      intro w hfits hpolicy now c
      exact ⟨_, _, _, rfl, lot_lt htotal c,
        Wheel.roll_weighted hpolicy (hlength.trans hfits.marks.symm) htotal now c⟩
    refine ⟨bucket_eq_countP weights, fun i hi => card_bucket hi,
      fun value hvalue => lot_reached hvalue (Nat.le_of_lt hsize),
      hroll w hrecalls.fits hrecalls.policy, ?_⟩
    refine h.forall_child (P := fun child => child < children.length ∧
      ∃ weight, weights[child]? = some weight ∧ 0 < weight) hchildren ?_
    intro w hfits hpolicy now c child w' c' hdraw
    obtain ⟨value, w₁, c₁, -, hvalue, hdraw'⟩ := hroll w hfits hpolicy now c
    rw [hdraw] at hdraw'
    cases hdraw'
    obtain ⟨weight, hweight, hpos⟩ := weight_pos_of_bucket hvalue
    exact ⟨hlength ▸ (List.getElem?_eq_some_iff.mp hweight).1, weight, hweight, hpos⟩
  · have hunusable : usableWeights? children.length weights = none := by
      refine if_neg ?_
      rintro ⟨hlength, htotal⟩
      exact hunfit.elim (· hlength) fun hzero => htotal (totalWeight_eq_zero hzero)
    exact ⟨h.evened hchildren hunusable,
      Wheel.roll_evened hrecalls.policy (hrecalls.fits.marks ▸ hunusable)⟩

/-- Of three children with the weights two, zero and one, the second is never ticked; with only two
weights for them, all goes the way of uniform draws. -/
theorem weighted_shares_trio :
    trio ≠ [] ∧
      (∃ past w cs, Spun Stage (freshRandom 0 .selector (.weighted [2, 0, 1]) trio) past w cs ∧
        past.length = 5 ∧ ∀ spin ∈ past, spin.child ≠ 1) ∧
      ∃ past w cs, Spun Stage (freshRandom 0 .selector (.weighted [2, 1]) trio) past w cs ∧
        past.length = 5 ∧
        Spun Stage (freshRandom 0 .selector .uniform trio) past w.evened cs := by
  have htrio : trio ≠ [] := List.cons_ne_nil _ _
  have hticks : ∀ weights, weights = [2, 0, 1] ∨ weights = [2, 1] → ∃ past w cs,
      Spun Stage (freshRandom 0 .selector (.weighted weights) trio) past w cs ∧
        past.length = 5 := by
    intro weights hweights
    obtain ⟨⟨past, w, cs, stage⟩, hspins, hlength⟩ : ∃ r,
        spins (Wheel.create 3 0 .selector (.weighted weights)) trio Stage.opening
            (List.replicate 5 (Stage.wait 1)) = .ok r ∧ r.1.length = 5 :=
      yields_false_iff.mp (by rcases hweights with rfl | rfl <;> decide +kernel)
    exact ⟨past, w, cs, spun_of_spins hspins, hlength⟩
  refine ⟨htrio, ?_, ?_⟩
  · obtain ⟨past, w, cs, hspun, hlength⟩ := hticks _ (.inl rfl)
    have hshares :=
      (weighted_shares 0 .selector [2, 0, 1] htrio hspun).1 rfl (by decide) (by decide)
    refine ⟨past, w, cs, hspun, hlength, fun spin hspin hchild => ?_⟩
    obtain ⟨-, weight, hweight, hpos⟩ := hshares.2.2.2.2 spin hspin
    rw [hchild] at hweight
    cases hweight
    exact Nat.lt_irrefl 0 hpos
  · obtain ⟨past, w, cs, hspun, hlength⟩ := hticks _ (.inr rfl)
    have hsame := (weighted_shares 0 .selector [2, 1] htrio hspun).2 (.inl (by decide))
    exact ⟨past, w, cs, hspun, hlength, hsame.1⟩

end Node

end Helm
