import Helm.Data.Least
import Helm.Proofs.Number.Sign
import Helm.World.Ship

/-!
# Helm.Proofs.World.Gap

Gaps between ships as numbers. A gap is always a number without a sign (`gapTo_isNaN`,
`signBit_gapTo`), even where a position is not a number. So the total order by bit pattern, in which
the nearest of several ships is picked, is the order of the gaps, and the pick is the first of those
with the least gap (`split_of_nearest`).
-/

namespace Helm

open Single

theorem Vec2.signBit_distance (v w : Vec2 Float32) : signBit (v.distance w) = false :=
  signBit_sqrt (signBit_add (signBit_mul_self _) (signBit_mul_self _))

/-- The larger of a number and zero is neither missing nor signed, when the number itself is not
signed unless it is negative. -/
theorem Single.maximum_zero_spec {x : Float32} (hx : 0 ≤ x → signBit x = false) :
    (maximum x 0).isNaN = false ∧ signBit (maximum x 0) = false := by
  have hzero : (0 : Float32).isNaN = false ∧ signBit 0 = false := by decide
  rw [maximum]
  split
  · exact hzero
  · rename_i hnumber
    rw [hzero.1, if_neg Bool.false_ne_true]
    split
    · exact hzero
    · rename_i hneg
      have hnumber : x.isNaN = false := by simpa using hnumber
      exact ⟨hnumber, hx (le_of_not_lt hzero.1 hnumber hneg)⟩

namespace ShipState

theorem gapTo_spec (me other : ShipState) :
    (me.gapTo other).isNaN = false ∧ signBit (me.gapTo other) = false :=
  maximum_zero_spec (signBit_sub (Vec2.signBit_distance _ _))

theorem gapTo_isNaN (me other : ShipState) : (me.gapTo other).isNaN = false :=
  (me.gapTo_spec other).1

theorem signBit_gapTo (me other : ShipState) : signBit (me.gapTo other) = false :=
  (me.gapTo_spec other).2

theorem gapTo_le_iff (me a b : ShipState) :
    me.gapTo a ≤ me.gapTo b ↔ rank (me.gapTo a) ≤ rank (me.gapTo b) :=
  le_iff_rank (me.signBit_gapTo a) (me.signBit_gapTo b) (me.gapTo_isNaN a) (me.gapTo_isNaN b)

/-- The nearest ship of a list is the first of those with the least gap. -/
theorem split_of_nearest {me x : ShipState} {ships : List ShipState}
    (h : leastBy? me.gapTo ships = some x) :
    ∃ before after, ships = before ++ x :: after ∧
      (∀ y ∈ before, ¬me.gapTo y ≤ me.gapTo x) ∧ ∀ y ∈ ships, me.gapTo x ≤ me.gapTo y := by
  obtain ⟨before, after, rfl, hbefore, hafter⟩ := split_of_leastBy? h
  refine ⟨before, after, rfl, fun y hy hle => ?_, fun y hy => ?_⟩
  · have := hbefore y hy
    have := (me.gapTo_le_iff y x).mp hle
    omega
  · rw [gapTo_le_iff]
    rcases List.mem_append.mp hy with hy | hy
    · exact Int.le_of_lt (hbefore y hy)
    · rcases List.mem_cons.mp hy with rfl | hy
      · exact Int.le_refl _
      · exact hafter y hy

end ShipState

end Helm
