import Helm.Proofs.Number.Monotone

/-!
# Helm.Proofs.Number.Equality

Single precision numbers that compare equal, the two zeros among them, cannot be told apart by a
difference that is compared with something (`lt_sub_congr`), and their difference is not above
anything that is not negative (`not_lt_sub_of_beq`).
-/

namespace Helm.Single

open Float.Model (UnpackedFloat)
open Float.Model.UnpackedFloat

variable {x y z c : Float32}

theorem beq_iff_compare : (x == y) = true ↔ (number x).compare (number y) = some .eq := by
  change ((number x).compare (number y) == some .eq) = true ↔ _
  rw [beq_iff_eq]

theorem beq_self (hx : x.isNaN = false) : (x == x) = true := by
  rw [beq_iff_compare, compare_number hx hx, Option.some.injEq, Int.compare_eq_eq]

theorem place_eq_of_beq (hx : x.isNaN = false) (h : (x == y) = true) :
    y.isNaN = false ∧ place (number y) = place (number x) := by
  rw [beq_iff_compare] at h
  have hy : y.isNaN = false := by
    change (number y).isNaN = false
    cases hn : number y with
    | notANumber =>
      rw [hn] at h
      cases hm : number x <;> rw [hm] at h <;> cases h
    | _ => rfl
  rw [compare_number hx hy, Option.some.injEq, Int.compare_eq_eq] at h
  exact ⟨hy, h.symm⟩

theorem beq_of_beq_of_beq (hx : x.isNaN = false) (hy : (x == y) = true) (hz : (x == z) = true) :
    (y == z) = true := by
  obtain ⟨hyn, hplace⟩ := place_eq_of_beq hx hy
  obtain ⟨hzn, hplace'⟩ := place_eq_of_beq hx hz
  rw [beq_iff_compare, compare_number hyn hzn, Option.some.injEq, Int.compare_eq_eq]
  exact hplace.trans hplace'.symm

/-- A finite number equals finite numbers only, and they stand for the same amount. -/
theorem amount_eq_of_beq (hx : x.isFinite = true) (h : (x == y) = true) :
    y.isFinite = true ∧ amount (number y) = amount (number x) := by
  obtain ⟨hyn, hplace⟩ := place_eq_of_beq (isNaN_of_isFinite hx) h
  have hy : y.isFinite = true := by
    rw [isFinite_iff hyn, hplace]
    exact (isFinite_iff (isNaN_of_isFinite hx)).mp hx
  have hup := amount_mono (rounded_number x) (rounded_number y) hx hy (Int.le_of_eq hplace.symm)
  have hdown := amount_mono (rounded_number y) (rounded_number x) hy hx (Int.le_of_eq hplace)
  exact ⟨hy, by omega⟩

theorem lt_congr_right {r q : Float32} (hr : r.isNaN = false) (hq : q.isNaN = false)
    (h : place (number r) = place (number q)) : c < r ↔ c < q := by
  cases hc : c.isNaN with
  | false => rw [lt_iff hc hr, lt_iff hc hq, h]
  | true =>
    change (number c).isNaN = true at hc
    rw [lt_iff_compare, lt_iff_compare]
    cases hn : number c with
    | notANumber => exact Iff.rfl
    | _ => rw [hn] at hc; cases hc

theorem lt_sub_congr (hx : x.isFinite = true) (h : (x == y) = true) : c < x - z ↔ c < y - z := by
  obtain ⟨hy, hamount⟩ := amount_eq_of_beq hx h
  cases hz : z.isFinite with
  | true =>
    have hleft := lands_sub hx hz
    have hright := lands_sub hy hz
    rw [hamount] at hright
    exact lt_congr_right hleft.isNaN hright.isNaN (hleft.place.trans hright.place.symm)
  | false =>
    -- what is taken away decides the difference alone
    have hsub : number (x - z) = number (y - z) := by
      change unpack (pack (sub .binary32 (number x) (number z))) =
        unpack (pack (sub .binary32 (number y) (number z)))
      change (number x).isFinite = true at hx
      change (number y).isFinite = true at hy
      change (number z).isFinite = false at hz
      cases hnz : number z with
      | zero => rw [hnz] at hz; cases hz
      | finite => rw [hnz] at hz; cases hz
      | _ =>
        cases hnx : number x <;> rw [hnx] at hx <;> cases hx <;>
          cases hny : number y <;> rw [hny] at hy <;> cases hy <;> rfl
    rw [lt_iff_compare, lt_iff_compare, hsub]

theorem not_lt_sub_of_beq (hx : x.isFinite = true) (h : (x == y) = true) (hc : 0 ≤ c) :
    ¬c < y - x := by
  obtain ⟨hy, hamount⟩ := amount_eq_of_beq hx h
  have hland := lands_sub hy hx
  rw [hamount, Int.sub_self] at hland
  have hzero : place (number 0) = 0 := by decide
  have hcut : cut (roundedPlace 0 0) = 0 := by decide
  obtain ⟨hz, hcn⟩ := isNaN_of_le hc
  rw [le_iff hz hcn, hzero] at hc
  rw [lt_iff hcn hland.isNaN, hland.place]
  omega

end Helm.Single
