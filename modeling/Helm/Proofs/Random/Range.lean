import Helm.Proofs.Evaluation
import Helm.Proofs.Number.Monotone
import Helm.Random.Dice

/-!
# Helm.Proofs.Random.Range

Numbers drawn from a closed range. A draw is abandoned only when both ends are finite but their
distance is not (`inRange_yields`), and what is drawn lies between the ends (`inRange_mem`). Scaling
a unit draw rounds up to three times; each of the roundings keeps the order, and the scale has been
fitted so that the largest unit draw does not pass the upper end.
-/

namespace Helm

open Single

/-- Some number can be drawn between the ends: either nothing has to be drawn, or the scale of the
draw is finite. -/
def Drawable (lo hi : Float32) : Prop :=
  lo.isFinite = true → hi.isFinite = true → lo < hi → ((hi - lo) / Draw.unitMax).isFinite = true

instance (lo hi : Float32) : Decidable (Drawable lo hi) :=
  inferInstanceAs (Decidable (_ → _ → _ → _))

theorem drawable_maximum {lo hi : Float32} (h : Drawable lo hi) :
    Drawable lo (maximum hi lo) := by
  rcases maximum_eq_or hi lo with hmax | hmax <;> rw [hmax]
  · exact h
  · exact fun _ _ hlt => absurd hlt (lt_irrefl lo)

section Source

variable {G : Type} [WordSource G] {lo hi : Float32}

/-- What is drawn with a word, when there is something to draw. -/
def Draw.sample (lo hi : Float32) (word : UInt32) : Float32 :=
  unit word * fitScale lo hi ((hi - lo) / unitMax).toBits.toNat + lo

/-- The three ways in which drawing from a range can end. -/
theorem Dice.inRange_cases (lo hi : Float32) (g : G) :
    inRange lo hi g = .ok (lo, g) ∨
      inRange lo hi g = .error .rangeOverflow ∧ ¬Drawable lo hi ∨
      inRange lo hi g =
          .ok (Draw.sample lo hi (WordSource.nextWord g).1, (WordSource.nextWord g).2) ∧
        lo.isFinite = true ∧ hi.isFinite = true ∧ lo < hi ∧
        ((hi - lo) / Draw.unitMax).isFinite = true := by
  rw [inRange]
  split
  · exact .inl rfl
  · rename_i hguard
    simp only [Bool.or_eq_true, Bool.not_eq_true', decide_eq_true_eq, not_or,
      Bool.not_eq_false] at hguard
    obtain ⟨⟨hlo, hhi⟩, hle⟩ := hguard
    have hlt := lt_of_not_le hlo hhi hle
    rw [Draw.between, if_neg (by simpa using le_of_lt hlo hhi hlt)]
    dsimp only
    cases hscale : ((hi - lo) / Draw.unitMax).isFinite with
    | false => exact .inr (.inl ⟨rfl, fun h => by simp [h hlo hhi hlt] at hscale⟩)
    | true => exact .inr (.inr ⟨rfl, hlo, hhi, hlt, rfl⟩)

theorem Dice.inRange_yields (lo hi : Float32) (g : G) :
    Yields (fun e => e = .rangeOverflow ∧ ¬Drawable lo hi)
      (fun r => r.2 = g ∨ r.2 = (WordSource.nextWord g).2) (inRange lo hi g) := by
  rcases inRange_cases lo hi g with h | ⟨h, hwide⟩ | ⟨h, -⟩ <;> rw [h]
  · exact .inl rfl
  · exact ⟨rfl, hwide⟩
  · exact .inr rfl

/-- A range that is too wide is not drawn from. -/
theorem Dice.inRange_of_not_drawable (g : G) (h : ¬Drawable lo hi) :
    inRange lo hi g = .error .rangeOverflow := by
  simp only [Drawable, Classical.not_imp] at h
  obtain ⟨hlo, hhi, hlt, hscale⟩ := h
  have hle : ¬hi ≤ lo := not_le_of_lt hlo hhi hlt
  have hscale : ((hi - lo) / Draw.unitMax).isFinite = false := by simpa using hscale
  have hguard : (!lo.isFinite || !hi.isFinite || decide (hi ≤ lo)) = false := by
    simp [hlo, hhi, hle]
  have hbetween : (!decide (lo ≤ hi)) = false := by
    simp [le_of_lt hlo hhi hlt]
  rw [inRange, hguard, Draw.between, hbetween]
  simp [hscale]

end Source

/-! ## Between the ends -/

namespace Draw

variable {lo hi : Float32}

/-- The pattern of a number from one up to two that a word stands for. -/
def pattern (word : UInt32) : UInt32 := (0x3f800000 : UInt32) ||| word >>> 9

theorem toNat_pattern (word : UInt32) :
    (pattern word).toNat = 0x3f800000 + word.toNat / 2 ^ 9 := by
  have hlow : word.toNat / 2 ^ 9 < 2 ^ 23 := by
    have := word.toNat_lt
    omega
  have hor := Nat.shiftLeft_add_eq_or_of_lt hlow 127
  rw [pattern, UInt32.toNat_or, UInt32.toNat_shiftRight, Nat.shiftRight_eq_div_pow]
  exact hor.symm

/-- A word gives a number from zero up to the largest unit draw. -/
theorem unit_mem (word : UInt32) : 0 ≤ unit word ∧ unit word ≤ unitMax := by
  have hword := word.toNat_lt
  have hpattern := toNat_pattern word
  have hbound : (pattern word).toNat < infinitePlace := by
    rw [hpattern, infinitePlace]
    omega
  have hfinite := isFinite_ofBits hbound
  have hlow : ofBits 0x3f800000 ≤ ofBits (pattern word) :=
    ofBits_le hbound (by rw [hpattern]; exact Nat.le_add_right ..)
  have hhigh : ofBits (pattern word) ≤ ofBits 0x3fffffff := by
    refine ofBits_le (by decide) ?_
    show _ ≤ 0x3fffffff
    omega
  have hsub : ofBits 0x3f800000 - 1 ≤ unit word :=
    sub_le_sub_right (by decide) hfinite (by decide) hlow
  have hsub' : unit word ≤ ofBits 0x3fffffff - 1 :=
    sub_le_sub_right hfinite (by decide) (by decide) hhigh
  have hzero : 0 ≤ ofBits 0x3f800000 - 1 := by decide
  have hmax : ofBits 0x3fffffff - 1 ≤ unitMax := by decide
  exact ⟨le_trans hzero hsub, le_trans hsub' hmax⟩

theorem unit_mul_le {x s : Float32} (hx : 0 ≤ x) (hx' : x ≤ unitMax) (hs : s.isFinite = true)
    (hpos : 0 ≤ s) :
    0 ≤ x * s ∧ x * s ≤ unitMax * s ∧ (x * s).isFinite = true := by
  have hxf := isFinite_of_between (by decide) (by decide) hx hx'
  have hlow : 0 * s ≤ x * s := mul_le_mul_right (by decide) hxf hs hpos hx
  have hmid : x * s ≤ unitMax * s := mul_le_mul_right hxf (by decide) hs hpos hx'
  have hhigh : unitMax * s ≤ 1 * s := mul_le_mul_right (by decide) (by decide) hs hpos (by decide)
  have hzero := zero_le_zero_mul hs
  have hself := one_mul_le hs hpos
  exact ⟨le_trans hzero hlow, hmid,
    isFinite_of_between (by decide) hs (le_trans hzero hlow) (le_trans hmid (le_trans hhigh hself))⟩

theorem mul_unitMax_isFinite {s : Float32} (hs : s.isFinite = true) (hpos : 0 ≤ s) :
    (s * unitMax).isFinite = true := by
  obtain ⟨hlow, -, hfinite⟩ := unit_mul_le (x := unitMax) (by decide) (by decide) hs hpos
  exact isFinite_of_between (by decide) hfinite
    (le_trans hlow (mul_le_mul_comm (by decide) hs)) (mul_le_mul_comm hs (by decide))

/-- The scale that has been fitted is finite, not negative, and small enough. -/
theorem fitScale_spec (hlo : lo.isFinite = true) (hhi : hi.isFinite = true) (hle : lo ≤ hi)
    {bits : Nat} (hbits : bits < infinitePlace) :
    (fitScale lo hi bits).isFinite = true ∧ 0 ≤ fitScale lo hi bits ∧
      fitScale lo hi bits * unitMax + lo ≤ hi := by
  induction bits with
  | zero =>
    have hnone : ofBits 0 * unitMax ≤ 0 := by decide
    have hfinite : (ofBits 0 * unitMax).isFinite = true := by decide
    rw [fitScale]
    refine ⟨by decide, by decide, ?_⟩
    exact le_trans (add_le_add_right hfinite (by decide) hlo hnone)
      (le_trans (zero_add_le hlo).1 hle)
  | succ bits ih =>
    have hbits' : (UInt32.ofNat (bits + 1)).toNat < infinitePlace := by
      have hsize : bits + 1 < UInt32.size := by
        rw [infinitePlace] at hbits
        simp only [UInt32.size]
        omega
      rw [UInt32.toNat_ofNat_of_lt' hsize]
      exact hbits
    rw [fitScale]
    split
    · exact ih (by omega)
    · rename_i hfits
      have hfinite := isFinite_ofBits hbits'
      have hpos : ofBits 0 ≤ ofBits (UInt32.ofNat (bits + 1)) := ofBits_le hbits' (Nat.zero_le _)
      have hsum := lands_add (mul_unitMax_isFinite hfinite hpos) hlo
      exact ⟨hfinite, hpos, le_of_not_lt hsum.isNaN (isNaN_of_isFinite hhi) hfits⟩

theorem scale_lt_infinitePlace (hlo : lo.isFinite = true) (hhi : hi.isFinite = true)
    (hlt : lo < hi) (hscale : ((hi - lo) / unitMax).isFinite = true) :
    ((hi - lo) / unitMax).toBits.toNat < infinitePlace := by
  have hunit : number unitMax = .finite .positive 16777214 (-24) (by decide) := by
    rw [unitMax, number_ofBits]
    rfl
  have hplus := plus_div (plus_sub hlo hhi hlt) (n := 16777214) (f := -24) (by decide)
  rw [← hunit] at hplus
  exact toNat_lt_of_isFinite (toNat_pack_lt hplus) hscale

/-- What is drawn lies between the ends of the range. -/
theorem sample_mem (hlo : lo.isFinite = true) (hhi : hi.isFinite = true) (hlt : lo < hi)
    (hscale : ((hi - lo) / unitMax).isFinite = true) (word : UInt32) :
    lo ≤ sample lo hi word ∧ sample lo hi word ≤ hi := by
  have hbits := scale_lt_infinitePlace hlo hhi hlt hscale
  obtain ⟨hfinite, hpos, hfits⟩ := fitScale_spec hlo hhi (le_of_lt hlo hhi hlt) hbits
  rw [sample]
  generalize fitScale lo hi _ = s at *
  obtain ⟨hunit, hunit'⟩ := unit_mem word
  obtain ⟨hlow, hhigh, hproduct⟩ := unit_mul_le hunit hunit' hfinite hpos
  have htop := mul_unitMax_isFinite hfinite hpos
  have hswap : unitMax * s ≤ s * unitMax := mul_le_mul_comm (by decide) hfinite
  constructor
  · exact le_trans (zero_add_le hlo).2 (add_le_add_right (by decide) hproduct hlo hlow)
  · exact le_trans (add_le_add_right hproduct htop hlo (le_trans hhigh hswap)) hfits

end Draw

/-- A draw from a range with a finite lower end is finite. -/
theorem Dice.inRange_isFinite {G : Type} [WordSource G] {g g' : G} {lo hi x : Float32}
    (hlo : lo.isFinite = true) (h : inRange lo hi g = .ok (x, g')) : x.isFinite = true := by
  rcases inRange_cases lo hi g with hx | ⟨hx, -⟩ | ⟨hx, -, hhi, hlt, hscale⟩ <;> rw [hx] at h
  · cases h
    exact hlo
  · cases h
  · cases h
    obtain ⟨hlow, hhigh⟩ := Draw.sample_mem hlo hhi hlt hscale (WordSource.nextWord g).1
    exact isFinite_of_between hlo hhi hlow hhigh

end Helm
