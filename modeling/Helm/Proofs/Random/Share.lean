import Helm.Proofs.Random.Draw
import Mathlib.Order.Interval.Finset.Nat

/-!
# Helm.Proofs.Random.Share

How a weighted draw shares out its values. The value that is looked up (`lot`) lies below the total
weight; an item is found for the values between two neighbouring partial sums, so that it has as
many of them as its weight, and none if its weight is zero.

* `bucket_eq_iff`, `card_bucket`: the values of an item, and how many they are.
* `card_accepted`, `lot_reached`: equally many words, and at least one, give each of the values at
  the first try.
-/

namespace Helm.Draw

open WordSource

/-! ## The values of an item -/

theorem totalWeight_take_succ {weights : List Nat} {i : Nat} (h : i < weights.length) :
    totalWeight (weights.take (i + 1)) = totalWeight (weights.take i) + weights[i] := by
  induction weights generalizing i with
  | nil => exact absurd h (Nat.not_lt_zero i)
  | cons weight rest ih =>
    cases i with
    | zero => simp [totalWeight]
    | succ i =>
      have hrest := ih (Nat.lt_of_succ_lt_succ h)
      simp only [List.take_succ_cons, totalWeight, List.getElem_cons_succ]
      omega

theorem totalWeight_take_le (weights : List Nat) (i : Nat) :
    totalWeight (weights.take i) ≤ totalWeight weights := by
  induction weights generalizing i with
  | nil => simp
  | cons weight rest ih =>
    cases i with
    | zero => simp [totalWeight]
    | succ i =>
      have hrest := ih i
      simp only [List.take_succ_cons, totalWeight]
      omega

theorem totalWeight_eq_zero {weights : List Nat} (h : ∀ weight ∈ weights, weight = 0) :
    totalWeight weights = 0 := by
  induction weights with
  | nil => rfl
  | cons weight rest ih =>
    obtain ⟨hweight, hrest⟩ := List.forall_mem_cons.mp h
    rw [totalWeight, hweight, ih hrest]

/-- A value belongs to the item whose partial sums it lies between. -/
theorem bucket_eq_iff {weights : List Nat} {i value : Nat} (hi : i < weights.length)
    (hvalue : value < totalWeight weights) :
    bucket weights value = i ↔
      totalWeight (weights.take i) ≤ value ∧ value < totalWeight (weights.take (i + 1)) := by
  fun_induction bucket weights value generalizing i with
  | case1 value => exact absurd hi (Nat.not_lt_zero i)
  | case2 weight value =>
    obtain rfl : i = 0 := Nat.lt_one_iff.mp hi
    simpa [totalWeight] using hvalue
  | case3 weight rest value hrest hle ih =>
    cases i with
    | zero => simp [totalWeight, hle]
    | succ i =>
      -- what is left of the value is looked up among the other weights
      have hi' : i < rest.length := Nat.lt_of_succ_lt_succ hi
      have hvalue' : value - weight < totalWeight rest := by
        rw [totalWeight] at hvalue
        omega
      rw [Nat.add_right_cancel_iff, ih hi' hvalue']
      simp only [List.take_succ_cons, totalWeight]
      omega
  | case4 weight rest value hrest hlt =>
    cases i with
    | zero => simp [totalWeight, Nat.lt_of_not_le hlt]
    | succ i =>
      simp only [List.take_succ_cons, totalWeight]
      omega

/-- The item a value belongs to is counted by the partial sums, the last left out, that the value
reaches. -/
theorem bucket_eq_countP (weights : List Nat) (value : Nat) :
    bucket weights value = (List.range (weights.length - 1)).countP fun k =>
      totalWeight (weights.take (k + 1)) ≤ value := by
  fun_induction bucket weights value with
  | case1 => rfl
  | case2 => rfl
  | case3 weight rest value hrest hle ih =>
    obtain ⟨next, rest, rfl⟩ := List.exists_cons_of_ne_nil hrest
    have hshift : ∀ sum, sum ≤ value - weight ↔ weight + sum ≤ value := by
      intro sum
      omega
    rw [ih]
    simp [List.range_succ_eq_map, List.countP_map, Function.comp_def, totalWeight, hle, hshift]
  | case4 weight rest value hrest hlt =>
    obtain ⟨next, rest, rfl⟩ := List.exists_cons_of_ne_nil hrest
    -- no partial sum is below the first weight
    have hbelow : ∀ k, ¬weight + totalWeight ((next :: rest).take k) ≤ value := by
      intro k
      omega
    simp [List.range_succ_eq_map, List.countP_map, Function.comp_def, totalWeight, hbelow]

/-- Each item has as many values as its weight. -/
theorem card_bucket {weights : List Nat} {i : Nat} (hi : i < weights.length) :
    ((Finset.range (totalWeight weights)).filter fun value => bucket weights value = i).card =
      weights[i] := by
  have hsucc := totalWeight_take_succ hi
  have hle := totalWeight_take_le weights (i + 1)
  have hvalues : ((Finset.range (totalWeight weights)).filter fun value =>
      bucket weights value = i) =
        Finset.Ico (totalWeight (weights.take i)) (totalWeight (weights.take (i + 1))) := by
    ext value
    rw [Finset.mem_filter, Finset.mem_range, Finset.mem_Ico]
    constructor
    · rintro ⟨hvalue, hbucket⟩
      exact (bucket_eq_iff hi hvalue).mp hbucket
    · intro hbetween
      have hvalue : value < totalWeight weights := Nat.lt_of_lt_of_le hbetween.2 hle
      exact ⟨hvalue, (bucket_eq_iff hi hvalue).mpr hbetween⟩
  rw [hvalues, Nat.card_Ico]
  omega

theorem weight_pos_of_bucket {weights : List Nat} {value : Nat}
    (hvalue : value < totalWeight weights) :
    ∃ weight, weights[bucket weights value]? = some weight ∧ 0 < weight := by
  have hweights : weights ≠ [] := by
    rintro rfl
    exact Nat.not_lt_zero _ hvalue
  have hi := bucket_lt hweights value
  have hbetween := (bucket_eq_iff hi hvalue).mp rfl
  have hsucc := totalWeight_take_succ hi
  exact ⟨weights[bucket weights value], List.getElem?_eq_getElem hi, by omega⟩

/-! ## The words of a value -/

variable {G : Type} [WordSource G] {weights : List Nat}

/-- The value that a weighted draw looks up, and the source after it. -/
def lot (weights : List Nat) (g : G) : Nat × G :=
  scaled (fun g => let (x, g) := nextWord g; (x.toNat, g)) UInt32.size (totalWeight weights)
    (weightZone (totalWeight weights)) patience g

theorem weighted_eq (weights : List Nat) (g : G) :
    weighted weights g = (bucket weights (lot weights g).1, (lot weights g).2) := by
  unfold weighted lot
  dsimp only

theorem lot_lt (h : 0 < totalWeight weights) (g : G) :
    (lot weights g).1 < totalWeight weights :=
  scaled_lt _ _ (fun g => (nextWord g).1.toNat_lt) h

theorem weightZone_succ {total : Nat} (hpos : 0 < total) (hle : total ≤ UInt32.size) :
    weightZone total + 1 = UInt32.size / total * total := by
  have hmod : (UInt32.size - total) % total = UInt32.size % total := (Nat.mod_eq_sub_mod hle).symm
  have hlt := Nat.mod_lt UInt32.size hpos
  have hsplit := Nat.div_add_mod' UInt32.size total
  unfold weightZone
  omega

/-- How many words have a product with `total` that stays below `bound`. -/
def wordsBelow (total bound : Nat) : Nat := (bound + total - 1) / total

theorem lt_wordsBelow_iff {total : Nat} (hpos : 0 < total) (bound x : Nat) :
    x < wordsBelow total bound ↔ x * total < bound := by
  unfold wordsBelow
  rw [Nat.lt_div_iff_mul_lt hpos]
  omega

theorem wordsBelow_add_mul {total : Nat} (hpos : 0 < total) (bound rounds : Nat) :
    wordsBelow total (bound + rounds * total) = wordsBelow total bound + rounds := by
  unfold wordsBelow
  rw [← Nat.add_mul_div_right _ _ hpos]
  congr 1
  omega

/-- The words that give a value and are not rejected come one after the other. -/
theorem accepted_iff {size total zone rounds x value : Nat} (hpos : 0 < total)
    (hzone : zone + 1 = rounds * total) (hlt : zone < size) :
    (x * total % size ≤ zone ∧ x * total / size = value) ↔
      wordsBelow total (value * size) ≤ x ∧ x < wordsBelow total (value * size) + rounds := by
  have hsize : 0 < size := Nat.lt_of_le_of_lt (Nat.zero_le _) hlt
  have hsplit := Nat.div_add_mod' (x * total) size
  have hlow : wordsBelow total (value * size) ≤ x ↔ value * size ≤ x * total := by
    rw [← Nat.not_lt, lt_wordsBelow_iff hpos, Nat.not_lt]
  rw [hlow, ← wordsBelow_add_mul hpos, lt_wordsBelow_iff hpos]
  constructor
  · rintro ⟨haccept, rfl⟩
    omega
  · rintro ⟨hle, hhigh⟩
    have hquotient : x * total / size = value := by
      rw [Nat.div_eq_iff hsize]
      omega
    rw [hquotient] at hsplit
    exact ⟨by omega, hquotient⟩

/-- A value is given at the first try by as many words as any other. -/
theorem card_accepted {total value : Nat} (hvalue : value < total) (hle : total ≤ UInt32.size) :
    ((Finset.range UInt32.size).filter fun x =>
        x * total % UInt32.size ≤ weightZone total ∧ x * total / UInt32.size = value).card =
      UInt32.size / total := by
  have hpos : 0 < total := Nat.zero_lt_of_lt hvalue
  have hzone := weightZone_succ hpos hle
  have hzone_lt : weightZone total < UInt32.size := by
    rw [← Nat.succ_le_iff, Nat.succ_eq_add_one, hzone]
    exact Nat.div_mul_le_self _ _
  have hwords : ((Finset.range UInt32.size).filter fun x =>
      x * total % UInt32.size ≤ weightZone total ∧ x * total / UInt32.size = value) =
        Finset.Ico (wordsBelow total (value * UInt32.size))
          (wordsBelow total (value * UInt32.size) + UInt32.size / total) := by
    ext x
    rw [Finset.mem_filter, Finset.mem_range, Finset.mem_Ico, accepted_iff hpos hzone hzone_lt]
    refine and_iff_right_of_imp fun hx => ?_
    rw [← wordsBelow_add_mul hpos, lt_wordsBelow_iff hpos] at hx
    have hproduct : x * total < UInt32.size * total := by
      calc x * total
        _ < value * UInt32.size + UInt32.size / total * total := hx.2
        _ ≤ value * UInt32.size + UInt32.size := Nat.add_le_add_left (Nat.div_mul_le_self _ _) _
        _ = (value + 1) * UInt32.size := (Nat.succ_mul _ _).symm
        _ ≤ total * UInt32.size := Nat.mul_le_mul_right _ hvalue
        _ = UInt32.size * total := Nat.mul_comm _ _
    exact Nat.lt_of_mul_lt_mul_right hproduct
  rw [hwords, Nat.card_Ico, Nat.add_sub_cancel_left]

/-- Every value below the total weight is drawn, by some word at the first try. -/
theorem lot_reached {value : Nat} (hvalue : value < totalWeight weights)
    (hle : totalWeight weights ≤ UInt32.size) :
    ∃ word : UInt32, ∀ g g' : G, nextWord g = (word, g') → lot weights g = (value, g') := by
  have hpos : 0 < totalWeight weights := Nat.zero_lt_of_lt hvalue
  have hcard := card_accepted hvalue hle
  have hsome := Nat.div_pos hle hpos
  rw [← hcard, Finset.card_pos] at hsome
  obtain ⟨x, hx⟩ := hsome
  obtain ⟨hlt, haccept, hquotient⟩ := by simpa only [Finset.mem_filter, Finset.mem_range] using hx
  refine ⟨UInt32.ofNat x, fun g g' hword => ?_⟩
  -- the word is accepted, so that none of the tries that follow is made
  have hnat : (UInt32.ofNat x).toNat = x := UInt32.toNat_ofNat_of_lt hlt
  unfold lot patience
  rw [scaled, hword]
  dsimp only
  rw [hnat, if_pos haccept, hquotient]

end Helm.Draw
