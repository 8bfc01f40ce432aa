/-!
# Helm.Data.SlotSet

Sets of slot numbers, kept in ascending order without repetition, so that two sets built by
insertion are equal when they have the same members (`eq_of_ascending`). `mem_insertSlot` and
`insertSlot_ascending` say what insertion does to the list behind a set.
-/

namespace Helm

/-- A set of slot numbers, in ascending order. -/
structure SlotSet where
  slots : List Nat
  deriving DecidableEq, Repr, Inhabited

namespace SlotSet

/-- The set without members. -/
def empty : SlotSet := ⟨[]⟩

/-- True for a member. -/
def contains (s : SlotSet) (slot : Nat) : Bool := s.slots.contains slot

/-- Puts a slot at its place in a list in ascending order. -/
def insertSlot (slot : Nat) : List Nat → List Nat
  | [] => [slot]
  | s :: rest =>
    if slot < s then slot :: s :: rest
    else if slot = s then s :: rest
    else s :: insertSlot slot rest

/-- The set with one more member. -/
def insert (s : SlotSet) (slot : Nat) : SlotSet := ⟨insertSlot slot s.slots⟩

/-- The set without a member. -/
def erase (s : SlotSet) (slot : Nat) : SlotSet := ⟨s.slots.filter (· ≠ slot)⟩

theorem mem_insertSlot {a slot : Nat} {slots : List Nat} :
    a ∈ insertSlot slot slots ↔ a = slot ∨ a ∈ slots := by
  induction slots with
  | nil => simp [insertSlot]
  | cons s rest ih =>
    rw [insertSlot]
    split
    · exact List.mem_cons
    · split
      · rename_i h
        simp [h]
      · simp only [List.mem_cons, ih, or_left_comm]

/-- Insertion keeps a list in ascending order without repetition. -/
theorem insertSlot_ascending {slot : Nat} {slots : List Nat} (h : slots.Pairwise (· < ·)) :
    (insertSlot slot slots).Pairwise (· < ·) := by
  induction slots with
  | nil => exact List.pairwise_singleton ..
  | cons s rest ih =>
    obtain ⟨hs, hrest⟩ := List.pairwise_cons.mp h
    rw [insertSlot]
    split
    · rename_i hlt
      refine List.pairwise_cons.mpr ⟨fun b hb => ?_, h⟩
      rcases List.mem_cons.mp hb with rfl | hb
      · exact hlt
      · exact Nat.lt_trans hlt (hs b hb)
    · split
      · exact h
      · refine List.pairwise_cons.mpr ⟨fun b hb => ?_, ih hrest⟩
        rcases mem_insertSlot.mp hb with rfl | hb
        · omega
        · exact hs b hb

/-- Sets in ascending order with the same members are equal. -/
theorem eq_of_ascending {s t : SlotSet} (hs : s.slots.Pairwise (· < ·))
    (ht : t.slots.Pairwise (· < ·)) (h : ∀ slot, s.contains slot = t.contains slot) : s = t := by
  have hmem : ∀ slot, slot ∈ s.slots ↔ slot ∈ t.slots := by
    intro slot
    rw [← List.contains_iff_mem, ← List.contains_iff_mem]
    exact Bool.eq_iff_iff.mp (h slot)
  have hperm : s.slots.Perm t.slots :=
    (List.perm_ext_iff_of_nodup (hs.imp Nat.ne_of_lt) (ht.imp Nat.ne_of_lt)).mpr hmem
  have hslots : s.slots = t.slots :=
    hperm.eq_of_pairwise (fun a b _ _ hab hba => absurd hab (Nat.lt_asymm hba)) hs ht
  exact congrArg mk hslots

@[simp] theorem contains_empty (slot : Nat) : empty.contains slot = false := rfl

theorem contains_insert (s : SlotSet) (a slot : Nat) :
    (s.insert slot).contains a = true ↔ a = slot ∨ s.contains a = true := by
  simp only [contains, insert, List.contains_iff_mem, mem_insertSlot]

theorem contains_erase (s : SlotSet) (a slot : Nat) :
    (s.erase slot).contains a = true ↔ s.contains a = true ∧ a ≠ slot := by
  simp [contains, erase]

end SlotSet

end Helm
