import Helm.Number.Single

/-!
# Helm.Data.Least

Picking and sorting by a floating point key, under the total order of bit patterns. Among
equal keys the first item wins, and sorting keeps the order of items with equal keys.
-/

namespace Helm

variable {α : Type}

/-- The first item with the least key. -/
def leastBy? (key : α → Float32) : List α → Option α
  | [] => none
  | x :: rest =>
    match leastBy? key rest with
    | none => some x
    | some y => if Single.totalLE (key x) (key y) then some x else some y

theorem mem_of_leastBy? {key : α → Float32} {items : List α} {x : α}
    (h : leastBy? key items = some x) : x ∈ items := by
  induction items generalizing x with
  | nil => cases h
  | cons y rest ih =>
    rw [leastBy?] at h
    split at h
    · cases h
      exact List.mem_cons_self
    · rename_i least hleast
      split at h
      · cases h
        exact List.mem_cons_self
      · cases h
        exact List.mem_cons_of_mem y (ih hleast)

theorem leastBy?_eq_none_iff {key : α → Float32} {items : List α} :
    leastBy? key items = none ↔ items = [] := by
  cases items with
  | nil => exact ⟨fun _ => rfl, fun _ => rfl⟩
  | cons x rest =>
    refine ⟨fun h => ?_, nofun⟩
    rw [leastBy?] at h
    split at h
    · cases h
    · split at h <;> cases h

/-- The items before the one that wins have a greater key, and those behind it none that is less. -/
theorem split_of_leastBy? {key : α → Float32} {items : List α} {x : α}
    (h : leastBy? key items = some x) :
    ∃ before after, items = before ++ x :: after ∧
      (∀ y ∈ before, Single.rank (key x) < Single.rank (key y)) ∧
      ∀ y ∈ after, Single.rank (key x) ≤ Single.rank (key y) := by
  induction items generalizing x with
  | nil => cases h
  | cons first rest ih =>
    rw [leastBy?] at h
    split at h
    · rename_i hrest
      cases h
      obtain rfl := leastBy?_eq_none_iff.mp hrest
      exact ⟨[], [], rfl, fun _ hy => absurd hy List.not_mem_nil,
        fun _ hy => absurd hy List.not_mem_nil⟩
    · rename_i least hleast
      obtain ⟨before, after, rfl, hbefore, hafter⟩ := ih hleast
      split at h
      · rename_i hfirst
        cases h
        have hfirst : Single.rank (key first) ≤ Single.rank (key least) := of_decide_eq_true hfirst
        refine ⟨[], before ++ least :: after, rfl, fun _ hy => absurd hy List.not_mem_nil, ?_⟩
        intro y hy
        rcases List.mem_append.mp hy with hy | hy
        · exact Int.le_trans hfirst (Int.le_of_lt (hbefore y hy))
        · rcases List.mem_cons.mp hy with heq | hy
          · rw [heq]
            exact hfirst
          · exact Int.le_trans hfirst (hafter y hy)
      · rename_i hfirst
        cases h
        have hfirst : ¬Single.rank (key first) ≤ Single.rank (key x) :=
          fun hle => hfirst (decide_eq_true hle)
        refine ⟨first :: before, after, rfl, ?_, hafter⟩
        exact List.forall_mem_cons.mpr ⟨Int.lt_of_not_ge hfirst, hbefore⟩

/-- The items in ascending order of their keys. -/
def sortBy (key : α → Float32) (items : List α) : List α :=
  items.mergeSort fun x y => Single.totalLE (key x) (key y)

section Sorting

variable {β : Type} {key : α → Float32} {items : List α}

theorem mem_sortBy {x : α} : x ∈ sortBy key items ↔ x ∈ items := List.mem_mergeSort

theorem sortBy_perm (key : α → Float32) (items : List α) : (sortBy key items).Perm items :=
  List.mergeSort_perm ..

theorem sortBy_ordered (key : α → Float32) (items : List α) :
    (sortBy key items).Pairwise fun x y => Single.rank (key x) ≤ Single.rank (key y) := by
  have hsorted := @List.pairwise_mergeSort α (fun x y => Single.totalLE (key x) (key y))
    (fun _ _ _ => Single.totalLE_trans _ _ _) (fun _ _ => Single.totalLE_total _ _) items
  exact hsorted.imp Single.totalLE_iff.mp

/-- Items with equal keys stay in the order they were in. -/
theorem sortBy_stable {R : α → α → Prop} (h : items.Pairwise R) :
    (sortBy key items).Pairwise fun x y => Single.rank (key x) = Single.rank (key y) → R x y := by
  induction items with
  | nil => simp [sortBy]
  | cons first rest ih =>
    obtain ⟨hfirst, hrest⟩ := List.pairwise_cons.mp h
    obtain ⟨before, after, hsorted, hsplit, hbefore⟩ :=
      @List.mergeSort_cons α (fun x y => Single.totalLE (key x) (key y))
        (fun _ _ _ => Single.totalLE_trans _ _ _) (fun _ _ => Single.totalLE_total _ _) first rest
    have ih := ih hrest
    rw [sortBy, hsplit] at ih
    rw [sortBy, hsorted]
    obtain ⟨hleft, hright, hacross⟩ := List.pairwise_append.mp ih
    refine List.pairwise_append.mpr ⟨hleft, List.pairwise_cons.mpr ⟨?_, hright⟩, ?_⟩
    · intro y hy _
      have hmem : y ∈ sortBy key rest := by
        rw [sortBy, hsplit]
        exact List.mem_append_right before hy
      exact hfirst y (mem_sortBy.mp hmem)
    · intro x hx y hy htie
      rcases List.mem_cons.mp hy with rfl | hy
      · -- what comes before the new item has a smaller key
        have hless := hbefore x hx
        simp [Single.totalLE, htie] at hless
      · exact hacross x hx y hy htie

theorem map_sortBy {key : β → Float32} (f : α → β) (items : List α) :
    (sortBy (fun x => key (f x)) items).map f = sortBy key (items.map f) :=
  List.map_mergeSort fun _ _ _ _ => rfl

end Sorting

end Helm
