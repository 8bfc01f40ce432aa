import Helm.Proofs.Definition.References

/-!
# Helm.Proofs.Definition.Search

The search for cycles of references, apart from the room that it is given. `exploreCycles` follows
references for as long as there is a name to open; every name opened leaves fewer to open, so that
it ends for every library.

* `searchCycles_eq_explore`: with room for the names left to open the search gets as far.
* `mem_exploreCycles`: what is reported in the end is what some continuation of the path closes.
* `nodup_cycles`: nothing is reported twice.
-/

namespace Helm

theorem mem_foldl_iff {α β : Type} {p : β} {op : List β → α → List β} {Q : α → Prop}
    {items : List α} (h : ∀ found, ∀ x ∈ items, p ∈ op found x ↔ p ∈ found ∨ Q x)
    (found : List β) : p ∈ items.foldl op found ↔ p ∈ found ∨ ∃ x ∈ items, Q x := by
  induction items generalizing found with
  | nil => simp
  | cons x rest ih =>
    rw [List.foldl_cons, ih fun found y hy => h found y (List.mem_cons_of_mem _ hy),
      h found x List.mem_cons_self, or_assoc]
    simp only [List.mem_cons, exists_eq_or_imp]

theorem nodup_snoc {α : Type} {items : List α} {x : α} (h : items.Nodup) (hx : x ∉ items) :
    (items ++ [x]).Nodup := by
  refine List.nodup_append.mpr ⟨h, by simp, ?_⟩
  rintro a ha b hb rfl
  exact hx (List.mem_singleton.mp hb ▸ ha)

namespace TreeLibrary

/-- Follows references from the end of a path through every continuation that repeats no name, for
as long as there is one, and reports the cycles met. -/
def exploreCycles (library : TreeLibrary) (path : List String) (last : String)
    (reported : List (List String)) : List (List String) :=
  (library.referencesOf last).foldl
    (fun reported target =>
      if _hopen : target ∈ path then closeCycle path target reported
      else if _hheld : library.contains target = true then
        exploreCycles library (path ++ [target]) target reported
      else reported)
    reported
termination_by library.unopened path
decreasing_by exact unopened_lt _hheld _hopen

/-- The search gives the same with any room for the names that are left to open. -/
theorem searchCycles_eq_explore {library : TreeLibrary} {room : Nat} {path : List String}
    (h : library.unopened path ≤ room) (last : String) (reported : List (List String)) :
    library.searchCycles room path last reported =
      library.exploreCycles path last reported := by
  induction room generalizing path last reported with
  | zero =>
    rw [searchCycles, exploreCycles]
    congr 1
    funext reported target
    split
    · rfl
    · rename_i hopen
      rw [dif_neg]
      intro hheld
      have := unopened_lt hheld hopen
      omega
  | succ room ih =>
    rw [searchCycles, exploreCycles]
    congr 1
    funext reported target
    split
    · rfl
    · rename_i hopen
      split
      · rename_i hheld
        have := unopened_lt hheld hopen
        exact ih (by omega) target reported
      · rfl

theorem cycles_eq_explore (library : TreeLibrary) :
    library.cycles = library.keys.foldl
      (fun reported name => library.exploreCycles [name] name reported) [] := by
  rw [cycles]
  congr 1
  funext reported name
  exact searchCycles_eq_explore (library.unopened_le_size [name]) name reported

/-- The part of a path from a name on, and the name again. -/
def closing (path : List String) (target : String) : List String :=
  path.dropWhile (· ≠ target) ++ [target]

/-- The search from the end of a path meets the closed path, and it starts at its least name. -/
inductive Closes (library : TreeLibrary) : List String → String → List String → Prop where
  | close {path : List String} {last target : String} :
      target ∈ library.referencesOf last → target ∈ path →
      startsLeast (path.dropWhile (· ≠ target)) = true →
      Closes library path last (closing path target)
  | follow {path : List String} {last target : String} {closed : List String} :
      target ∈ library.referencesOf last → target ∉ path → library.contains target = true →
      Closes library (path ++ [target]) target closed → Closes library path last closed

theorem closes_iff {library : TreeLibrary} {path : List String} {last : String}
    {closed : List String} :
    library.Closes path last closed ↔
      ∃ target ∈ library.referencesOf last,
        target ∈ path ∧ startsLeast (path.dropWhile (· ≠ target)) = true ∧
            closed = closing path target ∨
          target ∉ path ∧ library.contains target = true ∧
            library.Closes (path ++ [target]) target closed := by
  constructor
  · intro h
    cases h with
    | close href hopen hleast => exact ⟨_, href, .inl ⟨hopen, hleast, rfl⟩⟩
    | follow href hopen hheld h => exact ⟨_, href, .inr ⟨hopen, hheld, h⟩⟩
  · rintro ⟨target, href, ⟨hopen, hleast, rfl⟩ | ⟨hopen, hheld, h⟩⟩
    · exact .close href hopen hleast
    · exact .follow href hopen hheld h

theorem closeCycle_eq (path : List String) (target : String) (reported : List (List String)) :
    closeCycle path target reported =
      if startsLeast (path.dropWhile (· ≠ target)) = true ∧ closing path target ∉ reported then
        reported ++ [closing path target]
      else reported := by
  have hcondition : (startsLeast (path.dropWhile (· ≠ target)) &&
      !reported.contains (closing path target)) = true ↔
      startsLeast (path.dropWhile (· ≠ target)) = true ∧ closing path target ∉ reported := by
    simp
  rw [closeCycle]
  by_cases h : startsLeast (path.dropWhile (· ≠ target)) = true ∧ closing path target ∉ reported
  · rw [if_pos h]
    exact if_pos (hcondition.mpr h)
  · rw [if_neg h]
    exact if_neg (mt hcondition.mp h)

theorem mem_closeCycle {path closed : List String} {target : String}
    {reported : List (List String)} :
    closed ∈ closeCycle path target reported ↔
      closed ∈ reported ∨
        startsLeast (path.dropWhile (· ≠ target)) = true ∧ closed = closing path target := by
  rw [closeCycle_eq]
  split
  · rename_i h
    rw [List.mem_append, List.mem_singleton, and_iff_right h.1]
  · rename_i h
    refine ⟨.inl, ?_⟩
    rintro (hmem | ⟨hleast, rfl⟩)
    · exact hmem
    · exact Classical.byContradiction fun hmem => h ⟨hleast, hmem⟩

theorem nodup_closeCycle {path : List String} {target : String} {reported : List (List String)}
    (h : reported.Nodup) : (closeCycle path target reported).Nodup := by
  rw [closeCycle_eq]
  split
  · rename_i hnew
    exact nodup_snoc h hnew.2
  · exact h

theorem mem_exploreCycles {library : TreeLibrary} {path : List String} {last : String}
    {reported : List (List String)} {closed : List String} :
    closed ∈ library.exploreCycles path last reported ↔
      closed ∈ reported ∨ library.Closes path last closed := by
  induction path, last, reported using exploreCycles.induct library with
  | case1 path last reported ih =>
    rw [exploreCycles, closes_iff]
    refine mem_foldl_iff (fun found target _ => ?_) reported
    split
    · rename_i hopen
      simp only [mem_closeCycle, hopen, true_and, not_true_eq_false, false_and, or_false]
    · rename_i hopen
      split
      · rename_i hheld
        simp only [ih found target hopen hheld, hopen, hheld, false_and, not_false_eq_true,
          true_and, false_or]
      · rename_i hheld
        simp only [hopen, hheld, Bool.false_eq_true, false_and, and_false, or_false]

theorem nodup_exploreCycles {library : TreeLibrary} {path : List String} {last : String}
    {reported : List (List String)} (h : reported.Nodup) :
    (library.exploreCycles path last reported).Nodup := by
  induction path, last, reported using exploreCycles.induct library with
  | case1 path last reported ih =>
    rw [exploreCycles]
    refine List.foldlRecOn _ _ h fun found hfound target _ => ?_
    split
    · exact nodup_closeCycle hfound
    · rename_i hopen
      split
      · rename_i hheld
        exact ih found target hopen hheld hfound
      · exact hfound

theorem nodup_cycles (library : TreeLibrary) : library.cycles.Nodup := by
  rw [cycles_eq_explore]
  exact List.foldlRecOn _ _ List.nodup_nil fun reported h name _ => nodup_exploreCycles h

theorem mem_cycles {library : TreeLibrary} {closed : List String} :
    closed ∈ library.cycles ↔
      ∃ name, library.contains name = true ∧ library.Closes [name] name closed := by
  have hname : ∀ reported, ∀ name ∈ library.keys,
      closed ∈ library.exploreCycles [name] name reported ↔
        closed ∈ reported ∨ library.Closes [name] name closed :=
    fun reported name _ => mem_exploreCycles
  rw [cycles_eq_explore, mem_foldl_iff hname]
  simp only [List.not_mem_nil, false_or, Table.mem_keys_iff]

end TreeLibrary

end Helm
