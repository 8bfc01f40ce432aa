/-!
# Helm.Data.Table

Finite maps kept as lists in ascending order of their keys, so that iterating over a table
meets the keys in order. `Table.insert` replaces an entry with the same key: `get?_insert_self`
and `get?_insert_of_ne` say what is found afterwards, `keys_insert_ascending` that the keys stay in
order.
-/

namespace Helm

/-- A finite map from `κ` to `α`, its entries in ascending order of the keys. -/
structure Table (κ α : Type) where
  entries : List (κ × α)
  deriving DecidableEq, Repr, Inhabited

namespace Table

variable {κ α β : Type}

/-- The table without entries. -/
def empty : Table κ α := ⟨[]⟩

/-- The keys in ascending order. -/
def keys (t : Table κ α) : List κ := t.entries.map (·.1)

/-- The values in the order of their keys. -/
def values (t : Table κ α) : List α := t.entries.map (·.2)

/-- The number of entries. -/
def size (t : Table κ α) : Nat := t.entries.length

section Lookup

variable [DecidableEq κ]

/-- The value stored under a key. -/
def get? (t : Table κ α) (key : κ) : Option α := t.entries.lookup key

/-- True when a value is stored under the key. -/
def contains (t : Table κ α) (key : κ) : Bool := (t.get? key).isSome

/-- The table without the entry under a key. -/
def erase (t : Table κ α) (key : κ) : Table κ α :=
  ⟨t.entries.filter fun entry => entry.1 ≠ key⟩

/-- Changes the value under a key, if there is one. -/
def modify (t : Table κ α) (key : κ) (f : α → α) : Table κ α :=
  ⟨t.entries.map fun entry => if entry.1 = key then (entry.1, f entry.2) else entry⟩

theorem contains_of_get? {t : Table κ α} {key : κ} {value : α} (h : t.get? key = some value) :
    t.contains key = true := by
  rw [contains, h]; rfl

theorem mem_entries_of_get? {t : Table κ α} {key : κ} {value : α} (h : t.get? key = some value) :
    (key, value) ∈ t.entries := by
  obtain ⟨before, after, he, -⟩ := List.lookup_eq_some_iff.mp h
  rw [he]
  exact List.mem_append_right _ List.mem_cons_self

/-- With every key stored once, an entry is what is found under its key. -/
theorem get?_of_mem {t : Table κ α} {key : κ} {value : α} (hkeys : t.keys.Nodup)
    (h : (key, value) ∈ t.entries) : t.get? key = some value := by
  obtain ⟨entries⟩ := t
  simp only [keys] at hkeys
  simp only [get?]
  induction entries with
  | nil => cases h
  | cons entry rest ih =>
    obtain ⟨hnew, hrest⟩ := List.nodup_cons.mp hkeys
    rcases List.mem_cons.mp h with rfl | hmem
    · rw [List.lookup_cons_self]
    · have hne : key ≠ entry.1 := by
        intro heq
        exact hnew (List.mem_map.mpr ⟨_, hmem, heq⟩)
      rw [List.lookup_cons, beq_false_of_ne hne]
      exact ih hrest hmem

/-- Changing a value leaves what is found under other keys as it was. -/
theorem get?_modify (t : Table κ α) (key other : κ) (f : α → α) :
    (t.modify key f).get? other =
      if other = key then (t.get? other).map f else t.get? other := by
  simp only [modify, get?]
  induction t.entries with
  | nil => simp
  | cons entry rest ih =>
    obtain ⟨k, v⟩ := entry
    rw [List.map_cons]
    by_cases hk : k = key
    · by_cases hother : other = k
      · simp [hk, hother]
      · have hne : other ≠ key := fun h => hother (h.trans hk.symm)
        rw [if_pos hk, List.lookup_cons, List.lookup_cons, beq_false_of_ne hother, ih]
    · by_cases hother : other = k
      · simp [hk, hother]
      · rw [if_neg hk, List.lookup_cons, List.lookup_cons, beq_false_of_ne hother, ih]

/-- Taking an entry out leaves what is found under other keys as it was. -/
theorem get?_erase (t : Table κ α) (key other : κ) :
    (t.erase key).get? other = if other = key then none else t.get? other := by
  simp only [erase, get?]
  induction t.entries with
  | nil => simp
  | cons entry rest ih =>
    obtain ⟨k, v⟩ := entry
    by_cases hk : k = key
    · rw [List.filter_cons_of_neg (by simp [hk]), ih]
      split
      · rfl
      · rename_i hother
        rw [List.lookup_cons, beq_false_of_ne (hk ▸ hother)]
    · rw [List.filter_cons_of_pos (by simp [hk]), List.lookup_cons, List.lookup_cons, ih]
      by_cases hother : other = k
      · simp [hother, hk]
      · rw [beq_false_of_ne hother]

theorem keys_erase (t : Table κ α) (key : κ) :
    (t.erase key).keys = t.keys.filter fun k => k ≠ key := by
  rw [erase, keys, keys, List.filter_map]
  rfl

theorem keys_modify (t : Table κ α) (key : κ) (f : α → α) : (t.modify key f).keys = t.keys := by
  rw [modify, keys, keys, List.map_map]
  refine List.map_congr_left fun entry _ => ?_
  rw [Function.comp_apply]
  split <;> rfl

theorem mem_keys_iff {t : Table κ α} {key : κ} : key ∈ t.keys ↔ t.contains key = true := by
  rw [contains, get?, List.lookup_isSome_iff, keys, List.mem_map]
  simp only [beq_iff_eq]
  exact exists_congr fun entry => and_congr_right fun _ => eq_comm

end Lookup

section Insert

variable [LT κ] [DecidableLT κ] [DecidableEq κ]

/-- Puts an entry at its place in a list in ascending order. -/
def insertEntry (key : κ) (value : α) : List (κ × α) → List (κ × α)
  | [] => [(key, value)]
  | (k, v) :: rest =>
    if key < k then (key, value) :: (k, v) :: rest
    else if key = k then (key, value) :: rest
    else (k, v) :: insertEntry key value rest

/-- Stores a value under a key, in place of an earlier one. -/
def insert (t : Table κ α) (key : κ) (value : α) : Table κ α :=
  ⟨insertEntry key value t.entries⟩

/-- The table of a list of entries; of entries with the same key the last is kept. -/
def ofList (entries : List (κ × α)) : Table κ α :=
  entries.foldl (fun t entry => t.insert entry.1 entry.2) empty

/-- A table gives back what was stored last under a key. -/
theorem get?_insert_self (t : Table κ α) (key : κ) (value : α) :
    (t.insert key value).get? key = some value := by
  simp only [get?, insert]
  induction t.entries with
  | nil => simp [insertEntry]
  | cons entry rest ih =>
    rw [insertEntry]
    split
    · simp
    · split
      · simp
      · rename_i h
        rw [List.lookup_cons, beq_false_of_ne h]
        exact ih

/-- Storing under a key leaves what is found under other keys as it was. -/
theorem get?_insert_of_ne (t : Table κ α) {key other : κ} (value : α) (h : other ≠ key) :
    (t.insert key value).get? other = t.get? other := by
  simp only [get?, insert]
  induction t.entries with
  | nil => simp [insertEntry, List.lookup_cons, beq_false_of_ne h]
  | cons entry rest ih =>
    rw [insertEntry]
    split
    · rw [List.lookup_cons, beq_false_of_ne h]
    · split
      · rename_i hk
        rw [List.lookup_cons, List.lookup_cons, beq_false_of_ne h, ← hk, beq_false_of_ne h]
      · rw [List.lookup_cons, List.lookup_cons, ih]

theorem mem_of_mem_insertEntry {key : κ} {value : α} {entry : κ × α} {entries : List (κ × α)}
    (h : entry ∈ insertEntry key value entries) : entry = (key, value) ∨ entry ∈ entries := by
  induction entries with
  | nil => exact .inl (List.mem_singleton.mp h)
  | cons first rest ih =>
    rw [insertEntry] at h
    split at h
    · exact List.mem_cons.mp h
    · split at h
      · exact (List.mem_cons.mp h).imp_right (List.mem_cons_of_mem _)
      · rcases List.mem_cons.mp h with rfl | h
        · exact .inr List.mem_cons_self
        · exact (ih h).imp_right (List.mem_cons_of_mem _)

section Order

variable [Std.Trichotomous fun a b : κ => a < b]
  [Trans (fun a b : κ => a < b) (fun a b : κ => a < b) fun a b : κ => a < b]

/-- An entry is put where its key belongs. -/
theorem insertEntry_ascending {key : κ} {value : α} {entries : List (κ × α)}
    (h : entries.Pairwise fun a b => a.1 < b.1) :
    (insertEntry key value entries).Pairwise fun a b => a.1 < b.1 := by
  induction entries with
  | nil => exact List.pairwise_singleton ..
  | cons first rest ih =>
    obtain ⟨hfirst, hrest⟩ := List.pairwise_cons.mp h
    rw [insertEntry]
    split
    · rename_i hlt
      refine List.pairwise_cons.mpr ⟨fun entry hentry => ?_, h⟩
      rcases List.mem_cons.mp hentry with rfl | hentry
      · exact hlt
      · exact Std.lt_trans hlt (hfirst entry hentry)
    · rename_i hnlt
      split
      · rename_i heq
        rw [← heq] at hfirst
        exact List.pairwise_cons.mpr ⟨hfirst, hrest⟩
      · rename_i hne
        refine List.pairwise_cons.mpr ⟨fun entry hentry => ?_, ih hrest⟩
        rcases mem_of_mem_insertEntry hentry with rfl | hentry
        · -- the new key is neither below nor equal to the one it passes
          exact Decidable.byContradiction fun hngt =>
            hne (Std.Trichotomous.trichotomous key first.1 hnlt hngt)
        · exact hfirst entry hentry

/-- Storing an entry keeps the keys in ascending order. -/
theorem keys_insert_ascending {t : Table κ α} (key : κ) (value : α)
    (h : t.keys.Pairwise (· < ·)) : (t.insert key value).keys.Pairwise (· < ·) :=
  List.pairwise_map.mpr (insertEntry_ascending (List.pairwise_map.mp h))

end Order

end Insert

end Table

end Helm
