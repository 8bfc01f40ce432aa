import Helm.World.Scene

/-!
# Helm.Proofs.World.Scene

Scenes that can be relied on: what is found under a number is the ship with that number, and the
enemies named are active ships on other sides (`Scene.Faithful`). A scene whose ships are each
stored once, under their own numbers, is one (`faithful_of_entries`). Where they are stored in
ascending order too (`Scene.Orderly`), all such ships are named, in ascending order.
-/

namespace Helm.Scene

variable {s : Scene}

/-- The ships of both numbers are in the scene, on different sides. -/
def Hostile (s : Scene) (own id : ShipId) : Prop :=
  ∃ mine theirs, s.ships.get? own = some mine ∧ s.ships.get? id = some theirs ∧
    theirs.side ≠ mine.side

/-- Ships are found under their own numbers, and those named as enemies are active and hostile. -/
structure Faithful (s : Scene) : Prop where
  found : ∀ id state, s.ship? id = some state → state.id = id
  enemies : ∀ own id, id ∈ s.enemiesOf own → s.isActive id = true ∧ s.Hostile own id

theorem ship?_of_activeShip? {id : ShipId} {state : ShipState} (h : s.activeShip? id = some state) :
    s.isActive id = true ∧ s.ship? id = some state := by
  rw [activeShip?] at h
  split at h
  · rename_i hactive
    exact ⟨hactive, h⟩
  · cases h

theorem faithful_of_entries (hkeys : s.ships.keys.Nodup)
    (hids : ∀ entry ∈ s.ships.entries, entry.2.state.id = entry.1) : s.Faithful where
  found := by
    intro id state h
    obtain ⟨entry, hentry, rfl⟩ := Option.map_eq_some_iff.mp h
    exact hids _ (Table.mem_entries_of_get? hentry)
  enemies := by
    intro own id h
    rw [enemiesOf] at h
    split at h
    · cases h
    · rename_i mine hmine
      obtain ⟨theirs, htheirs, rfl⟩ := List.mem_map.mp h
      obtain ⟨hmem, henemy⟩ := List.mem_filter.mp htheirs
      obtain ⟨⟨key, entry⟩, hentry, rfl⟩ := List.mem_map.mp hmem
      obtain ⟨hside, hstatus⟩ : entry.side ≠ mine.side ∧ entry.status = .active :=
        of_decide_eq_true henemy
      have hfound : s.ships.get? entry.state.id = some entry := by
        rw [hids _ hentry]
        exact Table.get?_of_mem hkeys hentry
      refine ⟨?_, mine, entry, hmine, hfound, hside⟩
      simp [isActive, status, hfound, hstatus]

/-! ## Changes of one ship -/

theorem ship?_addShip (s : Scene) (state : ShipState) (side : UInt8) (id : ShipId) :
    (s.addShip state side).ship? id = if id = state.id then some state else s.ship? id := by
  rw [ship?, addShip]
  split
  · rename_i heq
    rw [heq, Table.get?_insert_self]
    rfl
  · rename_i hne
    rw [Table.get?_insert_of_ne _ _ hne, ship?]

theorem ship?_removeShip (s : Scene) (id other : ShipId) :
    (s.removeShip id).ship? other = if other = id then none else s.ship? other := by
  rw [ship?, removeShip, Table.get?_erase]
  split <;> rfl

theorem ship?_updateShip (s : Scene) (id other : ShipId) (f : ShipState → ShipState) :
    (s.updateShip id f).ship? other =
      if other = id then (s.ship? other).map f else s.ship? other := by
  rw [ship?, updateShip, Table.get?_modify]
  split
  · rw [ship?, Option.map_map, Option.map_map]
    rfl
  · rfl

theorem ship?_setStatus (s : Scene) (id other : ShipId) (status : ShipStatus) :
    (s.setStatus id status).ship? other = s.ship? other := by
  rw [ship?, ship?, setStatus, Table.get?_modify]
  split
  · rw [Option.map_map]
    rfl
  · rfl

theorem status_setStatus_of_ne (s : Scene) {id other : ShipId} (status : ShipStatus)
    (h : other ≠ id) : (s.setStatus id status).status other = s.status other := by
  rw [Scene.status, Scene.status, setStatus, Table.get?_modify, if_neg h]

theorem status_setStatus_self {id : ShipId} {state : ShipState} (status : ShipStatus)
    (h : s.ship? id = some state) : (s.setStatus id status).status id = status := by
  obtain ⟨entry, hentry, -⟩ := Option.map_eq_some_iff.mp h
  rw [Scene.status, setStatus, Table.get?_modify, if_pos rfl, hentry]
  rfl

/-! ## Ships in order -/

/-- The ships are stored in ascending order, under their own numbers. -/
structure Orderly (s : Scene) : Prop where
  ascending : s.ships.keys.Pairwise (· < ·)
  numbered : ∀ entry ∈ s.ships.entries, entry.2.state.id = entry.1

/-- An active ship on another side. -/
def Foe (s : Scene) (own id : ShipId) : Prop := s.isActive id = true ∧ s.Hostile own id

namespace Hostile

variable {a b : ShipId}

theorem symm (h : s.Hostile a b) : s.Hostile b a := by
  obtain ⟨mine, theirs, hmine, htheirs, hside⟩ := h
  exact ⟨theirs, mine, htheirs, hmine, hside.symm⟩

theorem ne (h : s.Hostile a b) : a ≠ b := by
  rintro rfl
  obtain ⟨mine, theirs, hmine, htheirs, hside⟩ := h
  rw [hmine] at htheirs
  cases htheirs
  exact hside rfl

end Hostile

theorem nodup_of_ascending {ids : List ShipId} (h : ids.Pairwise (· < ·)) : ids.Nodup := by
  refine h.imp ?_
  rintro a b hlt rfl
  exact UInt32.lt_irrefl a.number hlt

namespace Orderly

theorem nodup (h : s.Orderly) : s.ships.keys.Nodup := nodup_of_ascending h.ascending

theorem faithful (h : s.Orderly) : s.Faithful := faithful_of_entries h.nodup h.numbered

/-- It is enough that ships in ascending order are found under their own numbers. -/
theorem of_found (hkeys : s.ships.keys.Pairwise (· < ·))
    (hfound : ∀ id state, s.ship? id = some state → state.id = id) : s.Orderly where
  ascending := hkeys
  numbered := by
    rintro ⟨key, entry⟩ hentry
    have hget := Table.get?_of_mem (nodup_of_ascending hkeys) hentry
    refine hfound key entry.state ?_
    rw [ship?, hget]
    rfl

theorem mem_enemiesOf_iff (h : s.Orderly) {own id : ShipId} :
    id ∈ s.enemiesOf own ↔ s.Foe own id := by
  constructor
  · exact h.faithful.enemies own id
  · rintro ⟨hactive, mine, theirs, hmine, htheirs, hside⟩
    have hentry := Table.mem_entries_of_get? htheirs
    have hstatus : theirs.status = .active := by
      simpa [isActive, status, htheirs] using hactive
    rw [enemiesOf, hmine]
    refine List.mem_map.mpr ⟨theirs, List.mem_filter.mpr ⟨?_, ?_⟩, h.numbered _ hentry⟩
    · exact List.mem_map.mpr ⟨_, hentry, rfl⟩
    · exact decide_eq_true ⟨hside, hstatus⟩

theorem values_ascending (h : s.Orderly) :
    s.ships.values.Pairwise fun a b => a.state.id < b.state.id := by
  have hkeys := List.pairwise_map.mp h.ascending
  refine List.pairwise_map.mpr (hkeys.imp_of_mem ?_)
  intro a b ha hb hlt
  rw [h.numbered a ha, h.numbered b hb]
  exact hlt

theorem enemiesOf_ascending (h : s.Orderly) (own : ShipId) :
    (s.enemiesOf own).Pairwise (· < ·) := by
  rw [enemiesOf]
  split
  · exact List.Pairwise.nil
  · exact List.pairwise_map.mpr (h.values_ascending.filter _)

/-- Looking ships up keeps their order. -/
theorem activeShips_ascending (h : s.Orderly) {ids : List ShipId} (hids : ids.Pairwise (· < ·)) :
    (ids.filterMap s.activeShip?).Pairwise fun a b => a.id < b.id := by
  refine List.pairwise_filterMap.mpr (hids.imp ?_)
  intro a b hlt x hx y hy
  rw [h.faithful.found a x (ship?_of_activeShip? hx).2,
    h.faithful.found b y (ship?_of_activeShip? hy).2]
  exact hlt

end Orderly

end Helm.Scene
