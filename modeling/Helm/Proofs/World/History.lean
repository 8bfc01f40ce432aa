import Helm.Proofs.World.Scene
import Mathlib.Logic.Relation

/-!
# Helm.Proofs.World.History

Scenes by the way they come about. `Scene.Change` takes a scene to what one operation makes of it,
and a scene is `Reachable` when changes lead to it from the empty one. As long as an update leaves
a ship its number, each change keeps the ships in order (`Change.orderly`), and so does a whole
history (`Reachable.orderly`). The enemies of a ship are then known by side and status alone, which
makes enmity mutual among active ships (`enemiesOf_mutual`).
-/

namespace Helm.Scene

variable {s t : Scene}

/-- One operation on a scene. A ship that is updated keeps its number; what the function would do
to other ships does not matter. -/
inductive Change (s : Scene) : Scene → Prop where
  | addShip (state : ShipState) (side : UInt8) : Change s (s.addShip state side)
  | removeShip (id : ShipId) : Change s (s.removeShip id)
  | setStatus (id : ShipId) (status : ShipStatus) : Change s (s.setStatus id status)
  | updateShip (id : ShipId) (f : ShipState → ShipState)
      (hid : ∀ state, s.ship? id = some state → (f state).id = state.id) :
      Change s (s.updateShip id f)
  | addUnit (unit : UnitState) : Change s (s.addUnit unit)
  | clearUnits : Change s s.clearUnits
  | countEnemyQuery : Change s s.countEnemyQuery
  | countUnitQuery : Change s s.countUnitQuery

/-- The scene has come about by operations on the empty one. -/
def Reachable (s : Scene) : Prop := Relation.ReflTransGen Change {} s

/-! ## Order -/

namespace Orderly

theorem addShip (h : s.Orderly) (state : ShipState) (side : UInt8) :
    (s.addShip state side).Orderly := by
  refine of_found (Table.keys_insert_ascending _ _ h.ascending) fun id found hfound => ?_
  rw [ship?_addShip] at hfound
  split at hfound
  · rename_i heq
    cases hfound
    exact heq.symm
  · exact h.faithful.found id found hfound

theorem removeShip (h : s.Orderly) (id : ShipId) : (s.removeShip id).Orderly := by
  refine of_found ?_ fun other found hfound => ?_
  · rw [Scene.removeShip, Table.keys_erase]
    exact h.ascending.filter _
  · rw [ship?_removeShip] at hfound
    split at hfound
    · cases hfound
    · exact h.faithful.found other found hfound

theorem setStatus (h : s.Orderly) (id : ShipId) (status : ShipStatus) :
    (s.setStatus id status).Orderly := by
  refine of_found ?_ fun other found hfound => ?_
  · rw [Scene.setStatus, Table.keys_modify]
    exact h.ascending
  · rw [ship?_setStatus] at hfound
    exact h.faithful.found other found hfound

theorem updateShip (h : s.Orderly) {id : ShipId} {f : ShipState → ShipState}
    (hid : ∀ state, s.ship? id = some state → (f state).id = state.id) :
    (s.updateShip id f).Orderly := by
  refine of_found ?_ fun other found hfound => ?_
  · rw [Scene.updateShip, Table.keys_modify]
    exact h.ascending
  · rw [ship?_updateShip] at hfound
    split at hfound
    · rename_i heq
      obtain ⟨state, hstate, rfl⟩ := Option.map_eq_some_iff.mp hfound
      rw [hid state (heq ▸ hstate)]
      exact h.faithful.found other state hstate
    · exact h.faithful.found other found hfound

end Orderly

theorem Change.orderly (h : Change s t) (hs : s.Orderly) : t.Orderly := by
  cases h with
  | addShip state side => exact hs.addShip state side
  | removeShip id => exact hs.removeShip id
  | setStatus id status => exact hs.setStatus id status
  | updateShip id f hid => exact hs.updateShip hid
  -- the ships are not touched
  | addUnit | clearUnits | countEnemyQuery | countUnitQuery => exact ⟨hs.ascending, hs.numbered⟩

theorem Reachable.orderly (h : s.Reachable) : s.Orderly := by
  induction h with
  | refl => exact ⟨List.Pairwise.nil, fun _ hentry => absurd hentry List.not_mem_nil⟩
  | tail _ hchange ih => exact hchange.orderly ih

/-! ## Enmity -/

namespace Orderly

theorem enemiesOf_comm (h : s.Orderly) {a b : ShipId} (ha : s.isActive a = true)
    (hb : s.isActive b = true) : b ∈ s.enemiesOf a ↔ a ∈ s.enemiesOf b := by
  rw [h.mem_enemiesOf_iff, h.mem_enemiesOf_iff]
  exact ⟨fun hfoe => ⟨ha, hfoe.2.symm⟩, fun hfoe => ⟨hb, hfoe.2.symm⟩⟩

theorem not_mem_enemiesOf_self (h : s.Orderly) (own : ShipId) : own ∉ s.enemiesOf own :=
  fun hown => (h.mem_enemiesOf_iff.mp hown).2.ne rfl

end Orderly

theorem enemiesOf_eq_nil {own : ShipId} (h : s.ship? own = none) : s.enemiesOf own = [] := by
  rw [enemiesOf, Option.map_eq_none_iff.mp h]

/-- After any history every ship is stored under its own number, a ship's enemies are the active
ships on other sides, in ascending order and without the ship itself, there are none for a ship that
is not in the scene, and of two active ships both are enemies of each other or neither is. -/
theorem enemiesOf_mutual (h : s.Reachable) :
    (∀ entry ∈ s.ships.entries, entry.2.state.id = entry.1) ∧
    (∀ own, (s.enemiesOf own).Pairwise (· < ·) ∧ own ∉ s.enemiesOf own ∧
      (∀ id ∈ s.enemiesOf own, s.isActive id = true) ∧
      (∀ id, id ∈ s.enemiesOf own ↔ s.Foe own id) ∧
      (s.ship? own = none → s.enemiesOf own = [])) ∧
    ∀ a b, s.isActive a = true → s.isActive b = true →
      (b ∈ s.enemiesOf a ↔ a ∈ s.enemiesOf b) := by
  have horderly := h.orderly
  refine ⟨horderly.numbered, fun own => ?_, fun a b ha hb => horderly.enemiesOf_comm ha hb⟩
  have hfoes : ∀ id, id ∈ s.enemiesOf own ↔ s.Foe own id := fun _ => horderly.mem_enemiesOf_iff
  exact ⟨horderly.enemiesOf_ascending own, horderly.not_mem_enemiesOf_self own,
    fun id hid => ((hfoes id).mp hid).1, hfoes, enemiesOf_eq_nil⟩

/-- Of three ships against one, the first changes sides, the second is taken out and the third
retreats, before a ship of a third side comes in and the one that was alone is moved. -/
def regrouped : Scene :=
  ({} : Scene)
    |>.addShip (.create ⟨2⟩ ⟨9, 0⟩) 1
    |>.addShip (.create ⟨1⟩ .zero) 0
    |>.addShip (.create ⟨3⟩ ⟨0, 9⟩) 1
    |>.addShip (.create ⟨4⟩ ⟨0, -9⟩) 1
    |>.addShip (.create ⟨2⟩ ⟨9, 0⟩) 0
    |>.removeShip ⟨3⟩
    |>.setStatus ⟨4⟩ .retreated
    |>.addShip (.create ⟨5⟩ ⟨20, 0⟩) 2
    |>.updateShip ⟨1⟩ fun _ => .create ⟨1⟩ ⟨1, 0⟩

theorem reachable_regrouped : regrouped.Reachable := by
  rw [regrouped, Reachable]
  refine .tail (.tail ?_ (.addShip _ _)) (.updateShip _ _ ?_)
  · refine .tail (.tail (.tail ?_ (.addShip _ _)) (.removeShip _)) (.setStatus _ _)
    exact .tail (.tail (.tail (.tail .refl (.addShip _ _)) (.addShip _ _)) (.addShip _ _))
      (.addShip _ _)
  · intro state hstate
    cases hstate
    rfl

/-- The ship that changed sides is an enemy of the new one as the new one is of it, and the ship
that retreated, which none of them counts as an enemy, still has the three for enemies. -/
theorem enemiesOf_mutual_regrouped :
    regrouped.Reachable ∧ regrouped.enemiesOf ⟨5⟩ = [⟨1⟩, ⟨2⟩] ∧
      ⟨5⟩ ∈ regrouped.enemiesOf ⟨2⟩ ∧ regrouped.enemiesOf ⟨4⟩ = [⟨1⟩, ⟨2⟩, ⟨5⟩] := by
  obtain ⟨-, -, hmutual⟩ := enemiesOf_mutual reachable_regrouped
  have hnew : regrouped.enemiesOf ⟨5⟩ = [⟨1⟩, ⟨2⟩] := by decide
  have hmem : ⟨2⟩ ∈ regrouped.enemiesOf ⟨5⟩ := by
    rw [hnew]
    decide
  exact ⟨reachable_regrouped, hnew, (hmutual ⟨5⟩ ⟨2⟩ (by decide) (by decide)).mp hmem, by decide⟩

end Helm.Scene
