import Helm.Proofs.World.Gap
import Helm.Proofs.World.Scene
import Mathlib.Data.Set.Card

/-!
# Helm.Proofs.World.Nearby

The list of secondary targets as an answer to a question: the nearest of all the ships that qualify
(`Scene.Secondary`), as many as there is room for. `Scene.nearby` holds the ships that qualify, in
ascending order of their numbers, and `Scene.ranked` the same ships by their gaps. Sorting keeps
ties in order, so that they stay in ascending order, and the list is cut off from there
(`secondaryTargets_nearest`).
-/

namespace Helm.Scene

/-- An active ship on another side that is not the primary target and is within the radius. -/
structure Secondary (s : Scene) (me : ShipState) (primary : Option ShipId) (radius : Float32)
    (enemy : ShipState) : Prop where
  found : s.activeShip? enemy.id = some enemy
  foe : s.Foe me.id enemy.id
  other : primary ≠ some enemy.id
  near : me.gapTo enemy ≤ radius

/-- Nearer than another ship, or as near and of a smaller number. -/
def Precedes (me a b : ShipState) : Prop :=
  me.gapTo a ≤ me.gapTo b ∧ (me.gapTo b ≤ me.gapTo a → a.id < b.id)

instance (me : ShipState) : DecidableRel (Precedes me) := fun _ _ =>
  inferInstanceAs (Decidable (_ ∧ _))

def nearby (s : Scene) (me : ShipState) (primary : Option ShipId) (radius : Float32) :
    List ShipState :=
  (((s.enemiesOf me.id).filter fun id => some id ≠ primary).filterMap s.activeShip?).filter
    fun enemy => decide (me.gapTo enemy ≤ radius)

/-- The ships that qualify in the order in which they are cut off. -/
def ranked (s : Scene) (me : ShipState) (primary : Option ShipId) (radius : Float32) :
    List ShipState :=
  sortBy me.gapTo (s.nearby me primary radius)

variable {s : Scene} {me enemy : ShipState} {primary : Option ShipId} {radius : Float32}

theorem secondaryTargets_eq :
    s.secondaryTargets me primary radius =
      ((s.ranked me primary radius).take maxSecondaryTargets).map (·.id) := by
  have hcandidates : s.targetCandidates me primary radius =
      (s.nearby me primary radius).map fun enemy => (me.gapTo enemy, enemy.id) := by
    simp only [targetCandidates, nearby, List.filter_map]
    rfl
  rw [secondaryTargets, hcandidates, ← map_sortBy, List.map_take, List.map_take, List.map_map]
  rfl

theorem mem_nearby_iff (h : s.Orderly) :
    enemy ∈ s.nearby me primary radius ↔ s.Secondary me primary radius enemy := by
  simp only [nearby, List.mem_filter, List.mem_filterMap, h.mem_enemiesOf_iff,
    decide_eq_true_eq]
  constructor
  · rintro ⟨⟨id, ⟨hfoe, hother⟩, hship⟩, hnear⟩
    obtain rfl := h.faithful.found id enemy (ship?_of_activeShip? hship).2
    exact ⟨hship, hfoe, Ne.symm hother, hnear⟩
  · rintro ⟨hship, hfoe, hother, hnear⟩
    exact ⟨⟨enemy.id, ⟨hfoe, Ne.symm hother⟩, hship⟩, hnear⟩

theorem nearby_ascending (h : s.Orderly) (me : ShipState) (primary : Option ShipId)
    (radius : Float32) :
    (s.nearby me primary radius).Pairwise fun a b => a.id < b.id :=
  (h.activeShips_ascending ((h.enemiesOf_ascending me.id).filter _)).filter _

theorem mem_ranked_iff (h : s.Orderly) :
    enemy ∈ s.ranked me primary radius ↔ s.Secondary me primary radius enemy :=
  mem_sortBy.trans (mem_nearby_iff h)

theorem ranked_precedes (h : s.Orderly) : (s.ranked me primary radius).Pairwise (Precedes me) := by
  have hordered := sortBy_ordered me.gapTo (s.nearby me primary radius)
  have hties : (s.ranked me primary radius).Pairwise fun a b =>
      Single.rank (me.gapTo a) = Single.rank (me.gapTo b) → a.id < b.id :=
    sortBy_stable (nearby_ascending h me primary radius)
  refine (hordered.and hties).imp ?_
  intro a b hab
  refine ⟨(me.gapTo_le_iff a b).mpr hab.1, fun htie => hab.2 ?_⟩
  -- no gap has a sign, so that as near means the same bit pattern
  have := (me.gapTo_le_iff b a).mp htie
  omega

theorem ranked_nodup (h : s.Orderly) : ((s.ranked me primary radius).map (·.id)).Nodup :=
  ((sortBy_perm me.gapTo _).map _).nodup_iff.mpr
    (nodup_of_ascending (List.pairwise_map.mpr (nearby_ascending h me primary radius)))

/-- No other order of the ships that qualify has the nearest first and ties in ascending order. -/
theorem ranked_unique (h : s.Orderly) {ships : List ShipState}
    (hperm : ships.Perm (s.nearby me primary radius)) (hships : ships.Pairwise (Precedes me)) :
    s.ranked me primary radius = ships := by
  refine List.Perm.eq_of_pairwise ?_ (ranked_precedes h) hships
    ((sortBy_perm me.gapTo _).trans hperm.symm)
  intro a b _ _ hab hba
  exact absurd (hab.2 hba.1) (UInt32.lt_asymm (hba.2 hab.1))

/-- There are as many in the list as ships that qualify. -/
theorem ncard_secondary (h : s.Orderly) :
    {enemy | s.Secondary me primary radius enemy}.Finite ∧
      {enemy | s.Secondary me primary radius enemy}.ncard =
        (s.ranked me primary radius).length := by
  have hset : {enemy | s.Secondary me primary radius enemy} =
      ((s.ranked me primary radius).toFinset : Set ShipState) := by
    ext enemy
    simp [mem_ranked_iff h]
  have hnodup : (s.ranked me primary radius).Nodup := (ranked_nodup h).of_map _
  rw [hset, Set.ncard_coe_finset, List.toFinset_card_of_nodup hnodup]
  exact ⟨Finset.finite_toSet _, rfl⟩

/-- The list names as many as there is room for of the ships that qualify, each once, nearest first
and ties in ascending order, and the ships that are left out are no nearer than the ones named. -/
theorem secondaryTargets_nearest (h : s.Orderly) (me : ShipState) (primary : Option ShipId)
    (radius : Float32) :
    ∃ listed : List ShipState,
      s.secondaryTargets me primary radius = listed.map (·.id) ∧
      (listed.map (·.id)).Nodup ∧
      (∀ enemy ∈ listed, s.Secondary me primary radius enemy) ∧
      listed.Pairwise (Precedes me) ∧
      {enemy | s.Secondary me primary radius enemy}.Finite ∧
      listed.length =
        min maxSecondaryTargets {enemy | s.Secondary me primary radius enemy}.ncard ∧
      ∀ left, s.Secondary me primary radius left → left ∉ listed →
        ∀ enemy ∈ listed, me.gapTo enemy ≤ me.gapTo left := by
  obtain ⟨hfinite, hncard⟩ := @ncard_secondary s me primary radius h
  have hsplit := List.take_append_drop maxSecondaryTargets (s.ranked me primary radius)
  have hprecedes := @ranked_precedes s me primary radius h
  rw [← hsplit] at hprecedes
  obtain ⟨hlisted, -, hacross⟩ := List.pairwise_append.mp hprecedes
  refine ⟨(s.ranked me primary radius).take maxSecondaryTargets, secondaryTargets_eq, ?_, ?_,
    hlisted, hfinite, ?_, ?_⟩
  · rw [List.map_take]
    exact (ranked_nodup h).sublist (List.take_sublist _ _)
  · intro enemy henemy
    exact (mem_ranked_iff h).mp (List.mem_of_mem_take henemy)
  · rw [List.length_take, hncard]
  · intro left hleft hout enemy henemy
    have hmem := (mem_ranked_iff h).mpr hleft
    rw [← hsplit] at hmem
    have hdropped := (List.mem_append.mp hmem).resolve_left hout
    exact (hacross enemy henemy left hdropped).1

/-- A ship with a friend and five enemies around it, three of them at the same gap, and another
enemy far away. -/
def melee : Scene :=
  let allies := (({} : Scene).addShip (.create ⟨1⟩ .zero) 0).addShip (.create ⟨7⟩ ⟨1, 0⟩) 0
  let near := (allies.addShip (.create ⟨9⟩ ⟨0, -5⟩) 1).addShip (.create ⟨4⟩ ⟨3, 0⟩) 2
  let even := (near.addShip (.create ⟨3⟩ ⟨0, 5⟩) 1).addShip (.create ⟨2⟩ ⟨5, 0⟩) 1
  (even.addShip (.create ⟨5⟩ ⟨7, 0⟩) 1).addShip (.create ⟨6⟩ ⟨40, 0⟩) 1

theorem ranked_melee :
    melee.ranked (.create ⟨1⟩ .zero) none 10 =
      [.create ⟨4⟩ ⟨3, 0⟩, .create ⟨2⟩ ⟨5, 0⟩, .create ⟨3⟩ ⟨0, 5⟩, .create ⟨9⟩ ⟨0, -5⟩,
        .create ⟨5⟩ ⟨7, 0⟩] :=
  ranked_unique ⟨by decide, by decide⟩ (by decide +kernel) (by decide +kernel)

/-- There is no room for the fifth of the enemies within the radius. -/
theorem secondaryTargets_nearest_melee :
    melee.Orderly ∧
      melee.secondaryTargets (.create ⟨1⟩ .zero) none 10 = [⟨4⟩, ⟨2⟩, ⟨3⟩, ⟨9⟩] ∧
      4 ≤ {enemy | melee.Secondary (.create ⟨1⟩ .zero) none 10 enemy}.ncard := by
  have horderly : melee.Orderly := ⟨by decide, by decide⟩
  have hlist : melee.secondaryTargets (.create ⟨1⟩ .zero) none 10 = [⟨4⟩, ⟨2⟩, ⟨3⟩, ⟨9⟩] := by
    rw [secondaryTargets_eq]
    exact congrArg (fun ships => (ships.take maxSecondaryTargets).map (·.id)) ranked_melee
  obtain ⟨listed, hlisted, -, -, -, -, hlength, -⟩ :=
    secondaryTargets_nearest horderly (.create ⟨1⟩ .zero) none 10
  have hfour : listed.length = 4 := by
    simpa [hlist] using (congrArg List.length hlisted).symm
  exact ⟨horderly, hlist, by omega⟩

end Helm.Scene
