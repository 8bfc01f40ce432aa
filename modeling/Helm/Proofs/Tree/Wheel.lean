import Helm.Proofs.Random.Draw
import Helm.Tree.Wheel

/-!
# Helm.Proofs.Tree.Wheel

A wheel made for some children keeps pointing at one of them. `Wheel.Fits` is what holds of a wheel
over `count` children from its creation on; turning such a wheel is never abandoned and gives a
position below `count` (`turn_yields`). A cycle without repetition always has a child left to draw,
because the marks are cleared once all are set.
-/

namespace Helm.Wheel

/-- The wheel has a mark for each of `count` children and points at one of them, if at any. -/
structure Fits (w : Wheel) (count : Nat) : Prop where
  marks : w.picked.length = count
  chosen : ∀ child, w.selected = some child → child < count

theorem fits_create (count : Nat) (cooldown : Float32) (mode : RandomMode)
    (policy : RandomPolicy) : (create count cooldown mode policy).Fits count where
  marks := List.length_replicate
  chosen _ h := by cases h

theorem Fits.record {w : Wheel} {count : Nat} (h : w.Fits count) (status : Status) :
    (w.record status).Fits count :=
  ⟨h.marks, h.chosen⟩

/-! ## The children left in a cycle -/

theorem length_cycle (picked : List Bool) : (cycle picked).length = picked.length := by
  rw [cycle]
  split
  · exact List.length_map _
  · rfl

theorem untaken_lt {marks : List Bool} {start child : Nat} (h : child ∈ untaken marks start) :
    child < start + marks.length := by
  induction marks generalizing start with
  | nil => cases h
  | cons taken rest ih =>
    rw [untaken] at h
    rw [List.length_cons]
    split at h
    · have := ih h
      omega
    · rcases List.mem_cons.mp h with rfl | h
      · omega
      · have := ih h
        omega

theorem untaken_ne_nil {marks : List Bool} (h : false ∈ marks) (start : Nat) :
    untaken marks start ≠ [] := by
  induction marks generalizing start with
  | nil => cases h
  | cons taken rest ih =>
    rw [untaken]
    cases taken with
    | false => exact List.cons_ne_nil _ _
    | true => exact ih ((List.mem_cons.mp h).resolve_left (by decide)) _

theorem false_mem_cycle {picked : List Bool} (h : picked ≠ []) : false ∈ cycle picked := by
  rw [cycle]
  split
  · obtain ⟨mark, hmark⟩ := List.exists_mem_of_ne_nil picked h
    exact List.mem_map.mpr ⟨mark, hmark, rfl⟩
  · rename_i hall
    simpa using hall

/-! ## Turning -/

variable {G : Type} [WordSource G] {inv : G → Prop} {g : G} {allowed : Fault → Prop} {w : Wheel}

theorem draw_yields (hinv : Draw.Steady inv) (hw : w.picked ≠ []) (hg : inv g) :
    Yields allowed
      (fun r => r.1 < w.picked.length ∧ r.2.1.length = w.picked.length ∧ inv r.2.2)
      (w.draw g) := by
  have hlength : 0 < w.picked.length := List.length_pos_iff.mpr hw
  rw [draw]
  split
  · have hcandidates := untaken_ne_nil (false_mem_cycle hw) 0
    refine (Draw.index_yields hinv (List.length_pos_iff.mpr hcandidates) hg).bind ?_
    rintro ⟨nth, g'⟩ ⟨hnth, hg'⟩
    have hchild : (untaken (cycle w.picked) 0).getD nth 0 ∈ untaken (cycle w.picked) 0 := by
      rw [List.getD_eq_getElem?_getD, List.getElem?_eq_getElem hnth]
      exact List.getElem_mem hnth
    have hlt := untaken_lt hchild
    rw [length_cycle, Nat.zero_add] at hlt
    exact ⟨hlt, (List.length_set).trans (length_cycle _), hg'⟩
  · rename_i weights _
    dsimp only
    split
    · rename_i usable husable
      rw [Draw.usableWeights?] at husable
      split at husable
      · rename_i hfit
        cases husable
        have husable : weights ≠ [] := by
          rintro rfl
          exact hfit.2 rfl
        exact ⟨hfit.1 ▸ Draw.weighted_lt husable g, rfl, Draw.weighted_steady hinv _ hg⟩
      · cases husable
    · exact (Draw.index_yields hinv hlength hg).bind fun r hr => ⟨hr.1, rfl, hr.2⟩
  · exact (Draw.index_yields hinv hlength hg).bind fun r hr => ⟨hr.1, rfl, hr.2⟩

theorem roll_yields (hinv : Draw.Steady inv) {count : Nat} (hw : w.Fits count) (hcount : 0 < count)
    (now : Float32) (hg : inv g) :
    Yields allowed (fun r => r.1 < count ∧ r.2.1.Fits count ∧ inv r.2.2) (w.roll now g) := by
  have hpicked : w.picked ≠ [] := by
    rw [← List.length_pos_iff, hw.marks]
    exact hcount
  refine (draw_yields hinv hpicked hg).bind ?_
  rintro ⟨child, picked, g'⟩ ⟨hchild, hlength, hg'⟩
  rw [hw.marks] at hchild hlength
  exact ⟨hchild, ⟨hlength, fun _ h => Option.some.inj h ▸ hchild⟩, hg'⟩

/-- Turning a wheel over at least one child gives one of the children. -/
theorem turn_yields (hinv : Draw.Steady inv) {count : Nat} (hw : w.Fits count) (hcount : 0 < count)
    (now : Float32) (hg : inv g) :
    Yields allowed (fun r => r.1 < count ∧ r.2.1.Fits count ∧ inv r.2.2) (w.turn now g) := by
  rw [turn]
  split
  · rename_i child hchild
    split
    · exact roll_yields hinv hw hcount now hg
    · exact ⟨hw.chosen child hchild, hw, hg⟩
  · exact roll_yields hinv hw hcount now hg

end Helm.Wheel
