import Helm.Proofs.Number.Equality
import Helm.Proofs.Tree.History

/-!
# Helm.Proofs.Tree.Standstill

Random selectors ticked again and again while the clock stands still. A roll is never followed by
another one at the same time, whatever the cooldown. What may come late is the roll itself: an
executor that was due for one when the clock stopped, but whose child was running, rolls at the
first tick after that child has given a final status (`same_time`), so that its choice changes while
the clock stands still (`same_time_released`).
-/

namespace Helm

namespace Spin

variable {cooldown now : Float32} {mode : RandomMode} {count : Nat} {spin first : Spin}
  {past later earlier block : List Spin}

/-! ## Ticks at one time -/

theorem lastRoll?_append (later earlier : List Spin) :
    lastRoll? (later ++ earlier) = (lastRoll? later).or (lastRoll? earlier) := by
  unfold lastRoll?
  rw [List.find?_append]
  cases later.find? (·.rolled) <;> rfl

theorem lastRoll?_eq_none_iff : lastRoll? past = none ↔ ∀ spin ∈ past, spin.rolled = false := by
  simp [lastRoll?]

/-- Ticks without a roll do not count. -/
theorem elapsed_append_iff (h : ∀ spin ∈ block, spin.rolled = false) :
    Elapsed cooldown (block ++ earlier) now ↔ Elapsed cooldown earlier now := by
  unfold Elapsed
  rw [lastRoll?_append, lastRoll?_eq_none_iff.mpr h, Option.none_or]

/-- After a roll at the time of the clock, no more than the cooldown has passed. -/
theorem not_elapsed_of_rolled
    (hsame : ∀ spin ∈ block, spin.time.isFinite = true ∧ (spin.time == now) = true)
    (hroll : ∃ spin ∈ block, spin.rolled = true) : ¬Elapsed cooldown (block ++ earlier) now := by
  rintro ⟨time, htime, hlt⟩
  rw [lastRoll?_append] at htime
  cases hblock : lastRoll? block with
  | none =>
    obtain ⟨spin, hspin, hrolled⟩ := hroll
    rw [lastRoll?_eq_none_iff.mp hblock spin hspin] at hrolled
    cases hrolled
  | some latest =>
    rw [hblock, Option.some_or] at htime
    obtain ⟨spin, hfind, hspin⟩ := Option.map_eq_some_iff.mp hblock
    obtain ⟨hfinite, heq⟩ := hsame spin (List.mem_of_find?_eq_some hfind)
    rw [hspin, Option.some.inj htime] at hfinite heq
    have hcooldown : 0 ≤ Single.maximum cooldown 0 := Single.le_maximum_right cooldown (by decide)
    exact Single.not_lt_sub_of_beq hfinite heq hcooldown hlt

theorem elapsed_congr {time : Float32} (hfinite : time.isFinite = true)
    (h : (time == now) = true) :
    Elapsed cooldown past time ↔ Elapsed cooldown past now := by
  unfold Elapsed
  simp only [Single.lt_sub_congr hfinite h]

/-! ## Lawful histories -/

theorem Lawful.before (h : Lawful cooldown mode count (later ++ past)) :
    Lawful cooldown mode count past := by
  induction later with
  | nil => exact h
  | cons spin later ih => exact ih h.2.2.2

/-- Without rolls the child stays. -/
theorem Lawful.child_eq (h : Lawful cooldown mode count (later ++ first :: earlier))
    (hnone : ∀ spin ∈ later, spin.rolled = false) : ∀ spin ∈ later, spin.child = first.child := by
  induction later with
  | nil => exact fun spin hspin => absurd hspin List.not_mem_nil
  | cons latest later ih =>
    obtain ⟨-, hkept, -, hlawful⟩ := h
    obtain ⟨hlatest, hlater⟩ := List.forall_mem_cons.mp hnone
    have hbefore := ih hlawful hlater
    refine List.forall_mem_cons.mpr ⟨?_, hbefore⟩
    have hsame := hkept hlatest
    cases later with
    | nil => exact (Option.some.inj hsame).symm
    | cons next later =>
      have hnext := hbefore next List.mem_cons_self
      exact (Option.some.inj hsame).symm.trans hnext

/-- The only roll there can be after the first tick at a time: the one that was due at the first
tick already and that a running child has held up until the tick before. -/
def Released (cooldown : Float32) (mode : RandomMode) (before : List Spin) (first : Spin)
    (earlier : List Spin) : Prop :=
  mode = .executor ∧ Elapsed cooldown earlier first.time ∧
    (∀ spin ∈ before ++ [first], spin.rolled = false) ∧
    ∀ last, (before ++ [first]).head? = some last → last.status ≠ .running

theorem Lawful.rolled_iff {before : List Spin}
    (h : Lawful cooldown mode count (spin :: (before ++ first :: earlier)))
    (hfinite : first.time.isFinite = true)
    (hsame : ∀ s ∈ spin :: before, (first.time == s.time) = true) :
    spin.rolled = true ↔ Released cooldown mode before first earlier := by
  have hsplit : before ++ first :: earlier = (before ++ [first]) ++ earlier := by simp
  have hhead : (before ++ first :: earlier).head? = (before ++ [first]).head? := by
    cases before <;> rfl
  obtain ⟨hspin, hbefore⟩ := List.forall_mem_cons.mp hsame
  have hnumber := Single.isNaN_of_isFinite hfinite
  have hclock : Elapsed cooldown earlier first.time ↔ Elapsed cooldown earlier spin.time :=
    elapsed_congr hfinite hspin
  have hblock : ∀ s ∈ before ++ [first], s.time.isFinite = true ∧ (s.time == spin.time) = true := by
    intro s hs
    have hs : (first.time == s.time) = true := by
      rcases List.mem_append.mp hs with hs | hs
      · exact hbefore s hs
      · rw [List.mem_singleton.mp hs]
        exact Single.beq_self hnumber
    exact ⟨(Single.amount_eq_of_beq hfinite hs).1, Single.beq_of_beq_of_beq hnumber hs hspin⟩
  rw [h.1]
  constructor
  · rintro (hnil | ⟨helapsed, hfree⟩)
    · simp at hnil
    · rw [hsplit] at helapsed
      have hnone : ∀ s ∈ before ++ [first], s.rolled = false := by
        intro s hs
        by_contra hrolled
        exact not_elapsed_of_rolled hblock ⟨s, hs, by simpa using hrolled⟩ helapsed
      rw [elapsed_append_iff hnone, ← hclock] at helapsed
      -- the first tick has not rolled, although enough time had passed
      have hheld : Held mode earlier := by
        by_contra hfree
        have hfirst := h.2.2.2.before.1.mpr (.inr ⟨helapsed, hfree⟩)
        rw [hnone first (by simp)] at hfirst
        cases hfirst
      refine ⟨hheld.1, helapsed, hnone, fun last hlast hrunning => hfree ⟨hheld.1, ?_⟩⟩
      rw [hhead, hlast, Option.map_some, hrunning]
  · rintro ⟨-, helapsed, hnone, hlast⟩
    refine .inr ⟨?_, ?_⟩
    · rw [hsplit, elapsed_append_iff hnone, ← hclock]
      exact helapsed
    · rintro ⟨-, hrunning⟩
      rw [hhead] at hrunning
      obtain ⟨last, hlast', hstatus⟩ := Option.map_eq_some_iff.mp hrunning
      exact hlast last hlast' hstatus

/-- After a roll there is no other one at the same time. -/
theorem Lawful.still_of_rolled (h : Lawful cooldown mode count (later ++ first :: earlier))
    (hfinite : first.time.isFinite = true)
    (hsame : ∀ s ∈ later, (first.time == s.time) = true) (hrolled : first.rolled = true) :
    ∀ s ∈ later, s.rolled = false := by
  intro s hs
  obtain ⟨after, before, rfl⟩ := List.append_of_mem hs
  by_contra hagain
  rw [List.append_assoc] at h
  obtain ⟨-, -, hnone, -⟩ := (Lawful.rolled_iff h.before hfinite fun s hs =>
    hsame s (List.mem_append_right _ hs)).mp (by simpa using hagain)
  rw [hnone first (by simp)] at hrolled
  cases hrolled

end Spin

namespace Node

open Spin

variable {L C : Type} [Behavior L C] [TickContext C] {children cs : List (Node L)} {w : Wheel}

/-- While the clock stands still, a random selector keeps its child, unless a roll was due when the
clock stopped and the child of an executor was running. Then the child is kept until it has given a
final status, replaced at the next tick, and kept again from there on. -/
theorem same_time (cooldown : Float32) (mode : RandomMode) (policy : RandomPolicy)
    (hchildren : children ≠ []) {later earlier : List Spin} {first : Spin}
    (h : Spun C (freshRandom cooldown mode policy children) (later ++ first :: earlier) w cs)
    (hfinite : first.time.isFinite = true)
    (hsame : ∀ spin ∈ later, (first.time == spin.time) = true) :
    (¬(Held mode earlier ∧ Elapsed cooldown earlier first.time) →
        ∀ spin ∈ later, spin.rolled = false ∧ spin.child = first.child) ∧
      ∀ after spin before, later = after ++ spin :: before →
        (spin.rolled = true ↔ Released cooldown mode before first earlier) ∧
        (spin.rolled = false → ∀ last, (before ++ [first]).head? = some last →
          spin.child = last.child) ∧
        (spin.rolled = true → ∀ s ∈ after, s.rolled = false ∧ s.child = spin.child) := by
  have hlawful := (h.recalls hchildren).2.lawful
  have hrolled : ∀ after spin before, later = after ++ spin :: before →
      (spin.rolled = true ↔ Released cooldown mode before first earlier) := by
    rintro after spin before rfl
    rw [List.append_assoc] at hlawful
    exact hlawful.before.rolled_iff hfinite fun s hs => hsame s (List.mem_append_right _ hs)
  refine ⟨fun hfree => ?_, fun after spin before hsplit =>
    ⟨hrolled after spin before hsplit, ?_, ?_⟩⟩
  · have hnone : ∀ spin ∈ later, spin.rolled = false := by
      intro spin hspin
      obtain ⟨after, before, hsplit⟩ := List.append_of_mem hspin
      by_contra hagain
      obtain ⟨hmode, helapsed, hnone, -⟩ :=
        (hrolled after spin before hsplit).mp (by simpa using hagain)
      -- nothing but a running child can have kept the first tick from rolling
      have hdue := hlawful.before.1.mpr (.inr ⟨helapsed, fun hheld => hfree ⟨hheld, helapsed⟩⟩)
      rw [hnone first (by simp)] at hdue
      cases hdue
    exact fun spin hspin => ⟨hnone spin hspin, hlawful.child_eq hnone spin hspin⟩
  · subst hsplit
    intro hkept last hlast
    rw [List.append_assoc] at hlawful
    obtain ⟨-, hchild, -⟩ := hlawful.before
    have hhead := hchild hkept
    cases before <;> cases hlast <;> exact (Option.some.inj hhead).symm
  · subst hsplit
    intro hroll
    rw [List.append_assoc, List.cons_append] at hlawful
    have hspin := hsame spin (by simp)
    have hnone := hlawful.still_of_rolled (Single.amount_eq_of_beq hfinite hspin).1
      (fun s hs => Single.beq_of_beq_of_beq (Single.isNaN_of_isFinite hfinite) hspin
        (hsame s (List.mem_append_left _ hs))) hroll
    exact fun s hs => ⟨hnone s hs, hlawful.child_eq hnone s hs⟩

/-- A selector without a cooldown keeps its child for two more ticks at the time of a roll, although
the child succeeds in between. -/
theorem same_time_duo :
    let first : Spin := ⟨2, true, 1, .running⟩
    let later : List Spin := [⟨2, false, 1, .success⟩, ⟨2, false, 1, .success⟩]
    duo ≠ [] ∧ first.time.isFinite = true ∧
      (∀ spin ∈ later, (first.time == spin.time) = true) ∧
      (∃ w cs, Spun Stage (freshRandom 0 .selector .uniform duo)
        (later ++ first :: [⟨1, true, 0, .running⟩]) w cs) ∧
      ∀ spin ∈ later, spin.rolled = false ∧ spin.child = first.child := by
  intro first later
  obtain ⟨⟨past, w, cs, stage⟩, hspins, rfl⟩ : ∃ r,
      spins (Wheel.create 2 0 .selector .uniform) duo Stage.opening
          [Stage.wait 0, Stage.wait 0, Stage.wait 1, Stage.wait 1] = .ok r ∧
        r.1 = later ++ first :: [⟨1, true, 0, .running⟩] :=
    yields_false_iff.mp (by decide +kernel)
  have hspun := spun_of_spins hspins
  have hduo : duo ≠ [] := List.cons_ne_nil _ _
  have hfinite : first.time.isFinite = true := by decide
  have hsame : ∀ spin ∈ later, (first.time == spin.time) = true := by decide
  have hstill := (same_time 0 .selector .uniform hduo hspun hfinite hsame).1 fun h => nomatch h.1.1
  exact ⟨hduo, hfinite, hsame, ⟨w, cs, hspun⟩, hstill⟩

/-- An executor whose child is running when the clock stops rolls at the second tick from there on,
and goes over to another child. -/
theorem same_time_released :
    let first : Spin := ⟨2, false, 0, .success⟩
    let again : Spin := ⟨2, true, 1, .running⟩
    duo ≠ [] ∧ first.time.isFinite = true ∧ (first.time == again.time) = true ∧
      (∃ w cs, Spun Stage (freshRandom 0 .executor .uniform duo)
        [again, first, ⟨1, true, 0, .running⟩] w cs) ∧
      again.child ≠ first.child := by
  intro first again
  obtain ⟨⟨past, w, cs, stage⟩, hspins, rfl⟩ : ∃ r,
      spins (Wheel.create 2 0 .executor .uniform) duo Stage.opening
          [Stage.wait 0, Stage.wait 1, Stage.wait 1] = .ok r ∧
        r.1 = [again, first, ⟨1, true, 0, .running⟩] := yields_false_iff.mp (by decide +kernel)
  exact ⟨List.cons_ne_nil _ _, by decide, by decide, ⟨w, cs, spun_of_spins hspins⟩, by decide⟩

end Node

end Helm
