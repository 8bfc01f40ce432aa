import Helm.Proofs.Pilot.Effect
import Helm.Proofs.World.Gap
import Helm.Proofs.World.Scene

/-!
# Helm.Proofs.Pilot.Targeting

What the search for an enemy decides. An enemy that is hunted already is kept for the cooldown of
the search (`FindEnemy.Keeps`). After that the nearest of the enemies that pass the filters is
taken, of several at the same gap the one with the least number (`FindEnemy.Nearest`), and only
where none passes an enemy hunted so far stays the target. `FindEnemy.tick_yields` says all of it
for one evaluation in a scene whose ships are in order.
-/

namespace Helm

/-- The target is an active enemy of the ship. -/
def Context.Hunts (c : Context) (me : ShipState) (id : ShipId) : Prop :=
  c.memory.target = some id ∧ c.scene.isActive id = true ∧ id ∈ c.scene.enemiesOf me.id

namespace FindEnemy

variable {f : FindEnemy} {c : Context} {me enemy : ShipState}

/-! ## Enemies that pass the filters -/

/-- An active enemy that passes the filters. -/
structure Eligible (f : FindEnemy) (c : Context) (me enemy : ShipState) : Prop where
  found : c.scene.activeShip? enemy.id = some enemy
  foe : c.scene.Foe me.id enemy.id
  drone : f.ignoreDrones = true → enemy.kind ≠ .drone
  range : f.inAttackRange = true → me.gapTo enemy ≤ c.memory.arsenal.rangeMax
  leash : ∀ range owner, f.droneRange = some range → c.memory.berserk = false →
    c.mothership? = some owner → owner.position.distance enemy.position ≤ range

theorem leash?_eq_some_iff {center : Vec2 Float32} {range : Float32} :
    f.leash? c = some (center, range) ↔
      f.droneRange = some range ∧ c.memory.berserk = false ∧
        ∃ owner, c.mothership? = some owner ∧ owner.position = center := by
  rw [leash?]
  cases hrange : f.droneRange with
  | none => simp
  | some limit =>
    cases hberserk : c.memory.berserk with
    | true => simp
    | false =>
      cases howner : c.mothership? with
      | none => simp
      | some owner => simp [and_comm]

theorem admits_iff :
    f.admits c me enemy = true ↔
      (f.ignoreDrones = true → enemy.kind ≠ .drone) ∧
        (f.inAttackRange = true → me.gapTo enemy ≤ c.memory.arsenal.rangeMax) ∧
        ∀ range owner, f.droneRange = some range → c.memory.berserk = false →
          c.mothership? = some owner → owner.position.distance enemy.position ≤ range := by
  rw [admits, Bool.and_eq_true, Bool.and_eq_true, and_assoc]
  refine and_congr ?_ (and_congr ?_ ?_)
  · cases f.ignoreDrones <;> simp
  · cases f.inAttackRange <;> simp
  · constructor
    · intro h range owner hrange hberserk howner
      rw [leash?_eq_some_iff.mpr ⟨hrange, hberserk, owner, howner, rfl⟩] at h
      exact of_decide_eq_true h
    · intro h
      split
      · rename_i center range hfound
        obtain ⟨hrange, hberserk, owner, howner, rfl⟩ := leash?_eq_some_iff.mp hfound
        exact decide_eq_true (h range owner hrange hberserk howner)
      · rfl

theorem mem_candidates_iff (hscene : c.scene.Orderly) :
    enemy ∈ f.candidates c me ↔ f.Eligible c me enemy := by
  rw [candidates, List.mem_filter, List.mem_filterMap, admits_iff]
  constructor
  · rintro ⟨⟨id, hid, hship⟩, hdrone, hrange, hleash⟩
    obtain rfl := hscene.faithful.found id enemy (Scene.ship?_of_activeShip? hship).2
    exact ⟨hship, hscene.mem_enemiesOf_iff.mp hid, hdrone, hrange, hleash⟩
  · rintro ⟨hship, hfoe, hdrone, hrange, hleash⟩
    exact ⟨⟨enemy.id, hscene.mem_enemiesOf_iff.mpr hfoe, hship⟩, hdrone, hrange, hleash⟩

/-- The eligible enemy with the least gap, and with the least number among those with that gap. -/
structure Nearest (f : FindEnemy) (c : Context) (me enemy : ShipState) : Prop where
  eligible : f.Eligible c me enemy
  least : ∀ other, f.Eligible c me other → me.gapTo enemy ≤ me.gapTo other
  first : ∀ other, f.Eligible c me other → me.gapTo other ≤ me.gapTo enemy →
    enemy.id.number ≤ other.id.number

theorem nearest_of_eq_some (hscene : c.scene.Orderly) (h : f.nearest? c me = some enemy) :
    f.Nearest c me enemy := by
  have hmem := fun other => @mem_candidates_iff f c me other hscene
  have hascending : (f.candidates c me).Pairwise fun a b => a.id < b.id :=
    (hscene.activeShips_ascending (hscene.enemiesOf_ascending me.id)).filter _
  obtain ⟨before, after, hsplit, hbefore, hleast⟩ := ShipState.split_of_nearest h
  refine ⟨(hmem enemy).mp (mem_of_leastBy? h), fun other hother => ?_, fun other hother htie => ?_⟩
  · exact hleast other ((hmem other).mpr hother)
  · have hin := (hmem other).mpr hother
    rw [hsplit] at hin hascending
    rcases List.mem_append.mp hin with hin | hin
    · exact absurd htie (hbefore other hin)
    · rcases List.mem_cons.mp hin with rfl | hin
      · exact UInt32.le_refl _
      · have hlt := (List.pairwise_cons.mp (List.pairwise_append.mp hascending).2.1).1 other hin
        exact UInt32.le_of_lt hlt

theorem not_eligible_of_eq_none (hscene : c.scene.Orderly) (h : f.nearest? c me = none)
    (enemy : ShipState) : ¬f.Eligible c me enemy := by
  intro heligible
  have hin := (mem_candidates_iff hscene).mpr heligible
  rw [leastBy?_eq_none_iff.mp h] at hin
  exact absurd hin List.not_mem_nil

/-! ## The target so far -/

theorem current?_eq_some_iff {id : ShipId} : (current? c me).1 = some id ↔ c.Hunts me id := by
  rw [current?, Context.Hunts]
  cases htarget : c.memory.target with
  | none => simp
  | some target =>
    by_cases hactive : c.scene.isActive target = true
    · by_cases henemy : target ∈ c.scene.enemiesOf me.id
      · simp only [hactive, if_true, List.contains_iff_mem, henemy, Option.some.injEq]
        constructor
        · rintro rfl
          exact ⟨rfl, hactive, henemy⟩
        · exact fun h => h.1
      · simp only [hactive, if_true, List.contains_iff_mem, henemy, if_false, reduceCtorEq,
          Option.some.injEq, false_iff]
        rintro ⟨rfl, -, hmem⟩
        exact henemy hmem
    · simp only [hactive, Bool.false_eq_true, if_false, reduceCtorEq, Option.some.injEq, false_iff]
      rintro ⟨rfl, htrue, -⟩
      exact hactive htrue

theorem current?_of_hunts {id : ShipId} (h : c.Hunts me id) :
    (current? c me).2 = c.inScene Scene.countEnemyQuery := by
  obtain ⟨htarget, hactive, -⟩ := h
  rw [current?, htarget]
  simp only [hactive, if_true]
  rfl

/-- An enemy is hunted, and it has been decided on less than the cooldown ago. -/
def Keeps (f : FindEnemy) (c : Context) (me : ShipState) : Prop :=
  (∃ id, c.Hunts me id) ∧ c.targetAge < f.cooldown

theorem keeps_iff :
    ((current? c me).1.isSome && decide ((current? c me).2.targetAge < f.cooldown)) = true ↔
      f.Keeps c me := by
  obtain ⟨tally, hcounted, -⟩ := current?_cases c me
  rw [Bool.and_eq_true, Option.isSome_iff_exists, decide_eq_true_iff, hcounted]
  exact and_congr (exists_congr fun id => current?_eq_some_iff) Iff.rfl

/-! ## Decisions -/

/-- What the status, the search and the context after an evaluation have to do with those before. -/
structure Decides (f : FindEnemy) (c : Context) (me : ShipState)
    (r : Status × FindEnemy × Context) : Prop where
  settled : r.1 ≠ .running
  success : r.1 = .success ↔ ∃ id, r.2.2.Hunts me id
  failure : r.1 = .failure ↔ r.2.2.memory.target = none
  /-- Nothing is drawn, and nothing changes but for the count of the scene's searches. -/
  kept : f.Keeps c me → r = (.success, f, c.inScene Scene.countEnemyQuery)
  taken : ¬f.Keeps c me → ∀ other, f.Eligible c me other → ∃ enemy, f.Nearest c me enemy ∧
    r.2.2.memory.target = some enemy.id ∧ r.2.2.memory.targetTime = c.memory.time
  retained : ¬f.Keeps c me → (∀ other, ¬f.Eligible c me other) → ∀ id, c.Hunts me id →
    r.2.2.memory.target = some id ∧ r.2.2.memory.targetTime = c.memory.time
  cleared : (∀ other, ¬f.Eligible c me other) → (∀ id, ¬c.Hunts me id) →
    r.2.2.memory.target = none

/-- An enemy that is hunted is given up for another one only. -/
theorem Decides.hunts {r : Status × FindEnemy × Context} (h : f.Decides c me r) {id : ShipId}
    (hid : c.Hunts me id) : ∃ id, r.2.2.Hunts me id := by
  have htarget : r.2.2.memory.target ≠ none := by
    intro hnone
    by_cases hkeeps : f.Keeps c me
    · rw [h.kept hkeeps] at hnone
      exact nomatch hid.1.symm.trans hnone
    · by_cases hsome : ∃ other, f.Eligible c me other
      · obtain ⟨other, hother⟩ := hsome
        obtain ⟨enemy, -, henemy, -⟩ := h.taken hkeeps other hother
        exact nomatch henemy.symm.trans hnone
      · have hretained := h.retained hkeeps (fun other hother => hsome ⟨other, hother⟩) id hid
        exact nomatch hretained.1.symm.trans hnone
  cases hstatus : r.1 with
  | success => exact h.success.mp hstatus
  | failure => exact absurd (h.failure.mp hstatus) htarget
  | running => exact absurd hstatus h.settled

/-- After a search the target is either an active enemy or none, and the status says which. -/
theorem status_of_searched (me : ShipState) {s : Status} {c' : Context} (hc' : c.Searched c')
    (hstatus : s = if c'.memory.target.isSome then .success else .failure)
    (henemy : ∀ id, c'.memory.target = some id →
      c.scene.isActive id = true ∧ id ∈ c.scene.enemiesOf me.id) :
    s ≠ .running ∧ (s = .success ↔ ∃ id, c'.Hunts me id) ∧
      (s = .failure ↔ c'.memory.target = none) := by
  obtain ⟨tally, dice, target, time, -, rfl⟩ := hc'
  rw [hstatus]
  cases target with
  | none =>
    refine ⟨nofun, ⟨nofun, ?_⟩, fun _ => rfl, fun _ => rfl⟩
    rintro ⟨id, hid, -⟩
    cases hid
  | some id => exact ⟨nofun, ⟨fun _ => ⟨id, rfl, henemy id rfl⟩, fun _ => rfl⟩, nofun, nofun⟩

theorem decides_of_keeps (hkeeps : f.Keeps c me) :
    f.Decides c me (.success, f, c.inScene Scene.countEnemyQuery) := by
  obtain ⟨⟨id, hid⟩, hage⟩ := hkeeps
  have hc' : c.Searched (c.inScene Scene.countEnemyQuery) := ⟨_, _, _, _, .inl rfl, rfl⟩
  have hstatus : Status.success = if c.memory.target.isSome then .success else .failure := by
    rw [hid.1]
    rfl
  obtain ⟨hsettled, hsuccess, hfailure⟩ := status_of_searched me hc' hstatus fun other hother => by
    obtain rfl : id = other := Option.some.inj (hid.1.symm.trans hother)
    exact hid.2
  exact
    { settled := hsettled
      success := hsuccess
      failure := hfailure
      kept := fun _ => rfl
      taken := fun hdue => absurd ⟨⟨id, hid⟩, hage⟩ hdue
      retained := fun hdue => absurd ⟨⟨id, hid⟩, hage⟩ hdue
      cleared := fun _ hno => absurd hid (hno id) }

theorem decides_of_nearest {s : Status} {next : FindEnemy} {c' : Context}
    (hscene : c.scene.Orderly) (hkeeps : ¬f.Keeps c me) (henemy : f.Nearest c me enemy)
    (hc' : c.Searched c') (hs : s = .success) (htarget : c'.memory.target = some enemy.id)
    (htime : c'.memory.targetTime = c.memory.time) : f.Decides c me (s, next, c') := by
  have hfoe := henemy.eligible.foe
  have hstatus : s = if c'.memory.target.isSome then .success else .failure := by
    rw [hs, htarget]
    rfl
  obtain ⟨hsettled, hsuccess, hfailure⟩ := status_of_searched me hc' hstatus fun id hid => by
    obtain rfl : enemy.id = id := Option.some.inj (htarget.symm.trans hid)
    exact ⟨hfoe.1, hscene.mem_enemiesOf_iff.mpr hfoe⟩
  exact
    { settled := hsettled
      success := hsuccess
      failure := hfailure
      kept := fun h => absurd h hkeeps
      taken := fun _ _ _ => ⟨enemy, henemy, htarget, htime⟩
      retained := fun _ hnone => absurd henemy.eligible (hnone enemy)
      cleared := fun hnone => absurd henemy.eligible (hnone enemy) }

theorem decides_of_none {s : Status} {next : FindEnemy} {c' : Context} {current : Option ShipId}
    (hkeeps : ¬f.Keeps c me) (hnone : ∀ other, ¬f.Eligible c me other)
    (hcurrent : ∀ id, current = some id ↔ c.Hunts me id) (hc' : c.Searched c')
    (hs : s = if current.isSome then .success else .failure) (htarget : c'.memory.target = current)
    (htime : current.isSome = true → c'.memory.targetTime = c.memory.time) :
    f.Decides c me (s, next, c') := by
  have hstatus : s = if c'.memory.target.isSome then .success else .failure := by
    rw [hs, htarget]
  obtain ⟨hsettled, hsuccess, hfailure⟩ := status_of_searched me hc' hstatus fun id hid =>
    ((hcurrent id).mp (htarget.symm.trans hid)).2
  refine
    { settled := hsettled
      success := hsuccess
      failure := hfailure
      kept := fun h => absurd h hkeeps
      taken := fun _ other hother => absurd hother (hnone other)
      retained := fun _ _ id hid => ?_
      cleared := fun _ hno => ?_ }
  · have hid := (hcurrent id).mpr hid
    exact ⟨htarget.trans hid, htime (Option.isSome_of_eq_some hid)⟩
  · rw [htarget]
    exact Option.eq_none_iff_forall_ne_some.mpr fun id hid => hno id ((hcurrent id).mp hid)

theorem tick_yields (f : FindEnemy) (hscene : c.scene.Orderly) (hown : c.own? = some me) :
    Yields
      (fun e => e = .rangeOverflow ∧ ¬f.Keeps c me ∧ ¬Drawable f.minCooldown f.maxCooldown)
      (f.Decides c me) (f.tick c) := by
  obtain ⟨tally, hcounted, -⟩ := current?_cases c me
  have hcurrent := fun id => @current?_eq_some_iff c me id
  have hquery := fun id => @current?_of_hunts c me id
  have hkeeps := @keeps_iff f c me
  rw [tick, hown]
  dsimp only
  generalize current? c me = asked at hcounted hcurrent hquery hkeeps ⊢
  obtain ⟨current, asked⟩ := asked
  dsimp only at hcounted hcurrent hquery hkeeps ⊢
  split
  · rename_i hkeep
    obtain ⟨⟨id, hid⟩, hage⟩ := hkeeps.mp hkeep
    rw [hquery id hid]
    exact decides_of_keeps ⟨⟨id, hid⟩, hage⟩
  · rename_i hkeep
    have hdue : ¬f.Keeps c me := fun h => hkeep (hkeeps.mpr h)
    subst hcounted
    have hdraw := (Context.randomRange_yields
      { c with scene := { c.scene with tally := tally } } f.minCooldown f.maxCooldown).weaken
      fun e he => And.intro he.1 (And.intro hdue he.2)
    refine hdraw.bind ?_
    rintro ⟨cooldown, c'⟩ ⟨dice, hdice, rfl⟩
    dsimp only
    -- what is found does not depend on the tally, the dice and the cooldown
    split
    · rename_i enemy hfound
      have henemy : f.Nearest c me enemy := nearest_of_eq_some hscene hfound
      exact decides_of_nearest hscene hdue henemy ⟨_, _, _, _, hdice, rfl⟩ rfl rfl rfl
    · rename_i hfound
      have hnone : ∀ other, ¬f.Eligible c me other := not_eligible_of_eq_none hscene hfound
      cases current with
      | some id =>
        exact decides_of_none hdue hnone hcurrent ⟨_, _, _, _, hdice, rfl⟩ rfl rfl fun _ => rfl
      | none =>
        have hidle : (none : Option ShipId).isSome ≠ true := Bool.false_ne_true
        simp only [Option.isSome_none, Bool.false_eq_true, if_false]
        split
        · exact decides_of_none hdue hnone hcurrent ⟨_, _, _, _, hdice, rfl⟩ rfl rfl
            fun h => absurd h hidle
        · rename_i htarget
          have htarget : c.memory.target = none := Option.not_isSome_iff_eq_none.mp htarget
          exact decides_of_none hdue hnone hcurrent ⟨_, _, _, _, hdice, rfl⟩ rfl htarget
            fun h => absurd h hidle

theorem tick_of_wide (hown : c.own? = some me) (hdue : ¬f.Keeps c me)
    (hwide : ¬Drawable f.minCooldown f.maxCooldown) : f.tick c = .error .rangeOverflow := by
  have hkeep := Bool.eq_false_iff.mpr fun h => hdue (keeps_iff.mp h)
  have hdraw : (current? c me).2.randomRange f.minCooldown f.maxCooldown =
      .error .rangeOverflow := Dice.inRange_of_not_drawable _ hwide
  rw [tick, hown]
  dsimp only
  rw [hkeep, hdraw]
  rfl

/-- In a scene whose ships are in order, an evaluation is abandoned only if a cooldown has to be
drawn from too wide a range, and decides on the target otherwise. -/
theorem tick_decides (f : FindEnemy) (c : Context) (me : ShipState) (hscene : c.scene.Orderly)
    (hown : c.own? = some me) :
    (f.Keeps c me ∨ Drawable f.minCooldown f.maxCooldown →
        ∃ r, f.tick c = .ok r ∧ f.Decides c me r) ∧
      (¬f.Keeps c me → ¬Drawable f.minCooldown f.maxCooldown →
        f.tick c = .error .rangeOverflow) := by
  refine ⟨fun h => ?_, tick_of_wide hown⟩
  refine yields_false_iff.mp ((f.tick_yields hscene hown).weaken ?_)
  rintro e ⟨-, hdue, hwide⟩
  exact h.elim hdue hwide

/-- A ship between two enemies at the same gap, with a ship of its own side nearer by. -/
def skirmish : Scene :=
  let allies := (({} : Scene).addShip (.create ⟨1⟩ .zero) 0).addShip (.create ⟨4⟩ ⟨2, 0⟩) 0
  (allies.addShip (.create ⟨3⟩ ⟨0, 5⟩) 1).addShip (.create ⟨2⟩ ⟨5, 0⟩) 2

/-- The ship of `skirmish` before it has acted. -/
def recruit : Context := .create ⟨1⟩ {} skirmish (Dice.forShip 0 1 .runtime)

theorem orderly_skirmish : skirmish.Orderly := ⟨by decide, by decide⟩

/-- Of two enemies at the same gap, the one with the smaller number is taken. -/
theorem tick_decides_skirmish :
    recruit.scene.Orderly ∧ recruit.own? = some (.create ⟨1⟩ .zero) ∧
      ∃ r, (create 1 2 false false none).tick recruit = .ok r ∧
        (create 1 2 false false none).Decides recruit (.create ⟨1⟩ .zero) r ∧
        r.2.2.memory.target = some ⟨2⟩ := by
  have hdrawable : Drawable (create 1 2 false false none).minCooldown
      (create 1 2 false false none).maxCooldown := by decide +kernel
  obtain ⟨r, hr, hdecides⟩ := (tick_decides (create 1 2 false false none) recruit _
    orderly_skirmish rfl).1 (.inr hdrawable)
  obtain ⟨r', hr', htarget⟩ : ∃ r, (create 1 2 false false none).tick recruit = .ok r ∧
      r.2.2.memory.target = some ⟨2⟩ := yields_false_iff.mp (by decide +kernel)
  obtain rfl : r = r' := Except.ok.inj (hr.symm.trans hr')
  exact ⟨orderly_skirmish, rfl, r, hr, hdecides, htarget⟩

/-- Two cooldowns whose distance is finite may still be too far apart. -/
theorem tick_widest :
    let search := create 0 3.4028235e38 false false none
    search.minCooldown.isFinite = true ∧ search.maxCooldown.isFinite = true ∧
      (search.maxCooldown - search.minCooldown).isFinite = true ∧ recruit.scene.Orderly ∧
      recruit.own? = some (.create ⟨1⟩ .zero) ∧ search.tick recruit = .error .rangeOverflow := by
  intro search
  have hwide : ¬Drawable search.minCooldown search.maxCooldown := by decide +kernel
  have hdue : ¬search.Keeps recruit (.create ⟨1⟩ .zero) := by
    rintro ⟨⟨id, htarget, -⟩, -⟩
    cases htarget
  exact ⟨by decide +kernel, by decide +kernel, by decide +kernel, orderly_skirmish, rfl,
    tick_of_wide rfl hdue hwide⟩

end FindEnemy

end Helm
