import Helm.Proofs.Pilot.Effect
import Helm.Proofs.Pilot.Recall
import Helm.Proofs.World.Scene

/-!
# Helm.Proofs.Pilot.Aim

An attack over the ticks it goes through. Failures leave no trace, and the successes fall into
streaks on the same target (`Attack.streak`). What the attack remembers is the error of aim and the
time of the first turn of the streak that is on (`Attack.Recalls`): the error is drawn there, once,
and the reaction time counts from there. `Attack.attack_turns` says what the next tick does after
any history.
-/

namespace Helm

/-- The number of the ship that the turn was about. -/
def Turn.target? (turn : Turn) : Option ShipId := turn.context.duel?.map (·.2.id)

namespace Attack

variable {level : Level} {past : List Turn} {a : Attack} {c c' : Context} {me target : ShipState}
  {id other : ShipId} {status : Status}

/-! ## Streaks -/

/-- Where ships are found under their own numbers, the number is that of the target. -/
theorem target_of_duel? (hscene : c.scene.Faithful) (h : c.duel? = some (me, target)) :
    c.memory.target = some target.id := by
  simp only [Context.duel?, Option.bind_eq_bind, Option.bind_eq_some_iff] at h
  obtain ⟨me', -, target', htarget, hpair⟩ := h
  cases hpair
  obtain ⟨id, hid, hship⟩ := Option.bind_eq_some_iff.mp htarget
  rw [hid, hscene.found id target (Scene.ship?_of_activeShip? hship).2]

/-- The latest successes as far back as they are on the target. -/
def streak (id : ShipId) (past : List Turn) : List Turn :=
  (past.filter (·.status = .success)).takeWhile (·.target? = some id)

/-- Where the streak on the target begins that a success in this context belongs to. -/
def outset (id : ShipId) (past : List Turn) (c : Context) : Context :=
  match (streak id past).getLast? with
  | none => c
  | some first => first.context

theorem streak_of_failure (h : status ≠ .success) :
    streak id (⟨c, status⟩ :: past) = streak id past := by
  simp [streak, h]

theorem streak_of_success (h : c.duel? = some (me, target)) :
    streak target.id (⟨c, .success⟩ :: past) =
      ⟨c, .success⟩ :: streak target.id past := by
  simp [streak, Turn.target?, h]

theorem streak_of_other (h : c.duel? = some (me, target)) (hid : id ≠ target.id) :
    streak id (⟨c, .success⟩ :: past) = [] := by
  simp [streak, Turn.target?, h, hid.symm]

/-- A streak that goes on begins where it began. -/
theorem outset_of_success (h : c.duel? = some (me, target)) (next : Context) :
    outset target.id (⟨c, .success⟩ :: past) next = outset target.id past c := by
  rw [outset, outset, streak_of_success h, List.getLast?_cons]
  cases (streak target.id past).getLast? <;> rfl

/-! ## The aim that is remembered -/

/-- The error of aim was drawn at the outset. -/
def Drawn (level : Level) (outset : Context) (offset : Float32) (drawn : Context) : Prop :=
  outset.randomRange (-level.aimError) level.aimError = .ok (offset, drawn)

/-- What an attack keeps of the history. -/
structure Recalls (level : Level) (past : List Turn) (a : Attack) : Prop where
  unaimed : ∀ id, streak id past = [] → a.aimAt? id = none
  aimed : ∀ id, streak id past ≠ [] → ∀ c, ∃ offset drawn,
    a.aimAt? id = some ⟨id, offset, (outset id past c).memory.time⟩ ∧
      Drawn level (outset id past c) offset drawn
  level : a.level = level

theorem Recalls.create (level : Level) : Recalls level [] ⟨level, none⟩ :=
  ⟨fun _ _ => rfl, fun _ h => absurd rfl h, rfl⟩

theorem exists_drawn (level : Level) (c : Context) :
    ∃ offset drawn, Drawn level c offset drawn ∧
      drawn = c.remember fun m => { m with dice := drawn.memory.dice } := by
  have hdraw := (Context.randomRange_yields c (-level.aimError) level.aimError).weaken
    fun _ h => h.2 (drawable_aimError level)
  obtain ⟨⟨offset, drawn⟩, hdrawn, dice, -, rfl⟩ := yields_false_iff.mp hdraw
  exact ⟨offset, _, hdrawn, rfl⟩

/-- The aim is that of the streak, and only its first turn draws. -/
theorem Recalls.takeAim (h : Recalls level past a) (c : Context) (id : ShipId) :
    ∃ offset drawn, Drawn level (outset id past c) offset drawn ∧
      a.takeAim c id = .ok (⟨id, offset, (outset id past c).memory.time⟩,
        c.remember fun m => { m with
          dice := if streak id past = [] then drawn.memory.dice else c.memory.dice }) := by
  rw [Attack.takeAim, h.level]
  by_cases hfirst : streak id past = []
  · obtain ⟨offset, drawn, hdrawn, hdice⟩ := exists_drawn level c
    have houtset : outset id past c = c := by
      rw [outset, hfirst]
      rfl
    have hcall : c.randomRange (-level.aimError) level.aimError = .ok (offset, drawn) := hdrawn
    rw [houtset, h.unaimed id hfirst]
    refine ⟨offset, drawn, hdrawn, ?_⟩
    dsimp only
    rw [hcall, if_pos hfirst, ← hdice]
    rfl
  · obtain ⟨offset, drawn, haim, hdrawn⟩ := h.aimed id hfirst c
    rw [haim]
    refine ⟨offset, drawn, hdrawn, ?_⟩
    rw [if_neg hfirst]
    rfl

/-- An aim that has just been taken stands for the streak that is on. -/
theorem Recalls.strike (h : Recalls level past a) (hduel : c.duel? = some (me, target))
    {offset : Float32} {drawn : Context}
    (hdrawn : Drawn level (outset target.id past c) offset drawn) :
    Recalls level (⟨c, .success⟩ :: past)
      { a with aim := some ⟨target.id, offset, (outset target.id past c).memory.time⟩ } := by
  refine ⟨fun id hnone => ?_, fun id hsome next => ?_, h.level⟩
  · by_cases hid : id = target.id
    · rw [hid, streak_of_success hduel] at hnone
      cases hnone
    · simp [aimAt?, Ne.symm hid]
  · by_cases hid : id = target.id
    · rw [hid, outset_of_success hduel]
      exact ⟨offset, drawn, by simp [aimAt?], hdrawn⟩
    · exact absurd (streak_of_other hduel hid) hsome

theorem Recalls.failure (h : Recalls level past a) :
    Recalls level (⟨c, .failure⟩ :: past) a := by
  have hstreak : ∀ id, streak id (⟨c, .failure⟩ :: past) = streak id past :=
    fun id => streak_of_failure nofun
  have houtset : ∀ id, outset id (⟨c, .failure⟩ :: past) = outset id past := by
    intro id
    funext next
    rw [outset, outset, hstreak]
  refine ⟨fun id => ?_, fun id => ?_, h.level⟩
  · rw [hstreak]
    exact h.unaimed id
  · rw [hstreak, houtset]
    exact h.aimed id

/-! ## One tick -/

/-- There is a target, and one of the selected weapons reaches it. -/
def Engages (c : Context) (me target : ShipState) : Prop :=
  c.duel? = some (me, target) ∧ ∃ weapon ∈ c.weapons.weapons, me.gapTo target ≤ weapon.range

/-- The course to where shots of the weapons that reach the target would meet it. -/
def leadCourse (c : Context) (me target : ShipState) : Float32 :=
  let reach := reaching c (me.gapTo target)
  headingTo me.position (leadPoint me target reach.projectileSpeed?)

/-- A selected weapon reaches the target, and the ship is turned to it well enough. -/
def Bears (level : Level) (c : Context) (me target : ShipState) (course : Float32)
    (weapon : Weapon) : Prop :=
  weapon ∈ c.weapons.weapons ∧ me.gapTo target ≤ weapon.range ∧
    (fullArc ≤ weapon.firingArc ∨
      (deltaAngle me.rotation course).abs ≤ weapon.firingArc / 2 + level.fireTolerance)

/-- What a success does after the given turns. -/
structure Strikes (level : Level) (past : List Turn) (c : Context) (me target : ShipState)
    (c' : Context) (offset : Float32) (drawn : Context) : Prop where
  aimed : Drawn level (outset target.id past c) offset drawn
  course : c'.memory.controls.course = some (leadCourse c me target + offset)
  firing : ∀ slot, c'.memory.controls.firing.contains slot = true ↔
    c.memory.controls.firing.contains slot = true ∨
      ¬c.memory.time - (outset target.id past c).memory.time < level.reactionTime ∧
        ∃ weapon, Bears level c me target (leadCourse c me target + offset) weapon ∧
          weapon.slot = slot
  /-- Nothing is drawn unless the streak begins here, and nothing but the controls changes else. -/
  rest : ∃ controls, c' = c.remember fun m => { m with
    dice := if streak target.id past = [] then drawn.memory.dice else c.memory.dice
    controls := controls }

theorem tick_of_idle (a : Attack) (h : ∀ me target, ¬Engages c me target) :
    a.tick c = .ok (.failure, a, c) := by
  rw [tick]
  split
  · rfl
  · rename_i me target hduel
    have hnone : (reaching c (me.gapTo target)).isEmpty = true := by
      have hfar := h me target
      simp only [Engages, hduel, true_and, not_exists, not_and] at hfar
      simpa [Arsenal.isEmpty, reaching, Arsenal.filter] using hfar
    rw [if_pos hnone]

theorem isEmpty_reaching (h : Engages c me target) :
    (reaching c (me.gapTo target)).isEmpty = false := by
  obtain ⟨-, weapon, hmem, hreach⟩ := h
  refine List.isEmpty_eq_false_iff.mpr (List.ne_nil_of_mem (List.mem_filter.mpr ⟨hmem, ?_⟩))
  exact decide_eq_true hreach

/-- The weapons that are ready to fire are those that bear. -/
theorem mem_ready_iff {course : Float32} {slot : Nat} :
    slot ∈ ((reaching c (me.gapTo target)).filter
        (mayFire level (deltaAngle me.rotation course).abs)).slots ↔
      ∃ weapon, Bears level c me target course weapon ∧ weapon.slot = slot := by
  simp [Arsenal.slots, Arsenal.filter, reaching, mayFire, Bears, and_assoc, and_left_comm]

theorem Recalls.tick (h : Recalls level past a) (hc : Engages c me target) :
    ∃ offset drawn c', Strikes level past c me target c' offset drawn ∧
      a.tick c = .ok (.success,
        { a with aim := some ⟨target.id, offset, (outset target.id past c).memory.time⟩ }, c') := by
  obtain ⟨offset, drawn, hdrawn, haim⟩ := h.takeAim c target.id
  rw [Attack.tick, hc.1]
  dsimp only
  rw [isEmpty_reaching hc, if_neg Bool.false_ne_true, haim, ok_bind]
  dsimp only
  rw [h.level]
  by_cases hready : c.memory.time - (outset target.id past c).memory.time < level.reactionTime
  · refine ⟨offset, drawn, _, ⟨hdrawn, ?_, fun slot => ?_, ?_⟩, if_pos hready⟩
    · rfl
    · simp only [hready, not_true_eq_false, false_and, or_false]
      rfl
    · exact ⟨_, rfl⟩
  · refine ⟨offset, drawn, _, ⟨hdrawn, ?_, fun slot => ?_, ?_⟩, if_neg hready⟩
    · exact Controls.course_fireAll _ _
    · simp only [hready, not_false_eq_true, true_and]
      exact Controls.contains_fireAll.trans ((or_congr_left mem_ready_iff).trans or_comm)
    · exact ⟨_, rfl⟩

/-! ## Any number of ticks -/

theorem recalls_of_ran {l : Leaf} (h : Leaf.Ran (.attack ⟨level, none⟩) past l) :
    ∃ a, l = .attack a ∧ Recalls level past a := by
  induction h with
  | fresh => exact ⟨_, rfl, .create level⟩
  | @turn past l next c c' status _ htick ih =>
    obtain ⟨a, rfl, hrecalls⟩ := ih
    rw [Leaf.tick] at htick
    -- the context alone decides whether the turn fails, and a failure is not part of any streak
    by_cases hc : ∃ me target, Engages c me target
    · obtain ⟨me, target, hc⟩ := hc
      obtain ⟨offset, drawn, after, hstrikes, heq⟩ := hrecalls.tick hc
      rw [heq] at htick
      cases htick
      exact ⟨_, rfl, hrecalls.strike hc.1 hstrikes.aimed⟩
    · simp only [not_exists] at hc
      rw [tick_of_idle a hc] at htick
      cases htick
      exact ⟨a, rfl, hrecalls.failure⟩

/-- After any history a tick fails and changes nothing, or succeeds, which it does when there is a
target that one of the selected weapons reaches. Then the ship turns to where it has to aim, but for
the error drawn at the outset of the streak, and fires the weapons that bear once the reaction time
has passed since then. -/
theorem attack_turns (level : Level) {past : List Turn} {l : Leaf}
    (h : Leaf.Ran (.attack ⟨level, none⟩) past l) (c : Context) :
    ∃ status next c', l.tick c = .ok (status, next, c') ∧
      status ≠ .running ∧
      (status = .failure → next = l ∧ c' = c) ∧
      (status = .success ↔ ∃ me target, Engages c me target) ∧
      ∀ me target, Engages c me target →
        (c.scene.Faithful → c.memory.target = some target.id) ∧
          ∃ offset drawn, Strikes level past c me target c' offset drawn := by
  obtain ⟨a, rfl, hrecalls⟩ := recalls_of_ran h
  by_cases hc : ∃ me target, Engages c me target
  · obtain ⟨me, target, hengages⟩ := hc
    obtain ⟨offset, drawn, c', hstrikes, htick⟩ := hrecalls.tick hengages
    obtain ⟨next, hleaf⟩ : ∃ next, (Leaf.attack a).tick c = .ok (.success, next, c') := by
      rw [Leaf.tick, htick]
      exact ⟨_, rfl⟩
    refine ⟨.success, next, c', hleaf, by simp, by simp, ?_, ?_⟩
    · exact ⟨fun _ => ⟨me, target, hengages⟩, fun _ => rfl⟩
    · intro me' target' hengages'
      cases hengages.1.symm.trans hengages'.1
      exact ⟨fun hscene => target_of_duel? hscene hengages.1, offset, drawn, hstrikes⟩
  · have hidle := hc
    simp only [not_exists] at hidle
    refine ⟨.failure, .attack a, c, ?_, by simp, fun _ => ⟨rfl, rfl⟩, by simp [hc], ?_⟩
    · rw [Leaf.tick, tick_of_idle a hidle]
      rfl
    · intro me target hengages
      exact absurd hengages (hidle me target)

/-- A ship with a turret, and an enemy within its range. -/
def standoff : Context :=
  let scene := (({} : Scene).addShip (.create ⟨1⟩ .zero) 0).addShip (.create ⟨2⟩ ⟨5, 0⟩) 1
  let turret : Weapon := ⟨0, .beam, 10, 0, 360, 0⟩
  .create ⟨1⟩ { weapons := [turret] } scene (Dice.forShip 0 1 .runtime)

/-- The turret fires a second after the enemy was first aimed at, and nothing is drawn then, though
in between there was no target. -/
theorem attack_turns_standoff :
    let first := standoff.setTarget (some ⟨2⟩)
    let idle := standoff.advance 0.5
    let second := first.advance 1
    ∃ l next c',
      Leaf.Ran (.attack ⟨.easy, none⟩) [⟨idle, .failure⟩, ⟨first, .success⟩] l ∧
        l.tick second = .ok (.success, next, c') ∧
        c'.memory.controls.firing.contains 0 = true ∧ c'.memory.dice = second.memory.dice := by
  intro first idle second
  let me : ShipState := .create ⟨1⟩ .zero
  let target : ShipState := .create ⟨2⟩ ⟨5, 0⟩
  have hfirst : Engages first me target := ⟨rfl, by decide +kernel⟩
  have hsecond : Engages second me target := ⟨rfl, by decide +kernel⟩
  have hidle : ¬∃ me target, Engages idle me target := by
    rintro ⟨me, target, hduel, -⟩
    cases hduel
  obtain ⟨status, l, c₁, htick, -, -, hstatus, -⟩ := attack_turns .easy .fresh first
  obtain rfl := hstatus.mpr ⟨me, target, hfirst⟩
  have hran := Leaf.Ran.turn .fresh htick
  obtain ⟨status, l', c₂, htick, hrunning, -, hstatus, -⟩ := attack_turns .easy hran idle
  obtain rfl : status = .failure := by
    cases status with
    | success => exact absurd (hstatus.mp rfl) hidle
    | failure => rfl
    | running => exact absurd rfl hrunning
  have hran := hran.turn htick
  obtain ⟨status, next, c', htick, -, -, hstatus, hstrikes⟩ := attack_turns .easy hran second
  obtain rfl := hstatus.mpr ⟨me, target, hsecond⟩
  obtain ⟨-, offset, drawn, hstrikes⟩ := hstrikes me target hsecond
  have hready : ¬second.memory.time - first.memory.time < Level.easy.reactionTime := by
    decide +kernel
  have hbears : Bears .easy second me target (leadCourse second me target + offset)
      ⟨0, .beam, 10, 0, 360, 0⟩ := ⟨by decide, by decide +kernel, .inl (by decide)⟩
  have hfires : c'.memory.controls.firing.contains 0 = true :=
    (hstrikes.firing 0).mpr (.inr ⟨hready, _, hbears, rfl⟩)
  obtain ⟨controls, hc'⟩ := hstrikes.rest
  refine ⟨l', next, c', hran, htick, hfires, ?_⟩
  rw [hc']
  rfl

end Attack

end Helm
