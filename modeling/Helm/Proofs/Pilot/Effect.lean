import Helm.Pilot.Leaf
import Helm.Proofs.Random.Range

/-!
# Helm.Proofs.Pilot.Effect

What one evaluation of a leaf may do to the context, stated once for all leaves. A leaf that fails
leaves the context as it was, but for a search that finds nothing and a recharge that comes to its
end (`Leaf.AfterFailure`). Otherwise the change is one of those that `Leaf.Acts` lists, each with
the leaves that make it. `Leaf.tick_effect` is the inversion of a leaf's evaluation: what is kept by
every entry of that list is kept by every leaf. The leaf itself changes only in what it keeps in
mind (`Leaf.Continues`), and only a search can be abandoned (`Leaf.Overflow`).
-/

namespace Helm

/-- The context after a search for an enemy: the searches of the scene are counted, a word may have
been drawn, and the target may have been decided on. -/
def Context.Searched (c c' : Context) : Prop :=
  ∃ tally dice target targetTime, (dice = c.memory.dice ∨ dice = c.memory.dice.next.2) ∧
    c' = { scene := { c.scene with tally := tally }
           memory := { c.memory with dice := dice, target := target, targetTime := targetTime } }

/-- The target and its time are as they were, or the target has just been given up. -/
def Context.KeptOrCleared (c c' : Context) : Prop :=
  c'.memory.target = c.memory.target ∧ c'.memory.targetTime = c.memory.targetTime ∨
    c.memory.target.isSome = true ∧ c'.memory.target = none ∧ c'.memory.targetTime = c.memory.time

/-- The target is an active enemy of the ship. -/
def Context.Pursues (c : Context) (target : Option ShipId) : Prop :=
  ∃ me id enemy, c.own? = some me ∧ id ∈ c.scene.enemiesOf me.id ∧
    c.scene.activeShip? id = some enemy ∧ (target = some id ∨ target = some enemy.id)

namespace Leaf

/-- What is left of a context in which a leaf has failed. -/
def AfterFailure (c : Context) : Leaf → Context → Prop
  | findEnemy _, c' => c.Searched c' ∧ c.KeptOrCleared c'
  | action (.rechargeEnergy _ _), c' =>
    c' = c ∨ c.memory.restoringEnergy = true ∧ c' = c.setRestoringEnergy false
  | _, c' => c' = c

/-- What a leaf that has not failed may have done. -/
inductive Acts (c : Context) : Leaf → Context → Prop where
  | nothing (l : Leaf) : Acts c l c
  | steer (l : Leaf) (course : Float32) {thrust : Float32} (hthrust : thrust = 1 ∨ thrust = 0.5) :
      Acts c l (c.command (·.steer course thrust))
  | turn (l : Leaf) (course : Float32) :
      Acts c l (c.command fun controls => { controls with course := some course })
  | halt : Acts c (.action .stop) (c.command fun controls => { controls with thrust := 0 })
  | search (f : FindEnemy) {c' : Context} (h : c.Searched c')
      (htarget : c.Pursues c'.memory.target) : Acts c (.findEnemy f) c'
  /-- A drone takes its mothership as the target. -/
  | adopt {me owner : ShipState} (hown : c.own? = some me) (hdrone : me.isDrone = true)
      (howner : c.mothership? = some owner) :
      Acts c (.action .targetMothership) (c.setTarget (some owner.id))
  | renewTargets (cooldown : Float32) :
      Acts c (.action (.lookForSecondaryTargets cooldown)) (c.renewSecondaryTargets cooldown)
  | renewThreats (cooldown : Float32) (lookout : Lookout) :
      Acts c (.action (.lookForThreats cooldown lookout)) (c.renewThreats lookout cooldown)
  | select (weapons : Arsenal) : Acts c (.action (.selectWeapon weapons)) (c.selectWeapons weapons)
  /-- An attack fires some of the selected weapons, or none. -/
  | attack (a : Attack) (dice : Dice) (course : Float32) {ready : Arsenal}
      (hready : ∀ weapon ∈ ready.weapons, weapon ∈ c.weapons.weapons) :
      Acts c (.attack a) ((c.remember fun m => { m with dice := dice }).command fun controls =>
        ready.slots.foldl Controls.fire { controls with course := some course })
  | charge (weapons : Arsenal) (gap : Float32) :
      Acts c (.action (.chargeWeapons weapons)) (c.command fun controls =>
        weapons.weapons.foldl (fun controls weapon =>
          if gap ≤ weapon.range then controls.fire weapon.slot
          else controls.charge weapon.slot) controls)
  | recoil (weapons : Arsenal) (course : Float32) :
      Acts c (.action (.useRecoil weapons)) (c.command fun controls =>
        weapons.slots.foldl Controls.fire { controls with course := some course })
  | ram (accelerators : List Nat) (course : Float32) :
      Acts c (.action (.ram accelerators)) (c.command fun controls =>
        accelerators.foldl Controls.activate (controls.steer course 1))
  | activate (slots : List Nat) :
      Acts c (.action (.activateDevice slots)) (c.command fun controls =>
        slots.foldl Controls.activate controls)
  | shield (slots : List Nat) (course : Float32) :
      Acts c (.action (.defendWithFrontalShield slots)) (c.command fun controls =>
        slots.foldl Controls.activate { controls with course := some course })
  | steerAmmo (point : Vec2 Float32) :
      Acts c (.action .trackControllableAmmo)
        (c.command fun controls => { controls with ammoTarget := some point })
  | launch : Acts c (.action .spawnDrones)
      (c.command fun controls => { controls with launchDrones := true })
  | detonate (inAttackRange : Bool) : Acts c (.action (.detonateShip inAttackRange))
      (c.command fun controls => { controls with selfDestruct := true })
  | vanish : Acts c (.action .vanish)
      (c.command fun controls => { controls with vanish := true })
  | restore (failIfLess restoreUntil : Float32) :
      Acts c (.action (.rechargeEnergy failIfLess restoreUntil)) (c.setRestoringEnergy true)
  | rage {me : ShipState} (hown : c.own? = some me) (hdrone : me.isDrone = true) :
      Acts c (.action .goBerserk) (c.setBerserk true)
  | post (a : Announcement) : Acts c (.showMessage a) (c.post a.text a.color)

/-- The status of a leaf and what it has done to the context. -/
inductive Effect (c : Context) (l : Leaf) : Status × Context → Prop where
  | fails {c' : Context} (h : l.AfterFailure c c') : Effect c l (.failure, c')
  | acts {s : Status} {c' : Context} (hs : s ≠ .failure) (h : l.Acts c c') : Effect c l (s, c')

/-- The second leaf is the first after some evaluations: its parameters are the same. -/
def Continues : Leaf → Leaf → Prop
  | findEnemy f, l => ∃ cooldown, l = findEnemy { f with cooldown := cooldown }
  | attack a, l => ∃ aim, l = attack { a with aim := aim }
  | wait w, l => ∃ lastCompletion lastFrame,
      l = wait { w with lastCompletion := lastCompletion, lastFrame := lastFrame }
  | showMessage a, l => ∃ shown, l = showMessage { a with shown := shown }
  | action a, l => l = action a

/-- What holds of all leaves with a state, whatever it is, goes on holding of a leaf. -/
theorem Continues.keeps {l next : Leaf} (hnext : l.Continues next) {P : Leaf → Prop} (hl : P l)
    (hsearch : ∀ f, P (findEnemy f)) (hattack : ∀ a, P (attack a)) (hwait : ∀ w, P (wait w))
    (hmessage : ∀ a, P (showMessage a)) : P next := by
  cases l with
  | findEnemy f => obtain ⟨cooldown, rfl⟩ := hnext; exact hsearch _
  | attack a => obtain ⟨aim, rfl⟩ := hnext; exact hattack _
  | wait w => obtain ⟨lastCompletion, lastFrame, rfl⟩ := hnext; exact hwait _
  | showMessage a => obtain ⟨shown, rfl⟩ := hnext; exact hmessage _
  | action a => cases hnext; exact hl

/-- Why evaluating a leaf may be abandoned: a search draws its cooldown from too wide a range. -/
def Overflow : Leaf → Fault → Prop
  | findEnemy f, e => e = .rangeOverflow ∧ ¬Drawable f.minCooldown f.maxCooldown
  | _, _ => False

theorem afterFailure_self (c : Context) (l : Leaf) : l.AfterFailure c c := by
  cases l with
  | findEnemy _ => exact ⟨⟨_, _, _, _, .inl rfl, rfl⟩, .inl ⟨rfl, rfl⟩⟩
  | action a =>
    cases a with
    | rechargeEnergy => exact .inl rfl
    | _ => rfl
  | _ => rfl

namespace Effect

/-- A leaf may leave the context alone whatever its status is. -/
theorem nothing (c : Context) (l : Leaf) (s : Status) : Effect c l (s, c) := by
  by_cases hs : s = .failure
  · rw [hs]
    exact .fails (afterFailure_self c l)
  · exact .acts hs (.nothing l)

theorem success {c c' : Context} {l : Leaf} (h : l.Acts c c') : Effect c l (.success, c') :=
  .acts nofun h

theorem running {c c' : Context} {l : Leaf} (h : l.Acts c c') : Effect c l (.running, c') :=
  .acts nofun h

/-- A leaf that needs the ship and its target fails without them. -/
theorem of_duel {c : Context} {l : Leaf} {act : ShipState → ShipState → Status × Context}
    (h : ∀ me target, Effect c l (act me target)) :
    Effect c l (match c.duel? with
      | none => (.failure, c)
      | some (me, target) => act me target) := by
  split
  · exact .nothing ..
  · exact h _ _

end Effect

end Leaf

/-! ## Leaves with a state -/

section Stateful

variable (c : Context)

theorem Context.randomRange_yields (lo hi : Float32) :
    Yields (fun e => e = .rangeOverflow ∧ ¬Drawable lo hi)
      (fun r => ∃ dice, (dice = c.memory.dice ∨ dice = c.memory.dice.next.2) ∧
        r.2 = c.remember fun m => { m with dice := dice })
      (c.randomRange lo hi) := by
  refine (Dice.inRange_yields lo hi c).mono ?_
  rintro ⟨x, c'⟩ (hc' | hc')
  · exact ⟨_, .inl rfl, hc'⟩
  · exact ⟨_, .inr rfl, hc'⟩

/-- Asking for the present target is counted, and the answer is an active enemy. -/
theorem FindEnemy.current?_cases (me : ShipState) :
    ∃ tally, (current? c me).2 = { c with scene := { c.scene with tally := tally } } ∧
      ((current? c me).1 = none ∨ (current? c me).1 = c.memory.target ∧
        ∃ id enemy, c.memory.target = some id ∧ id ∈ c.scene.enemiesOf me.id ∧
          c.scene.activeShip? id = some enemy) := by
  rw [current?]
  split
  · rename_i id htarget
    split
    · rename_i hactive
      refine ⟨_, rfl, ?_⟩
      dsimp only
      split
      · rename_i henemy
        obtain ⟨enemy, hship⟩ := Scene.exists_activeShip? hactive
        exact .inr ⟨htarget.symm, id, enemy, htarget, by simpa using henemy, hship⟩
      · exact .inl rfl
    · exact ⟨_, rfl, .inl rfl⟩
  · exact ⟨_, rfl, .inl rfl⟩

/-- What a search finds is an active enemy. -/
theorem FindEnemy.nearest?_mem {f : FindEnemy} {me enemy : ShipState}
    (h : f.nearest? c me = some enemy) :
    ∃ id ∈ c.scene.enemiesOf me.id, c.scene.activeShip? id = some enemy :=
  List.mem_filterMap.mp (List.mem_filter.mp (mem_of_leastBy? h)).1

theorem FindEnemy.tick_effect (f : FindEnemy) :
    Yields (Leaf.findEnemy f).Overflow
      (fun r => Leaf.Effect c (.findEnemy f) (r.1, r.2.2) ∧
        ∃ cooldown, r.2.1 = { f with cooldown := cooldown })
      (f.tick c) := by
  rw [tick]
  split
  · exact ⟨.nothing c _ _, _, rfl⟩
  · rename_i me hown
    obtain ⟨tally, htally, hcurrent⟩ := current?_cases c me
    generalize current? c me = asked at htally hcurrent ⊢
    obtain ⟨current, asked⟩ := asked
    subst htally
    dsimp only at hcurrent ⊢
    have hkept : current.isSome = true → current = c.memory.target ∧ c.Pursues current := by
      intro hsome
      rcases hcurrent with hnone | ⟨hcurrent, id, enemy, htarget, henemy, hship⟩
      · rw [hnone] at hsome
        cases hsome
      · rw [htarget] at hcurrent
        exact ⟨hcurrent.trans htarget.symm, me, id, enemy, hown, henemy, hship, .inl hcurrent⟩
    split
    · rename_i hkeep
      obtain ⟨hcurrent, hpursues⟩ := hkept (Bool.and_eq_true_iff.mp hkeep).1
      exact ⟨.success (.search f ⟨_, _, _, _, .inl rfl, rfl⟩ (hcurrent ▸ hpursues)), _, rfl⟩
    · refine (Context.randomRange_yields _ _ _).bind ?_
      rintro ⟨cooldown, c'⟩ ⟨dice, hdice, rfl⟩
      dsimp only
      split
      · rename_i enemy hfound
        obtain ⟨id, henemy, hship⟩ := nearest?_mem _ hfound
        have hpursues : c.Pursues (some enemy.id) := ⟨me, id, enemy, hown, henemy, hship, .inr rfl⟩
        exact ⟨.success (.search f ⟨_, _, _, _, hdice, rfl⟩ hpursues), _, rfl⟩
      · split
        · rename_i hsome
          exact ⟨.success (.search f ⟨_, _, _, _, hdice, rfl⟩ (hkept hsome).2), _, rfl⟩
        · split
          · rename_i htarget
            refine ⟨.fails ⟨⟨_, _, _, _, hdice, rfl⟩, ?_⟩, _, rfl⟩
            exact .inr ⟨htarget, rfl, rfl⟩
          · refine ⟨.fails ⟨⟨_, _, _, _, hdice, rfl⟩, ?_⟩, _, rfl⟩
            exact .inl ⟨rfl, rfl⟩

/-- The errors of aim of all levels can be drawn. -/
theorem drawable_aimError (level : Level) : Drawable (-level.aimError) level.aimError := by
  cases level <;> decide +kernel

theorem Attack.takeAim_effect (a : Attack) (target : ShipId) :
    Yields (fun _ => False) (fun r => ∃ dice, r.2 = c.remember fun m => { m with dice := dice })
      (a.takeAim c target) := by
  rw [takeAim]
  split
  · exact ⟨_, rfl⟩
  · have hdraws := (Context.randomRange_yields c (-a.level.aimError) a.level.aimError).weaken
      fun _ h => h.2 (drawable_aimError a.level)
    refine hdraws.bind ?_
    rintro ⟨offset, c'⟩ ⟨dice, -, hc'⟩
    exact ⟨dice, hc'⟩

/-- An attack that does not fail turns the ship, and fires some of the selected weapons that reach
the target. -/
inductive Attack.Fires : Status × Context → Prop where
  | nothing : Fires (.failure, c)
  | volley {me target : ShipState} (dice : Dice) (course : Float32) {ready : Arsenal}
      (hduel : c.duel? = some (me, target))
      (hready : ∀ weapon ∈ ready.weapons,
        weapon ∈ c.weapons.weapons ∧ me.gapTo target ≤ weapon.range) :
      Fires (.success, (c.remember fun m => { m with dice := dice }).command fun controls =>
        ready.slots.foldl Controls.fire { controls with course := some course })

theorem Attack.tick_fires (a : Attack) :
    Yields (fun _ => False)
      (fun r => Attack.Fires c (r.1, r.2.2) ∧ ∃ aim, r.2.1 = { a with aim := aim })
      (a.tick c) := by
  rw [tick]
  split
  · exact ⟨.nothing, _, rfl⟩
  · rename_i me target hduel
    dsimp only
    split
    · exact ⟨.nothing, _, rfl⟩
    · refine (a.takeAim_effect c _).bind ?_
      rintro ⟨aim, c'⟩ ⟨dice, rfl⟩
      dsimp only
      split
      · have hnone : ∀ weapon ∈ (Arsenal.mk []).weapons,
            weapon ∈ c.weapons.weapons ∧ me.gapTo target ≤ weapon.range :=
          fun _ hmem => absurd hmem List.not_mem_nil
        exact ⟨.volley dice _ hduel hnone, _, rfl⟩
      · refine ⟨.volley dice _ hduel fun weapon hmem => ?_, _, rfl⟩
        obtain ⟨hselected, hreaches⟩ := List.mem_filter.mp (List.mem_filter.mp hmem).1
        exact ⟨hselected, of_decide_eq_true hreaches⟩

theorem Attack.tick_effect (a : Attack) :
    Yields (fun _ => False)
      (fun r => Leaf.Effect c (.attack a) (r.1, r.2.2) ∧ ∃ aim, r.2.1 = { a with aim := aim })
      (a.tick c) := by
  refine (a.tick_fires c).mono fun r hr => ⟨?_, hr.2⟩
  generalize (r.1, r.2.2) = after at hr
  cases hr.1 with
  | nothing => exact .nothing c _ _
  | volley dice course _ hready =>
    exact .success (.attack a dice course fun weapon hmem => (hready weapon hmem).1)

end Stateful

/-! ## Actions -/

/-- Circling steers towards the mothership, away from it, or across. -/
theorem Perform.flyAroundMothership_effect (radius : Float32) (c : Context) :
    Leaf.Effect c (.action (.flyAroundMothership radius)) (flyAroundMothership radius c) := by
  rw [flyAroundMothership]
  split
  · rename_i me owner _ _
    dsimp only
    -- which of the courses is taken does not depend on the controls
    by_cases hfar : (decide ((me.position - owner.position).length > radius * 1.2) ||
        decide ((me.position - owner.position).length ≤ Single.epsilon)) = true
    · simp only [hfar, if_true]
      exact .success (.steer _ _ (.inl rfl))
    · by_cases hnear : (me.position - owner.position).length < radius * 0.8
      · simp only [hfar, hnear, if_true]
        exact .success (.steer _ _ (.inr rfl))
      · simp only [hfar, hnear, if_false]
        exact .success (.steer _ _ (.inr rfl))
  · exact .nothing ..

theorem Action.perform_effect (a : Action) (c : Context) :
    Leaf.Effect c (.action a) (a.perform c) := by
  cases a with
  | targetMothership =>
    rw [perform, Perform.targetMothership]
    split
    · exact .nothing ..
    · rename_i me hown
      split
      · exact .nothing ..
      · rename_i hdrone
        split
        · rename_i owner howner
          exact .success (.adopt hown (by simpa using hdrone) howner)
        · exact .nothing ..
  | lookForSecondaryTargets cooldown => exact .success (.renewTargets cooldown)
  | lookForThreats cooldown lookout => exact .success (.renewThreats cooldown lookout)
  | moveToAttackRange =>
    refine .of_duel fun me target => ?_
    split
    · exact .nothing ..
    · exact .running (.steer _ _ (.inl rfl))
  | maintainAttackRange =>
    refine .of_duel fun me target => ?_
    dsimp only
    split
    · exact .running (.steer _ _ (.inl rfl))
    · split
      · exact .running (.steer _ _ (.inl rfl))
      · exact .nothing ..
  | isWithinAttackRange => exact .of_duel fun me target => .nothing ..
  | chase => exact .of_duel fun me target => .success (.steer _ _ (.inl rfl))
  | stop =>
    rw [perform, Perform.stop]
    split
    · exact .nothing ..
    · split
      · exact .success .halt
      · exact .running (.steer _ _ (.inl rfl))
  | lookAtTarget => exact .of_duel fun me target => .success (.turn _ _)
  | sustainAim => exact .of_duel fun me target => .success (.turn _ _)
  | flyAroundMothership radius => exact Perform.flyAroundMothership_effect radius c
  | avoidThreats =>
    rw [perform, Perform.avoidThreats]
    split
    · exact .success (.steer _ _ (.inl rfl))
    · exact .nothing ..
  | haveIncomingThreat => exact .nothing ..
  | selectWeapon weapons => exact .success (.select weapons)
  | chargeWeapons weapons => exact .of_duel fun me target => .success (.charge weapons _)
  | trackControllableAmmo =>
    rw [perform, Perform.trackControllableAmmo]
    split
    · exact .nothing ..
    · exact .success (.steerAmmo _)
  | useRecoil weapons =>
    refine .of_duel fun me target => ?_
    split
    · exact .nothing ..
    · exact .success (.recoil weapons _)
  | ram accelerators => exact .of_duel fun me target => .success (.ram accelerators _)
  | detonateShip inAttackRange =>
    rw [perform, Perform.detonateShip]
    split <;> split
    · exact .nothing ..
    · exact .success (.detonate inAttackRange)
    · exact .nothing ..
    · exact .success (.detonate inAttackRange)
  | haveEnoughEnergy =>
    rw [perform, Perform.haveEnoughEnergy]
    split
    · exact .nothing ..
    · split <;> exact .nothing ..
  | rechargeEnergy failIfLess restoreUntil =>
    rw [perform, Perform.rechargeEnergy]
    split
    · exact .nothing ..
    · split
      · rename_i hrestoring
        split
        · exact .fails (.inr ⟨hrestoring, rfl⟩)
        · exact .nothing ..
      · split
        · exact .running (.restore failIfLess restoreUntil)
        · exact .nothing ..
  | activateDevice slots => exact .success (.activate slots)
  | defendWithFrontalShield slots =>
    rw [perform, Perform.defendWithFrontalShield]
    split
    · exact .nothing ..
    · split
      · exact .success (.shield slots _)
      · exact .nothing ..
  | spawnDrones => exact .success .launch
  | isLowOnHp =>
    rw [perform, Perform.isLowOnHp]
    split <;> exact .nothing ..
  | isControlledByPlayer =>
    rw [perform, Perform.isControlledByPlayer]
    split <;> exact .nothing ..
  | mothershipRetreated => exact .nothing ..
  | mothershipDestroyed => exact .nothing ..
  | mothershipLowHp =>
    rw [perform, Perform.mothershipLowHp]
    split <;> exact .nothing ..
  | goBerserk =>
    rw [perform, Perform.goBerserk]
    split
    · rename_i me hown
      split
      · rename_i hdrone
        exact .success (.rage hown hdrone)
      · exact .nothing ..
    · exact .nothing ..
  | vanish => exact .success .vanish
  | debugLog => exact .nothing ..

theorem Announcement.tick_effect (a : Announcement) (c : Context) :
    Leaf.Effect c (.showMessage a) ((a.tick c).1, (a.tick c).2.2) ∧
      ∃ shown, (a.tick c).2.1 = { a with shown := shown } := by
  rw [tick]
  split
  · exact ⟨.nothing .., _, rfl⟩
  · exact ⟨.success (.post a), _, rfl⟩

theorem Wait.step_parameters (w : Wait) (now : Float32) (frame : Nat) :
    ∃ lastCompletion lastFrame, (w.step now frame).2 =
      { w with lastCompletion := lastCompletion, lastFrame := lastFrame } := by
  rw [step]
  split <;> exact ⟨_, _, rfl⟩

/-- What evaluating a leaf comes to. -/
theorem Leaf.tick_effect (l : Leaf) (c : Context) :
    Yields l.Overflow (fun r => l.Effect c (r.1, r.2.2) ∧ l.Continues r.2.1) (l.tick c) := by
  cases l with
  | findEnemy f =>
    refine (f.tick_effect c).bind ?_
    rintro ⟨s, next, c'⟩ ⟨heffect, cooldown, rfl⟩
    exact ⟨heffect, cooldown, rfl⟩
  | attack a =>
    refine (a.tick_effect c).bind ?_
    rintro ⟨s, next, c'⟩ ⟨heffect, aim, rfl⟩
    exact ⟨heffect, aim, rfl⟩
  | wait w =>
    obtain ⟨lastCompletion, lastFrame, hw⟩ := w.step_parameters c.memory.time c.memory.frame
    exact ⟨.nothing c _ _, lastCompletion, lastFrame, congrArg Leaf.wait hw⟩
  | showMessage a =>
    obtain ⟨heffect, shown, ha⟩ := a.tick_effect c
    exact ⟨heffect, shown, congrArg showMessage ha⟩
  | action a => exact ⟨a.perform_effect c, rfl⟩

/-! ## What a leaf leaves alone -/

namespace Leaf

/-- The ship is the same, energy is being restored as before unless the leaf is a recharge, and no
message has come or gone unless the leaf posts one. -/
structure Spares (l : Leaf) (c c' : Context) : Prop where
  ship : c'.memory.ship = c.memory.ship
  restoringEnergy :
    (∀ failIfLess restoreUntil, l ≠ .action (.rechargeEnergy failIfLess restoreUntil)) →
      c'.memory.restoringEnergy = c.memory.restoringEnergy
  messages : (∀ a, l ≠ .showMessage a) → c'.memory.messages = c.memory.messages

variable {l next : Leaf} {c c' : Context} {status : Status}

theorem spares_self (l : Leaf) (c : Context) : l.Spares c c := ⟨rfl, fun _ => rfl, fun _ => rfl⟩

theorem AfterFailure.spares (h : l.AfterFailure c c') : l.Spares c c' := by
  cases l with
  | findEnemy =>
    obtain ⟨⟨tally, dice, target, targetTime, -, rfl⟩, -⟩ := h
    exact { spares_self _ c with }
  | action a =>
    cases a with
    | rechargeEnergy failIfLess restoreUntil =>
      rcases h with rfl | ⟨-, rfl⟩
      · exact spares_self _ _
      · exact { spares_self _ c with restoringEnergy := fun hl => absurd rfl (hl _ _) }
    | _ => cases h; exact spares_self _ c
  | _ => cases h; exact spares_self _ c

theorem Acts.spares (h : l.Acts c c') : l.Spares c c' := by
  cases h with
  | search _ hsearched =>
    obtain ⟨tally, dice, target, targetTime, -, rfl⟩ := hsearched
    exact { spares_self _ c with }
  | renewTargets =>
    rw [Context.renewSecondaryTargets]
    split
    · exact spares_self _ c
    · split <;> exact { spares_self _ c with }
  | renewThreats =>
    rw [Context.renewThreats]
    split
    · exact spares_self _ c
    · split <;> exact { spares_self _ c with }
  | restore => exact { spares_self _ c with restoringEnergy := fun hl => absurd rfl (hl _ _) }
  | post a => exact { spares_self _ c with messages := fun hl => absurd rfl (hl a) }
  | _ => exact { spares_self _ c with }

theorem spares_of_tick (htick : l.tick c = .ok (status, next, c')) : l.Spares c c' := by
  obtain ⟨heffect, -⟩ := (l.tick_effect c).of_eq_ok htick
  cases heffect with
  | fails hfailure => exact hfailure.spares
  | acts _ hacts => exact hacts.spares

end Leaf

end Helm
