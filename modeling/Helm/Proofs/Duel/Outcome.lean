import Helm.Proofs.Duel.Engagement

/-!
# Helm.Proofs.Duel.Outcome

What the outcome of a duel says of the ticks that were played. `Duel.turns` lists the ship as it is
each time it has just acted. Each of the three steps that follow in a tick changes the scene alone
and leaves both ships where they can be found, and the ship itself unharmed (`applyFire_spec`,
`moveShips_spec`, `resolveExits_spec`); together they take a tick from one duel in the arena to the
next (`playTick_spec`), and a run from the first to the last (`play_spec`).
-/

namespace Helm.Duel

variable {d next : Duel} {me them : ShipState} {step : Float32}

/-- The duels differ in the scene alone. -/
def Rearranges (d next : Duel) : Prop := ∃ f, next = d.inScene f

namespace Rearranges

theorem refl (d : Duel) : d.Rearranges d := ⟨id, rfl⟩

theorem trans {a b c : Duel} (h₁ : a.Rearranges b) (h₂ : b.Rearranges c) : a.Rearranges c := by
  obtain ⟨f, rfl⟩ := h₁
  obtain ⟨g, rfl⟩ := h₂
  exact ⟨g ∘ f, rfl⟩

/-- The ship is ready for the next tick wherever it and its target are found. -/
theorem ready (h : d.Rearranges next) {me' them' : ShipState}
    (hd : d.agent.Holds Aboard (Engaged me them)) (harena : Arena next.scene me' them') :
    next.agent.Holds Aboard (Ready me' them') := by
  obtain ⟨f, rfl⟩ := h
  exact ⟨hd.root, { hd.context.toReady with arena := harena }⟩

end Rearranges

/-! ## Fire -/

theorem hits_eq_length {firing : SlotSet} {gap : Float32}
    (h : ∀ slot, firing.contains slot = true →
      ∃ weapon, weaponAt? slot = some weapon ∧ gap ≤ weapon.range) :
    hits firing gap = firing.slots.length := by
  have hslots : ∀ slot ∈ firing.slots,
      ∃ weapon, weaponAt? slot = some weapon ∧ gap ≤ weapon.range :=
    fun slot hslot => h slot (List.contains_iff_mem.mpr hslot)
  rw [hits]
  generalize firing.slots = slots at hslots
  induction slots with
  | nil => rfl
  | cons slot rest ih =>
    obtain ⟨⟨weapon, hweapon, hreaches⟩, hrest⟩ := List.forall_mem_cons.mp hslots
    rw [List.filterMap_cons_some hweapon, List.countP_cons, ih hrest,
      if_pos (decide_eq_true hreaches), List.length_cons]

/-- All shots of a tick land. -/
theorem applyFire_spec (h : Engaged me them d.agent.context) {shots : Nat}
    (hfire : d.applyFire step = (shots, next)) :
    shots = d.controls.firing.slots.length ∧ d.Rearranges next ∧
      ∃ them', Arena next.scene me them' := by
  rw [applyFire] at hfire
  cases htarget : d.agent.context.memory.target with
  | none =>
    have hempty : d.controls.firing.slots = [] := by
      refine List.eq_nil_iff_forall_not_mem.mpr fun slot hslot => ?_
      have haimed := (h.firing slot (List.contains_iff_mem.mpr hslot)).1
      rw [htarget] at haimed
      cases haimed
    rw [htarget] at hfire
    cases hfire
    rw [hempty]
    exact ⟨rfl, .refl d, them, h.arena⟩
  | some id =>
    obtain rfl := h.target id htarget
    have hown : d.scene.ship? ownShip = some me := h.arena.ship?_own
    have henemy : d.scene.ship? targetShip = some them := h.arena.ship?_target
    have hcount : hits d.controls.firing (me.gapTo them) = d.controls.firing.slots.length :=
      hits_eq_length fun slot hslot => (h.firing slot hslot).2
    rw [htarget] at hfire
    dsimp only at hfire
    rw [hown, henemy] at hfire
    dsimp only at hfire
    rw [hcount] at hfire
    split at hfire
    · rename_i hzero
      cases hfire
      exact ⟨hzero.symm, .refl d, them, h.arena⟩
    · cases hfire
      exact ⟨rfl, ⟨_, rfl⟩, _, h.arena.updateShip_target rfl⟩

/-! ## Motion -/

theorem steered_spec {controls : Controls} {ship moved : ShipState}
    (h : steered step controls ship = .ok moved) :
    moved.id = ship.id ∧ moved.kind = ship.kind ∧ moved.hp = ship.hp := by
  rw [steered] at h
  split at h
  · obtain ⟨rotation, -, h⟩ := bind_eq_ok.mp h
    cases h
    exact ⟨rfl, rfl, rfl⟩
  · cases h
    exact ⟨rfl, rfl, rfl⟩

theorem moveShips_spec (h : Arena d.scene me them) (hmove : d.moveShips step = .ok next) :
    d.Rearranges next ∧ ∃ me' them', Arena next.scene me' them' ∧ me'.hp = me.hp := by
  rw [moveShips, h.ship?_own] at hmove
  obtain ⟨moved, hmoved, hnext⟩ := bind_eq_ok.mp hmove
  obtain ⟨hid, hkind, hhp⟩ := steered_spec hmoved
  cases hnext
  have hown := h.updateShip_own (f := fun _ => moved) hid hkind
  have hboth := hown.updateShip_target (f := drift step) rfl
  exact ⟨⟨fun s => (s.updateShip ownShip fun _ => moved).updateShip targetShip (drift step), rfl⟩,
    _, _, hboth, hhp⟩

/-! ## Exits -/

/-- Both ships are found in the scene, and the target counts as destroyed when its hull is gone and
the ship itself has not left. -/
structure Stands (me them : ShipState) (d : Duel) : Prop where
  own : d.scene.ship? ownShip = some me
  target : d.scene.ship? targetShip = some them
  destroyed : d.scene.status targetShip = .destroyed ↔
    them.hp ≤ 0 ∧ d.controls.vanish = false ∧ d.controls.selfDestruct = false

/-- One of the ships leaves. -/
def Ends (them : ShipState) (d : Duel) : Prop :=
  d.controls.vanish = true ∨ d.controls.selfDestruct = true ∨ them.hp ≤ 0

theorem Arena.status_target {s : Scene} (h : Arena s me them) :
    s.status targetShip = .active := by
  rw [Scene.status, h.ships]
  rfl

theorem Arena.stands (h : Arena d.scene me them) (hends : ¬d.Ends them) : d.Stands me them where
  own := h.ship?_own
  target := h.ship?_target
  destroyed := by
    rw [h.status_target]
    exact ⟨fun h => absurd h (by decide), fun hlost => absurd (.inr (.inr hlost.1)) hends⟩

/-- A ship that leaves has not waited for the target to be noted as destroyed. -/
theorem Arena.stands_of_leaving (h : Arena d.scene me them)
    (hleaves : d.controls.vanish = true ∨ d.controls.selfDestruct = true) (status : ShipStatus) :
    (d.inScene (·.setStatus ownShip status)).Stands me them where
  own := (d.scene.ship?_setStatus ownShip ownShip status).trans h.ship?_own
  target := (d.scene.ship?_setStatus ownShip targetShip status).trans h.ship?_target
  destroyed := by
    have hactive : (d.scene.setStatus ownShip status).status targetShip = .active :=
      (d.scene.status_setStatus_of_ne status (by decide)).trans h.status_target
    constructor
    · intro hdestroyed
      exact nomatch hactive.symm.trans hdestroyed
    · rintro ⟨-, hvanish, hselfDestruct⟩
      rcases hleaves with hleaves | hleaves
      · exact nomatch hleaves.symm.trans hvanish
      · exact nomatch hleaves.symm.trans hselfDestruct

/-- Without its hull the target is noted as destroyed when the ship stays. -/
theorem Arena.stands_of_lost (h : Arena d.scene me them) (hhull : them.hp ≤ 0)
    (hvanish : d.controls.vanish = false) (hselfDestruct : d.controls.selfDestruct = false) :
    (d.inScene (·.setStatus targetShip .destroyed)).Stands me them where
  own := (d.scene.ship?_setStatus targetShip ownShip .destroyed).trans h.ship?_own
  target := (d.scene.ship?_setStatus targetShip targetShip .destroyed).trans h.ship?_target
  destroyed := ⟨fun _ => ⟨hhull, hvanish, hselfDestruct⟩,
    fun _ => Scene.status_setStatus_self .destroyed h.ship?_target⟩

theorem resolveExits_spec (h : Arena d.scene me them) {ended : Bool}
    (hexits : d.resolveExits = (ended, next)) :
    d.Rearranges next ∧ next.Stands me them ∧ (ended = true ↔ next.Ends them) ∧
      (ended = false → next = d) := by
  have hlost : d.targetLost = decide (them.hp ≤ 0) := by rw [targetLost, h.ship?_target]
  rw [resolveExits, hlost] at hexits
  split at hexits
  · rename_i hvanish
    cases hexits
    exact ⟨⟨_, rfl⟩, h.stands_of_leaving (.inl hvanish) _, ⟨fun _ => .inl hvanish, fun _ => rfl⟩,
      nofun⟩
  · rename_i hvanish
    split at hexits
    · rename_i hselfDestruct
      cases hexits
      exact ⟨⟨_, rfl⟩, h.stands_of_leaving (.inr hselfDestruct) _,
        ⟨fun _ => .inr (.inl hselfDestruct), fun _ => rfl⟩, nofun⟩
    · rename_i hselfDestruct
      split at hexits
      · rename_i hhull
        cases hexits
        have hhull : them.hp ≤ 0 := of_decide_eq_true hhull
        have hstands := h.stands_of_lost hhull (Bool.eq_false_iff.mpr hvanish)
          (Bool.eq_false_iff.mpr hselfDestruct)
        exact ⟨⟨_, rfl⟩, hstands, ⟨fun _ => .inr (.inr hhull), fun _ => rfl⟩, nofun⟩
      · rename_i hhull
        cases hexits
        have hgoes : ¬d.Ends them := by
          rintro (h | h | h)
          · exact hvanish h
          · exact hselfDestruct h
          · exact hhull (decide_eq_true h)
        exact ⟨.refl d, h.stands hgoes, ⟨nofun, fun h => absurd h hgoes⟩, fun _ => rfl⟩

/-! ## A tick -/

/-- The number of weapons that fire. -/
def volley (a : Agent) : Nat := a.context.memory.controls.firing.slots.length

theorem playTick_spec (hd : d.agent.Holds Aboard (Ready me them)) {shots : Nat} {ended : Bool}
    (h : d.playTick step = .ok (shots, ended, next)) :
    ∃ status acted me' them', d.agent.tick step = .ok (status, acted) ∧
      acted.Holds Aboard (Engaged me them) ∧ shots = volley acted ∧ me'.hp = me.hp ∧
      next.Stands me' them' ∧ (ended = true ↔ next.Ends them') ∧
      (ended = false → next.agent.Holds Aboard (Ready me' them')) := by
  obtain ⟨⟨status, acted⟩, htick, h⟩ := bind_eq_ok.mp h
  have hacted := engaged_of_tick hd htick
  have hheard : (listen { d with agent := acted }).agent.Holds Aboard (Engaged me them) :=
    ⟨hacted.root, { hacted.context with }⟩
  dsimp only at h
  generalize hfire : (listen { d with agent := acted }).applyFire step = fired at h
  obtain ⟨landed, fired⟩ := fired
  obtain ⟨moved, hmove, h⟩ := bind_eq_ok.mp h
  generalize hexits : moved.resolveExits = resolved at h
  obtain ⟨ended, next⟩ := resolved
  cases h
  obtain ⟨hshots, hfired, enemy, harena⟩ := applyFire_spec hheard.context hfire
  obtain ⟨hmoved, me', them', harena', hhp⟩ := moveShips_spec harena hmove
  obtain ⟨hnext, hstands, hends, hsame⟩ := resolveExits_spec harena' hexits
  refine ⟨status, acted, me', them', htick, hacted, hshots, hhp, hstands, hends, fun hgoes => ?_⟩
  rw [hsame hgoes]
  exact (hfired.trans hmoved).ready hheard harena'

/-! ## A run -/

/-- The ship as it is each time it has just acted, for up to so many ticks. -/
def turns (step : Float32) (d : Duel) : Nat → List Agent
  | 0 => []
  | ticks + 1 =>
    match d.agent.tick step, d.playTick step with
    | .ok (_, acted), .ok (_, ended, next) =>
      acted :: if ended then [] else turns step next ticks
    | _, _ => []

theorem length_turns_le (step : Float32) (d : Duel) (ticks : Nat) :
    (d.turns step ticks).length ≤ ticks := by
  induction ticks generalizing d with
  | zero => exact Nat.le_refl 0
  | succ ticks ih =>
    rw [turns]
    split
    · rename_i ended next _ _
      cases ended with
      | true => exact Nat.succ_le_succ (Nat.zero_le ticks)
      | false => exact Nat.succ_le_succ (ih next)
    · exact Nat.zero_le _

/-- What a run of ticks comes to, for a ship that started with a hull of `hp`. -/
structure Played (hp : Float32) (turns : List Agent) (ticks : Nat) (next : Duel) : Prop where
  engaged : ∀ a ∈ turns, ∃ me them, Engaged me them a.context ∧ me.hp = hp
  stands : ∃ me them, next.Stands me them ∧ me.hp = hp ∧
    (turns.length < ticks → next.Ends them)

theorem play_spec {played shots ticks p s : Nat} (hd : d.agent.Holds Aboard (Ready me them))
    (hgoes : ¬d.Ends them) (h : d.play step played shots ticks = .ok (p, s, next)) :
    p = played + (d.turns step ticks).length ∧ s = shots + ((d.turns step ticks).map volley).sum ∧
      Played me.hp (d.turns step ticks) ticks next := by
  induction ticks generalizing d me them played shots with
  | zero =>
    cases h
    refine ⟨rfl, rfl, ?_, me, them, hd.context.arena.stands hgoes, rfl, ?_⟩
    · exact fun _ ha => absurd ha List.not_mem_nil
    · exact fun hlt => absurd hlt (Nat.lt_irrefl 0)
  | succ ticks ih =>
    rw [play] at h
    split at h
    · cases h
    · -- the duel is over after this tick
      rename_i landed last htick
      cases h
      obtain ⟨status, acted, me', them', hacts, hacted, hlanded, hhp, hstands, hends, -⟩ :=
        playTick_spec hd htick
      have hturns : d.turns step (ticks + 1) = [acted] := by
        rw [turns, hacts, htick]
        rfl
      rw [hturns]
      refine ⟨rfl, congrArg (shots + ·) hlanded, ?_, me', them', hstands, hhp, ?_⟩
      · exact List.forall_mem_singleton.mpr ⟨me, them, hacted.context, rfl⟩
      · exact fun _ => hends.mp rfl
    · -- what comes after this tick starts from ships that may have moved
      rename_i landed between htick
      obtain ⟨status, acted, me', them', hacts, hacted, hlanded, hhp, -, hends, hready⟩ :=
        playTick_spec hd htick
      have hturns : d.turns step (ticks + 1) = acted :: between.turns step ticks := by
        rw [turns, hacts, htick]
        rfl
      obtain ⟨hp, hs, hplayed⟩ := ih (hready rfl) (fun h => nomatch hends.mpr h) h
      rw [hhp] at hplayed
      rw [hturns, List.length_cons, List.map_cons, List.sum_cons]
      refine ⟨by omega, ?_, ?_, ?_⟩
      · rw [hs, hlanded, Nat.add_assoc]
      · exact List.forall_mem_cons.mpr ⟨⟨me, them, hacted.context, rfl⟩, hplayed.engaged⟩
      · obtain ⟨own, enemy, hstands, hown, hlast⟩ := hplayed.stands
        exact ⟨own, enemy, hstands, hown, fun hlt => hlast (Nat.lt_of_succ_lt_succ hlt)⟩

/-- The target before the duel. -/
def dummy (distance : Float32) : ShipState :=
  { ShipState.create targetShip ⟨0, distance⟩ with velocity := targetVelocity }

variable {config : DuelConfig} {tree : TreeDefinition} {library : TreeLibrary}
  {settings : Settings} {phrasebook : Phrasebook} {unseeded : Purpose → Dice}

theorem ready_of_create
    (h : create config tree library settings phrasebook unseeded = .ok d) :
    d.agent.Holds Aboard (Ready (.create ownShip .zero) (dummy config.distance)) ∧
      ¬d.Ends (dummy config.distance) := by
  obtain ⟨agent, hagent, h⟩ := bind_eq_ok.mp h
  cases h
  have hholds : agent.Holds Aboard fun c =>
      Ready (.create ownShip .zero) (dummy config.distance) c ∧ c.memory.controls = {} := by
    refine (Outfit.agent_yields _ _ tree unseeded
      (fun _ kind _ roll _ => aboard_fit _ rfl roll kind) ?_).of_eq_ok hagent
    exact ⟨⟨⟨rfl, rfl, rfl, rfl⟩, rfl, fun _ hmem => hmem, nofun⟩, rfl⟩
  refine ⟨⟨hholds.root, hholds.context.1⟩, ?_⟩
  have hhull : ¬(dummy config.distance).hp ≤ 0 := by
    show ¬(1 : Float32) ≤ 0
    decide
  rw [Ends, controls, hholds.context.2]
  rintro (h | h | h)
  · cases h
  · cases h
  · exact hhull h

/-- What a run of a duel that has not begun comes to. -/
theorem run_spec {ticks : Nat} {o : Outcome}
    (hcreate : create config tree library settings phrasebook unseeded = .ok d)
    (hrun : d.run ticks step = .ok (o, next)) :
    o = next.outcome (d.turns step ticks).length ((d.turns step ticks).map volley).sum ∧
      Played 1 (d.turns step ticks) ticks next := by
  obtain ⟨hready, hgoes⟩ := ready_of_create hcreate
  obtain ⟨⟨played, shots, last⟩, hplay, h⟩ := bind_eq_ok.mp hrun
  cases h
  obtain ⟨hticks, hshots, hplayed⟩ := play_spec hready hgoes hplay
  rw [Nat.zero_add] at hticks hshots
  rw [hticks, hshots]
  exact ⟨rfl, hplayed⟩

/-- Every shot that is commanded lands: in each tick in which something fires, the target is the
enemy, and the weapons that fire reach it. The ship itself is never harmed. -/
theorem run_lands {ticks : Nat} {o : Outcome}
    (hcreate : create config tree library settings phrasebook unseeded = .ok d)
    (hrun : d.run ticks step = .ok (o, next)) :
    let turns := d.turns step ticks
    o.ticks = turns.length ∧ o.shots = (turns.map volley).sum ∧
      (∀ a ∈ turns, ∃ me them, a.context.scene.ship? ownShip = some me ∧
        a.context.scene.ship? targetShip = some them ∧ me.hp = 1 ∧
        ∀ slot ∈ a.context.memory.controls.firing.slots,
          a.context.memory.target = some targetShip ∧
            ∃ weapon, weaponAt? slot = some weapon ∧ me.gapTo them ≤ weapon.range) ∧
      ∃ me, next.scene.ship? ownShip = some me ∧ me.hp = 1 := by
  intro turns
  obtain ⟨rfl, hplayed⟩ := run_spec hcreate hrun
  refine ⟨rfl, rfl, fun a ha => ?_, ?_⟩
  · obtain ⟨me, them, hengaged, hhp⟩ := hplayed.engaged a ha
    refine ⟨me, them, hengaged.arena.ship?_own, hengaged.arena.ship?_target, hhp, ?_⟩
    intro slot hslot
    exact hengaged.firing slot (List.contains_iff_mem.mpr hslot)
  · obtain ⟨me, them, hstands, hhp, -⟩ := hplayed.stands
    exact ⟨me, hstands.own, hhp⟩

/-- Finds the enemy, fires the beam at it and does what else there is to do. -/
def ambush (after : List NodeDefinition) : TreeDefinition where
  root := some (.group .always .sequence
    ([.leaf .always (.findEnemy 0 0 false false), .leaf .always (.selectWeapon .beam),
      .leaf .always .attack] ++ after))

/-- A duel within the range of the beam, for a ship that does not miss. -/
def shootout (after : List NodeDefinition) : Except Fault Duel :=
  create { distance := 3 } (ambush after) .empty { level := .expert } {} default

/-- The first shot is the last one. -/
theorem run_lands_shootout : ∃ d o next, shootout [] = .ok d ∧ d.run 5 4 = .ok (o, next) ∧
    (d.turns 4 5).map volley = [1] ∧ o.shots = ((d.turns 4 5).map volley).sum ∧
    ∃ me, next.scene.ship? ownShip = some me ∧ me.hp = 1 := by
  obtain ⟨d, hd, hvolleys, hcompletes⟩ : ∃ d, shootout [] = .ok d ∧
      (d.turns 4 5).map volley = [1] ∧ Yields (fun _ => False) (fun _ => True) (d.run 5 4) :=
    yields_false_iff.mp (by decide +kernel)
  obtain ⟨⟨o, next⟩, hrun, -⟩ := yields_false_iff.mp hcompletes
  obtain ⟨-, hshots, -, hunharmed⟩ := run_lands hd hrun
  exact ⟨d, o, next, hd, hrun, hvolleys, hshots, hunharmed⟩

/-- The target counts as destroyed when its hull is gone, unless the ship left in the same tick, and
a run that ends early does so because one of the ships has left. -/
theorem run_ends {ticks : Nat} {o : Outcome}
    (hcreate : create config tree library settings phrasebook unseeded = .ok d)
    (hrun : d.run ticks step = .ok (o, next)) :
    (o.targetStatus = .destroyed ↔ o.targetHp ≤ 0 ∧ next.controls.vanish = false ∧
        next.controls.selfDestruct = false) ∧
      o.ticks ≤ ticks ∧
      (o.ticks < ticks → o.targetStatus = .destroyed ∨ next.controls.vanish = true ∨
        next.controls.selfDestruct = true) := by
  obtain ⟨rfl, hplayed⟩ := run_spec hcreate hrun
  obtain ⟨me, them, hstands, -, hends⟩ := hplayed.stands
  have hhp : (next.outcome (d.turns step ticks).length
      ((d.turns step ticks).map volley).sum).targetHp = them.hp := by
    rw [outcome, hstands.target]
    rfl
  rw [hhp]
  refine ⟨hstands.destroyed, length_turns_le step d ticks, fun hlt => ?_⟩
  have hleaves := hends hlt
  cases hvanish : next.controls.vanish with
  | true => exact .inr (.inl rfl)
  | false =>
    cases hselfDestruct : next.controls.selfDestruct with
    | true => exact .inr (.inr rfl)
    | false =>
      rw [Ends, hvanish, hselfDestruct] at hleaves
      rcases hleaves with h | h | h
      · cases h
      · cases h
      · exact .inl (hstands.destroyed.mpr ⟨h, hvanish, hselfDestruct⟩)

/-- The run is over after the first of five ticks, with the target destroyed. -/
theorem run_ends_shootout : ∃ d o next, shootout [] = .ok d ∧ d.run 5 4 = .ok (o, next) ∧
    o.ticks < 5 ∧ o.targetStatus = .destroyed ∧ o.targetHp ≤ 0 := by
  obtain ⟨d, hd, hcompletes⟩ : ∃ d, shootout [] = .ok d ∧
      Yields (fun _ => False) (fun r => r.1.ticks < 5 ∧ r.2.controls.vanish = false ∧
        r.2.controls.selfDestruct = false) (d.run 5 4) :=
    yields_false_iff.mp (by decide +kernel)
  obtain ⟨⟨o, next⟩, hrun, hearly, hvanish, hselfDestruct⟩ := yields_false_iff.mp hcompletes
  obtain ⟨hdestroyed, -, hends⟩ := run_ends hd hrun
  have hlost : o.targetStatus = .destroyed := by
    rcases hends hearly with h | h | h
    · exact h
    · exact nomatch hvanish.symm.trans h
    · exact nomatch hselfDestruct.symm.trans h
  exact ⟨d, o, next, hd, hrun, hearly, hlost, (hdestroyed.mp hlost).1⟩

/-- A ship that vanishes after the shot that takes the target's hull leaves it active. -/
theorem run_ends_vanished : ∃ d o next, shootout [.leaf .always .vanish] = .ok d ∧
    d.run 5 4 = .ok (o, next) ∧ o.targetHp ≤ 0 ∧ o.targetStatus ≠ .destroyed := by
  obtain ⟨d, hd, hcompletes⟩ : ∃ d, shootout [.leaf .always .vanish] = .ok d ∧
      Yields (fun _ => False) (fun r => r.1.targetHp ≤ 0 ∧ r.1.targetStatus ≠ .destroyed)
        (d.run 5 4) :=
    yields_false_iff.mp (by decide +kernel)
  obtain ⟨⟨o, next⟩, hrun, hhull, hstatus⟩ := yields_false_iff.mp hcompletes
  exact ⟨d, o, next, hd, hrun, hhull, hstatus⟩

end Helm.Duel
