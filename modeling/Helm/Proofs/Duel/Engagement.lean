import Helm.Duel.Play
import Helm.Proofs.Pilot.Caches
import Helm.Proofs.Pilot.Memory
import Helm.Proofs.Pilot.Targeting

/-!
# Helm.Proofs.Duel.Engagement

The ship of a duel while its tree is evaluated. Its weapons have no recoil and need no charge, so
that only an attack fires any of them, and an attack fires those that reach the target. From then
on until the end of the tick the target stays what it is: a search gives an enemy up for another one
only, and the ship has but one enemy (`Duel.Engaged`, `Duel.upholds_engaged`).
-/

namespace Helm

/-! ## Leaves that do not fire -/

namespace Leaf

/-- A leaf that fires nothing, unless it is an attack. -/
def Unarmed : Leaf → Prop
  | action (.chargeWeapons _) => False
  | action (.useRecoil _) => False
  | _ => True

variable {l : Leaf} {c : Context}

theorem Unarmed.continues (h : l.Unarmed) {next : Leaf} (hnext : l.Continues next) :
    next.Unarmed :=
  hnext.keeps h (fun _ => trivial) (fun _ => trivial) (fun _ => trivial) fun _ => trivial

theorem Effect.firing_of_search {f : FindEnemy} {r : Status × Context}
    (h : (findEnemy f).Effect c r) : r.2.memory.controls.firing = c.memory.controls.firing := by
  cases h with
  | fails h =>
    obtain ⟨⟨tally, dice, target, targetTime, -, rfl⟩, -⟩ := h
    rfl
  | acts _ h =>
    cases h with
    | search _ hsearched =>
      obtain ⟨tally, dice, target, targetTime, -, rfl⟩ := hsearched
      rfl
    | _ => rfl

/-- Neither the target nor what fires is changed by other leaves than searches and attacks, of a
ship that is no drone. -/
theorem Effect.quiet {r : Status × Context} (h : l.Effect c r) (hl : l.Unarmed)
    (hsearch : ∀ f, l ≠ .findEnemy f) (hattack : ∀ a, l ≠ .attack a) (hdrone : ¬c.IsDrone) :
    r.2.memory.target = c.memory.target ∧
      r.2.memory.controls.firing = c.memory.controls.firing := by
  cases h with
  | fails h =>
    cases l with
    | findEnemy f => exact absurd rfl (hsearch f)
    | action a =>
      cases a with
      | rechargeEnergy => rcases h with rfl | ⟨-, rfl⟩ <;> exact ⟨rfl, rfl⟩
      | _ => cases h; exact ⟨rfl, rfl⟩
    | _ => cases h; exact ⟨rfl, rfl⟩
  | acts _ h =>
    cases h with
    | search f => exact absurd rfl (hsearch f)
    | attack a => exact absurd rfl (hattack a)
    | adopt hown hisDrone => exact absurd ⟨_, hown, hisDrone⟩ hdrone
    | renewTargets cooldown =>
      obtain ⟨_, _, _, _, _, heq⟩ := Context.Alike.renewSecondaryTargets c cooldown
      rw [heq]
      exact ⟨rfl, rfl⟩
    | renewThreats cooldown lookout =>
      obtain ⟨_, _, _, _, _, heq⟩ := Context.Alike.renewThreats c lookout cooldown
      rw [heq]
      exact ⟨rfl, rfl⟩
    | charge => exact hl.elim
    | recoil => exact hl.elim
    | ram accelerators => exact ⟨rfl, Controls.firing_activateAll _ accelerators⟩
    | activate slots => exact ⟨rfl, Controls.firing_activateAll _ slots⟩
    | shield slots => exact ⟨rfl, Controls.firing_activateAll _ slots⟩
    | _ => exact ⟨rfl, rfl⟩

end Leaf

namespace Duel

/-! ## The scene -/

/-- The ship and its target are in the scene, and both are active. -/
structure Arena (s : Scene) (me them : ShipState) : Prop where
  ships : s.ships = ⟨[(ownShip, ⟨me, .active, 0⟩), (targetShip, ⟨them, .active, 1⟩)]⟩
  own : me.id = ownShip
  kind : me.kind = .ship
  target : them.id = targetShip

namespace Arena

variable {s : Scene} {me them : ShipState}

theorem ship?_own (h : Arena s me them) : s.ship? ownShip = some me := by
  rw [Scene.ship?, h.ships]
  rfl

theorem ship?_target (h : Arena s me them) : s.ship? targetShip = some them := by
  rw [Scene.ship?, h.ships]
  rfl

theorem isActive_target (h : Arena s me them) : s.isActive targetShip = true := by
  rw [Scene.isActive, Scene.status, h.ships]
  rfl

theorem activeShip?_target (h : Arena s me them) : s.activeShip? targetShip = some them := by
  rw [Scene.activeShip?, if_pos h.isActive_target]
  exact h.ship?_target

theorem orderly (h : Arena s me them) : s.Orderly where
  ascending := by
    rw [h.ships]
    show [ownShip, targetShip].Pairwise (· < ·)
    decide
  numbered := by
    rw [h.ships]
    simp [h.own, h.target]

/-- The ship has one enemy. -/
theorem enemiesOf_own (h : Arena s me them) : s.enemiesOf ownShip = [targetShip] := by
  rw [Scene.enemiesOf, h.ships, ← h.target]
  rfl

theorem updateShip_own (h : Arena s me them) {f : ShipState → ShipState}
    (hid : (f me).id = me.id) (hkind : (f me).kind = me.kind) :
    Arena (s.updateShip ownShip f) (f me) them where
  ships := by
    rw [Scene.updateShip, h.ships]
    rfl
  own := hid.trans h.own
  kind := hkind.trans h.kind
  target := h.target

theorem updateShip_target (h : Arena s me them) {f : ShipState → ShipState}
    (hid : (f them).id = them.id) : Arena (s.updateShip targetShip f) me (f them) where
  ships := by
    rw [Scene.updateShip, h.ships]
    rfl
  own := h.own
  kind := h.kind
  target := hid.trans h.target

end Arena

/-! ## The ship -/

/-- All weapons of the ship. -/
abbrev armament : Arsenal := .ofLoadout gunship

/-- The ship is in the arena with some of its weapons selected, and has no other target than its
enemy. -/
structure Ready (me them : ShipState) (c : Context) : Prop where
  arena : Arena c.scene me them
  ship : c.memory.ship = ownShip
  weapons : ∀ weapon ∈ c.weapons.weapons, weapon ∈ gunship.weapons
  target : ∀ id, c.memory.target = some id → id = targetShip

/-- The weapons that fire are aimed at the enemy, and reach it. -/
structure Engaged (me them : ShipState) (c : Context) : Prop extends Ready me them c where
  firing : ∀ slot, c.memory.controls.firing.contains slot = true →
    c.memory.target = some targetShip ∧
      ∃ weapon, weaponAt? slot = some weapon ∧ me.gapTo them ≤ weapon.range

variable {me them : ShipState} {c c' : Context}

namespace Ready

theorem own? (h : Ready me them c) : c.own? = some me := by
  rw [Context.own?, h.ship]
  exact h.arena.ship?_own

theorem not_isDrone (h : Ready me them c) : ¬c.IsDrone := by
  rintro ⟨other, hown, hdrone⟩
  obtain rfl : me = other := Option.some.inj (h.own?.symm.trans hown)
  rw [ShipState.isDrone, h.arena.kind] at hdrone
  cases hdrone

theorem of_duel? (h : Ready me them c) {own enemy : ShipState}
    (hduel : c.duel? = some (own, enemy)) :
    own = me ∧ enemy = them ∧ c.memory.target = some targetShip := by
  rw [Context.duel?, h.own?, Option.bind_eq_bind, Option.bind_some] at hduel
  obtain ⟨found, hfound, hpair⟩ := Option.bind_eq_some_iff.mp hduel
  cases hpair
  obtain ⟨id, htarget, henemy⟩ := Option.bind_eq_some_iff.mp hfound
  obtain rfl := h.target id htarget
  rw [h.arena.activeShip?_target] at henemy
  exact ⟨rfl, (Option.some.inj henemy).symm, htarget⟩

theorem hunts_iff (h : Ready me them c) {id : ShipId} :
    c.Hunts me id ↔ c.memory.target = some targetShip ∧ id = targetShip := by
  rw [Context.Hunts, h.arena.own, h.arena.enemiesOf_own]
  constructor
  · rintro ⟨htarget, -, -⟩
    rw [htarget, h.target id htarget]
    exact ⟨rfl, rfl⟩
  · rintro ⟨htarget, rfl⟩
    exact ⟨htarget, h.arena.isActive_target, List.mem_singleton.mpr rfl⟩

theorem evolves (h : Ready me them c) (hevolves : Context.Evolves armament c c') :
    Ready me them c' where
  arena := { h.arena with ships := hevolves.ships.trans h.arena.ships }
  ship := hevolves.ship.trans h.ship
  weapons := by
    intro weapon hweapon
    rw [Context.weapons, hevolves.arsenal] at hweapon
    rcases hevolves.selected with heq | ⟨kind, hkind⟩
    · rw [heq] at hweapon
      exact h.weapons weapon hweapon
    · rw [hkind] at hweapon
      exact (List.mem_filter.mp hweapon).1
  target := by
    intro id hid
    rcases hevolves.target h.arena.orderly.faithful with heq | hmay
    · exact h.target id (heq ▸ hid)
    · rw [hid] at hmay
      cases hmay with
      | enemy hactive hhostile =>
        rw [h.ship] at hhostile
        have hmem := h.arena.orderly.mem_enemiesOf_iff.mpr ⟨hactive, hhostile⟩
        rw [h.arena.enemiesOf_own] at hmem
        exact List.mem_singleton.mp hmem
      | mothership hown hdrone => exact absurd ⟨_, hown, hdrone⟩ h.not_isDrone

theorem effect (h : Ready me them c) {l : Leaf} (hl : l.Selects armament)
    {r : Status × Context} (hr : l.Effect c r) : Ready me them r.2 :=
  h.evolves (.effect hl hr)

/-- When a tick begins, nothing fires yet. -/
theorem engaged (h : Ready me them c) (timeStep : Float32) :
    Engaged me them ((c.advance timeStep).command Controls.beginTick) where
  arena := h.arena
  ship := h.ship
  weapons := h.weapons
  target := h.target
  firing _ hslot := nomatch hslot

end Ready

/-! ## Leaves -/

theorem weaponAt?_of_mem {weapon : Weapon} (h : weapon ∈ gunship.weapons) :
    weaponAt? weapon.slot = some weapon := by
  have hall : ∀ weapon ∈ gunship.weapons, weaponAt? weapon.slot = some weapon := by decide
  exact hall weapon h

namespace Engaged

/-- Where as much fires as before at the same target, it is still aimed at the enemy. -/
theorem of_ready (h : Engaged me them c) (hready : Ready me them c')
    (hfiring : c'.memory.controls.firing = c.memory.controls.firing)
    (htarget : c.memory.target = some targetShip → c'.memory.target = some targetShip) :
    Engaged me them c' where
  toReady := hready
  firing := by
    intro slot hslot
    rw [hfiring] at hslot
    obtain ⟨haimed, hreaches⟩ := h.firing slot hslot
    exact ⟨htarget haimed, hreaches⟩

/-- A search does not give up the only enemy there is. -/
theorem search (h : Engaged me them c) (f : FindEnemy) :
    Yields (fun _ => True)
      (fun r => Engaged me them r.2.2 ∧ ∃ cooldown, r.2.1 = { f with cooldown := cooldown })
      (f.tick c) := by
  have heffect := (f.tick_effect c).weaken fun _ _ => trivial
  have hdecides := (f.tick_yields h.arena.orderly h.own?).weaken fun _ _ => trivial
  refine (heffect.and hdecides).mono ?_
  rintro ⟨s, next, c'⟩ ⟨⟨heffect, hnext⟩, hdecides⟩
  have hready : Ready me them c' := h.effect (l := .findEnemy f) trivial heffect
  refine ⟨h.of_ready hready heffect.firing_of_search fun htarget => ?_, hnext⟩
  obtain ⟨id, hid⟩ := hdecides.hunts (h.hunts_iff.mpr ⟨htarget, rfl⟩)
  exact (hready.hunts_iff.mp hid).1

/-- An attack fires at the enemy, with weapons that reach it. -/
theorem volley (h : Engaged me them c) (a : Attack) :
    Yields (fun _ => True)
      (fun r => Engaged me them r.2.2 ∧ ∃ aim, r.2.1 = { a with aim := aim })
      (a.tick c) := by
  have heffect := (a.tick_effect c).weaken fun _ _ => trivial
  have hfires := (a.tick_fires c).weaken fun _ _ => trivial
  refine (heffect.and hfires).mono ?_
  rintro ⟨s, next, c'⟩ ⟨⟨heffect, hnext⟩, hfires, -⟩
  have hready : Ready me them c' := h.effect (l := .attack a) trivial heffect
  refine ⟨?_, hnext⟩
  cases hfires with
  | nothing => exact h
  | volley dice course hduel hweapons =>
    obtain ⟨rfl, rfl, htarget⟩ := h.of_duel? hduel
    refine { toReady := hready, firing := fun slot hslot => ?_ }
    rcases Controls.contains_fireAll.mp hslot with hslot | hslot
    · obtain ⟨weapon, hweapon, rfl⟩ := List.mem_map.mp hslot
      obtain ⟨hselected, hreaches⟩ := hweapons weapon hweapon
      exact ⟨htarget, weapon, weaponAt?_of_mem (h.weapons weapon hselected), hreaches⟩
    · exact h.firing slot hslot

theorem leaf (h : Engaged me them c) {l : Leaf} (hselects : l.Selects armament)
    (hunarmed : l.Unarmed) :
    Yields (fun _ => True)
      (fun r => (r.2.1.Selects armament ∧ r.2.1.Unarmed) ∧ Engaged me them r.2.2) (l.tick c) := by
  cases l with
  | findEnemy f =>
    refine (h.search f).bind ?_
    rintro ⟨s, next, c'⟩ ⟨hnext, cooldown, rfl⟩
    exact ⟨⟨trivial, trivial⟩, hnext⟩
  | attack a =>
    refine (h.volley a).bind ?_
    rintro ⟨s, next, c'⟩ ⟨hnext, aim, rfl⟩
    exact ⟨⟨trivial, trivial⟩, hnext⟩
  | _ =>
    refine ((Leaf.tick_effect _ c).weaken fun _ _ => trivial).mono ?_
    rintro ⟨s, next, c'⟩ ⟨heffect, hnext⟩
    refine ⟨⟨hselects.continues hnext, hunarmed.continues hnext⟩, ?_⟩
    obtain ⟨htarget, hfiring⟩ := heffect.quiet hunarmed nofun nofun h.not_isDrone
    exact h.of_ready (h.effect hselects heffect) hfiring htarget.trans

end Engaged

/-- A leaf fitted to the ship of a duel. -/
def Aboard (l : Leaf) : Prop := l.Selects armament ∧ l.Unarmed

theorem upholds_engaged (me them : ShipState) :
    Node.Upholds (fun _ => True) Aboard (Engaged me them) where
  leaf _ _ hl hc := hc.leaf hl.1 hl.2
  word _ hc := { hc with }

/-- There is nothing to charge in the loadout of the ship, and nothing with recoil. -/
theorem aboard_fit (o : Outfit) (ho : o.loadout = gunship) (roll : Float32) (kind : LeafKind) :
    Node.Fit Aboard (o.fit roll kind) := by
  have harsenal : o.arsenal = armament := congrArg Arsenal.ofLoadout ho
  cases kind with
  | selectWeapon kind =>
    exact Outfit.armed_cases trivial ⟨⟨kind, by rw [harsenal]⟩, trivial⟩
  | chargeWeapons =>
    rw [Outfit.fit, harsenal]
    trivial
  | useRecoil =>
    have hnone : (armament.filter fun weapon => decide (0 < weapon.recoil)).isEmpty = true := by
      decide
    rw [Outfit.fit, harsenal, Outfit.armed, if_pos hnone]
    trivial
  | activateDevice => exact Outfit.equipped_cases trivial ⟨trivial, trivial⟩
  | defendWithFrontalShield => exact Outfit.equipped_cases trivial ⟨trivial, trivial⟩
  | trackControllableAmmo => exact Outfit.capable_cases trivial fun _ => ⟨trivial, trivial⟩
  | spawnDrones => exact Outfit.capable_cases trivial fun _ => ⟨trivial, trivial⟩
  | undefined => trivial
  | _ => exact ⟨trivial, trivial⟩

/-- While the ship acts, nobody moves, and what fires in the end is aimed at the enemy. -/
theorem engaged_of_tick {a b : Agent} {step : Float32} {status : Status}
    (ha : a.Holds Aboard (Ready me them)) (htick : a.tick step = .ok (status, b)) :
    b.Holds Aboard (Engaged me them) := by
  obtain ⟨⟨status', root, context⟩, hroot, h⟩ := bind_eq_ok.mp htick
  cases h
  have hkept := Node.tick_yields (upholds_engaged me them) a.root ha.root _
    (ha.context.engaged step)
  obtain ⟨hfit, hcontext⟩ := hkept.of_eq_ok hroot
  exact ⟨hfit, hcontext⟩

end Duel

end Helm
