import Helm.Proofs.Pilot.Effect
import Helm.Proofs.Pilot.Run

/-!
# Helm.Proofs.Pilot.Commands

A ship is given only commands that it can carry out. `Controls.Fits` says what that means for a
loadout. The weapons and devices that a leaf uses were looked up in the loadout when the leaf was
fitted (`Leaf.Fits`), but an attack fires those selected by another leaf at an earlier time, so the
invariant of a run is about the weapon selection as well (`Context.Fits`).
-/

namespace Helm

/-! ## Commands that fit a loadout -/

/-- All of the weapons are fitted. -/
def Arsenal.Within (l : Loadout) (weapons : Arsenal) : Prop :=
  ∀ weapon ∈ weapons.weapons, weapon ∈ l.weapons

/-- There is a device in each of the slots. -/
def Loadout.HasDevices (l : Loadout) (slots : List Nat) : Prop :=
  ∀ slot ∈ slots, ∃ device ∈ l.devices, device.slot = slot

namespace Controls

/-- A ship with the loadout can carry the commands out. -/
structure Fits (l : Loadout) (c : Controls) : Prop where
  firing : ∀ slot, c.firing.contains slot = true → ∃ weapon ∈ l.weapons, weapon.slot = slot
  charging : ∀ slot, c.charging.contains slot = true →
    ∃ weapon ∈ l.weapons, weapon.kind = .charged ∧ weapon.slot = slot
  exclusive : ∀ slot, ¬(c.firing.contains slot = true ∧ c.charging.contains slot = true)
  devices : ∀ slot, c.devices.contains slot = true → ∃ device ∈ l.devices, device.slot = slot
  drones : c.launchDrones = true → 0 < l.droneBays
  ammo : c.ammoTarget.isSome = true → ∃ weapon ∈ l.weapons, weapon.kind = .controllable
  thrust : c.thrust = 0 ∨ c.thrust = 0.5 ∨ c.thrust = 1

variable {l : Loadout} {c : Controls}

theorem fits_beginTick (l : Loadout) (c : Controls) : c.beginTick.Fits l where
  firing _ h := nomatch h
  charging _ h := nomatch h
  exclusive _ h := nomatch h.1
  devices _ h := nomatch h
  drones h := nomatch h
  ammo h := nomatch h
  thrust := .inl rfl

namespace Fits

theorem steer (h : c.Fits l) (course : Float32) {thrust : Float32}
    (hthrust : thrust = 1 ∨ thrust = 0.5) : (c.steer course thrust).Fits l := by
  have hfull : Scalar.clamp 0 1 (1 : Float32) = 1 := by decide
  have hhalf : Scalar.clamp 0 1 (0.5 : Float32) = 0.5 := by decide
  refine { h with thrust := ?_ }
  rcases hthrust with rfl | rfl
  · exact .inr (.inr hfull)
  · exact .inr (.inl hhalf)

theorem turn (h : c.Fits l) (course : Float32) :
    Controls.Fits l { c with course := some course } :=
  { h with }

theorem fire (h : c.Fits l) {weapon : Weapon} (hweapon : weapon ∈ l.weapons) :
    (c.fire weapon.slot).Fits l := by
  refine { h with firing := ?_, charging := ?_, exclusive := ?_ }
  · intro slot hslot
    rcases (SlotSet.contains_insert _ _ _).mp hslot with rfl | hslot
    · exact ⟨weapon, hweapon, rfl⟩
    · exact h.firing slot hslot
  · intro slot hslot
    exact h.charging slot ((SlotSet.contains_erase _ _ _).mp hslot).1
  · rintro slot ⟨hfiring, hcharging⟩
    obtain ⟨hcharging, hne⟩ := (SlotSet.contains_erase _ _ _).mp hcharging
    rcases (SlotSet.contains_insert _ _ _).mp hfiring with heq | hfiring
    · exact hne heq
    · exact h.exclusive slot ⟨hfiring, hcharging⟩

theorem charge (h : c.Fits l) {weapon : Weapon} (hweapon : weapon ∈ l.weapons)
    (hkind : weapon.kind = .charged) : (c.charge weapon.slot).Fits l := by
  rw [Controls.charge]
  split
  · exact h
  · rename_i hfree
    refine { h with charging := ?_, exclusive := ?_ }
    · intro slot hslot
      rcases (SlotSet.contains_insert _ _ _).mp hslot with rfl | hslot
      · exact ⟨weapon, hweapon, hkind, rfl⟩
      · exact h.charging slot hslot
    · rintro slot ⟨hfiring, hcharging⟩
      rcases (SlotSet.contains_insert _ _ _).mp hcharging with rfl | hcharging
      · exact hfree hfiring
      · exact h.exclusive slot ⟨hfiring, hcharging⟩

theorem activate (h : c.Fits l) {device : Device} (hdevice : device ∈ l.devices) :
    (c.activate device.slot).Fits l := by
  refine { h with devices := ?_ }
  intro slot hslot
  rcases (SlotSet.contains_insert _ _ _).mp hslot with rfl | hslot
  · exact ⟨device, hdevice, rfl⟩
  · exact h.devices slot hslot

theorem fireAll (h : c.Fits l) {weapons : Arsenal} (hweapons : weapons.Within l) :
    (weapons.slots.foldl Controls.fire c).Fits l := by
  refine List.foldlRecOn (motive := Fits l) weapons.slots Controls.fire h fun c hc slot hslot => ?_
  obtain ⟨weapon, hweapon, rfl⟩ := List.mem_map.mp hslot
  exact hc.fire (hweapons weapon hweapon)

theorem chargeAll (h : c.Fits l) {weapons : Arsenal} (hweapons : weapons.Within l)
    (hkind : ∀ weapon ∈ weapons.weapons, weapon.kind = .charged) (gap : Float32) :
    (weapons.weapons.foldl (fun controls weapon =>
      if gap ≤ weapon.range then controls.fire weapon.slot
      else controls.charge weapon.slot) c).Fits l := by
  refine List.foldlRecOn (motive := Fits l) weapons.weapons _ h fun c hc weapon hweapon => ?_
  split
  · exact hc.fire (hweapons weapon hweapon)
  · exact hc.charge (hweapons weapon hweapon) (hkind weapon hweapon)

theorem activateAll (h : c.Fits l) {slots : List Nat} (hslots : l.HasDevices slots) :
    (slots.foldl Controls.activate c).Fits l := by
  refine List.foldlRecOn (motive := Fits l) slots Controls.activate h fun c hc slot hslot => ?_
  obtain ⟨device, hdevice, rfl⟩ := hslots slot hslot
  exact hc.activate hdevice

end Fits

end Controls

/-! ## Leaves that fit a loadout -/

/-- What the leaf uses is in the loadout. -/
def Leaf.Fits (l : Loadout) : Leaf → Prop
  | .action (.selectWeapon weapons) => weapons.Within l
  | .action (.chargeWeapons weapons) =>
    weapons.Within l ∧ ∀ weapon ∈ weapons.weapons, weapon.kind = .charged
  | .action (.useRecoil weapons) => weapons.Within l
  | .action (.ram accelerators) => l.HasDevices accelerators
  | .action (.activateDevice slots) => l.HasDevices slots
  | .action (.defendWithFrontalShield slots) => l.HasDevices slots
  | .action .trackControllableAmmo => ∃ weapon ∈ l.weapons, weapon.kind = .controllable
  | .action .spawnDrones => 0 < l.droneBays
  | _ => True

theorem Leaf.Fits.continues {l : Loadout} {leaf next : Leaf} (h : leaf.Fits l)
    (hnext : leaf.Continues next) : next.Fits l :=
  hnext.keeps h (fun _ => trivial) (fun _ => trivial) (fun _ => trivial) fun _ => trivial

theorem Loadout.hasDevices_deviceSlots (l : Loadout) (kind : DeviceClass) :
    l.HasDevices (l.deviceSlots kind) := by
  intro slot hslot
  obtain ⟨device, hdevice, rfl⟩ := List.mem_map.mp hslot
  exact ⟨device, (List.mem_filter.mp hdevice).1, rfl⟩

theorem Loadout.of_hasWeapon {l : Loadout} {kind : WeaponKind} (h : l.hasWeapon kind = true) :
    ∃ weapon ∈ l.weapons, weapon.kind = kind := by
  simpa [hasWeapon] using h

namespace Outfit

theorem within_filter (o : Outfit) (test : Weapon → Bool) :
    (o.arsenal.filter test).Within o.loadout :=
  fun _ hmem => (List.mem_filter.mp hmem).1

/-- A leaf is fitted with what the loadout holds. -/
theorem fits_fit (o : Outfit) (roll : Float32) (kind : LeafKind) :
    Node.Fit (Leaf.Fits o.loadout) (o.fit roll kind) := by
  cases kind with
  | selectWeapon => exact armed_cases trivial (o.within_filter _)
  | chargeWeapons =>
    refine armed_cases trivial ⟨o.within_filter _, fun weapon hmem => ?_⟩
    exact of_decide_eq_true (List.mem_filter.mp hmem).2
  | useRecoil => exact armed_cases trivial (o.within_filter _)
  | ram useShipSystems =>
    cases useShipSystems with
    | true => exact o.loadout.hasDevices_deviceSlots .accelerator
    | false => exact fun _ hmem => absurd hmem List.not_mem_nil
  | activateDevice => exact equipped_cases trivial (o.loadout.hasDevices_deviceSlots _)
  | defendWithFrontalShield => exact equipped_cases trivial (o.loadout.hasDevices_deviceSlots _)
  | trackControllableAmmo => exact capable_cases trivial Loadout.of_hasWeapon
  | spawnDrones => exact capable_cases trivial of_decide_eq_true
  | _ => trivial

end Outfit

/-! ## Runs -/

namespace Context

/-- The weapons to fire with are in the loadout, and so is what the commands are about. -/
structure Fits (l : Loadout) (c : Context) : Prop where
  arsenal : c.memory.arsenal.Within l
  selection : ∀ weapons, c.memory.selection = some weapons → weapons.Within l
  controls : c.memory.controls.Fits l

namespace Fits

variable {l : Loadout} {c : Context}

theorem command (h : c.Fits l) {f : Controls → Controls} (hf : (f c.memory.controls).Fits l) :
    (c.command f).Fits l :=
  { h with controls := hf }

theorem weapons (h : c.Fits l) : c.weapons.Within l := by
  rw [Context.weapons]
  cases hselection : c.memory.selection with
  | none => exact h.arsenal
  | some weapons => exact h.selection weapons hselection

theorem searched (h : c.Fits l) {c' : Context} (hc' : c.Searched c') : c'.Fits l := by
  obtain ⟨tally, dice, target, targetTime, -, rfl⟩ := hc'
  exact { h with }

theorem afterFailure (h : c.Fits l) {leaf : Leaf} {c' : Context} (hc' : leaf.AfterFailure c c') :
    c'.Fits l := by
  cases leaf with
  | findEnemy => exact h.searched hc'.1
  | action a =>
    cases a with
    | rechargeEnergy =>
      rcases hc' with rfl | ⟨-, rfl⟩
      · exact h
      · exact { h with }
    | _ =>
      cases hc'
      exact h
  | _ =>
    cases hc'
    exact h

theorem acts (h : c.Fits l) {leaf : Leaf} (hleaf : leaf.Fits l) {c' : Context}
    (hc' : leaf.Acts c c') : c'.Fits l := by
  cases hc' with
  | nothing => exact h
  | steer _ course hthrust => exact h.command (h.controls.steer course hthrust)
  | turn _ course => exact h.command (h.controls.turn course)
  | halt => exact h.command { h.controls with thrust := .inl rfl }
  | search _ hsearched _ => exact h.searched hsearched
  | adopt => exact { h with }
  | renewTargets =>
    rw [renewSecondaryTargets]
    split
    · exact h
    · split <;> exact { h with }
  | renewThreats =>
    rw [Context.renewThreats]
    split
    · exact h
    · split <;> exact { h with }
  | select weapons =>
    refine { h with selection := ?_ }
    intro selected hselected
    cases hselected
    exact hleaf
  | attack _ _ course hready =>
    -- the weapons may have been selected by another leaf, in an earlier tick
    have hweapons : Arsenal.Within l _ := fun weapon hmem => h.weapons weapon (hready weapon hmem)
    exact { h with controls := (h.controls.turn course).fireAll hweapons }
  | charge _ gap => exact h.command (h.controls.chargeAll hleaf.1 hleaf.2 gap)
  | recoil _ course => exact h.command ((h.controls.turn course).fireAll hleaf)
  | ram _ course => exact h.command ((h.controls.steer course (.inl rfl)).activateAll hleaf)
  | activate => exact h.command (h.controls.activateAll hleaf)
  | shield _ course => exact h.command ((h.controls.turn course).activateAll hleaf)
  | steerAmmo => exact h.command { h.controls with ammo := fun _ => hleaf }
  | launch => exact h.command { h.controls with drones := fun _ => hleaf }
  | detonate => exact h.command { h.controls with }
  | vanish => exact h.command { h.controls with }
  | restore => exact { h with }
  | rage => exact { h with }
  | post => exact { h with }

theorem effect (h : c.Fits l) {leaf : Leaf} (hleaf : leaf.Fits l) {r : Status × Context}
    (hr : leaf.Effect c r) : r.2.Fits l := by
  cases hr with
  | fails hfailure => exact h.afterFailure hfailure
  | acts _ hacts => exact h.acts hleaf hacts

end Fits

end Context

/-- Whatever happens, an agent gives only commands that fit its loadout. -/
theorem invariant_fits (l : Loadout) :
    Agent.Invariant (fun _ => True) (Leaf.Fits l) (Context.Fits l) where
  upholds :=
    { leaf := by
        intro leaf c hleaf hc
        have heffect := (leaf.tick_effect c).weaken fun _ _ => trivial
        exact heffect.mono fun r hr => ⟨hleaf.continues hr.2, hc.effect hleaf hr.1⟩
      word := fun _ h => { h with } }
  start _ _ h := { h with controls := Controls.fits_beginTick l _ }
  inScene _ _ h := { h with }
  takeMessages _ h := { h with }

namespace Outfit

/-- After every tick of every run, the commands fit the ship's loadout. -/
theorem agent_commands (o : Outfit) (scene : Scene) (tree : TreeDefinition)
    (unseeded : Purpose → Dice) {a b c : Agent} {timeStep : Float32} {status : Status}
    (ha : o.agent scene tree unseeded = .ok a) (hrun : a.Reaches b)
    (htick : b.tick timeStep = .ok (status, c)) : c.context.memory.controls.Fits o.loadout := by
  have hinvariant := invariant_fits o.loadout
  have hcontext : Context.Fits o.loadout
      (.create o.ship o.loadout scene (o.dice unseeded .runtime)) :=
    ⟨fun _ hmem => hmem, nofun, Controls.fits_beginTick o.loadout {}⟩
  have hstart := (o.agent_yields scene tree unseeded
    (fun _ kind _ roll _ => o.fits_fit roll kind) hcontext).of_eq_ok ha
  have hb := Agent.holds_of_reaches hinvariant hrun hstart
  exact ((Agent.tick_yields hinvariant hb timeStep).of_eq_ok htick).context.controls

/-- A ship with a decoy in its second slot. -/
def smuggler : Outfit := { ship := ⟨1⟩, loadout := { devices := [⟨0, .cloaking⟩, ⟨1, .decoy⟩] } }

/-- The second of two ticks, between which another ship has come. -/
theorem agent_commands_decoy : ∃ a b c : Agent,
    smuggler.agent {} { root := some (.leaf .always (.activateDevice .decoy)) } default = .ok a ∧
      a.Reaches b ∧ b.tick 1 = .ok (.success, c) ∧
      c.context.memory.controls.devices.contains 1 = true ∧
      c.context.memory.controls.Fits smuggler.loadout := by
  have hfinite : ∀ x ∈ (LeafKind.activateDevice .decoy).parameters, x.isFinite = true := nofun
  let start : Agent :=
    { context := .create smuggler.ship smuggler.loadout {} (smuggler.dice default .runtime)
      root := does (.activateDevice [1]) }
  have ha : smuggler.agent {} { root := some (.leaf .always (.activateDevice .decoy)) } default =
      .ok start := by
    rw [agent, smuggler.buildTree_leaf _ _ hfinite]
    rfl
  obtain ⟨first, hfirst⟩ : ∃ first, start.tick 1 = .ok (.success, first) := ⟨_, rfl⟩
  have hrun : start.Reaches (first.inScene (·.addShip (.create ⟨2⟩ .zero) 1)) :=
    .inScene _ (.tick (.refl start) hfirst)
  cases hfirst
  exact ⟨start, _, _, ha, hrun, rfl, rfl, agent_commands smuggler {} _ default ha hrun rfl⟩

end Outfit

end Helm
