import Helm.Proofs.Pilot.Effect
import Helm.Proofs.Pilot.Run
import Helm.Proofs.World.Scene

/-!
# Helm.Proofs.Pilot.Memory

What evaluating a tree may change of what a ship keeps in mind. `Context.Evolves` relates the
context in which an evaluation starts to the one in which it ends, and is transitive, so that it is
enough to show it for every entry of `Leaf.Acts`. The clock, the ship and its weapons stay; berserk
and the commands that end the ship's part are for good; the target is nothing, an active enemy or
the mothership; and weapons are selected by their kind (`agent_memory`).
-/

namespace Helm

/-- The commands that end the ship's part in the battle are still given. -/
structure Controls.Lasts (before after : Controls) : Prop where
  selfDestruct : before.selfDestruct = true → after.selfDestruct = true
  vanish : before.vanish = true → after.vanish = true

namespace Controls.Lasts

theorem refl (c : Controls) : c.Lasts c := ⟨id, id⟩

theorem trans {a b c : Controls} (h₁ : a.Lasts b) (h₂ : b.Lasts c) : a.Lasts c :=
  ⟨fun h => h₂.selfDestruct (h₁.selfDestruct h), fun h => h₂.vanish (h₁.vanish h)⟩

theorem foldl {α : Type} {c : Controls} {f : Controls → α → Controls}
    (hf : ∀ (c : Controls) x, c.Lasts (f c x)) (items : List α) : c.Lasts (items.foldl f c) := by
  induction items generalizing c with
  | nil => exact .refl c
  | cons x rest ih => exact (hf c x).trans ih

theorem fireAll {c c' : Controls} (h : c.Lasts c') (slots : List Nat) :
    c.Lasts (slots.foldl Controls.fire c') :=
  h.trans (foldl (f := Controls.fire) (fun _ _ => ⟨id, id⟩) slots)

theorem activateAll {c c' : Controls} (h : c.Lasts c') (slots : List Nat) :
    c.Lasts (slots.foldl Controls.activate c') :=
  h.trans (foldl (f := Controls.activate) (fun _ _ => ⟨id, id⟩) slots)

theorem turn (c : Controls) (course : Float32) : c.Lasts { c with course := some course } :=
  ⟨id, id⟩

theorem steer (c : Controls) (course thrust : Float32) : c.Lasts (c.steer course thrust) :=
  ⟨id, id⟩

theorem charge (c : Controls) (slot : Nat) : c.Lasts (c.charge slot) := by
  rw [Controls.charge]
  split
  · exact .refl c
  · exact ⟨id, id⟩

end Controls.Lasts

namespace Context

/-- The ship is in the scene, and is a drone. -/
def IsDrone (c : Context) : Prop := ∃ me, c.own? = some me ∧ me.isDrone = true

/-- What a ship may take as its target. -/
inductive MayTarget (c : Context) : Option ShipId → Prop where
  | nothing : MayTarget c none
  | enemy {id : ShipId} (hactive : c.scene.isActive id = true)
      (hhostile : c.scene.Hostile c.memory.ship id) : MayTarget c (some id)
  | mothership {me : ShipState} {id : ShipId} (hown : c.own? = some me)
      (hdrone : me.isDrone = true) (howner : me.owner = some id)
      (hactive : c.scene.isActive id = true) : MayTarget c (some id)

/-- What is for good, whatever happens. -/
structure Lasts (before after : Context) : Prop where
  berserk : before.memory.berserk = true → after.memory.berserk = true
  controls : before.memory.controls.Lasts after.memory.controls
  selection : before.memory.selection.isSome = true → after.memory.selection.isSome = true

theorem Lasts.refl (c : Context) : c.Lasts c := ⟨id, .refl _, id⟩

theorem Lasts.trans {a b c : Context} (h₁ : a.Lasts b) (h₂ : b.Lasts c) : a.Lasts c :=
  ⟨fun h => h₂.berserk (h₁.berserk h), h₁.controls.trans h₂.controls,
    fun h => h₂.selection (h₁.selection h)⟩

/-- The second context may be what evaluating a tree of the ship makes of the first. -/
structure Evolves (owned : Arsenal) (before after : Context) : Prop extends
    before.Lasts after where
  ships : after.scene.ships = before.scene.ships
  ship : after.memory.ship = before.memory.ship
  arsenal : after.memory.arsenal = before.memory.arsenal
  time : after.memory.time = before.memory.time
  timeStep : after.memory.timeStep = before.memory.timeStep
  frame : after.memory.frame = before.memory.frame
  enraged : after.memory.berserk = true → before.memory.berserk = true ∨ before.IsDrone
  target : before.scene.Faithful →
    after.memory.target = before.memory.target ∨ before.MayTarget after.memory.target
  selected : after.memory.selection = before.memory.selection ∨
    ∃ kind, after.memory.selection = some (owned.ofKind kind)

namespace Evolves

variable {owned : Arsenal} {a b c : Context}

theorem refl (owned : Arsenal) (c : Context) : Evolves owned c c where
  toLasts := .refl c
  ships := rfl
  ship := rfl
  arsenal := rfl
  time := rfl
  timeStep := rfl
  frame := rfl
  enraged h := .inl h
  target _ := .inl rfl
  selected := .inl rfl

/-! What is asked of the scene has the same answer before and after. -/

theorem own? (h : Evolves owned a b) : b.own? = a.own? := by
  rw [Context.own?, Context.own?, Scene.ship?, Scene.ship?, h.ships, h.ship]

theorem isActive (h : Evolves owned a b) (id : ShipId) :
    b.scene.isActive id = a.scene.isActive id := by
  rw [Scene.isActive, Scene.isActive, Scene.status, Scene.status, h.ships]

theorem hostile (h : Evolves owned a b) {own id : ShipId} (hb : b.scene.Hostile own id) :
    a.scene.Hostile own id := by
  rwa [Scene.Hostile, ← h.ships]

theorem isDrone (h : Evolves owned a b) (hb : b.IsDrone) : a.IsDrone := by
  rwa [IsDrone, ← h.own?]

theorem faithful (h : Evolves owned a b) (ha : a.scene.Faithful) : b.scene.Faithful where
  found := by
    simp only [Scene.ship?, h.ships]
    exact ha.found
  enemies := by
    simp only [Scene.enemiesOf, Scene.isActive, Scene.status, Scene.Hostile, h.ships]
    exact ha.enemies

theorem mayTarget (h : Evolves owned a b) {target : Option ShipId}
    (hb : b.MayTarget target) : a.MayTarget target := by
  cases hb with
  | nothing => exact .nothing
  | enemy hactive hhostile =>
    rw [h.isActive] at hactive
    rw [h.ship] at hhostile
    exact .enemy hactive (h.hostile hhostile)
  | mothership hown hdrone howner hactive =>
    rw [h.own?] at hown
    rw [h.isActive] at hactive
    exact .mothership hown hdrone howner hactive

theorem trans (h₁ : Evolves owned a b) (h₂ : Evolves owned b c) :
    Evolves owned a c where
  toLasts := h₁.toLasts.trans h₂.toLasts
  ships := h₂.ships.trans h₁.ships
  ship := h₂.ship.trans h₁.ship
  arsenal := h₂.arsenal.trans h₁.arsenal
  time := h₂.time.trans h₁.time
  timeStep := h₂.timeStep.trans h₁.timeStep
  frame := h₂.frame.trans h₁.frame
  enraged hc := by
    rcases h₂.enraged hc with hb | hdrone
    · exact h₁.enraged hb
    · exact .inr (h₁.isDrone hdrone)
  target ha := by
    rcases h₂.target (h₁.faithful ha) with heq | htarget
    · rw [heq]
      exact h₁.target ha
    · exact .inr (h₁.mayTarget htarget)
  selected := by
    rcases h₂.selected with heq | hkind
    · rw [heq]
      exact h₁.selected
    · exact .inr hkind

/-- Commands that leave alone those that end the ship's part. -/
theorem command (owned : Arsenal) (c : Context) {f : Controls → Controls}
    (hf : c.memory.controls.Lasts (f c.memory.controls)) : Evolves owned c (c.command f) :=
  { refl owned c with controls := hf }

end Evolves

/-! ## Leaves -/

/-- An enemy that is pursued is found under its own number, and so is the ship. -/
theorem Pursues.mayTarget {c : Context} {target : Option ShipId} (h : c.Pursues target)
    (hfaithful : c.scene.Faithful) : c.MayTarget target := by
  obtain ⟨me, id, enemy, hown, henemy, hship, htarget⟩ := h
  obtain ⟨hactive, hfound⟩ := Scene.ship?_of_activeShip? hship
  have hid : enemy.id = id := hfaithful.found id enemy hfound
  have hme : me.id = c.memory.ship := hfaithful.found _ me hown
  rw [hme] at henemy
  obtain rfl : target = some id := by
    rcases htarget with htarget | htarget
    · exact htarget
    · rw [htarget, hid]
  exact .enemy hactive (hfaithful.enemies _ _ henemy).2

theorem mayTarget_mothership {c : Context} {me owner : ShipState} (hown : c.own? = some me)
    (hdrone : me.isDrone = true) (howner : c.mothership? = some owner)
    (hfaithful : c.scene.Faithful) : c.MayTarget (some owner.id) := by
  rw [mothership?, hown, Option.bind_eq_bind, Option.bind_some] at howner
  obtain ⟨id, hid, hship⟩ := Option.bind_eq_some_iff.mp howner
  obtain ⟨hactive, hfound⟩ := Scene.ship?_of_activeShip? hship
  rw [hfaithful.found id owner hfound]
  exact .mothership hown hdrone hid hactive

end Context

/-- A leaf that selects weapons selects those of one kind. -/
def Leaf.Selects (owned : Arsenal) : Leaf → Prop
  | .action (.selectWeapon weapons) => ∃ kind, weapons = owned.ofKind kind
  | _ => True

theorem Leaf.Selects.continues {owned : Arsenal} {l next : Leaf} (h : l.Selects owned)
    (hnext : l.Continues next) : next.Selects owned :=
  hnext.keeps h (fun _ => trivial) (fun _ => trivial) (fun _ => trivial) fun _ => trivial

namespace Context.Evolves

variable {owned : Arsenal} {c c' : Context} {l : Leaf}

theorem searched (h : c.Searched c')
    (htarget : c.scene.Faithful →
      c'.memory.target = c.memory.target ∨ c.MayTarget c'.memory.target) :
    Evolves owned c c' := by
  obtain ⟨tally, dice, target, targetTime, -, rfl⟩ := h
  exact { refl owned c with target := htarget }

theorem afterFailure (h : l.AfterFailure c c') : Evolves owned c c' := by
  cases l with
  | findEnemy =>
    refine searched h.1 fun _ => ?_
    rcases h.2 with ⟨htarget, -⟩ | ⟨-, htarget, -⟩
    · exact .inl htarget
    · rw [htarget]
      exact .inr .nothing
  | action a =>
    cases a with
    | rechargeEnergy =>
      rcases h with rfl | ⟨-, rfl⟩
      · exact refl owned _
      · exact { refl owned c with }
    | _ =>
      cases h
      exact refl owned c
  | _ =>
    cases h
    exact refl owned c

theorem acts (hleaf : l.Selects owned) (h : l.Acts c c') : Evolves owned c c' := by
  cases h with
  | nothing => exact refl owned c
  | steer _ course => exact command owned c (.steer _ course _)
  | turn _ course => exact command owned c (.turn _ course)
  | halt => exact command owned c ⟨id, id⟩
  | search _ hsearched htarget => exact searched hsearched fun hf => .inr (htarget.mayTarget hf)
  | adopt hown hdrone howner =>
    refine { refl owned c with target := fun hfaithful => ?_ }
    exact .inr (mayTarget_mothership hown hdrone howner hfaithful)
  | renewTargets =>
    rw [renewSecondaryTargets]
    split
    · exact refl owned c
    · split <;> exact { refl owned c with }
  | renewThreats =>
    rw [Context.renewThreats]
    split
    · exact refl owned c
    · split <;> exact { refl owned c with }
  | select weapons =>
    obtain ⟨kind, rfl⟩ := hleaf
    exact { refl owned c with selection := fun _ => rfl, selected := .inr ⟨kind, rfl⟩ }
  | attack _ _ course =>
    exact { refl owned c with controls := (Controls.Lasts.turn _ course).fireAll _ }
  | charge weapons gap =>
    refine command owned c (.foldl (fun controls weapon => ?_) weapons.weapons)
    split
    · exact ⟨id, id⟩
    · exact .charge controls weapon.slot
  | recoil _ course => exact command owned c ((Controls.Lasts.turn _ course).fireAll _)
  | ram _ course => exact command owned c ((Controls.Lasts.steer _ course 1).activateAll _)
  | activate => exact command owned c ((Controls.Lasts.refl _).activateAll _)
  | shield _ course => exact command owned c ((Controls.Lasts.turn _ course).activateAll _)
  | steerAmmo => exact command owned c ⟨id, id⟩
  | launch => exact command owned c ⟨id, id⟩
  | detonate => exact command owned c ⟨fun _ => rfl, id⟩
  | vanish => exact command owned c ⟨id, fun _ => rfl⟩
  | restore => exact { refl owned c with }
  | rage hown hdrone =>
    exact { refl owned c with
      berserk := fun _ => rfl
      enraged := fun _ => .inr ⟨_, hown, hdrone⟩ }
  | post => exact { refl owned c with }

theorem effect (hleaf : l.Selects owned) {r : Status × Context} (hr : l.Effect c r) :
    Evolves owned c r.2 := by
  cases hr with
  | fails hfailure => exact afterFailure hfailure
  | acts _ hacts => exact acts hleaf hacts

end Context.Evolves

/-- Every leaf and every draw goes on with the evaluation. -/
theorem upholds_evolves (owned : Arsenal) (start : Context) :
    Node.Upholds (fun _ => True) (Leaf.Selects owned) (Context.Evolves owned start) where
  leaf := by
    intro l c hl hc
    have heffect := (l.tick_effect c).weaken fun _ _ => trivial
    exact heffect.mono fun r hr => ⟨hl.continues hr.2, hc.trans (.effect hl hr.1)⟩
  word := fun c hc => hc.trans { Context.Evolves.refl owned c with }

/-! ## Runs -/

namespace Context

/-- The ship is the one of the outfit, and the weapons selected are all of one kind that it has. -/
structure Belongs (o : Outfit) (c : Context) : Prop where
  ship : c.memory.ship = o.ship
  arsenal : c.memory.arsenal = o.arsenal
  selection : ∀ weapons, c.memory.selection = some weapons → ∃ kind, weapons = o.arsenal.ofKind kind

theorem Evolves.belongs {o : Outfit} {before after : Context}
    (h : Evolves o.arsenal before after) (hbefore : before.Belongs o) : after.Belongs o where
  ship := h.ship.trans hbefore.ship
  arsenal := h.arsenal.trans hbefore.arsenal
  selection weapons hweapons := by
    rcases h.selected with heq | ⟨kind, hkind⟩
    · exact hbefore.selection weapons (heq ▸ hweapons)
    · rw [hkind] at hweapons
      exact ⟨kind, (Option.some.inj hweapons).symm⟩

end Context

/-- What a tick makes of the context in which it evaluates the tree. -/
theorem Agent.evolves_of_tick {owned : Arsenal} {a b : Agent} {timeStep : Float32}
    {status : Status} (hroot : a.root.Everywhere (Node.Fit (Leaf.Selects owned)))
    (htick : a.tick timeStep = .ok (status, b)) :
    Context.Evolves owned ((a.context.advance timeStep).command Controls.beginTick) b.context := by
  obtain ⟨⟨status', root, context⟩, heq, h⟩ := bind_eq_ok.mp htick
  cases h
  have hupholds := upholds_evolves owned ((a.context.advance timeStep).command Controls.beginTick)
  exact ((Node.tick_yields hupholds a.root hroot _ (.refl owned _)).of_eq_ok heq).2

/-- In whatever state an agent is looked at, it goes on from what it had in mind. -/
theorem invariant_lasts (o : Outfit) (start : Context) :
    Agent.Invariant (fun _ => True) (Leaf.Selects o.arsenal)
      (fun c => c.Belongs o ∧ start.Lasts c) where
  upholds :=
    { leaf := fun l c hl hc => ((upholds_evolves o.arsenal c).leaf l c hl (.refl _ c)).mono
        fun _ hr => ⟨hr.1, hr.2.belongs hc.1, hc.2.trans hr.2.toLasts⟩
      word := fun _ hc => ⟨{ hc.1 with }, { hc.2 with }⟩ }
  -- beginning a tick takes back all commands but those that end the ship's part
  start _ _ hc := ⟨{ hc.1 with }, { hc.2 with controls := hc.2.controls.trans ⟨id, id⟩ }⟩
  inScene _ _ hc := ⟨{ hc.1 with }, { hc.2 with }⟩
  takeMessages _ hc := ⟨{ hc.1 with }, { hc.2 with }⟩

namespace Outfit

theorem selects_fit (o : Outfit) (roll : Float32) (kind : LeafKind) :
    Node.Fit (Leaf.Selects o.arsenal) (o.fit roll kind) := by
  cases kind with
  | selectWeapon kind => exact armed_cases trivial ⟨kind, rfl⟩
  | chargeWeapons => exact armed_cases trivial trivial
  | useRecoil => exact armed_cases trivial trivial
  | activateDevice => exact equipped_cases trivial trivial
  | defendWithFrontalShield => exact equipped_cases trivial trivial
  | trackControllableAmmo => exact capable_cases trivial fun _ => trivial
  | spawnDrones => exact capable_cases trivial fun _ => trivial
  | _ => trivial

/-- At every point of every run the ship and its weapons are those of the outfit, and weapons are
selected by kind. A tick changes only what evaluating a tree may change, and what is for good lasts
to the end of the run. -/
theorem agent_memory (o : Outfit) (scene : Scene) (tree : TreeDefinition)
    (unseeded : Purpose → Dice) {a b : Agent} (ha : o.agent scene tree unseeded = .ok a)
    (hrun : a.Reaches b) :
    b.context.Belongs o ∧
      (∀ timeStep status c, b.tick timeStep = .ok (status, c) →
        Context.Evolves o.arsenal ((b.context.advance timeStep).command Controls.beginTick)
          c.context) ∧
      ∀ c, b.Reaches c → b.context.Lasts c.context := by
  let start : Context := .create o.ship o.loadout scene (o.dice unseeded .runtime)
  have hstart : start.Belongs o ∧ start.Lasts start := ⟨⟨rfl, rfl, nofun⟩, .refl start⟩
  have hagent : a.Holds (Leaf.Selects o.arsenal) fun c => c.Belongs o ∧ start.Lasts c :=
    (o.agent_yields scene tree unseeded (fun _ kind _ roll _ => o.selects_fit roll kind)
      hstart).of_eq_ok ha
  have hb := Agent.holds_of_reaches (invariant_lasts o start) hrun hagent
  refine ⟨hb.context.1, fun timeStep status c htick => ?_, fun c hc => ?_⟩
  · exact Agent.evolves_of_tick hb.root htick
  · have hholds := Agent.holds_of_reaches (invariant_lasts o b.context) hc
      ⟨hb.root, hb.context.1, .refl _⟩
    exact hholds.context.2

/-- A drone that has nothing but its mothership to go for. -/
def stinger : Outfit := { ship := ⟨1⟩, loadout := {} }

/-- The drone goes berserk and turns on its mothership. -/
def mutiny : TreeDefinition where
  root := some (.group .always .sequence
    [.leaf .always .goBerserk, .leaf .always .targetMothership])

/-- The drone beside its mothership. -/
def hangar : Scene :=
  (({} : Scene).addShip (.create ⟨2⟩ .zero) 0).addShip (.createDrone ⟨1⟩ ⟨2⟩ .zero) 0

theorem agent_memory_mutiny : ∃ a b : Agent,
    stinger.agent hangar mutiny default = .ok a ∧ a.tick 1 = .ok (.success, b) ∧
      a.context.scene.Faithful ∧ b.context.memory.berserk = true ∧
      b.context.memory.target = some ⟨2⟩ ∧
      a.context.Belongs stinger ∧ a.context.Lasts b.context ∧
      Context.Evolves stinger.arsenal ((a.context.advance 1).command Controls.beginTick)
        b.context := by
  let start : Agent :=
    { context := .create stinger.ship stinger.loadout hangar (stinger.dice default .runtime)
      root := .sequence [does .goBerserk, does .targetMothership] }
  have ha : stinger.agent hangar mutiny default = .ok start := rfl
  have hfaithful : hangar.Faithful := Scene.faithful_of_entries (by decide) (by decide)
  obtain ⟨b, hb⟩ : ∃ b, start.tick 1 = .ok (.success, b) := ⟨_, rfl⟩
  obtain ⟨hbelongs, hevolves, hlasts⟩ := agent_memory stinger hangar mutiny default ha (.refl start)
  have hlast := hlasts b (.tick (.refl start) hb)
  have hevolved := hevolves 1 .success b hb
  cases hb
  exact ⟨start, _, ha, rfl, hfaithful, rfl, rfl, hbelongs, hlast, hevolved⟩

end Outfit

end Helm
