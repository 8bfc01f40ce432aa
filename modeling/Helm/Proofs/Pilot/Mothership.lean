import Helm.Proofs.Pilot.Effect

/-!
# Helm.Proofs.Pilot.Mothership

Which ships have a mothership. The class of a ship and its owner are two fields of its state, and
either may be set without the other. Of the leaves that are about a mothership only two ask whether
the ship is a drone; the others go by its owner alone (`Action.Finds`). So a ship that is no drone
has no mothership and learns nothing of one exactly when nobody owns it (`mothership_leaves`).
-/

namespace Helm

theorem Scene.isSome_activeShip? (s : Scene) (id : ShipId) :
    (s.activeShip? id).isSome = s.isActive id := by
  cases hactive : s.isActive id with
  | true =>
    obtain ⟨state, hstate⟩ := exists_activeShip? hactive
    rw [hstate, Option.isSome_some]
  | false => simp [activeShip?, hactive]

/-! ## The owner -/

namespace Context

variable {c : Context} {me : ShipState}

theorem mothership?_of_own (hown : c.own? = some me) :
    c.mothership? = me.owner.bind c.scene.activeShip? := by
  rw [mothership?, hown]
  rfl

theorem isSome_mothership?_iff (hown : c.own? = some me) :
    c.mothership?.isSome = true ↔
      ∃ owner, me.owner = some owner ∧ c.scene.isActive owner = true := by
  rw [mothership?_of_own hown]
  cases me.owner <;> simp [Scene.isSome_activeShip?]

theorem owner?_eq_some_iff (hown : c.own? = some me) {state : ShipState} :
    Perform.owner? c = some state ↔
      ∃ owner, me.owner = some owner ∧ c.scene.ship? owner = some state := by
  rw [Perform.owner?, hown, Option.bind_eq_bind, Option.bind_some, Option.bind_eq_bind,
    Option.bind_eq_some_iff]

theorem ownerStatus?_eq_some_iff (hown : c.own? = some me) {status : ShipStatus} :
    Perform.ownerStatus? c = some status ↔
      ∃ owner, me.owner = some owner ∧ c.scene.status owner = status := by
  simp [Perform.ownerStatus?, hown, Option.bind_eq_some_iff]

end Context

/-! ## The leaves about a mothership -/

/-- The status tells whether something has been found. -/
def Status.Tells (status : Status) (found : Prop) : Prop :=
  status = .success ∧ found ∨ status = .failure ∧ ¬found

theorem Status.tells_ite {p found : Prop} [Decidable p] (h : p ↔ found) :
    Tells (if p then .success else .failure) found := by
  by_cases hp : p
  · rw [if_pos hp]
    exact .inl ⟨rfl, h.mp hp⟩
  · rw [if_neg hp]
    exact .inr ⟨rfl, mt h.mpr hp⟩

namespace Action

def ConcernsMothership : Action → Prop
  | targetMothership => True
  | flyAroundMothership _ => True
  | mothershipRetreated => True
  | mothershipDestroyed => True
  | mothershipLowHp _ => True
  | goBerserk => True
  | _ => False

/-- What an action looks for in the owner of a ship that is no drone. -/
def Finds (c : Context) (owner : ShipId) : Action → Prop
  | flyAroundMothership _ => c.scene.isActive owner = true
  | mothershipRetreated => c.scene.status owner = .retreated
  | mothershipDestroyed => c.scene.status owner = .destroyed
  | mothershipLowHp minValue => ∃ state, c.scene.ship? owner = some state ∧
      c.scene.isActive state.id = true ∧ state.hp < minValue
  | _ => False

/-- The ship is owned, and the action finds what it looks for in the owner. -/
def Learns (c : Context) (me : ShipState) (a : Action) : Prop :=
  ∃ owner, me.owner = some owner ∧ a.Finds c owner

variable {c : Context} {me : ShipState} {a : Action}

theorem not_learns_of_unowned (howner : me.owner = none) : ¬a.Learns c me := by
  rintro ⟨owner, hsome, -⟩
  rw [howner] at hsome
  cases hsome

theorem not_learns_of_not_finds (h : ∀ owner, ¬a.Finds c owner) : ¬a.Learns c me :=
  fun ⟨owner, _, hfinds⟩ => h owner hfinds

/-- Whatever the status of the owner is, one of the actions looks for it. -/
theorem exists_learns_of_owned {owner : ShipId} (howner : me.owner = some owner) :
    ∃ a : Action, a.ConcernsMothership ∧ a.Learns c me := by
  cases hstatus : c.scene.status owner with
  | active =>
    have hactive : c.scene.isActive owner = true := by simp [Scene.isActive, hstatus]
    exact ⟨.flyAroundMothership 0, trivial, owner, howner, hactive⟩
  | retreated => exact ⟨.mothershipRetreated, trivial, owner, howner, hstatus⟩
  | destroyed => exact ⟨.mothershipDestroyed, trivial, owner, howner, hstatus⟩

/-- An action about a mothership leaves nothing behind when it fails. -/
theorem perform_of_failure (ha : a.ConcernsMothership) (h : (a.perform c).1 = .failure) :
    a.perform c = (.failure, c) := by
  have heffect := a.perform_effect c
  generalize a.perform c = r at h heffect
  cases heffect with
  | fails hafter =>
    cases a with
    | rechargeEnergy => exact ha.elim
    | _ => rw [hafter]
  | acts hs => exact absurd h hs

theorem flyAroundMothership_status (radius : Float32) (hown : c.own? = some me) :
    (Perform.flyAroundMothership radius c).1 =
      if c.mothership?.isSome then .success else .failure := by
  rw [Perform.flyAroundMothership, hown]
  cases c.mothership? <;> rfl

theorem mothershipLowHp_status (minValue : Float32) (hown : c.own? = some me) :
    (Perform.mothershipLowHp minValue c).1.Tells (Learns c me (.mothershipLowHp minValue)) := by
  have hlearns : Learns c me (.mothershipLowHp minValue) ↔ ∃ state,
      Perform.owner? c = some state ∧ c.scene.isActive state.id = true ∧ state.hp < minValue := by
    simp only [Learns, Finds, Context.owner?_eq_some_iff hown]
    grind
  rw [Perform.mothershipLowHp]
  cases howner : Perform.owner? c with
  | none => exact .inr ⟨rfl, by simp [hlearns, howner]⟩
  | some state => exact Status.tells_ite (by simp [hlearns, howner])

/-- Unless the ship is a drone, an action about a mothership succeeds just when it finds what it
looks for in the owner. -/
theorem perform_tells (hown : c.own? = some me) (hclass : me.kind ≠ .drone)
    (ha : a.ConcernsMothership) : (a.perform c).1.Tells (a.Learns c me) := by
  have hdrone : me.isDrone = false := by simp [ShipState.isDrone, hclass]
  cases a with
  | targetMothership =>
    have hstatus : (perform .targetMothership c).1 = .failure := by
      simp [perform, Perform.targetMothership, hown, hdrone]
    exact .inr ⟨hstatus, not_learns_of_not_finds fun _ => id⟩
  | goBerserk =>
    have hstatus : (perform .goBerserk c).1 = .failure := by
      simp [perform, Perform.goBerserk, hown, hdrone]
    exact .inr ⟨hstatus, not_learns_of_not_finds fun _ => id⟩
  | flyAroundMothership radius =>
    rw [perform, flyAroundMothership_status radius hown]
    exact Status.tells_ite (Context.isSome_mothership?_iff hown)
  | mothershipRetreated => exact Status.tells_ite (Context.ownerStatus?_eq_some_iff hown)
  | mothershipDestroyed => exact Status.tells_ite (Context.ownerStatus?_eq_some_iff hown)
  | mothershipLowHp minValue => exact mothershipLowHp_status minValue hown
  | _ => exact ha.elim

/-- The evaluation of a leaf about a mothership. -/
theorem tick_tells (hown : c.own? = some me) (hclass : me.kind ≠ .drone)
    (ha : a.ConcernsMothership) :
    (∃ c', (Leaf.action a).tick c = .ok (.success, .action a, c') ∧ a.Learns c me) ∨
      (Leaf.action a).tick c = .ok (.failure, .action a, c) ∧ ¬a.Learns c me := by
  rcases perform_tells hown hclass ha with ⟨hstatus, hlearns⟩ | ⟨hstatus, hlearns⟩
  · refine .inl ⟨(a.perform c).2, ?_, hlearns⟩
    rw [Leaf.tick, ← hstatus]
  · refine .inr ⟨?_, hlearns⟩
    rw [Leaf.tick, perform_of_failure ha hstatus]

theorem tick_of_not_learns (hown : c.own? = some me) (hclass : me.kind ≠ .drone)
    (ha : a.ConcernsMothership) (h : ¬a.Learns c me) :
    (Leaf.action a).tick c = .ok (.failure, .action a, c) := by
  rcases tick_tells hown hclass ha with ⟨-, -, hlearns⟩ | ⟨htick, -⟩
  · exact absurd hlearns h
  · exact htick

end Action

namespace Context

variable {c : Context} {me : ShipState}

/-- A ship that is no drone has no mothership, and the leaves about one all fail and leave the
context as it was, exactly when nobody owns it. Two of the leaves fail even when somebody does, and
each of the others succeeds when it finds what it looks for in the owner. -/
theorem mothership_leaves (hown : c.own? = some me) (hclass : me.kind ≠ .drone) :
    (me.owner = none ↔ c.mothership? = none ∧ ∀ a : Action, a.ConcernsMothership →
      (Leaf.action a).tick c = .ok (.failure, .action a, c)) ∧
    (Leaf.action .targetMothership).tick c = .ok (.failure, .action .targetMothership, c) ∧
    (Leaf.action .goBerserk).tick c = .ok (.failure, .action .goBerserk, c) ∧
    c.mothership? = me.owner.bind c.scene.activeShip? ∧
    ∀ a : Action, a.ConcernsMothership →
      (∃ c', (Leaf.action a).tick c = .ok (.success, .action a, c') ∧ a.Learns c me) ∨
        (Leaf.action a).tick c = .ok (.failure, .action a, c) ∧ ¬a.Learns c me := by
  have hfails {a : Action} (ha : a.ConcernsMothership) (h : ¬a.Learns c me) :=
    Action.tick_of_not_learns hown hclass ha h
  refine ⟨⟨fun howner => ⟨?_, fun a ha => hfails ha (Action.not_learns_of_unowned howner)⟩, ?_⟩,
    hfails trivial (Action.not_learns_of_not_finds fun _ => id),
    hfails trivial (Action.not_learns_of_not_finds fun _ => id), mothership?_of_own hown,
    fun a ha => Action.tick_tells hown hclass ha⟩
  · rw [mothership?_of_own hown, howner]
    rfl
  · rintro ⟨-, hall⟩
    -- an owner has some status, and the leaf that looks for this status succeeds
    refine Option.eq_none_iff_forall_ne_some.mpr fun owner howner => ?_
    obtain ⟨a, ha, hlearns⟩ := Action.exists_learns_of_owned (c := c) howner
    rcases Action.tick_tells hown hclass ha with ⟨c', htick, -⟩ | ⟨-, hnot⟩
    · exact nomatch htick.symm.trans (hall a ha)
    · exact hnot hlearns

/-- The ship is launched next to another one, without being a drone. -/
def alongside (owner : Option ShipId) : Context where
  scene := (({} : Scene).addShip { ShipState.create ⟨1⟩ ⟨3, 0⟩ with owner := owner } 0).addShip
    (.create ⟨2⟩ .zero) 0
  memory := { ship := ⟨1⟩, arsenal := ⟨[]⟩, dice := .ofSeed 0 }

theorem mothership_leaves_alongside :
    ∃ me, (alongside none).own? = some me ∧ me.kind ≠ .drone ∧
      (alongside none).mothership? = none ∧
      (Leaf.action (.flyAroundMothership 5)).tick (alongside none) =
        .ok (.failure, .action (.flyAroundMothership 5), alongside none) := by
  have hclass : ShipClass.ship ≠ .drone := nofun
  obtain ⟨hunowned, -⟩ := mothership_leaves (c := alongside none) rfl hclass
  obtain ⟨hnone, hfails⟩ := hunowned.mp rfl
  exact ⟨_, rfl, hclass, hnone, hfails (.flyAroundMothership 5) trivial⟩

/-- A ship that is owned has a mothership and flies around it, drone or not. -/
theorem mothership_leaves_owned :
    ∃ me c', (alongside (some ⟨2⟩)).own? = some me ∧ me.kind ≠ .drone ∧
      (alongside (some ⟨2⟩)).mothership? = some (.create ⟨2⟩ .zero) ∧
      (Leaf.action (.flyAroundMothership 5)).tick (alongside (some ⟨2⟩)) =
        .ok (.success, .action (.flyAroundMothership 5), c') :=
  ⟨_, _, rfl, nofun, rfl, rfl⟩

end Context

end Helm
