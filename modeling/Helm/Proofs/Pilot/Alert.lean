import Helm.Proofs.Number.Sign
import Helm.Proofs.Pilot.Effect
import Helm.Proofs.Pilot.Run

/-!
# Helm.Proofs.Pilot.Alert

The threats a ship knows of. A lookout lists them in the order in which they hit (`ByImminence`),
and an evaluation leaves the list alone or has a lookout make a new one (`Context.Watches`). So the
list is in order whenever it is read, though nothing sorts it again, and the leaves that look at its
first entry alone answer for the whole of it (`Leaf.Heeds`). An alarm does so because it is always
set to a finite time: with no threats the time until a collision is infinite.
-/

namespace Helm

open Single

/-! ## Lists of threats -/

/-- The threats are in the order in which they hit, and none has hit already. -/
structure ByImminence (threats : List Threat) : Prop where
  ordered : threats.Pairwise fun a b => a.timeToHit ≤ b.timeToHit
  timed : ∀ threat ∈ threats, threat.timeToHit.isNaN = false ∧ 0 ≤ threat.timeToHit

/-- None of the threats hits earlier. -/
def MostImminent (threats : List Threat) (threat : Threat) : Prop :=
  threat ∈ threats ∧ ∀ other ∈ threats, threat.timeToHit ≤ other.timeToHit

/-- What is predicted is not in the past. -/
theorem zero_le_of_timeToHit? {horizon t : Float32} {ship unit : Disc Float32}
    (h : timeToHit? horizon ship unit = some t) : 0 ≤ t := by
  have hzero : (0 : Float32) ≤ 0 := by decide
  simp only [timeToHit?, Scalar.le, Scalar.lt] at h
  split at h
  · cases h
    exact hzero
  · split at h
    · cases h
    · split at h
      · cases h
      · split at h
        · rename_i hrange
          cases h
          exact of_decide_eq_true (Bool.and_eq_true_iff.mp hrange).1
        · cases h

theorem Lookout.byImminence_threats (l : Lookout) (ship : ShipState) (units : List UnitState) :
    ByImminence (l.threats ship units) := by
  have htimed : ∀ threat ∈ l.threats ship units, 0 ≤ threat.timeToHit := by
    intro threat hthreat
    obtain ⟨unit, -, hunit⟩ := List.mem_filterMap.mp (mem_sortBy.mp hthreat)
    obtain ⟨t, ht, rfl⟩ := Option.map_eq_some_iff.mp hunit
    exact zero_le_of_timeToHit? ht
  refine ⟨?_, fun threat hthreat =>
    ⟨(isNaN_of_le (htimed threat hthreat)).2, htimed threat hthreat⟩⟩
  have hranked : (l.threats ship units).Pairwise fun a b => rank a.timeToHit ≤ rank b.timeToHit :=
    sortBy_ordered _ _
  refine hranked.imp_of_mem ?_
  intro a b ha hb hle
  exact le_of_rank_le (htimed a ha) (htimed b hb) hle

section Lists

variable {threats rest : List Threat} {first : Threat} {seconds : Float32}

theorem byImminence_nil : ByImminence [] := ⟨.nil, fun _ h => absurd h List.not_mem_nil⟩

theorem ByImminence.mostImminent (h : ByImminence (first :: rest)) :
    MostImminent (first :: rest) first := by
  refine ⟨List.mem_cons_self, List.forall_mem_cons.mpr ⟨?_, ?_⟩⟩
  · exact le_self (h.timed first List.mem_cons_self).1
  · exact (List.pairwise_cons.mp h.ordered).1

theorem MostImminent.le_iff {threat : Threat} (h : MostImminent threats threat) :
    threat.timeToHit ≤ seconds ↔ ∃ other ∈ threats, other.timeToHit ≤ seconds := by
  constructor
  · exact fun hle => ⟨threat, h.1, hle⟩
  · rintro ⟨other, hother, hle⟩
    exact Single.le_trans (h.2 other hother) hle

/-- The time until a collision tells whether there is a threat within a finite time. -/
theorem ByImminence.timeToCollision_le_iff (h : ByImminence threats)
    (hfinite : seconds.isFinite = true) :
    timeToCollision threats ≤ seconds ↔ ∃ threat ∈ threats, threat.timeToHit ≤ seconds := by
  cases threats with
  | nil => simp [timeToCollision, not_infinity_le hfinite]
  | cons first rest => exact h.mostImminent.le_iff

theorem ByImminence.lt_timeToCollision_iff (h : ByImminence threats)
    (hfinite : seconds.isFinite = true) :
    seconds < timeToCollision threats ↔ ¬∃ threat ∈ threats, threat.timeToHit ≤ seconds := by
  have hnumber : (timeToCollision threats).isNaN = false := by
    cases threats with
    | nil => decide
    | cons first rest => exact (h.timed first List.mem_cons_self).1
  rw [← h.timeToCollision_le_iff hfinite]
  constructor
  · exact fun hlt hle => not_lt_of_le hle hlt
  · intro hle
    by_contra hlt
    exact hle (le_of_not_lt hnumber (isNaN_of_isFinite hfinite) hlt)

end Lists

/-- The threats a ship knows of are in order, and so the time until a collision is the least of
theirs. -/
structure Context.Alert (c : Context) : Prop where
  listed : ByImminence c.memory.threats
  least : c.memory.threats ≠ [] →
    ∃ threat, MostImminent c.memory.threats threat ∧ c.timeToCollision = threat.timeToHit
  unthreatened : c.memory.threats = [] → c.timeToCollision = infinity

theorem Context.alert_of_byImminence {c : Context} (h : ByImminence c.memory.threats) :
    c.Alert := by
  refine ⟨h, fun hsome => ?_, fun hnone => ?_⟩
  · obtain ⟨first, rest, hthreats⟩ := List.exists_cons_of_ne_nil hsome
    rw [hthreats] at h
    rw [timeToCollision, hthreats]
    exact ⟨first, h.mostImminent, rfl⟩
  · rw [timeToCollision, hnone]
    rfl

/-! ## Leaves that look at the threats -/

/-- What a leaf that asks for threats answers, by all the threats the ship knows of. -/
def Leaf.Heeds (c : Context) : Leaf → Prop
  | l@(.action (.haveIncomingThreat seconds)) =>
    ∃ status, l.tick c = .ok (status, l, c) ∧
      (status = .success ↔ ∃ threat ∈ c.memory.threats, threat.timeToHit ≤ seconds)
  | l@(.action (.defendWithFrontalShield _)) =>
    ∃ status c', l.tick c = .ok (status, l, c') ∧
      (status = .success ↔ (∃ me, c.own? = some me) ∧
        ∃ threat ∈ c.memory.threats, threat.timeToHit ≤ Perform.shieldReactionTime) ∧
      (status = .success → ∃ me threat, c.own? = some me ∧
        MostImminent c.memory.threats threat ∧
        c'.memory.controls.course = some (threat.position - me.position).heading)
  | l@(.action .avoidThreats) =>
    ∃ status c', l.tick c = .ok (status, l, c') ∧
      (status = .success ↔ (∃ me, c.own? = some me) ∧ ∃ threat, threat ∈ c.memory.threats)
  | _ => True

section Leaves

variable {c : Context}

theorem Perform.haveIncomingThreat_iff (h : ByImminence c.memory.threats) {seconds : Float32}
    (hfinite : seconds.isFinite = true) :
    (haveIncomingThreat seconds c).1 = .success ↔
      ∃ threat ∈ c.memory.threats, threat.timeToHit ≤ seconds := by
  rw [← h.timeToCollision_le_iff hfinite, haveIncomingThreat, Context.timeToCollision]
  split <;> simp [*]

theorem Perform.defendWithFrontalShield_iff (h : ByImminence c.memory.threats) (slots : List Nat) :
    ((defendWithFrontalShield slots c).1 = .success ↔ (∃ me, c.own? = some me) ∧
        ∃ threat ∈ c.memory.threats, threat.timeToHit ≤ shieldReactionTime) ∧
      ((defendWithFrontalShield slots c).1 = .success → ∃ me threat, c.own? = some me ∧
        MostImminent c.memory.threats threat ∧
        (defendWithFrontalShield slots c).2.memory.controls.course =
          some (threat.position - me.position).heading) := by
  have hfinite : shieldReactionTime.isFinite = true := by decide
  rw [defendWithFrontalShield, Context.timeToCollision]
  split
  · rename_i hlate
    have hfar := (h.lt_timeToCollision_iff hfinite).mp hlate
    simp only [hfar, and_false, reduceCtorEq, false_implies, and_self]
  · rename_i hclose
    have hclose := Classical.not_not.mp ((h.lt_timeToCollision_iff hfinite).not.mp hclose)
    cases hown : c.own? with
    | none => simp
    | some me =>
      cases hthreats : c.memory.threats with
      -- with no threats the leaf has failed already, as there is no collision in any finite time
      | nil => simp [hthreats] at hclose
      | cons first rest =>
        rw [hthreats] at h hclose
        refine ⟨⟨fun _ => ⟨⟨me, rfl⟩, hclose⟩, fun _ => rfl⟩, fun _ => ?_⟩
        exact ⟨me, first, rfl, h.mostImminent, Controls.course_activateAll _ slots⟩

theorem Perform.avoidThreats_iff :
    (avoidThreats c).1 = .success ↔
      (∃ me, c.own? = some me) ∧ ∃ threat, threat ∈ c.memory.threats := by
  rw [avoidThreats]
  cases c.own? with
  | none => simp
  | some me =>
    cases c.memory.threats with
    | nil => simp
    | cons first rest => simp

end Leaves

/-- An alarm for threats is set to a finite time. -/
def Leaf.Timely : Leaf → Prop
  | .action (.haveIncomingThreat seconds) => seconds.isFinite = true
  | _ => True

theorem Leaf.heeds {c : Context} (h : ByImminence c.memory.threats) {l : Leaf} (hl : l.Timely) :
    l.Heeds c := by
  cases l with
  | action a =>
    cases a with
    | haveIncomingThreat seconds => exact ⟨_, rfl, Perform.haveIncomingThreat_iff h hl⟩
    | defendWithFrontalShield slots =>
      exact ⟨_, _, rfl, Perform.defendWithFrontalShield_iff h slots⟩
    | avoidThreats => exact ⟨_, _, rfl, Perform.avoidThreats_iff⟩
    | _ => trivial
  | _ => trivial

/-! ## Runs -/

/-- The threats are the same, or they have just been looked for. -/
def Context.Watches (c c' : Context) : Prop :=
  c'.memory.threats = c.memory.threats ∨ ∃ lookout cooldown, c' = c.renewThreats lookout cooldown

namespace Context

variable {c c' : Context}

theorem byImminence_renewThreats (h : ByImminence c.memory.threats) (lookout : Lookout)
    (cooldown : Float32) : ByImminence (c.renewThreats lookout cooldown).memory.threats := by
  rw [renewThreats]
  split
  · exact h
  · split
    · exact byImminence_nil
    · exact lookout.byImminence_threats _ _

theorem Watches.byImminence (h : c.Watches c') (hc : ByImminence c.memory.threats) :
    ByImminence c'.memory.threats := by
  rcases h with heq | ⟨lookout, cooldown, rfl⟩
  · rw [heq]
    exact hc
  · exact byImminence_renewThreats hc lookout cooldown

end Context

namespace Leaf

variable {c c' : Context} {l : Leaf}

theorem AfterFailure.threats (h : l.AfterFailure c c') :
    c'.memory.threats = c.memory.threats := by
  cases l with
  | findEnemy =>
    obtain ⟨⟨tally, dice, target, targetTime, -, rfl⟩, -⟩ := h
    rfl
  | action a =>
    cases a with
    | rechargeEnergy => rcases h with rfl | ⟨-, rfl⟩ <;> rfl
    | _ => cases h; rfl
  | _ => cases h; rfl

theorem Acts.watches (h : l.Acts c c') : c.Watches c' := by
  cases h with
  | renewThreats cooldown lookout => exact .inr ⟨lookout, cooldown, rfl⟩
  | search _ hsearched =>
    obtain ⟨tally, dice, target, targetTime, -, rfl⟩ := hsearched
    exact .inl rfl
  | renewTargets =>
    rw [Context.renewSecondaryTargets]
    split
    · exact .inl rfl
    · split <;> exact .inl rfl
  | _ => exact .inl rfl

theorem Effect.watches {r : Status × Context} (h : l.Effect c r) : c.Watches r.2 := by
  cases h with
  | fails h => exact .inl h.threats
  | acts _ h => exact h.watches

theorem Timely.continues (h : l.Timely) {next : Leaf} (hnext : l.Continues next) : next.Timely :=
  hnext.keeps h (fun _ => trivial) (fun _ => trivial) (fun _ => trivial) fun _ => trivial

end Leaf

theorem invariant_byImminence :
    Agent.Invariant (fun _ => True) Leaf.Timely fun c => ByImminence c.memory.threats where
  upholds :=
    { leaf := fun l c hl hc => ((l.tick_effect c).weaken fun _ _ => trivial).mono
        fun _ h => ⟨hl.continues h.2, h.1.watches.byImminence hc⟩
      word := fun _ hc => hc }
  start _ _ hc := hc
  inScene _ _ hc := hc
  takeMessages _ hc := hc

namespace Agent

/-- The second agent is what a run makes of the first, in which the context may be changed from
outside as well, in any way that leaves its threats alone or has them looked for. -/
inductive Exposed : Agent → Agent → Prop where
  | refl (a : Agent) : Exposed a a
  | tick {a b c : Agent} {timeStep : Float32} {status : Status} :
      Exposed a b → b.tick timeStep = .ok (status, c) → Exposed a c
  | outside {a b : Agent} {c : Context} :
      Exposed a b → b.context.Watches c → Exposed a { b with context := c }

theorem Reaches.exposed {a b : Agent} (h : a.Reaches b) : a.Exposed b := by
  induction h with
  | refl => exact .refl _
  | tick _ htick ih => exact ih.tick htick
  | inScene f _ ih => exact ih.outside (.inl rfl)
  | takeMessages _ ih => exact ih.outside (.inl rfl)

theorem holds_of_exposed {a b : Agent} (h : a.Exposed b)
    (ha : a.Holds Leaf.Timely fun c => ByImminence c.memory.threats) :
    b.Holds Leaf.Timely fun c => ByImminence c.memory.threats := by
  induction h with
  | refl => exact ha
  | tick _ htick ih => exact (tick_yields invariant_byImminence ih _).of_eq_ok htick
  | outside _ hwatches ih => exact ⟨ih.root, hwatches.byImminence ih.context⟩

end Agent

namespace Outfit

theorem timely_fit (o : Outfit) (roll : Float32) {kind : LeafKind}
    (hfinite : ∀ x ∈ kind.parameters, x.isFinite = true) :
    Node.Fit Leaf.Timely (o.fit roll kind) := by
  cases kind with
  | haveIncomingThreat seconds => exact hfinite seconds List.mem_cons_self
  | selectWeapon => exact armed_cases trivial trivial
  | chargeWeapons => exact armed_cases trivial trivial
  | useRecoil => exact armed_cases trivial trivial
  | activateDevice => exact equipped_cases trivial trivial
  | defendWithFrontalShield => exact equipped_cases trivial trivial
  | trackControllableAmmo => exact capable_cases trivial fun _ => trivial
  | spawnDrones => exact capable_cases trivial fun _ => trivial
  | _ => trivial

theorem fit_defendWithFrontalShield (o : Outfit) (roll : Float32)
    (h : o.loadout.hasDevice .frontalShield = true) :
    o.fit roll .defendWithFrontalShield =
      does (.defendWithFrontalShield (o.loadout.deviceSlots .frontalShield)) := by
  obtain ⟨device, hdevice, hkind⟩ := List.any_eq_true.mp h
  have hslots : o.loadout.deviceSlots .frontalShield ≠ [] := by
    exact List.ne_nil_of_mem (List.mem_map_of_mem (List.mem_filter.mpr ⟨hdevice, hkind⟩))
  rw [fit, equipped, List.isEmpty_eq_false_iff.mpr hslots]
  rfl

/-- The threats an agent knows of are in order at every point of every run, and in the middle of
every tick. So each leaf that asks for threats answers for all of them, and with a shield fitted
there is a leaf to raise it. -/
theorem agent_heeds_threats (o : Outfit) (scene : Scene) (tree : TreeDefinition)
    (unseeded : Purpose → Dice) {a b : Agent} (ha : o.agent scene tree unseeded = .ok a)
    (hrun : a.Exposed b) :
    b.context.Alert ∧
      (∀ timeStep l c,
        b.root.Meets ((b.context.advance timeStep).command Controls.beginTick) l c →
          c.Alert ∧ l.Heeds c) ∧
      (o.loadout.hasDevice .frontalShield = true → ∀ roll,
        o.fit roll .defendWithFrontalShield =
          does (.defendWithFrontalShield (o.loadout.deviceSlots .frontalShield))) := by
  have hagent : a.Holds Leaf.Timely fun c => ByImminence c.memory.threats :=
    (o.agent_yields_of_finite scene tree unseeded
      (fun _ _ _ roll _ hfinite => o.timely_fit roll hfinite) byImminence_nil).of_eq_ok ha
  have hb := Agent.holds_of_exposed hrun hagent
  refine ⟨Context.alert_of_byImminence hb.context, fun timeStep l c hmeets => ?_,
    fun hshield roll => o.fit_defendWithFrontalShield roll hshield⟩
  obtain ⟨hl, hc⟩ := hmeets.keeps invariant_byImminence.upholds hb.root
    (invariant_byImminence.start b.context timeStep hb.context)
  exact ⟨Context.alert_of_byImminence hc, Leaf.heeds hc hl⟩

/-- A ship with a frontal shield in its third slot. -/
def sentinel : Outfit := { ship := ⟨1⟩, loadout := { devices := [⟨3, .frontalShield⟩] } }

def vigil : TreeDefinition where
  root := some (.group .always .sequence
    [.leaf .always (.lookForThreats 0), .leaf .always .defendWithFrontalShield])

/-- The ship with something coming at it. -/
def ambush : Scene :=
  (({} : Scene).addShip (.create ⟨1⟩ .zero) 0).addUnit ⟨⟨7⟩, ⟨8, 0⟩, ⟨-10, 0⟩, 0.5⟩

theorem agent_heeds_threats_ambush : ∃ (a : Agent) (c c' : Context),
    sentinel.agent ambush vigil default = .ok a ∧ a.Exposed a ∧
      a.root.Meets ((a.context.advance 1).command Controls.beginTick)
        (.action (.defendWithFrontalShield [3])) c ∧
      c.Alert ∧ c.memory.threats.map (·.unit) = [⟨7⟩] ∧
      Leaf.tick (.action (.defendWithFrontalShield [3])) c =
        .ok (.success, .action (.defendWithFrontalShield [3]), c') := by
  let watch : ShipNode := does (.lookForThreats 0 sentinel.settings.lookout)
  let raise : ShipNode := does (.defendWithFrontalShield [3])
  let start : Agent :=
    { context := .create sentinel.ship sentinel.loadout ambush (sentinel.dice default .runtime)
      root := .sequence [watch, raise] }
  let before : Context := (start.context.advance 1).command Controls.beginTick
  let c : Context := before.renewThreats sentinel.settings.lookout 0
  have ha : sentinel.agent ambush vigil default = .ok start := rfl
  have hwatch : Node.tickWhile .success [watch] before = .ok (.success, [watch], c) := rfl
  have hmeets : start.root.Meets before (.action (.defendWithFrontalShield [3])) c :=
    Node.Meets.sequence hwatch (.leaf _ _)
  have hrun : start.Exposed start := (Agent.Reaches.refl start).exposed
  obtain ⟨-, hheeds, -⟩ := agent_heeds_threats sentinel ambush vigil default ha hrun
  obtain ⟨halert, status, c', htick, hsuccess, -⟩ := hheeds 1 _ c hmeets
  have hclose : ∃ threat ∈ c.memory.threats, threat.timeToHit ≤ Perform.shieldReactionTime := by
    decide +kernel
  have hown : c.own? = some (.create ⟨1⟩ .zero) := by decide +kernel
  obtain rfl := hsuccess.mpr ⟨⟨_, hown⟩, hclose⟩
  exact ⟨start, c, c', ha, hrun, hmeets, halert, by decide +kernel, htick⟩

end Outfit

end Helm
