import Helm.Pilot.Context
import Helm.Proofs.Number.Monotone

/-!
# Helm.Proofs.Pilot.Caches

The two lists that a ship renews once per cooldown, related to all that has happened. A history is
what has happened, the latest first, and `Cache.latest` reads the latest rescan of one of the lists
off it: a request rescans unless too little time has passed since the latest rescan before it. The
memory agrees with the history (`Cache.Sound`, `Cache.recalled`), and requests for one of the lists
may as well not have happened as far as the other is concerned (`Cache.latest_filter`). Before its
first rescan a list counts as renewed a minute before the clock started, so that the first request
rescans for cooldowns of up to a minute, and for longer ones only when the clock has gone on far
enough (`Context.first_renewal`).
-/

namespace Helm

/-- What may happen to the context of a ship. -/
inductive Event where
  | advance (timeStep : Float32)
  | renewSecondaryTargets (cooldown : Float32)
  | renewThreats (lookout : Lookout) (cooldown : Float32)
  | decideTarget (target : Option ShipId)
  | setTarget (target : Option ShipId)
  /-- The scene is another one, with or without the ship. -/
  | setScene (scene : Scene)

namespace Event

def forTargets : Event → Bool
  | renewSecondaryTargets _ => true
  | _ => false

def forThreats : Event → Bool
  | renewThreats _ _ => true
  | _ => false

end Event

namespace Context

def happen (c : Context) : Event → Context
  | .advance timeStep => c.advance timeStep
  | .renewSecondaryTargets cooldown => c.renewSecondaryTargets cooldown
  | .renewThreats lookout cooldown => c.renewThreats lookout cooldown
  | .decideTarget target => c.decideTarget target
  | .setTarget target => c.setTarget target
  | .setScene scene => c.inScene fun _ => scene

/-- The context after a history, given with the latest event first. -/
def after (start : Context) : List Event → Context
  | [] => start
  | e :: past => (start.after past).happen e

/-! ## Rescans

What there is to be found, and the context in which it has just been looked for.
-/

def scanTargets (c : Context) : List ShipId :=
  match c.own? with
  | none => []
  | some me => c.scene.secondaryTargets me c.memory.target c.searchRadius

def scanThreats (lookout : Lookout) (c : Context) : List Threat :=
  match c.own? with
  | none => []
  | some me => lookout.threats me (c.scene.unitsNear me.position lookout.scanRadius)

/-- A rescan is counted by the scene, unless the ship is gone. -/
def rescanTargets (c : Context) : Context where
  scene := if c.own?.isSome then c.scene.countEnemyQuery else c.scene
  memory := { c.memory with secondaryTargets := c.scanTargets, secondaryTime := c.memory.time }

def rescanThreats (c : Context) (lookout : Lookout) : Context where
  scene := if c.own?.isSome then c.scene.countUnitQuery else c.scene
  memory := { c.memory with threats := c.scanThreats lookout, threatTime := c.memory.time }

theorem renewSecondaryTargets_eq (c : Context) (cooldown : Float32) :
    c.renewSecondaryTargets cooldown =
      if c.memory.time - c.memory.secondaryTime < cooldown then c else c.rescanTargets := by
  rw [renewSecondaryTargets, rescanTargets, scanTargets]
  cases c.own? <;> rfl

theorem renewThreats_eq (c : Context) (lookout : Lookout) (cooldown : Float32) :
    c.renewThreats lookout cooldown =
      if c.memory.time - c.memory.threatTime < cooldown then c else c.rescanThreats lookout := by
  rw [renewThreats, rescanThreats, scanThreats]
  cases c.own? <;> rfl

end Context

/-- When a list was renewed, and what was found. -/
structure Rescan (α : Type) where
  time : Float32
  found : List α

namespace Rescan

variable {α : Type}

/-- The time of the latest rescan, as long ago as can be before there was any. -/
def timeOf (latest : Option (Rescan α)) : Float32 :=
  match latest with
  | none => neverUpdated
  | some rescan => rescan.time

/-- What the latest rescan found, nothing before there was any. -/
def foundBy (latest : Option (Rescan α)) : List α :=
  match latest with
  | none => []
  | some rescan => rescan.found

end Rescan

open Rescan

/-- A list that is renewed on request: what asks for it, and where it is kept. -/
structure Cache (α : Type) where
  /-- The cooldown of a request and what a rescan for it finds. -/
  request? : Event → Option (Float32 × (Context → List α))
  contents : Context → List α
  stamp : Context → Float32

namespace Cache

def targets : Cache ShipId where
  request?
    | .renewSecondaryTargets cooldown => some (cooldown, Context.scanTargets)
    | _ => none
  contents c := c.memory.secondaryTargets
  stamp c := c.memory.secondaryTime

def threats : Cache Threat where
  request?
    | .renewThreats lookout cooldown => some (cooldown, Context.scanThreats lookout)
    | _ => none
  contents c := c.memory.threats
  stamp c := c.memory.threatTime

variable {α : Type} {k : Cache α}

/-- The latest rescan in a history. -/
def latest (k : Cache α) (start : Context) : List Event → Option (Rescan α)
  | [] => none
  | e :: past =>
    match k.request? e with
    | none => k.latest start past
    | some (cooldown, scan) =>
      let c := start.after past
      if c.memory.time - timeOf (k.latest start past) < cooldown then k.latest start past
      else some ⟨c.memory.time, scan c⟩

/-- Requests rescan when they are due, and nothing else touches the list and its time. -/
structure Sound (k : Cache α) : Prop where
  kept : ∀ c e, k.request? e = none →
    k.contents (c.happen e) = k.contents c ∧ k.stamp (c.happen e) = k.stamp c
  renewed : ∀ e cooldown scan, k.request? e = some (cooldown, scan) →
    ∃ rescan : Context → Context,
      (∀ c, c.happen e = if c.memory.time - k.stamp c < cooldown then c else rescan c) ∧
        ∀ c, k.contents (rescan c) = scan c ∧ k.stamp (rescan c) = c.memory.time

/-- The list and the time are those of the latest rescan. -/
theorem recalled (hk : k.Sound) (start : Context) (hcontents : k.contents start = [])
    (hstamp : k.stamp start = neverUpdated) (history : List Event) :
    k.contents (start.after history) = foundBy (k.latest start history) ∧
      k.stamp (start.after history) = timeOf (k.latest start history) := by
  induction history with
  | nil => exact ⟨hcontents, hstamp⟩
  | cons e past ih =>
    rw [Context.after, latest]
    cases hrequest : k.request? e with
    | none =>
      obtain ⟨hsame, htime⟩ := hk.kept (start.after past) e hrequest
      rw [hsame, htime]
      exact ih
    | some request =>
      obtain ⟨cooldown, scan⟩ := request
      obtain ⟨rescan, hhappen, hrescan⟩ := hk.renewed e cooldown scan hrequest
      dsimp only
      -- the time in the memory decides as the history does
      rw [hhappen, ← ih.2]
      split
      · exact ih
      · exact hrescan (start.after past)

/-- A list that has not been renewed is empty, and counts as renewed before the start. -/
theorem unrenewed (hk : k.Sound) (start : Context) (hcontents : k.contents start = [])
    (hstamp : k.stamp start = neverUpdated) {history : List Event}
    (h : k.latest start history = none) :
    k.contents (start.after history) = [] ∧ k.stamp (start.after history) = neverUpdated := by
  have hrecalled := recalled hk start hcontents hstamp history
  rw [h] at hrecalled
  exact hrecalled

theorem sound_targets : targets.Sound where
  kept c e h := by
    cases e with
    | renewSecondaryTargets => cases h
    | renewThreats lookout cooldown =>
      rw [Context.happen, Context.renewThreats_eq]
      split <;> exact ⟨rfl, rfl⟩
    | _ => exact ⟨rfl, rfl⟩
  renewed e cooldown scan h := by
    cases e with
    | renewSecondaryTargets =>
      cases h
      exact ⟨_, fun c => c.renewSecondaryTargets_eq cooldown, fun _ => ⟨rfl, rfl⟩⟩
    | _ => cases h

theorem sound_threats : threats.Sound where
  kept c e h := by
    cases e with
    | renewThreats => cases h
    | renewSecondaryTargets cooldown =>
      rw [Context.happen, Context.renewSecondaryTargets_eq]
      split <;> exact ⟨rfl, rfl⟩
    | _ => exact ⟨rfl, rfl⟩
  renewed e cooldown scan h := by
    cases e with
    | renewThreats lookout =>
      cases h
      exact ⟨_, fun c => c.renewThreats_eq lookout cooldown, fun _ => ⟨rfl, rfl⟩⟩
    | _ => cases h

end Cache

/-! ## Independence -/

namespace Context

/-- The contexts differ in the two lists, in their times and in the tally of the scene alone. -/
def Alike (c c₀ : Context) : Prop :=
  ∃ tally targets targetsTime threats threatsTime,
    c = { scene := { c₀.scene with tally := tally }
          memory := { c₀.memory with
            secondaryTargets := targets
            secondaryTime := targetsTime
            threats := threats
            threatTime := threatsTime } }

namespace Alike

variable {a b c : Context}

theorem refl (c : Context) : c.Alike c := ⟨_, _, _, _, _, rfl⟩

theorem symm (h : a.Alike b) : b.Alike a := by
  obtain ⟨_, _, _, _, _, rfl⟩ := h
  exact ⟨_, _, _, _, _, rfl⟩

theorem trans (h₁ : a.Alike b) (h₂ : b.Alike c) : a.Alike c := by
  obtain ⟨_, _, _, _, _, rfl⟩ := h₁
  obtain ⟨_, _, _, _, _, rfl⟩ := h₂
  exact ⟨_, _, _, _, _, rfl⟩

theorem time (h : a.Alike b) : a.memory.time = b.memory.time := by
  obtain ⟨_, _, _, _, _, rfl⟩ := h
  rfl

theorem scanTargets (h : a.Alike b) : a.scanTargets = b.scanTargets := by
  obtain ⟨_, _, _, _, _, rfl⟩ := h
  rfl

theorem scanThreats (h : a.Alike b) (lookout : Lookout) :
    a.scanThreats lookout = b.scanThreats lookout := by
  obtain ⟨_, _, _, _, _, rfl⟩ := h
  rfl

theorem renewSecondaryTargets (c : Context) (cooldown : Float32) :
    (c.renewSecondaryTargets cooldown).Alike c := by
  rw [renewSecondaryTargets_eq, rescanTargets]
  split
  · exact refl c
  · split <;> exact ⟨_, _, _, _, _, rfl⟩

theorem renewThreats (c : Context) (lookout : Lookout) (cooldown : Float32) :
    (c.renewThreats lookout cooldown).Alike c := by
  rw [renewThreats_eq, rescanThreats]
  split
  · exact refl c
  · split <;> exact ⟨_, _, _, _, _, rfl⟩

/-- A request may be answered in one context and not in the other, but it moves neither away. -/
theorem happen (h : a.Alike b) (e : Event) : (a.happen e).Alike (b.happen e) := by
  cases e with
  | renewSecondaryTargets cooldown =>
    exact (renewSecondaryTargets a cooldown).trans (h.trans (renewSecondaryTargets b cooldown).symm)
  | renewThreats lookout cooldown =>
    exact (renewThreats a lookout cooldown).trans (h.trans (renewThreats b lookout cooldown).symm)
  | _ =>
    obtain ⟨_, _, _, _, _, rfl⟩ := h
    exact ⟨_, _, _, _, _, rfl⟩

end Alike

end Context

namespace Cache

variable {α : Type} {k : Cache α}

/-- Rescans find the same in contexts that differ in the lists alone. -/
def Blind (k : Cache α) : Prop :=
  ∀ e cooldown scan, k.request? e = some (cooldown, scan) →
    ∀ a b : Context, a.Alike b → scan a = scan b

theorem blind_targets : targets.Blind := by
  intro e cooldown scan h a b hab
  cases e with
  | renewSecondaryTargets => cases h; exact hab.scanTargets
  | _ => cases h

theorem blind_threats : threats.Blind := by
  intro e cooldown scan h a b hab
  cases e with
  | renewThreats => cases h; exact hab.scanThreats _
  | _ => cases h

/-- Requests for the other list may as well be left out of a history. -/
theorem latest_filter (hk : k.Blind) {keep : Event → Bool}
    (hother : ∀ e, keep e = false → k.request? e = none ∧ ∀ c : Context, (c.happen e).Alike c)
    (start : Context) (history : List Event) :
    k.latest start (history.filter keep) = k.latest start history ∧
      (start.after (history.filter keep)).Alike (start.after history) := by
  induction history with
  | nil => exact ⟨rfl, .refl start⟩
  | cons e past ih =>
    obtain ⟨hlatest, halike⟩ := ih
    cases hkeep : keep e with
    | false =>
      obtain ⟨hrequest, hunmoved⟩ := hother e hkeep
      rw [List.filter_cons_of_neg (by simp [hkeep]), latest, hrequest]
      exact ⟨hlatest, halike.trans (hunmoved (start.after past)).symm⟩
    | true =>
      rw [List.filter_cons_of_pos hkeep, latest, latest]
      refine ⟨?_, halike.happen e⟩
      cases hrequest : k.request? e with
      | none => exact hlatest
      | some request =>
        obtain ⟨cooldown, scan⟩ := request
        dsimp only
        rw [hlatest, halike.time, hk e cooldown scan hrequest _ _ halike]

theorem forThreats_apart (e : Event) (h : (!e.forThreats) = false) :
    targets.request? e = none ∧ ∀ c : Context, (c.happen e).Alike c := by
  cases e with
  | renewThreats lookout cooldown => exact ⟨rfl, fun c => .renewThreats c lookout cooldown⟩
  | _ => cases h

theorem forTargets_apart (e : Event) (h : (!e.forTargets) = false) :
    threats.request? e = none ∧ ∀ c : Context, (c.happen e).Alike c := by
  cases e with
  | renewSecondaryTargets cooldown => exact ⟨rfl, fun c => .renewSecondaryTargets c cooldown⟩
  | _ => cases h

end Cache

namespace Context

/-- After whatever has happened, a request rescans if and only if not too little time has passed
since the latest rescan for the same list, and the list holds what that rescan found. The history
without the requests for the one list has the same latest rescan for the other, at the same time. -/
theorem caches_follow (ship : ShipId) (loadout : Loadout) (scene : Scene) (dice : Dice)
    (history : List Event) :
    let start := create ship loadout scene dice
    let c := start.after history
    let targets := Cache.targets.latest start history
    let threats := Cache.threats.latest start history
    let withoutThreats := history.filter fun e => !e.forThreats
    let withoutTargets := history.filter fun e => !e.forTargets
    (∀ cooldown, c.renewSecondaryTargets cooldown =
        if c.memory.time - timeOf targets < cooldown then c else c.rescanTargets) ∧
      (∀ lookout cooldown, c.renewThreats lookout cooldown =
        if c.memory.time - timeOf threats < cooldown then c else c.rescanThreats lookout) ∧
      c.memory.secondaryTargets = foundBy targets ∧
      c.memory.threats = foundBy threats ∧
      c.timeToCollision = Helm.timeToCollision (foundBy threats) ∧
      (Cache.targets.latest start withoutThreats = targets ∧
        (start.after withoutThreats).memory.secondaryTargets = c.memory.secondaryTargets ∧
        (start.after withoutThreats).memory.time = c.memory.time) ∧
      Cache.threats.latest start withoutTargets = threats ∧
        (start.after withoutTargets).memory.threats = c.memory.threats ∧
        (start.after withoutTargets).memory.time = c.memory.time := by
  intro start c targets threats withoutThreats withoutTargets
  have htargets := Cache.recalled Cache.sound_targets start rfl rfl
  have hthreats := Cache.recalled Cache.sound_threats start rfl rfl
  obtain ⟨hsameTargets, halikeTargets⟩ :=
    Cache.latest_filter Cache.blind_targets Cache.forThreats_apart start history
  obtain ⟨hsameThreats, halikeThreats⟩ :=
    Cache.latest_filter Cache.blind_threats Cache.forTargets_apart start history
  refine ⟨fun cooldown => ?_, fun lookout cooldown => ?_, (htargets history).1,
    (hthreats history).1, congrArg _ (hthreats history).1, ⟨hsameTargets, ?_, halikeTargets.time⟩,
    hsameThreats, ?_, halikeThreats.time⟩
  · rw [renewSecondaryTargets_eq, ← (htargets history).2]
    rfl
  · rw [renewThreats_eq, ← (hthreats history).2]
    rfl
  · have hfound := congrArg foundBy hsameTargets
    exact (htargets withoutThreats).1.trans (hfound.trans (htargets history).1.symm)
  · have hfound := congrArg foundBy hsameThreats
    exact (hthreats withoutTargets).1.trans (hfound.trans (hthreats history).1.symm)

/-! ## The first request -/

/-- More than a minute has passed since what has not happened yet. -/
theorem not_elapsed_lt {time cooldown : Float32} (htime : 0 ≤ time) (hcooldown : cooldown ≤ 60) :
    ¬time - neverUpdated < cooldown := by
  have hminute : (60 : Float32) ≤ 0 - neverUpdated := by decide
  have helapsed : (60 : Float32) ≤ time - neverUpdated :=
    Single.le_trans hminute (Single.zero_sub_le (by decide) htime)
  exact Single.not_lt_of_le (Single.le_trans hcooldown helapsed)

/-- After whatever has happened, but before the first rescan for a list, the list is empty, and a
request for it rescans as soon as its cooldown has passed since a minute before the start: at any
time for cooldowns of up to a minute. -/
theorem first_renewal (ship : ShipId) (loadout : Loadout) (scene : Scene) (dice : Dice)
    (history : List Event) :
    let start := create ship loadout scene dice
    let c := start.after history
    (Cache.targets.latest start history = none →
        c.memory.secondaryTargets = [] ∧
        (∀ cooldown, c.renewSecondaryTargets cooldown =
          if c.memory.time - neverUpdated < cooldown then c else c.rescanTargets) ∧
        (0 ≤ c.memory.time → ∀ cooldown, cooldown ≤ 60 →
          c.renewSecondaryTargets cooldown = c.rescanTargets)) ∧
      (Cache.threats.latest start history = none →
        c.memory.threats = [] ∧
        (∀ lookout cooldown, c.renewThreats lookout cooldown =
          if c.memory.time - neverUpdated < cooldown then c else c.rescanThreats lookout) ∧
        (0 ≤ c.memory.time → ∀ lookout cooldown, cooldown ≤ 60 →
          c.renewThreats lookout cooldown = c.rescanThreats lookout)) := by
  intro start c
  refine ⟨fun hnone => ?_, fun hnone => ?_⟩
  · obtain ⟨hempty, hstamp⟩ := Cache.unrenewed Cache.sound_targets start rfl rfl hnone
    have hrenew : ∀ cooldown, c.renewSecondaryTargets cooldown =
        if c.memory.time - neverUpdated < cooldown then c else c.rescanTargets := by
      intro cooldown
      rw [renewSecondaryTargets_eq, show c.memory.secondaryTime = neverUpdated from hstamp]
    refine ⟨hempty, hrenew, fun htime cooldown hcooldown => ?_⟩
    rw [hrenew, if_neg (not_elapsed_lt htime hcooldown)]
  · obtain ⟨hempty, hstamp⟩ := Cache.unrenewed Cache.sound_threats start rfl rfl hnone
    have hrenew : ∀ lookout cooldown, c.renewThreats lookout cooldown =
        if c.memory.time - neverUpdated < cooldown then c else c.rescanThreats lookout := by
      intro lookout cooldown
      rw [renewThreats_eq, show c.memory.threatTime = neverUpdated from hstamp]
    refine ⟨hempty, hrenew, fun htime lookout cooldown hcooldown => ?_⟩
    rw [hrenew, if_neg (not_elapsed_lt htime hcooldown)]

/-- Two ships, one of which is within the other's search radius. -/
def encounter : Scene := (({} : Scene).addShip (.create ⟨1⟩ .zero) 0).addShip (.create ⟨2⟩ ⟨5, 0⟩) 1

theorem first_renewal_encounter :
    let start := create ⟨1⟩ {} encounter (Dice.forShip 0 1 .runtime)
    let history := [.renewThreats ⟨5, 30⟩ 3, .decideTarget none, .advance 0.5]
    let c := start.after history
    Cache.targets.latest start history = none ∧ 0 ≤ c.memory.time ∧ (60 : Float32) ≤ 60 ∧
      c.renewSecondaryTargets 60 = c.rescanTargets ∧
      c.rescanTargets.memory.secondaryTargets = [⟨2⟩] := by
  intro start history c
  have hnone : Cache.targets.latest start history = none := rfl
  have htime : 0 ≤ c.memory.time := by decide +kernel
  have hminute : (60 : Float32) ≤ 60 := by decide
  have hc : c = (create ⟨1⟩ {} encounter (Dice.forShip 0 1 .runtime)).after history := rfl
  have hrenewal := (first_renewal ⟨1⟩ {} encounter (Dice.forShip 0 1 .runtime) history).1 hnone
  rw [← hc] at hrenewal
  exact ⟨hnone, htime, hminute, hrenewal.2.2 htime 60 hminute, by decide +kernel⟩

/-- Half a second after the start, a request with a cooldown of 61 seconds does not rescan, though
the list has never been renewed and there is an enemy to be found. -/
theorem first_renewal_postponed :
    let start := create ⟨1⟩ {} encounter (Dice.forShip 0 1 .runtime)
    let history := [.advance 0.5]
    let c := start.after history
    Cache.targets.latest start history = none ∧ 0 ≤ c.memory.time ∧
      Float32.isFinite 61 = true ∧ c.renewSecondaryTargets 61 = c ∧
      c.memory.secondaryTargets = [] ∧ c.scanTargets = [⟨2⟩] := by
  intro start history c
  have hshort : c.memory.time - c.memory.secondaryTime < 61 := by decide +kernel
  refine ⟨rfl, by decide +kernel, by decide, ?_, rfl, by decide +kernel⟩
  rw [renewSecondaryTargets_eq, if_pos hshort]

end Context

end Helm
