import Helm.Pilot.Context

/-!
# Helm.Pilot.Systems

Leaves about the ship itself: its energy, hull, devices and drone bays, what it says, and its
leaving the battle. `Perform.rechargeEnergy` holds the ship back from when energy falls below one
bound until it reaches a higher one.
-/

namespace Helm

namespace Perform

/-! ## Energy and hull -/

/-- Succeeds with at least so much energy, unless energy is being restored. -/
def haveEnoughEnergy (failIfLess : Float32) (c : Context) : Status × Context :=
  if c.memory.restoringEnergy then (.failure, c)
  else
    match c.own? with
    | some me => (if failIfLess ≤ me.energy then .success else .failure, c)
    | none => (.failure, c)

/-- Restores energy, running meanwhile, and fails when there is no need. -/
def rechargeEnergy (failIfLess restoreUntil : Float32) (c : Context) : Status × Context :=
  match c.own? with
  | none => (.failure, c)
  | some me =>
    if c.memory.restoringEnergy then
      if restoreUntil ≤ me.energy then (.failure, c.setRestoringEnergy false) else (.running, c)
    else if me.energy < failIfLess then (.running, c.setRestoringEnergy true)
    else (.failure, c)

/-- Succeeds with hull points below a bound. -/
def isLowOnHp (minValue : Float32) (c : Context) : Status × Context :=
  match c.own? with
  | some me => (if me.hp < minValue then .success else .failure, c)
  | none => (.failure, c)

/-- Succeeds for a ship that a player controls. -/
def isControlledByPlayer (c : Context) : Status × Context :=
  match c.own? with
  | some me => (if me.playerControlled then .success else .failure, c)
  | none => (.failure, c)

/-! ## Devices -/

/-- Threats that hit within so many seconds raise the frontal shield. -/
def shieldReactionTime : Float32 := 1

/-- Turns devices on. -/
def activateDevice (slots : List Nat) (c : Context) : Status × Context :=
  (.success, c.command fun controls => slots.foldl Controls.activate controls)

/-- Turns to the most imminent threat with the shield up, when it is about to hit. -/
def defendWithFrontalShield (slots : List Nat) (c : Context) : Status × Context :=
  if shieldReactionTime < c.timeToCollision then (.failure, c)
  else
    match c.own?, c.memory.threats with
    | some me, threat :: _ =>
      (.success, c.command fun controls =>
        slots.foldl Controls.activate
          { controls with course := some (threat.position - me.position).heading })
    | _, _ => (.failure, c)

/-- Launches drones. -/
def spawnDrones (c : Context) : Status × Context :=
  (.success, c.command fun controls => { controls with launchDrones := true })

/-- Orders the ship to leave the battle. -/
def vanish (c : Context) : Status × Context :=
  (.success, c.command fun controls => { controls with vanish := true })

end Perform

/-! ## Waiting and talking -/

/--
Succeeds at most once in so many seconds and runs meanwhile. Where asked, a frame without
evaluation starts the wait anew.
-/
structure Wait where
  cooldown : Float32
  resetIfInterrupted : Bool
  /-- The time from which on is waited. -/
  lastCompletion : Option Float32
  /-- The frame of the last evaluation. -/
  lastFrame : Option Nat
  deriving DecidableEq, Repr

namespace Wait

/-- A wait that has not begun. -/
def create (cooldown : Float32) (resetIfInterrupted : Bool) : Wait :=
  ⟨cooldown, resetIfInterrupted, none, none⟩

/-- True when frames have passed without an evaluation. -/
def interrupted (w : Wait) (frame : Nat) : Bool :=
  w.lastFrame.any fun last => last + 1 < frame

/-- The time from which on is waited, after a restart if there is reason for one. -/
def reference (w : Wait) (now : Float32) (frame : Nat) : Option Float32 :=
  if w.interrupted frame && w.resetIfInterrupted then w.lastCompletion.map fun _ => now
  else w.lastCompletion

/-- Evaluates the wait at a time and a frame. -/
def step (w : Wait) (now : Float32) (frame : Nat) : Status × Wait :=
  let reference := w.reference now frame
  if reference.any fun start => decide (now - start < w.cooldown) then
    (.running, { w with lastCompletion := reference, lastFrame := some frame })
  else (.success, { w with lastCompletion := some now, lastFrame := some frame })

end Wait

/-- A message that is posted once. -/
structure Announcement where
  text : String
  color : Option String
  shown : Bool
  deriving DecidableEq, Repr

namespace Announcement

/-- Posts the message, unless that has been done. -/
def tick (a : Announcement) (c : Context) : Status × Announcement × Context :=
  if a.shown then (.success, a, c)
  else (.success, { a with shown := true }, c.post a.text a.color)

end Announcement

end Helm
