import Helm.Number.Decimal
import Helm.Settings.Level
import Helm.World.Threat

/-!
# Helm.Settings.Basic

The settings shared by all ships of a battle, and the environment variables that override them.
A variable whose text cannot be read leaves the setting as it is.
-/

namespace Helm

/-- The environment: the text of each variable that is set. -/
abbrev Environment := String → Option String

namespace Environment

/-- A variable read as a number in single precision. -/
def single? (env : Environment) (key : String) : Option Float32 := (env key).bind Decimal.single?

/-- A variable read as a natural number below a bound. -/
def natural? (env : Environment) (key : String) (bound : Nat) : Option Nat :=
  (env key).bind (Decimal.natural? bound)

end Environment

/-- What trees are built and evaluated with. -/
structure Settings where
  level : Level := .medium
  /-- How far drones may be from their mothership to pick a target; zero for no limit. -/
  droneRange : Float32 := 0
  /-- The base of all random sources. -/
  seed : Option UInt64 := none
  threatHorizon : Float32 := Lookout.standard.horizon
  threatScanRadius : Float32 := Lookout.standard.scanRadius
  deriving DecidableEq, Repr

namespace Settings

instance : Inhabited Settings := ⟨{}⟩

/-- How far the ships look out for threats. -/
def lookout (s : Settings) : Lookout := ⟨s.threatHorizon, s.threatScanRadius⟩

/-- The variables that override settings. -/
def overrideKeys : List String := ["COMBAT_AI_LEVEL", "COMBAT_AI_DRONE_RANGE", "COMBAT_AI_SEED"]

/-- The settings after the overrides of the environment. -/
def override (s : Settings) (env : Environment) : Settings :=
  { s with
    level := ((env "COMBAT_AI_LEVEL").bind Level.ofText?).getD s.level
    droneRange :=
      ((env.single? "COMBAT_AI_DRONE_RANGE").map fun range => Single.maximum range 0).getD
        s.droneRange
    seed :=
      match env.natural? "COMBAT_AI_SEED" UInt64.size with
      | some seed => some (UInt64.ofNat seed)
      | none => s.seed }

end Settings

end Helm
