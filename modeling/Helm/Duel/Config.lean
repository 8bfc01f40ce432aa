import Helm.Settings.Basic

/-!
# Helm.Duel.Config

Where a duel takes its trees and settings from, how long it lasts and how far apart the ships
start. All of it has defaults and can be set by environment variables.
-/

namespace Helm

/-- The files and the timing of a duel. -/
structure DuelConfig where
  /-- The file of the tree library. -/
  trees : String := "data/trees/combat.ron"
  /-- The tree that the ship follows. -/
  root : String := "ship"
  /-- The file of the settings. -/
  settings : String := "data/ai.toml"
  /-- The most ticks that are run. -/
  ticks : Nat := 600
  /-- Seconds per tick. -/
  step : Float32 := 0.05
  /-- The distance between the ships at the start. -/
  distance : Float32 := 40
  deriving DecidableEq, Repr

namespace DuelConfig

/-- The variables that configure a duel. -/
def overrideKeys : List String :=
  ["COMBAT_SIM_TREES", "COMBAT_SIM_ROOT", "COMBAT_SIM_SETTINGS", "COMBAT_SIM_TICKS",
   "COMBAT_SIM_DT", "COMBAT_SIM_DISTANCE"]

/-- The configuration that the environment gives. -/
def ofEnvironment (env : Environment) : DuelConfig :=
  let standard : DuelConfig := {}
  { trees := (env "COMBAT_SIM_TREES").getD standard.trees
    root := (env "COMBAT_SIM_ROOT").getD standard.root
    settings := (env "COMBAT_SIM_SETTINGS").getD standard.settings
    ticks := ((env.natural? "COMBAT_SIM_TICKS" UInt32.size).map (max 1)).getD standard.ticks
    step := ((env.single? "COMBAT_SIM_DT").filter fun dt => decide (0 < dt)).getD standard.step
    distance :=
      ((env.single? "COMBAT_SIM_DISTANCE").map fun d => Single.maximum d 0).getD
        standard.distance }

end DuelConfig

end Helm
