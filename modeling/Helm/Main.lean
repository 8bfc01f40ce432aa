import Helm.Definition.Reader
import Helm.Duel.Play
import Helm.Settings.Document

/-!
# Helm.Main

The program: reads the settings and the tree library that the environment names, plays one duel
and reports on it. All reports go to the standard error stream.
-/

namespace Helm.Main

/-- Those of some environment variables that are set. -/
def readEnvironment (keys : List String) : IO Environment := do
  let found ← keys.filterMapM fun key => do
    return (← IO.getEnv key).map fun value => (key, value)
  return fun key => found.lookup key

/-- Reads a file and makes something of its text. -/
def loadFile {α : Type} (what path : String) (read : String → Except String α) : IO α := do
  let refusal (reason : String) : IO.Error :=
    IO.userError ("loading " ++ what ++ " " ++ path ++ ": " ++ reason)
  let text ← try IO.FS.readFile path
    catch error => throw (refusal (toString error))
  match read text with
  | .ok value => return value
  | .error reason => throw (refusal reason)

/-- The settings that a document gives, or why it gives none. -/
def readSettings (text : String) : Except String Settings :=
  match Settings.ofText? text with
  | some settings => .ok settings
  | none => .error "not valid settings"

/-- The library that a text gives, and the tree of a name in it, or why there is none. -/
def readLibrary (root text : String) : Except String (TreeLibrary × TreeDefinition) :=
  match TreeLibrary.ofText text with
  | .error reason => .error (reason.message?.getD "not a valid tree library")
  | .ok library =>
    match library.get? root with
    | some tree => .ok (library, tree)
    | none => .error (TreeLibrary.unknownRoot root)

/-- A random source that is different every time. -/
def drawDice : IO Dice := do
  let bytes ← IO.getRandomBytes 8
  return .ofSeed (bytes.toList.foldl (fun seed byte => seed * 256 + byte.toUInt64) 0)

/-- Plays the duel that the environment configures. -/
def playDuel : IO Unit := do
  let env ← readEnvironment (Settings.overrideKeys ++ DuelConfig.overrideKeys)
  let config := DuelConfig.ofEnvironment env
  let written ← loadFile "settings" config.settings readSettings
  let settings := written.override env
  IO.eprintln ("AI level: " ++ settings.level.name)
  let (library, tree) ← loadFile "trees" config.trees (readLibrary config.root)
  for issue in library.validate do
    IO.eprintln ("Tree library issue: " ++ issue.message)
  let runtime ← drawDice
  let build ← drawDice
  let played := do
    let duel ← Duel.create config tree library settings {} fun
      | .runtime => runtime
      | .build => build
    duel.run config.ticks config.step
  match played with
  | .error fault => throw (IO.userError fault.message)
  | .ok (outcome, duel) =>
    for message in duel.said do
      IO.eprintln ("Ship " ++ message.ship.text ++ " says \"" ++ message.text ++ "\"")
    IO.eprintln outcome.message

end Helm.Main

def main : IO Unit := Helm.Main.playDuel
