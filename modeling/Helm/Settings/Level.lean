/-!
# Helm.Settings.Level

Skill levels. A higher level aims closer, reacts sooner and waits for a better aim before it
fires a fixed weapon.
-/

namespace Helm

/-- How well a ship is handled. -/
inductive Level where
  | easy
  | medium
  | hard
  | expert
  deriving DecidableEq, Repr

namespace Level

instance : Inhabited Level := ⟨medium⟩

/-- Every level, from the lowest to the highest. -/
def all : List Level := [easy, medium, hard, expert]

/-- The place of a level in the order of skill. -/
def rank : Level → Nat
  | easy => 0
  | medium => 1
  | hard => 2
  | expert => 3

/-- The word for a level. -/
def name : Level → String
  | easy => "Easy"
  | medium => "Medium"
  | hard => "Hard"
  | expert => "Expert"

/-- The level a word names, in exact case. -/
def ofName? (word : String) : Option Level := all.find? (·.name == word)

/-- The level a word names, in any case of its letters. -/
def ofText? (word : String) : Option Level :=
  all.find? fun level => (level.name.toList.map Char.toLower) == word.toList.map Char.toLower

/-- The largest error of aim in degrees, drawn once for each target. -/
def aimError : Level → Float32
  | easy => 12
  | medium => 6
  | hard => 2
  | expert => 0

/-- Seconds for which a new target is tracked before the first shot. -/
def reactionTime : Level → Float32
  | easy => 1
  | medium => 0.5
  | hard => 0.2
  | expert => 0

/-- Degrees beyond half its arc at which a fixed weapon still fires. -/
def fireTolerance : Level → Float32
  | easy => 15
  | medium => 8
  | hard => 4
  | expert => 2

end Level

end Helm
