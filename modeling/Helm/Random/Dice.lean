import Helm.Random.ChaCha
import Helm.Random.Draw

/-!
# Helm.Random.Dice

The random sources of one ship. `streamSeed` derives a seed from the battle's base seed, the
ship and the purpose, and `Dice` opens the stream of that seed at its first word.
-/

namespace Helm

/-- What a ship's random words are used for. -/
inductive Purpose where
  /-- Choices made while the tree is evaluated. -/
  | runtime
  /-- Choices made once, while the tree is built. -/
  | build
  deriving DecidableEq, Repr

/-- The number of a purpose in the derivation of seeds. -/
def Purpose.stream : Purpose → UInt32
  | runtime => 0
  | build => 1

/-- Mixes a shifted copy of the high half into the low half. -/
def foldHigh (x : UInt64) : UInt64 := x ^^^ x >>> 33

/-- The seed of one ship's stream, given by the ship's number and the stream's. -/
def streamSeed (base : UInt64) (ship stream : UInt32) : UInt64 :=
  let mixed := base ^^^ ship.toUInt64 * 0x517cc1b727220a95 ^^^ stream.toUInt64 * 0x9e3779b97f4a7c15
  foldHigh (foldHigh mixed * 0xff51afd7ed558ccd)

/-- A random source that is opened by its first draw. -/
structure Dice where
  seed : UInt64
  generator : Option ChaCha
  deriving DecidableEq, Inhabited, Repr

namespace Dice

/-- A source from which nothing has been drawn. -/
def ofSeed (seed : UInt64) : Dice := ⟨seed, none⟩

/-- The source of one ship for one purpose. -/
def forShip (base : UInt64) (ship : UInt32) (purpose : Purpose) : Dice :=
  ofSeed (streamSeed base ship purpose.stream)

/-- Draws a word, opening the source first if need be. -/
def next (d : Dice) : UInt32 × Dice :=
  let (word, generator) := (d.generator.getD (ChaCha.ofSeed d.seed)).next
  (word, { d with generator := some generator })

instance : WordSource Dice := ⟨next⟩

/--
A number in the closed range from `lo` to `hi`. When the range is empty, a single point or not
finite, the answer is `lo` and nothing is drawn.
-/
def inRange {G : Type} [WordSource G] (lo hi : Float32) (g : G) : Except Fault (Float32 × G) :=
  if !lo.isFinite || !hi.isFinite || hi ≤ lo then .ok (lo, g) else Draw.between lo hi g

end Dice

end Helm
