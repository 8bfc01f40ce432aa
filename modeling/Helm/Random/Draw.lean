import Helm.Fault
import Helm.Number.Single

/-!
# Helm.Random.Draw

Random values drawn from any source of 32-bit words: an index below a bound, an index with
given weights, and a number in a closed range. Indices are drawn by multiplication with
rejection, so that every index is equally likely; after `patience` rejections in a row the last
candidate is taken, which is below the bound like any other.
-/

namespace Helm

/-- A source of random 32-bit words. -/
class WordSource (G : Type) where
  /-- The next word, and the source after it. -/
  nextWord : G → UInt32 × G

namespace Draw

open WordSource

variable {G : Type} [WordSource G]

/-- Two words as one number below `2 ^ 64`, the low one first. -/
def wide (g : G) : Nat × G :=
  let (low, g) := nextWord g
  let (high, g) := nextWord g
  (low.toNat + high.toNat * UInt32.size, g)

/-- How often in a row a candidate may be rejected. Drawing until one is accepted has no such bound
and need not end. No more than half of all candidates are rejected. -/
def patience : Nat := 512

/--
Draws candidates below `size` until the product with `n` leaves a remainder by `size` of at most
`zone`, and gives its quotient. When as many have been rejected as may be, the next is taken as it
comes.
-/
def scaled (candidate : G → Nat × G) (size n zone : Nat) : Nat → G → Nat × G
  | 0, g =>
    let (x, g) := candidate g
    (x * n / size, g)
  | tries + 1, g =>
    let (x, g) := candidate g
    if x * n % size ≤ zone then (x * n / size, g)
    else scaled candidate size n zone tries g

/-- The largest remainder that is accepted for an index below `n`. -/
def indexZone (n : Nat) : Nat := n <<< (63 - n.log2) - 1

/-- An index below `n`, for `n` below `2 ^ 64`. -/
def index (n : Nat) (g : G) : Except Fault (Nat × G) :=
  if n = 0 then .error .emptyRange
  else .ok (scaled wide UInt64.size n (indexZone n) patience g)

/-- The sum of weights. -/
def totalWeight : List Nat → Nat
  | [] => 0
  | w :: ws => w + totalWeight ws

/-- The weights usable for `count` items: as many as items, and not all zero. -/
def usableWeights? (count : Nat) (weights : List Nat) : Option (List Nat) :=
  if weights.length = count ∧ totalWeight weights ≠ 0 then some weights else none

/-- The item a value falls to: the number of partial sums, the last left out, that it reaches. -/
def bucket : List Nat → Nat → Nat
  | [], _ => 0
  | [_], _ => 0
  | w :: ws, value => if w ≤ value then bucket ws (value - w) + 1 else 0

/-- The largest remainder that is accepted for a value below `total`. -/
def weightZone (total : Nat) : Nat := UInt32.size - 1 - (UInt32.size - total) % total

/-- An index drawn in proportion to weights that are not all zero. -/
def weighted (weights : List Nat) (g : G) : Nat × G :=
  let total := totalWeight weights
  let single : G → Nat × G := fun g => let (x, g) := nextWord g; (x.toNat, g)
  let (value, g) := scaled single UInt32.size total (weightZone total) patience g
  (bucket weights value, g)

/-- The largest value of a unit draw, just below one. -/
def unitMax : Float32 := Single.ofBits 0x3f7ffffe

/-- The largest scale of at most the given bit pattern that keeps a unit draw within `hi`. -/
def fitScale (lo hi : Float32) : Nat → Float32
  | 0 => Single.ofBits 0
  | bits + 1 =>
    let scale := Single.ofBits (UInt32.ofNat (bits + 1))
    if scale * unitMax + lo > hi then fitScale lo hi bits else scale

/-- A number from zero up to, but not including, one, given by the top 23 bits of a word. -/
def unit (word : UInt32) : Float32 := Single.ofBits ((0x3f800000 : UInt32) ||| word >>> 9) - 1

/-- A number between `lo` and `hi`, both included. -/
def between (lo hi : Float32) (g : G) : Except Fault (Float32 × G) :=
  if !(lo ≤ hi) then .error .emptyRange
  else
    let scale := (hi - lo) / unitMax
    if !scale.isFinite then .error .rangeOverflow
    else
      let fitted := fitScale lo hi scale.toBits.toNat
      let (word, g) := nextWord g
      .ok (unit word * fitted + lo, g)

end Draw

end Helm
