/-!
# Helm.Random.ChaCha

The ChaCha stream with eight rounds, as a source of 32-bit words: sixteen words from each block
of a 64-bit counter that starts at zero, in order and without gaps. `ChaCha.ofSeed` spreads a
64-bit seed over the 256-bit key with a permuted congruential generator.
-/

namespace Helm

/-- Four words of the cipher's square. -/
structure Row where
  a : UInt32
  b : UInt32
  c : UInt32
  d : UInt32
  deriving DecidableEq, Repr

namespace Row

/-- Applies a word operation to two rows, lane by lane. -/
def zip (f : UInt32 → UInt32 → UInt32) (x y : Row) : Row :=
  ⟨f x.a y.a, f x.b y.b, f x.c y.c, f x.d y.d⟩

/-- Applies a word operation to every lane. -/
def map (f : UInt32 → UInt32) (x : Row) : Row := ⟨f x.a, f x.b, f x.c, f x.d⟩

/-- Moves every lane one place to the left, the first to the end. -/
def turn (x : Row) : Row := ⟨x.b, x.c, x.d, x.a⟩

/-- The lanes in order. -/
def toList (x : Row) : List UInt32 := [x.a, x.b, x.c, x.d]

end Row

/-- Rotates a word to the left. -/
def rotateLeft (n : UInt32) (x : UInt32) : UInt32 := x <<< n ||| x >>> (32 - n)

/-- The square of sixteen words that the rounds mix. -/
structure Square where
  top : Row
  upper : Row
  lower : Row
  bottom : Row
  deriving DecidableEq, Repr

namespace Square

/-- Half of a quarter round on all four columns: two additions, each followed by a rotation. -/
def halfRound (n m : UInt32) (s : Square) : Square :=
  let top := s.top.zip (· + ·) s.upper
  let bottom := (s.bottom.zip (· ^^^ ·) top).map (rotateLeft n)
  let lower := s.lower.zip (· + ·) bottom
  let upper := (s.upper.zip (· ^^^ ·) lower).map (rotateLeft m)
  ⟨top, upper, lower, bottom⟩

/-- A quarter round on each of the four columns. -/
def columns (s : Square) : Square := (s.halfRound 16 12).halfRound 8 7

/-- Lines the diagonals up as columns. -/
def skew (s : Square) : Square :=
  ⟨s.top, s.upper.turn, s.lower.turn.turn, s.bottom.turn.turn.turn⟩

/-- Undoes `skew`. -/
def unskew (s : Square) : Square :=
  ⟨s.top, s.upper.turn.turn.turn, s.lower.turn.turn, s.bottom.turn⟩

/-- Two rounds: the columns, then the diagonals. -/
def doubleRound (s : Square) : Square := s.columns.skew.columns.unskew

/-- Adds two squares word by word. -/
def add (s t : Square) : Square :=
  ⟨s.top.zip (· + ·) t.top, s.upper.zip (· + ·) t.upper,
   s.lower.zip (· + ·) t.lower, s.bottom.zip (· + ·) t.bottom⟩

/-- The words in order. -/
def toList (s : Square) : List UInt32 :=
  s.top.toList ++ s.upper.toList ++ s.lower.toList ++ s.bottom.toList

end Square

/-- A position in the stream of one key. -/
structure ChaCha where
  /-- The first half of the key. -/
  keyLow : Row
  /-- The second half of the key. -/
  keyHigh : Row
  /-- The block that is generated next. -/
  counter : UInt64
  /-- Words of the last block that have not been taken yet. -/
  pending : List UInt32
  deriving DecidableEq, Repr

namespace ChaCha

/-- The words of the block at the counter. -/
def block (g : ChaCha) : List UInt32 :=
  let start : Square :=
    ⟨⟨0x61707865, 0x3320646e, 0x79622d32, 0x6b206574⟩, g.keyLow, g.keyHigh,
     ⟨g.counter.toUInt32, (g.counter >>> 32).toUInt32, 0, 0⟩⟩
  (start.add start.doubleRound.doubleRound.doubleRound.doubleRound).toList

/-- Takes the next word, starting a new block when the last one is used up. -/
def next (g : ChaCha) : UInt32 × ChaCha :=
  match g.pending with
  | word :: rest => (word, { g with pending := rest })
  | [] =>
    match g.block with
    | word :: rest => (word, { g with counter := g.counter + 1, pending := rest })
    | [] => (0, g)

/-- One step of the congruential generator that spreads a seed. -/
def spread (s : UInt64) : UInt64 := s * 6364136223846793005 + 11634580027462260723

/-- The word that a state of the spreading generator gives. -/
def spreadWord (s : UInt64) : UInt32 :=
  let x := ((s >>> 18 ^^^ s) >>> 27).toUInt32
  let n := (s >>> 59).toUInt32
  x >>> n ||| x <<< (32 - n)

/-- The start of the stream whose key is spread from a seed. -/
def ofSeed (seed : UInt64) : ChaCha :=
  let s1 := spread seed
  let s2 := spread s1
  let s3 := spread s2
  let s4 := spread s3
  let s5 := spread s4
  let s6 := spread s5
  let s7 := spread s6
  let s8 := spread s7
  { keyLow := ⟨spreadWord s1, spreadWord s2, spreadWord s3, spreadWord s4⟩
    keyHigh := ⟨spreadWord s5, spreadWord s6, spreadWord s7, spreadWord s8⟩
    counter := 0
    pending := [] }

end ChaCha

end Helm
