/-!
# The random stream

Random operations draw from a stream of 32-bit words that a seed determines: the key stream of the
ChaCha cipher with twelve rounds. A word depends on the key and on its position alone (`Key.word`),
so a stream is a key and the position of the next word.

A seed of 64 bits is stretched to a key of 256 bits by a generator of its own (`Key.seedWord`).
Streams with the same seed are the same at every position, which is what makes runs with a seed
repeatable.
-/

namespace NodeGraph.Random

/-- Four words, a row of the cipher's state. The cipher works on whole rows. -/
structure Row where
  w : UInt32
  x : UInt32
  y : UInt32
  z : UInt32
  deriving DecidableEq, Repr

namespace Row

/-- A row made from another one word by word. -/
def map (f : UInt32 → UInt32) (r : Row) : Row :=
  ⟨f r.w, f r.x, f r.y, f r.z⟩

/-- A row made from two others word by word. -/
def zip (f : UInt32 → UInt32 → UInt32) (r s : Row) : Row :=
  ⟨f r.w s.w, f r.x s.x, f r.y s.y, f r.z s.z⟩

/-- The row turned left by one place, so that its second word comes first. -/
def turn (r : Row) : Row :=
  ⟨r.x, r.y, r.z, r.w⟩

/-- The words of a row in order. -/
def words (r : Row) : List UInt32 :=
  [r.w, r.x, r.y, r.z]

end Row

/-- The cipher's state, four rows of four words: constants, the key, and the number of the block. -/
structure Block where
  a : Row
  b : Row
  c : Row
  d : Row
  deriving DecidableEq, Repr

/-- The word rotated left by a number of bits between 1 and 31. -/
def rotate (bits : UInt32) (x : UInt32) : UInt32 :=
  (x <<< bits) ||| (x >>> (32 - bits))

namespace Block

/-- The rows added word by word, modulo `2 ^ 32`. -/
def add (s t : Block) : Block :=
  ⟨s.a.zip (· + ·) t.a, s.b.zip (· + ·) t.b, s.c.zip (· + ·) t.c, s.d.zip (· + ·) t.d⟩

/-- A half of a column round: the first two rows are added and mixed into the fourth, then the last
two are added and mixed into the second. -/
def halfRound (bitsD bitsB : UInt32) (s : Block) : Block :=
  let a := s.a.zip (· + ·) s.b
  let d := (s.d.zip (· ^^^ ·) a).map (rotate bitsD)
  let c := s.c.zip (· + ·) d
  let b := (s.b.zip (· ^^^ ·) c).map (rotate bitsB)
  ⟨a, b, c, d⟩

/-- A round on the four columns at once, which are independent of each other. -/
def columnRound (s : Block) : Block :=
  (s.halfRound 16 12).halfRound 8 7

/-- A round on the four diagonals: the rows are turned so that they stand in columns. -/
def diagonalRound (s : Block) : Block :=
  let t := columnRound ⟨s.a, s.b.turn, s.c.turn.turn, s.d.turn.turn.turn⟩
  ⟨t.a, t.b.turn.turn.turn, t.c.turn.turn, t.d.turn⟩

/-- Two rounds, one on the columns and one on the diagonals. -/
def doubleRound (s : Block) : Block :=
  s.columnRound.diagonalRound

/-- The state after all rounds, added to the state before them. There are six double rounds. -/
def scramble (s : Block) : Block :=
  (Nat.repeat doubleRound 6 s).add s

/-- The words of a block in order, sixteen of them. -/
def words (s : Block) : List UInt32 :=
  s.a.words ++ s.b.words ++ s.c.words ++ s.d.words

end Block

/-- The key of a stream, as two rows of the cipher's state. -/
structure Key where
  first : Row
  second : Row
  deriving DecidableEq, Repr

namespace Key

/-- A step of the sequence from which a seed's key is taken. It is linear modulo `2 ^ 64`. -/
def nextState (state : UInt64) : UInt64 :=
  state * 6364136223846793005 + 11634580027462260723

/-- The key word of a state of that sequence: some of its upper bits, rotated by others. -/
def stateWord (state : UInt64) : UInt32 :=
  let x := (((state >>> 18) ^^^ state) >>> 27).toUInt32
  let turns := (state >>> 59).toUInt32
  (x >>> turns) ||| (x <<< ((32 - turns) % 32))

/-- The key word at a position. The first step is taken before the first word. -/
def seedWord (seed : UInt64) (position : Nat) : UInt32 :=
  stateWord (Nat.repeat nextState (position + 1) seed)

/-- The key of a seed, eight words of the sequence that starts with the seed. -/
def ofSeed (seed : UInt64) : Key :=
  let word := seedWord seed
  ⟨⟨word 0, word 1, word 2, word 3⟩, ⟨word 4, word 5, word 6, word 7⟩⟩

/-- The block of sixteen words with the given number. The number takes two words of the state, and
the other two are zero. -/
def block (key : Key) (number : Nat) : Block :=
  Block.scramble
    ⟨⟨0x61707865, 0x3320646e, 0x79622d32, 0x6b206574⟩, key.first, key.second,
      ⟨number.toUInt32, (number >>> 32).toUInt32, 0, 0⟩⟩

/-- The word at a position of the stream. Every block has sixteen of them. -/
def word (key : Key) (position : Nat) : UInt32 :=
  (key.block (position / 16)).words.getD (position % 16) 0

end Key

/-- The scalar in `[0, 1)` of a word: its upper 24 bits as a fraction. All of these are exact. -/
def unitScalar (w : UInt32) : Float32 :=
  (w >>> 8).toFloat32 / 16777216

/-- A stream of random words, of which those before `position` are used up. -/
structure Stream where
  key : Key
  position : Nat := 0
  deriving DecidableEq, Repr

namespace Stream

/-- The stream of a seed, from its first word on. -/
def ofSeed (seed : UInt64) : Stream :=
  { key := .ofSeed seed }

/-- A random scalar, and the stream after it. It takes one word. -/
def scalar (s : Stream) : Float32 × Stream :=
  (unitScalar (s.key.word s.position), { s with position := s.position + 1 })

end Stream

end NodeGraph.Random
