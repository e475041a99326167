/-!
# A reproducible stream of random words

A seed is stretched to a key of eight words, and the ChaCha permutation with eight
rounds turns the key and a block counter into sixteen words of the stream. A draw
takes words in order and never skips one, so a seed and the number of words
already used determine every later draw.
-/

namespace Courier.Random

/-- The sixteen words on which the permutation works. -/
abbrev Block := Vector UInt32 16

/-- Rotate a word to the left. -/
def rotate (x places : UInt32) : UInt32 := (x <<< places) ||| (x >>> (32 - places))

/-- Stir four of the sixteen words. -/
def quarterRound (s : Block) (a b c d : Fin 16) : Block :=
  let s := s.set a (s[a] + s[b])
  let s := s.set d (rotate (s[d] ^^^ s[a]) 16)
  let s := s.set c (s[c] + s[d])
  let s := s.set b (rotate (s[b] ^^^ s[c]) 12)
  let s := s.set a (s[a] + s[b])
  let s := s.set d (rotate (s[d] ^^^ s[a]) 8)
  let s := s.set c (s[c] + s[d])
  s.set b (rotate (s[b] ^^^ s[c]) 7)

/-- Two rounds: the four columns, then the four diagonals. -/
def doubleRound (s : Block) : Block :=
  let s := quarterRound s 0 4 8 12
  let s := quarterRound s 1 5 9 13
  let s := quarterRound s 2 6 10 14
  let s := quarterRound s 3 7 11 15
  let s := quarterRound s 0 5 10 15
  let s := quarterRound s 1 6 11 12
  let s := quarterRound s 2 7 8 13
  quarterRound s 3 4 9 14

/-- The words of one block of the stream: the permuted input added to the input. -/
def block (key : Vector UInt32 8) (counter : UInt64) : Block :=
  let start : Block :=
    #v[0x61707865, 0x3320646e, 0x79622d32, 0x6b206574,
      key[0], key[1], key[2], key[3], key[4], key[5], key[6], key[7],
      counter.toUInt32, (counter >>> 32).toUInt32, 0, 0]
  start.zipWith (· + ·) (doubleRound (doubleRound (doubleRound (doubleRound start))))

/-- One step of the generator that stretches a seed: a linear step, then a word of
its high bits rotated by the topmost five. -/
def stretchStep (state : UInt64) : UInt64 × UInt32 :=
  let state := state * 6364136223846793005 + 11634580027462260723
  let folded := (((state >>> 18) ^^^ state) >>> 27).toUInt32
  let places := (state >>> 59).toUInt32
  (state, (folded >>> places) ||| (folded <<< ((32 - places) % 32)))

/-- The key of a seed: the first `count` words of the stretching generator. -/
def stretch : Nat → UInt64 → List UInt32
  | 0, _ => []
  | count + 1, state =>
    let (state, word) := stretchStep state
    word :: stretch count state

/-- The key that a seed stands for. -/
def key (seed : UInt64) : Vector UInt32 8 :=
  let words := stretch 8 seed
  Vector.ofFn fun i => words.getD i 0

/-- A stream of words with the number of words drawn from it so far. -/
structure Stream where
  key : Vector UInt32 8
  used : Nat := 0

/-- The unused stream of a seed. -/
def Stream.ofSeed (seed : UInt64) : Stream := { key := Random.key seed }

/-- The word at a position of the stream. -/
def Stream.word (s : Stream) (position : Nat) : UInt32 :=
  (block s.key (UInt64.ofNat (position / 16))).get ⟨position % 16, Nat.mod_lt _ (by decide)⟩

/-- Draw sixty-four bits: two words, the low one first. -/
def Stream.next (s : Stream) : UInt64 × Stream :=
  let low := s.word s.used
  let high := s.word (s.used + 1)
  ((high.toUInt64 <<< 32) ||| low.toUInt64, { s with used := s.used + 2 })

/-- Draw a number from zero up to, but excluding, one: fifty-three bits over
two to the fifty-third power, which a double holds exactly. -/
def Stream.ratio (s : Stream) : Float × Stream :=
  let (bits, s) := s.next
  ((bits >>> 11).toFloat / 9007199254740992.0, s)

end Courier.Random
