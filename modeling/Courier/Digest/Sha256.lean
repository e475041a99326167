/-!
# SHA-256

The message is closed by a one bit, zeros up to the last eight bytes of a block
and its length in bits. Each block of sixteen words is stretched to sixty-four,
which drive the sixty-four rounds of the compression; the eight working words
after the last block are the digest.
-/

namespace Courier.Sha256

/-- The fractional parts of the cube roots of the first sixty-four primes. -/
def roundConstants : List UInt32 :=
  [0x428a2f98, 0x71374491, 0xb5c0fbcf, 0xe9b5dba5, 0x3956c25b, 0x59f111f1, 0x923f82a4, 0xab1c5ed5,
   0xd807aa98, 0x12835b01, 0x243185be, 0x550c7dc3, 0x72be5d74, 0x80deb1fe, 0x9bdc06a7, 0xc19bf174,
   0xe49b69c1, 0xefbe4786, 0x0fc19dc6, 0x240ca1cc, 0x2de92c6f, 0x4a7484aa, 0x5cb0a9dc, 0x76f988da,
   0x983e5152, 0xa831c66d, 0xb00327c8, 0xbf597fc7, 0xc6e00bf3, 0xd5a79147, 0x06ca6351, 0x14292967,
   0x27b70a85, 0x2e1b2138, 0x4d2c6dfc, 0x53380d13, 0x650a7354, 0x766a0abb, 0x81c2c92e, 0x92722c85,
   0xa2bfe8a1, 0xa81a664b, 0xc24b8b70, 0xc76c51a3, 0xd192e819, 0xd6990624, 0xf40e3585, 0x106aa070,
   0x19a4c116, 0x1e376c08, 0x2748774c, 0x34b0bcb5, 0x391c0cb3, 0x4ed8aa4a, 0x5b9cca4f, 0x682e6ff3,
   0x748f82ee, 0x78a5636f, 0x84c87814, 0x8cc70208, 0x90befffa, 0xa4506ceb, 0xbef9a3f7, 0xc67178f2]

/-- The eight working words. -/
structure Words where
  a : UInt32
  b : UInt32
  c : UInt32
  d : UInt32
  e : UInt32
  f : UInt32
  g : UInt32
  h : UInt32

/-- The fractional parts of the square roots of the first eight primes. -/
def Words.initial : Words :=
  ⟨0x6a09e667, 0xbb67ae85, 0x3c6ef372, 0xa54ff53a,
    0x510e527f, 0x9b05688c, 0x1f83d9ab, 0x5be0cd19⟩

/-- Rotate a word to the right. -/
def rotate (x places : UInt32) : UInt32 := (x >>> places) ||| (x <<< (32 - places))

/-- One round, driven by a round constant and a word of the stretched block. -/
def Words.round (w : Words) (driven : UInt32 × UInt32) : Words :=
  let choice := (w.e &&& w.f) ^^^ (~~~w.e &&& w.g)
  let majority := (w.a &&& w.b) ^^^ (w.a &&& w.c) ^^^ (w.b &&& w.c)
  let mixed := rotate w.e 6 ^^^ rotate w.e 11 ^^^ rotate w.e 25
  let first := w.h + mixed + choice + driven.1 + driven.2
  let second := (rotate w.a 2 ^^^ rotate w.a 13 ^^^ rotate w.a 22) + majority
  ⟨first + second, w.a, w.b, w.c, w.d + first, w.e, w.f, w.g⟩

/-- Add two sets of working words place by place. -/
def Words.add (w v : Words) : Words :=
  ⟨w.a + v.a, w.b + v.b, w.c + v.c, w.d + v.d, w.e + v.e, w.f + v.f, w.g + v.g, w.h + v.h⟩

/-- The four bytes of a word, highest first. -/
def wordBytes (w : UInt32) : List UInt8 :=
  [(w >>> 24).toUInt8, (w >>> 16).toUInt8, (w >>> 8).toUInt8, w.toUInt8]

/-- The bytes of all working words in order. -/
def Words.bytes (w : Words) : List UInt8 :=
  [w.a, w.b, w.c, w.d, w.e, w.f, w.g, w.h].flatMap wordBytes

/-- Stretch a block by `count` further words. -/
def stretch : Nat → Array UInt32 → Array UInt32
  | 0, words => words
  | count + 1, words =>
    let back (n : Nat) := words.getD (words.size - n) 0
    let low := rotate (back 15) 7 ^^^ rotate (back 15) 18 ^^^ (back 15 >>> 3)
    let high := rotate (back 2) 17 ^^^ rotate (back 2) 19 ^^^ (back 2 >>> 10)
    stretch count (words.push (back 16 + low + back 7 + high))

/-- Compress one block of sixteen words into the working words. -/
def Words.compress (w : Words) (block : List UInt32) : Words :=
  w.add ((roundConstants.zip (stretch 48 block.toArray).toList).foldl Words.round w)

/-- The words of a byte sequence, highest byte first; an unfinished word is left out. -/
def bigEndian : List UInt8 → List UInt32
  | a :: b :: c :: d :: rest =>
    (a.toUInt32 <<< 24 ||| b.toUInt32 <<< 16 ||| c.toUInt32 <<< 8 ||| d.toUInt32) :: bigEndian rest
  | _ => []

/-- Compress `count` blocks from the front of the words. -/
def absorb : Nat → List UInt32 → Words → Words
  | 0, _, w => w
  | count + 1, words, w => absorb count (words.drop 16) (w.compress (words.take 16))

/-- The message with its closing bit, zeros and length in bits. -/
def padded (message : List UInt8) : List UInt8 :=
  let zeros := (119 - message.length % 64) % 64
  let bits := UInt64.ofNat (8 * message.length)
  message ++ (0x80 : UInt8) :: List.replicate zeros 0 ++
    wordBytes (bits >>> 32).toUInt32 ++ wordBytes bits.toUInt32

/-- A closed message fills whole blocks. -/
theorem padded_length (message : List UInt8) : (padded message).length % 64 = 0 := by
  simp only [padded, wordBytes, List.length_append, List.length_cons, List.length_nil,
    List.length_replicate]
  omega

/-- The digest of a message, thirty-two bytes. -/
def digest (message : List UInt8) : List UInt8 :=
  let bytes := padded message
  (absorb (bytes.length / 64) (bigEndian bytes) Words.initial).bytes

/-- A digest has thirty-two bytes, whatever the message. -/
theorem digest_length (message : List UInt8) : (digest message).length = 32 := rfl

end Courier.Sha256
