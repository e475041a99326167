/-!
# The Castagnoli checksum

CRC-32C in its reflected form: the remainder starts with every bit set, each byte
is added to the low octet and shifted out bit by bit, and the complement of the
final remainder is the checksum.
-/

namespace Courier.Crc32c

/-- The Castagnoli polynomial, lowest power in the highest bit. -/
def polynomial : UInt32 := 0x82f63b78

/-- Divide out the lowest bit of the remainder. -/
def shift (remainder : UInt32) : UInt32 :=
  if remainder &&& 1 = 1 then (remainder >>> 1) ^^^ polynomial else remainder >>> 1

/-- Divide out the lowest eight bits of the remainder. -/
def shiftByte (remainder : UInt32) : UInt32 :=
  shift (shift (shift (shift (shift (shift (shift (shift remainder)))))))

/-- The remainder after one more byte. -/
def absorb (remainder : UInt32) (byte : UInt8) : UInt32 :=
  shiftByte (remainder ^^^ byte.toUInt32)

/-- The remainder after a run of bytes. -/
def remainder (start : UInt32) (bytes : List UInt8) : UInt32 := bytes.foldl absorb start

/-- The checksum of a byte sequence. -/
def checksum (bytes : List UInt8) : UInt32 := remainder 0xffffffff bytes ^^^ 0xffffffff

/-- The remainder of a concatenation continues from the remainder of its first part. -/
theorem remainder_append (start : UInt32) (front back : List UInt8) :
    remainder start (front ++ back) = remainder (remainder start front) back :=
  List.foldl_append

end Courier.Crc32c
