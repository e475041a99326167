import Courier.Digest.Crc32c
import Courier.Wire.Message

/-!
# Frames

A frame is its length and the checksum of its body, four bytes each with the lowest
first, and the body, which is the text of an envelope. The length counts the eight
bytes of the header. A length too short for the header, a body beyond the limit or a
checksum that does not fit the body means that the bytes can no longer be trusted.

Frames are taken from the front of a buffer, which may end anywhere: as long as the
header or the body is incomplete nothing is taken, and lengths are judged as soon as
the header is there.
-/

namespace Courier

/-- The wording of a wire error. -/
def WireError.message : WireError → String
  | checksumMismatch expected actual =>
    "checksum mismatch: expected 0x" ++ String.ofList (Hex.ofNat 8 expected.toNat) ++
      ", got 0x" ++ String.ofList (Hex.ofNat 8 actual.toNat)
  | frameTooLarge size => "frame too large: " ++ toString size ++ " bytes (max 1048576)"
  | invalidLength length => "invalid frame length: " ++ toString length
  | malformed => "malformed envelope"

namespace Frame

/-- The bytes of the header. -/
def headerSize : Nat := 8

/-- The largest body. -/
def maxBody : Nat := 1024 * 1024

/-- The largest payload that is accepted for sending. Payloads double in size on the
wire, and the envelope needs some room of its own. -/
def maxPayload : Nat := (maxBody - 4096) / 2

/-- The four bytes of a word, lowest first. -/
def wordBytes (w : UInt32) : List UInt8 :=
  [w.toUInt8, (w >>> 8).toUInt8, (w >>> 16).toUInt8, (w >>> 24).toUInt8]

/-- The word of four bytes, lowest first. -/
def wordOf (a b c d : UInt8) : UInt32 :=
  a.toUInt32 ||| b.toUInt32 <<< 8 ||| c.toUInt32 <<< 16 ||| d.toUInt32 <<< 24

/-- The frame of an envelope, unless its text exceeds the limit. -/
def encode (e : Envelope) : Except WireError (List UInt8) :=
  let body := e.toJson.render
  if maxBody < body.length then .error (.frameTooLarge body.length)
  else
    .ok (wordBytes (UInt32.ofNat (headerSize + body.length)) ++
      wordBytes (Crc32c.checksum body) ++ body)

/-- What the header of a frame says. -/
structure Header where
  length : Nat
  checksum : UInt32
  deriving DecidableEq

/-- The header of a frame, from its eight bytes. -/
def Header.ofBytes? : List UInt8 → Option Header
  | [a, b, c, d, e, f, g, h] => some ⟨(wordOf a b c d).toNat, wordOf e f g h⟩
  | _ => none

/-- What is wrong with the length in a header. -/
def Header.fault? (h : Header) : Option WireError :=
  if h.length < headerSize then some (.invalidLength h.length)
  else if maxBody < h.length - headerSize then some (.frameTooLarge (h.length - headerSize))
  else none

/-- The envelope of a complete body. -/
def openBody (h : Header) (body : List UInt8) : Except WireError Envelope :=
  let actual := Crc32c.checksum body
  if actual ≠ h.checksum then .error (.checksumMismatch h.checksum actual)
  else
    match (Json.Raw.parse? body).bind Envelope.read? with
    | some e => .ok e
    | none => .error .malformed

/-- The bytes of a buffer between two positions. -/
def slice (buffer : ByteArray) (start stop : Nat) : List UInt8 :=
  (buffer.extract start stop).data.toList

/-- Take one frame from the front of a buffer, if it is complete. -/
def next? (buffer : ByteArray) : Except WireError (Option (Envelope × ByteArray)) :=
  match Header.ofBytes? (slice buffer 0 headerSize) with
  | none => .ok none
  | some h =>
    match h.fault? with
    | some fault => .error fault
    | none =>
      if buffer.size < h.length then .ok none
      else
        match openBody h (slice buffer headerSize h.length) with
        | .error fault => .error fault
        | .ok e => .ok (some (e, buffer.extract h.length buffer.size))

end Frame

end Courier
