import Courier.Handshake
import Courier.Network.Memory

/-!
# Visitors

A visitor is a party on the network without a kernel. It holds one end of a connection
and writes and reads what it likes; from what it read it takes complete frames as far
as they are sound.
-/

namespace Courier

/-- One end of a connection in the hands of a visitor, with the bytes not yet taken as
frames, and whether the end of the connection was seen. -/
structure Visitor where
  endpoint : Endpoint
  held : ByteArray := .empty
  ended : Bool := false

namespace Visitor

/-- Write bytes from a position on until they no longer fit. Tells how far that was, and
whether the connection is still open in this direction. -/
def write (v : Visitor) (network : Network) (bytes : ByteArray) : Bool × Nat × Network :=
  if bytes.size = 0 then (true, 0, network)
  else
    match network.write? v.endpoint bytes 0 with
    | none => (false, 0, network)
    | some (count, network) => (true, count, network)

/-- The complete frames at the front of a buffer up to the first unsound one, and the
rest. `fuel` is at least the number of bytes. -/
def frames : Nat → ByteArray → List Envelope × ByteArray
  | 0, buffer => ([], buffer)
  | fuel + 1, buffer =>
    match Frame.next? buffer with
    | .ok (some (e, rest)) =>
      let (others, rest) := frames fuel rest
      (e :: others, rest)
    | _ => ([], buffer)

/-- Read what is there, or at most so many bytes, and take the frames. The end of the
connection is only seen by reading on behind the last byte. -/
def read (v : Visitor) (network : Network) (limit : Option Nat) :
    Nat × List Envelope × Visitor × Network :=
  let (bytes, network) := match network.read v.endpoint (limit.getD Pipe.capacity) with
    | (.bytes bytes, network) => (bytes, network)
    | (_, network) => (.empty, network)
  let cut := limit.any (· ≤ bytes.size)
  let ended := !cut && match network.read v.endpoint Pipe.capacity with
    | (.ended, _) => true
    | _ => false
  let held := v.held ++ bytes
  let (envelopes, held) := frames held.size held
  (bytes.size, envelopes, { v with held, ended := v.ended || ended }, network)

end Visitor

end Courier
