import Courier.Host
import Courier.Wire.Frame

/-!
# Exchanging greetings

The dialing side greets first; the accepting side reads that greeting, decides
whether to admit the peer, and greets back. Each side takes exactly one frame for the
greeting; what arrived behind it is kept for the connection.
-/

namespace Courier.Handshake

/-- The number of bytes read at a time. -/
def chunk : Nat := 4096

/-- The frame of a greeting. -/
def frame (hello : Hello) : Except WireError (List UInt8) :=
  Frame.encode ((Body.hello hello).envelope 0 hello.ack)

/-- Take the greeting from the front of what arrived, if it is complete. -/
def take? (buffer : ByteArray) : Except LinkError (Option (Hello × ByteArray)) :=
  match Frame.next? buffer with
  | .error error => .error (.wire error)
  | .ok none => .ok none
  | .ok (some (e, rest)) =>
    match e.body with
    | .error error => .error (.wire error)
    | .ok (some (.hello hello)) => .ok (some (hello, rest))
    | .ok _ => .error (.handshakeFailure ("expected hello, got " ++ e.method))

/-- What is wrong with the greeting of a dialed peer. -/
def mismatch? (peer : PeerId) (hello : Hello) : Option LinkError :=
  if hello.peer = peer then none
  else some (.handshakeFailure ("dialed " ++ peer.short ++ " but reached " ++ hello.peer.short))

end Courier.Handshake
