import Courier.Endpoint
import Courier.Incarnation
import Courier.PeerId

/-!
# Choosing between two connections

Two kernels may connect to each other at the same time, or one of them may connect
again before the other has noticed the loss of the first connection. Each end then
decides for itself which connection to keep. A connection of another incarnation
wins, and so does a later connection opened by the same peer. Otherwise the one wins
that was opened by the peer with the smaller id, which both ends see alike.
-/

namespace Courier

/-- What decides between connections to the same peer: who opened it, and the
incarnation of the remote end. -/
structure Origin where
  initiator : PeerId
  incarnation : Incarnation
  deriving DecidableEq

/-- Who opened a connection, as seen from one of its ends. -/
def Side.initiator (side : Side) (own remote : PeerId) : PeerId :=
  match side with
  | dialer => own
  | acceptor => remote

/-- Whether an incoming connection replaces the one held. -/
def Origin.replaces (incoming held : Origin) (own remote : PeerId) : Bool :=
  incoming.incarnation ≠ held.incarnation || incoming.initiator = held.initiator ||
    incoming.initiator = own.smaller remote

end Courier
