import Courier.Ledger

/-!
# The identity of a running kernel

What all connections of one run of a kernel share: its id, its incarnation and its
options. The greeting to a peer follows from them and from what is known of the peer.
-/

namespace Courier

/-- One run of a kernel. -/
structure Host where
  id : PeerId
  incarnation : Incarnation
  options : Options

namespace Host

/-- The greeting to a peer. It acknowledges what was received from the incarnation of
the peer that was last seen. -/
def hello (host : Host) (ledger : Ledger) : Hello :=
  ⟨host.id, host.incarnation, ledger.window.received, ledger.incarnation⟩

end Host

end Courier
