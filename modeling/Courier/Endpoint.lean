/-!
# Ends of connections

A connection has two ends, the one that dialed and the one that accepted. An end is
known by the number of its connection and its side, so a kernel that reaches itself
still tells its two ends apart.
-/

namespace Courier

/-- The two sides of a connection. -/
inductive Side where
  | dialer
  | acceptor
  deriving DecidableEq, Inhabited

/-- One end of a connection. -/
structure Endpoint where
  connection : Nat
  side : Side
  deriving DecidableEq, Inhabited

namespace Side

/-- The other side. -/
def other : Side → Side
  | dialer => acceptor
  | acceptor => dialer

end Side

/-- The other end of the connection. -/
def Endpoint.other (e : Endpoint) : Endpoint := { e with side := e.side.other }

end Courier
