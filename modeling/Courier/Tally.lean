import Courier.Duration

/-!
# Tallies

What is counted for one peer, and when its connection was last made or missed. Apart
from these times and the mark of a live connection, numbers only grow.
-/

namespace Courier

/-- The counters of one peer. -/
structure Tally where
  attempts : Nat := 0
  established : Nat := 0
  failures : Nat := 0
  lost : Nat := 0
  duplicates : Nat := 0
  messagesSent : Nat := 0
  bytesSent : Nat := 0
  messagesReceived : Nat := 0
  bytesReceived : Nat := 0
  retransmitted : Nat := 0
  duplicatesDropped : Nat := 0
  dropped : Nat := 0
  giveUps : Nat := 0
  isConnected : Bool := false
  lastConnectedAt : Option Duration := none
  lastFailureAt : Option Duration := none
  deriving DecidableEq

namespace Tally

/-- An attempt to connect began. -/
def attempted (t : Tally) : Tally := { t with attempts := t.attempts + 1 }

/-- A connection was made, and some messages will be written again on it. -/
def connected (t : Tally) (now : Duration) (again : Nat) : Tally :=
  { t with
    established := t.established + 1
    retransmitted := t.retransmitted + again
    isConnected := true
    lastConnectedAt := some now }

/-- An attempt to connect failed. -/
def failed (t : Tally) (now : Duration) : Tally :=
  { t with failures := t.failures + 1, lastFailureAt := some now }

/-- There is no connection any more. -/
def parted (t : Tally) : Tally := { t with isConnected := false }

/-- A connection was lost. -/
def lostOne (t : Tally) : Tally := { t with lost := t.lost + 1 }

/-- A connection was made while there was one. -/
def duplicate (t : Tally) : Tally := { t with duplicates := t.duplicates + 1 }

/-- Bytes were read. -/
def read (t : Tally) (bytes : Nat) : Tally := { t with bytesReceived := t.bytesReceived + bytes }

/-- A new message was received. -/
def received (t : Tally) : Tally := { t with messagesReceived := t.messagesReceived + 1 }

/-- A message was received again. -/
def receivedAgain (t : Tally) : Tally := { t with duplicatesDropped := t.duplicatesDropped + 1 }

/-- A message was written completely. -/
def wrote (t : Tally) (bytes : Nat) : Tally :=
  { t with messagesSent := t.messagesSent + 1, bytesSent := t.bytesSent + bytes }

/-- Messages were discarded before the peer acknowledged them. -/
def discarded (t : Tally) (count : Nat) : Tally := { t with dropped := t.dropped + count }

/-- The peer was given up, and messages were discarded with it. -/
def gaveUp (t : Tally) (count : Nat) : Tally := { t.discarded count with giveUps := t.giveUps + 1 }

end Tally

end Courier
