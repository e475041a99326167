/-!
# Sequence numbers and acknowledgements

For one peer: the last sequence number given out, the highest one the peer has
acknowledged, the highest one received from it, and whether the peer still waits to
hear of what was received. An acknowledgement never runs ahead of what was sent and
never goes back.
-/

namespace Courier

/-- The counters of one peer. -/
structure Window where
  sent : Nat := 0
  acked : Nat := 0
  received : Nat := 0
  ackPending : Bool := false
  deriving DecidableEq

namespace Window

/-- Give out the next sequence number. -/
def next (w : Window) : Nat × Window := (w.sent + 1, { w with sent := w.sent + 1 })

/-- Take in a cumulative acknowledgement. -/
def acknowledge (w : Window) (seq : Nat) : Window :=
  { w with acked := max w.acked (min seq w.sent) }

/-- Take in a received sequence number, and tell whether it was received before.
Either way the peer is owed an acknowledgement. -/
def receive (w : Window) (seq : Nat) : Bool × Window :=
  if seq ≤ w.received then (true, { w with ackPending := true })
  else (false, { w with received := seq, ackPending := true })

/-- Forget what was received, because the peer counts anew. -/
def forgetReceived (w : Window) : Window := { w with received := 0, ackPending := false }

/-- The acknowledgement to send along; the peer is owed none afterwards. -/
def takeAck (w : Window) : Nat × Window := (w.received, { w with ackPending := false })

/-- What was acknowledged stays acknowledged. -/
theorem acked_le_acknowledge (w : Window) (seq : Nat) : w.acked ≤ (w.acknowledge seq).acked :=
  Nat.le_max_left _ _

/-- No more is acknowledged than was sent, whatever the peer claims. -/
theorem acknowledge_le_sent (w : Window) (seq : Nat) (sound : w.acked ≤ w.sent) :
    (w.acknowledge seq).acked ≤ (w.acknowledge seq).sent :=
  Nat.max_le.mpr ⟨sound, Nat.min_le_right _ _⟩

/-- A number is received again when it is not above all before it. The highest one received only
grows. -/
theorem receive_eq (w : Window) (seq : Nat) : w.receive seq =
    (decide (seq ≤ w.received), { w with received := max w.received seq, ackPending := true }) := by
  unfold receive
  split
  · next old => simp [old]
  · next new => simp [new, Nat.max_eq_right (Nat.le_of_not_le new)]

/-- The number received is the larger of the two. -/
theorem receive_received (w : Window) (seq : Nat) :
    (w.receive seq).2.received = max w.received seq := by
  rw [receive_eq]

end Window

end Courier
