import Courier.Options

/-!
# The outbox of a peer

Messages stay in the outbox, in the order of their sequence numbers, until the peer
acknowledges them. A mark separates the messages already written on the current
connection from those still to be written; a new connection moves the mark back to
the front, so that everything unacknowledged is written again in its first order.

The outbox behaves as a pair of lists, the written and the unwritten messages. Every
operation keeps the mark within the messages held.
-/

namespace Courier

/-- A message with its sequence number and the time it was queued. -/
structure Entry (β : Type) where
  seq : Nat
  body : β
  queuedAt : Duration
  deriving DecidableEq

/-- The messages a peer has not acknowledged, the first `marked` of them written. -/
structure Outbox (β : Type) where
  entries : List (Entry β) := []
  marked : Nat := 0
  capacity : Nat
  overflow : Overflow

/-- The refusal of a full outbox. -/
structure OutboxFull where
  capacity : Nat
  deriving DecidableEq

/-- The wording of the refusal. -/
def OutboxFull.message (full : OutboxFull) : String :=
  "queue at capacity (" ++ toString full.capacity ++ ")"

namespace Outbox

variable {β : Type}

/-- An empty outbox that holds at least one message. -/
def empty (capacity : Nat) (overflow : Overflow) : Outbox β :=
  { capacity := max capacity 1, overflow }

/-- The number of messages held. -/
def size (o : Outbox β) : Nat := o.entries.length

/-- The written messages. -/
def written (o : Outbox β) : List (Entry β) := o.entries.take o.marked

/-- The messages still to be written. -/
def unwritten (o : Outbox β) : List (Entry β) := o.entries.drop o.marked

/-- The number of messages still to be written. -/
def unsent (o : Outbox β) : Nat := o.size - o.marked

/-- Make room for one message: when the outbox is full, evict the oldest message or
refuse. -/
def makeRoom (o : Outbox β) : Except OutboxFull (Outbox β × Option (Entry β)) :=
  if o.size < o.capacity then .ok (o, none)
  else
    match o.overflow with
    | .rejectNew => .error ⟨o.capacity⟩
    | .dropOldest =>
      .ok ({ o with entries := o.entries.tail, marked := o.marked - 1 }, o.entries.head?)

/-- Add a message at the end. -/
def enqueue (o : Outbox β) (seq : Nat) (body : β) (queuedAt : Duration) : Outbox β :=
  { o with entries := o.entries ++ [⟨seq, body, queuedAt⟩] }

/-- Take what is still to be written and mark it written. -/
def drain (o : Outbox β) : List (Entry β) × Outbox β :=
  (o.unwritten, { o with marked := o.size })

/-- Remove the messages at the front up to a sequence number, and count them. -/
def ack (o : Outbox β) (seq : Nat) : Nat × Outbox β :=
  let count := (o.entries.takeWhile (·.seq ≤ seq)).length
  (count, { o with entries := o.entries.drop count, marked := o.marked - count })

/-- Move the mark to the front, and count the messages that had been written. -/
def rewind (o : Outbox β) : Nat × Outbox β := (o.marked, { o with marked := 0 })

/-- Remove the messages that `keep` does not hold of, and count them. -/
def retain (o : Outbox β) (keep : β → Bool) : Nat × Outbox β :=
  let kept := o.entries.filter fun e => keep e.body
  let lost := (o.written.filter fun e => !keep e.body).length
  (o.size - kept.length, { o with entries := kept, marked := o.marked - lost })

/-- Remove everything. -/
def clear (o : Outbox β) : Outbox β := { o with entries := [], marked := 0 }

end Outbox

end Courier
