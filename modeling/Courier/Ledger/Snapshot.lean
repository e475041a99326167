import Courier.Json.Value
import Courier.Ledger

/-!
# Snapshots of a ledger

What is known about a peer, for diagnosis: in full, in its written form, and in brief.
Points in time are written in seconds and nanoseconds.
-/

namespace Courier

/-- A ledger in brief. -/
structure Brief where
  phase : Phase
  attempt : Nat
  queued : Nat
  unsent : Nat
  sent : Nat
  acked : Nat
  received : Nat
  pending : Nat
  isConnected : Bool
  deriving DecidableEq

/-- The ledger in brief. -/
def Ledger.brief (l : Ledger) : Brief :=
  { phase := l.phase, attempt := l.attempt, queued := l.outbox.size, unsent := l.outbox.unsent,
    sent := l.window.sent, acked := l.window.acked, received := l.window.received,
    pending := l.bindings.length, isConnected := l.tally.isConnected }

/-- The written form of a point in time. -/
def Duration.instant (d : Duration) : Json :=
  .obj [("secs", .ofNat d.seconds), ("nanos", .ofNat d.subsecond)]

/-- The written form of a tally. -/
def Tally.toJson (t : Tally) : Json :=
  .obj [("connection_attempts", .ofNat t.attempts),
    ("connections_established", .ofNat t.established),
    ("connection_failures", .ofNat t.failures),
    ("connections_lost", .ofNat t.lost),
    ("duplicate_connections", .ofNat t.duplicates),
    ("messages_sent", .ofNat t.messagesSent),
    ("bytes_sent", .ofNat t.bytesSent),
    ("messages_received", .ofNat t.messagesReceived),
    ("bytes_received", .ofNat t.bytesReceived),
    ("messages_retransmitted", .ofNat t.retransmitted),
    ("duplicates_dropped", .ofNat t.duplicatesDropped),
    ("messages_dropped", .ofNat t.dropped),
    ("give_ups", .ofNat t.giveUps),
    ("is_connected", .bool t.isConnected),
    ("last_connected_at", (t.lastConnectedAt.map Duration.instant).getD .null),
    ("last_failure_at", (t.lastFailureAt.map Duration.instant).getD .null)]

/-- The snapshot of a ledger. -/
def Ledger.snapshot (l : Ledger) : Json :=
  .obj [("peer_id", .str l.peer.text),
    ("state", .str l.phase.name),
    ("attempt", .ofNat l.attempt),
    ("incarnation", (l.incarnation.map Incarnation.toJson).getD .null),
    ("location_hints", .arr (l.hints.map .str)),
    ("queue_len", .ofNat l.outbox.size),
    ("unsent", .ofNat l.outbox.unsent),
    ("sent_seq", .ofNat l.window.sent),
    ("acked_seq", .ofNat l.window.acked),
    ("received_seq", .ofNat l.window.received),
    ("pending_bindings", .ofNat l.bindings.length),
    ("metrics", l.tally.toJson)]

end Courier
