import Courier.Ledger.Snapshot
import Courier.Outbox.Lemmas
import Courier.World.Clock
import Courier.World.Visitor
import Courier.Proofs.Lives
import Courier.Proofs.Closing
import Courier.Proofs.Stranding
import Courier.Proofs.Crossing
import Courier.Proofs.Documents
import Courier.Proofs.Envelopes
import Courier.Proofs.Frames
import Courier.Proofs.Delivery
import Courier.Proofs.Hearing
import Courier.Proofs.Regularity
import Courier.Proofs.Intake
import Courier.Proofs.Traffic
import Courier.Proofs.Vouching
import Courier.Proofs.Attending
import Courier.Proofs.Standing
import Courier.Proofs.Exchange
import Courier.Proofs.Provenance
import Courier.Proofs.Activities
import Courier.Proofs.Pledges
import Courier.Proofs.Settlement
import Courier.Proofs.Orphans
import Courier.Proofs.Sendable
import Courier.Proofs.Books
import Courier.Proofs.Attempts
import Courier.Proofs.Conservation
import Courier.Proofs.Cutting
import Courier.Proofs.RoundTrip
import Courier.Proofs.Greetings
import Courier.Proofs.Streams
import Courier.Proofs.Ordering
import Courier.Proofs.Acknowledging
import Courier.Proofs.Starting
import Courier.Proofs.Isolation
import Courier.Proofs.Halves
import Courier.Proofs.Refusing
import Courier.Proofs.Corruption
import Courier.Proofs.Duplicates
import Courier.Proofs.Advertising
import Courier.Proofs.Hints
import Courier.Proofs.Limits
import Courier.Proofs.Renewing
import Courier.Proofs.Waiting
import Courier.Proofs.Faring
import Courier.Proofs.Buffering
import Courier.Proofs.Containing
