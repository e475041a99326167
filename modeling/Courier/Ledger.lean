import Courier.Address
import Courier.Fault
import Courier.Letter
import Courier.Outbox
import Courier.Tally
import Courier.Window

/-!
# The ledger of a peer

Everything known about one peer that outlives its connections: the phase, the failed
attempts since the last success, the incarnation last seen, the location hints, the
outbox with its sequence numbers, and the promises that wait for replies. A promise
is bound under a number of its own, which the message carries and the reply names.

Operations that may be refused leave no trace when they are: a full outbox neither
consumes a sequence number nor binds a promise.
-/

namespace Courier

/-- What is known about one peer. -/
structure Ledger where
  peer : PeerId
  phase : Phase := .disconnected
  attempt : Nat := 0
  incarnation : Option Incarnation := none
  hints : List String := []
  outbox : Outbox Parcel
  window : Window := {}
  bindings : List (Nat × PromiseId) := []
  nextBinding : Nat := 1
  tally : Tally := {}

namespace Ledger

/-- The ledger of a peer not heard of before. -/
def fresh (peer : PeerId) (options : Options) : Ledger :=
  { peer, outbox := .empty options.maxQueue options.overflow }

/-- The largest number of failed attempts that is counted. -/
def maxAttempt : Nat := 0xffffffff

/-- Change the tally. -/
def count (l : Ledger) (change : Tally → Tally) : Ledger := { l with tally := change l.tally }

/-- Move to a phase that may follow, or stay. -/
def move? (l : Ledger) (target : Phase) : Option Ledger :=
  (l.phase.move? target).map fun phase => { l with phase }

/-- Move to a phase if it may follow, and else leave everything as it is. -/
def moveIfAllowed (l : Ledger) (target : Phase) : Ledger := (l.move? target).getD l

/-- Put a location hint in front of all others and count it, unless it is no address. -/
def addHint (taken : Nat × Ledger) (hint : String) : Nat × Ledger :=
  if (Address.parse hint).isSome then
    (taken.1 + 1, { taken.2 with hints := hint :: taken.2.hints.filter (· ≠ hint) })
  else taken

/-- Take in location hints one after another, and count the addresses among them. -/
def addHints (l : Ledger) (hints : List String) : Nat × Ledger := hints.foldl addHint (0, l)

/-- The address of a peer behind a relay. -/
def circuit (relay : String) (peer : PeerId) : String :=
  relay ++ "/p2p-circuit/p2p/" ++ peer.text

/-- Keep the first of equal addresses. -/
def distinct (addresses : List Address) : List Address :=
  addresses.foldl (fun kept a => if a ∈ kept then kept else kept ++ [a]) []

/-- Where the peer may be reached: the hints, then behind each relay. -/
def candidates (l : Ledger) (relays : List String) : List Address :=
  distinct ((l.hints ++ relays.map fun relay => circuit relay l.peer).filterMap Address.parse)

/-- Make room for one message, at the cost of the oldest if the outbox says so. -/
def makeRoom (l : Ledger) : Except OutboxFull Ledger :=
  match l.outbox.makeRoom with
  | .error full => .error full
  | .ok (outbox, evicted) =>
    .ok ({ l with outbox }.count fun t => if evicted.isSome then t.discarded 1 else t)

/-- Give a parcel the next sequence number and queue it. -/
def push (l : Ledger) (parcel : Parcel) (now : Duration) : Ledger :=
  let (seq, window) := l.window.next
  { l with window, outbox := l.outbox.enqueue seq parcel now }

/-- Bind the promise of a letter, if it has one, and tell its number. -/
def bind (l : Ledger) (promise : Option PromiseId) : Option Nat × Ledger :=
  match promise with
  | none => (none, l)
  | some promise =>
    (some l.nextBinding,
      { l with
        bindings := l.bindings ++ [(l.nextBinding, promise)]
        nextBinding := l.nextBinding + 1 })

/-- Queue a letter. -/
def enqueueLetter (l : Ledger) (letter : Letter) (now : Duration) : Except OutboxFull Ledger :=
  match l.makeRoom with
  | .error full => .error full
  | .ok l =>
    let (replyTo, l) := l.bind letter.promise
    .ok (l.push (.message letter.payload replyTo) now)

/-- Queue the reply to a message that named a binding. -/
def enqueueReply (l : Ledger) (replyTo : Nat) (payload : List UInt8) (now : Duration) :
    Except OutboxFull Ledger :=
  match l.makeRoom with
  | .error full => .error full
  | .ok l => .ok (l.push (.reply replyTo payload) now)

/-- Release the promise that a reply names. -/
def takeBinding (l : Ledger) (replyTo : Nat) : Option (PromiseId × Ledger) :=
  (l.bindings.find? fun binding => binding.1 = replyTo).map fun binding =>
    (binding.2, { l with bindings := l.bindings.filter fun binding => binding.1 ≠ replyTo })

/-- Take in a cumulative acknowledgement. -/
def applyAck (l : Ledger) (seq : Nat) : Ledger :=
  let window := l.window.acknowledge seq
  { l with window, outbox := (l.outbox.ack window.acked).2 }

/-- Start over with a peer that restarted: its numbers count anew, and replies to its
earlier run are discarded, because their bindings mean something else now. -/
def onRestart (l : Ledger) : Ledger :=
  let (dropped, outbox) := l.outbox.retain fun parcel => !parcel.isReply
  { l with
    attempt := 0
    window := l.window.forgetReceived
    outbox
    tally := l.tally.discarded dropped }

/-- Take in the incarnation of a new connection. -/
def observe (l : Ledger) (incarnation : Incarnation) : Ledger :=
  let seen := { l with incarnation := some incarnation }
  if Incarnation.restarted l.incarnation incarnation then seen.onRestart else seen

/-- Take in the greeting on a new connection. Its acknowledgement counts only if it
names the own incarnation. The attempts start afresh, and everything that is not
acknowledged is to be written again. -/
def onConnected (l : Ledger) (own : Incarnation) (hello : Hello) (now : Duration) : Ledger :=
  let l := l.observe hello.incarnation
  let l := if hello.acked = some own then l.applyAck hello.ack else l
  let (again, outbox) := l.outbox.rewind
  { l with attempt := 0, outbox, tally := l.tally.connected now again }

/-- Give up on the peer: everything queued is discarded, and the promises that waited
are handed out in the order of their bindings. -/
def giveUp? (l : Ledger) : Option (List PromiseId × Ledger) :=
  (l.move? .disconnected).map fun l =>
    (l.bindings.map (·.2),
      { l with
        attempt := 0
        outbox := l.outbox.clear
        bindings := []
        tally := l.tally.gaveUp l.outbox.size })

/-- Take everything that is still to be written on the connection, along with the
acknowledgement that goes with it. -/
def drain (l : Ledger) : Nat × List (Entry Parcel) × Ledger :=
  let (ack, window) := l.window.takeAck
  let (entries, outbox) := l.outbox.drain
  (ack, entries, { l with window, outbox })

end Ledger

end Courier
