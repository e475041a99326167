import Courier.Handshake
import Courier.Proofs.Frames
import Courier.Proofs.Lives
import Mathlib.Logic.Function.Basic
import Mathlib.Logic.Relation

/-!
# Two kernels in correspondence

Two kernels are followed with every connection that was ever opened between them. Each
keeps one session about the other. What a kernel writes to a connection is kept for ever,
and the other end takes it in order, as many bytes at a time as arrive; a connection may
stop delivering at any point, because no step has to be taken. Calls, timers, losses and
turns come in any order, and so do the attempts to connect from either side. A kernel that
may not last can be replaced by a new run of it, with an incarnation of its own and
nothing remembered.

What the applications did and saw is noted on the way, and nothing depends on it.
-/

namespace Courier

/-- The two kernels. -/
inductive Party where
  | here
  | there
  deriving DecidableEq

/-- The kernel at the other end. -/
def Party.other : Party → Party
  | here => there
  | there => here

/-- What happened to the messages of the applications: the kernel that it happened at, in
which run, and the number of the message. -/
inductive Happening where
  /-- A message was accepted for the other kernel. -/
  | accepted (party : Party) (run : Incarnation) (seq : Nat) (payload : List UInt8)
  /-- A message was evicted from the outbox, or given up. -/
  | discarded (party : Party) (run : Incarnation) (seq : Nat)
  /-- A message of the other kernel was handed to the application. -/
  | handed (party : Party) (run : Incarnation) (seq : Nat) (payload : List UInt8)

/-- A connection between the two kernels: who dialed it, which run of either greeted on it,
what either wrote, how many bytes of it the other took, and whether that one is done with
the greetings. -/
structure Passage where
  dialer : Option Party := none
  run : Party → Option Incarnation := fun _ => none
  written : Party → List Dispatch := fun _ => []
  taken : Party → Nat := fun _ => 0
  joined : Party → Bool := fun _ => false

namespace Passage

/-- The connection once a party wrote more. -/
def append (w : Passage) (p : Party) (dispatches : List Dispatch) : Passage :=
  { w with written := Function.update w.written p (w.written p ++ dispatches) }

/-- The connection once a party greeted. -/
def greet (w : Passage) (p : Party) (run : Incarnation) (hello : Dispatch) : Passage :=
  { w.append p [hello] with run := Function.update w.run p (some run) }

/-- The connection once a party took more bytes. -/
def take (w : Passage) (p : Party) (count : Nat) : Passage :=
  { w with taken := Function.update w.taken p (w.taken p + count) }

/-- The connection once a party is done with the greetings. -/
def join (w : Passage) (p : Party) (count : Nat) : Passage :=
  { w.take p count with joined := Function.update w.joined p true }

/-- Some bytes are the next that a party may take. -/
def Offers (w : Passage) (p : Party) (bytes : ByteArray) : Prop :=
  bytes.data.toList <+: (Dispatch.bytes (w.written p.other)).drop (w.taken p)

variable (w : Passage) (p q : Party)

/-- A party writes on a connection behind what it wrote before, and the other end writes nothing. -/
theorem append_written (dispatches : List Dispatch) : (w.append p dispatches).written q =
    if q = p then w.written p ++ dispatches else w.written q := Function.update_apply _ _ _ _

/-- A party takes from a connection, and the other end takes nothing. -/
theorem take_taken (count : Nat) : (w.take p count).taken q =
    if q = p then w.taken p + count else w.taken q := Function.update_apply _ _ _ _

/-- A party joins a connection, and the other end does not. -/
theorem join_joined (count : Nat) : (w.join p count).joined q =
    if q = p then true else w.joined q := Function.update_apply _ _ _ _

end Passage

/-- The numbers of the messages that room for another one costs. -/
def Outbox.evicted {β : Type} (o : Outbox β) : List Nat :=
  match o.makeRoom with
  | .ok (_, some entry) => [entry.seq]
  | _ => []

namespace Session

/-- The numbers of the messages that an event costs: one may be evicted for a reply, and all
are given up when a failed attempt to connect was the last, which counts as a give-up. -/
def discards (s after : Session) : Event → List Nat
  | .replied (some _) =>
    match s.stage with
    | .handling (some _) => s.ledger.outbox.evicted
    | _ => []
  | .dialed (.error _) =>
    if s.ledger.tally.giveUps < after.ledger.tally.giveUps then
      s.ledger.outbox.entries.map (·.seq)
    else []
  | _ => []

/-- The number of the message at the front of what arrived. -/
def frontSeq (s : Session) : Nat :=
  match s.link with
  | none => 0
  | some link =>
    match Frame.next? link.buffer with
    | .ok (some (e, _)) => e.seq
    | _ => 0

/-- The number in front is that of the envelope in front. -/
theorem frontSeq_eq (s : Session) (link : Link) (e : Envelope) (rest : ByteArray)
    (held : s.link = some link) (complete : Frame.next? link.buffer = .ok (some (e, rest))) :
    s.frontSeq = e.seq := by
  unfold frontSeq
  rw [held]
  dsimp only
  rw [complete]

/-- What a call makes happen. -/
def callHappenings (p : Party) (run : Incarnation) (s : Session) : Occurrence → List Happening
  | .post letter now =>
    match s.post letter now with
    | .ok posted => s.ledger.outbox.evicted.map (.discarded p run) ++
        [.accepted p run posted.ledger.window.sent letter.payload]
    | .error _ => []
  | _ => []

/-- What an event makes happen. -/
def turnHappenings (p : Party) (run : Incarnation) (s after : Session) (event : Event)
    (effects : List Effect) : List Happening :=
  (s.discards after event).map (.discarded p run) ++
    effects.filterMap fun effect =>
      match effect with
      | .tell (.message payload) => some (.handed p run s.frontSeq payload)
      | _ => none

end Session

/-- Two kernels, with their sessions about each other, all connections between them, the
incarnations that either had before, and what happened. -/
structure Correspondence where
  host : Party → Host
  session : Party → Session
  passage : Nat → Passage := fun _ => {}
  former : Party → List Incarnation := fun _ => []
  log : List Happening := []

namespace Correspondence

/-- Two kernels that have not heard of each other. -/
def begin (host : Party → Host) : Correspondence :=
  { host, session := fun p => .fresh (host p.other).id (host p).options }

/-- Replace the session of a party. -/
def amend (x : Correspondence) (p : Party) (s : Session) : Correspondence :=
  { x with session := Function.update x.session p s }

/-- Change a connection. -/
def change (x : Correspondence) (c : Nat) (change : Passage → Passage) : Correspondence :=
  { x with passage := Function.update x.passage c (change (x.passage c)) }

/-- Note what happened. -/
def note (x : Correspondence) (happenings : List Happening) : Correspondence :=
  { x with log := x.log ++ happenings }

/-- Carry out what a party asked of its surroundings: what it writes is on its way. -/
def carry (p : Party) (x : Correspondence) : Effect → Correspondence
  | .write endpoint dispatches => x.change endpoint.connection fun w => w.append p dispatches
  | _ => x

/-- The application of a party calls its kernel. -/
def called (x : Correspondence) (p : Party) (call : Occurrence) : Correspondence :=
  (x.amend p ((x.session p).undergo (x.host p) call)).note
    ((x.session p).callHappenings p (x.host p).incarnation call)

/-- The session of a party takes up an event. -/
def turned (x : Correspondence) (p : Party) (now : Nat) (random : Random.Stream)
    (event : Event) : Correspondence :=
  let t := Turn.handle (x.host p) now ⟨x.session p, random, []⟩ event
  (t.effects.foldl (carry p) (x.amend p t.session)).note
    ((x.session p).turnHappenings p (x.host p).incarnation t.session event t.effects)

/-- A new run of a party. -/
def restarted (x : Correspondence) (p : Party) (host : Host) : Correspondence :=
  { x with
    host := Function.update x.host p host
    session := Function.update x.session p (.fresh (x.host p.other).id host.options)
    former := Function.update x.former p ((x.host p).incarnation :: x.former p) }

end Correspondence

/-- Whether an occurrence is a call of the application or comes from its kernel. A payload
beyond the limit is refused before it gets to a session. -/
def Occurrence.IsCall : Occurrence → Prop
  | .post letter _ => letter.payload.length ≤ Frame.maxPayload
  | .attach _ | .turn _ _ _ => False
  | _ => True

/-- Whether an event needs nothing from the other kernel. -/
def Event.isOwn : Event → Bool
  | .dialed (.ok _) | .received _ => false
  | _ => true

/-- What may happen next. Only mortal parties are ever replaced by a new run. -/
inductive Correspondence.Step (mortal : Party → Prop) (x : Correspondence) :
    Correspondence → Prop where
  | call (p : Party) (call : Occurrence) (fit : call.IsCall) : Step mortal x (x.called p call)
  | turn (p : Party) (now : Nat) (random : Random.Stream) (event : Event)
      (own : event.isOwn = true) : Step mortal x (x.turned p now random event)
  /-- An attempt to connect opens a connection and greets on it. -/
  | dial (p : Party) (dial : Dial) (c : Nat) (hello : Dispatch)
      (dialing : (x.session p).dial = some dial) (unused : (x.passage c).dialer = none)
      (greeting : Dispatch.of? (.hello dial.hello) 0 dial.hello.ack = some hello) :
      Step mortal x (x.change c fun _ =>
        ({ dialer := some p } : Passage).greet p (x.host p).incarnation hello)
  /-- The party that was dialed greets back. -/
  | answer (p : Party) (c : Nat) (arrived : ByteArray) (theirs : Hello) (surplus : ByteArray)
      (hello : Dispatch) (dialed : (x.passage c).dialer = some p.other)
      (unanswered : (x.passage c).run p = none) (untaken : (x.passage c).joined p = false)
      (offered : (x.passage c).Offers p arrived)
      (greeted : Handshake.take? arrived = .ok (some (theirs, surplus)))
      (known : theirs.peer = (x.host p.other).id)
      (welcome : (x.session p).ledger.phase ≠ .intentionallyClosed)
      (greeting : Dispatch.of? (.hello ((x.host p).hello (x.session p).ledger)) 0
        (x.session p).ledger.window.received = some hello) :
      Step mortal x (x.change c fun w => w.greet p (x.host p).incarnation hello)
  /-- The party that was dialed hands the connection to its session. -/
  | attach (p : Party) (c : Nat) (arrived : ByteArray) (theirs : Hello) (surplus : ByteArray)
      (dialed : (x.passage c).dialer = some p.other)
      (answered : (x.passage c).run p = some (x.host p).incarnation)
      (untaken : (x.passage c).joined p = false) (offered : (x.passage c).Offers p arrived)
      (greeted : Handshake.take? arrived = .ok (some (theirs, surplus))) :
      Step mortal x ((x.change c fun w => w.join p arrived.size).amend p
        ((x.session p).push (.attach ⟨⟨c, .acceptor⟩, theirs, surplus⟩)))
  /-- The attempt to connect succeeds. -/
  | reach (p : Party) (c : Nat) (arrived : ByteArray) (theirs : Hello) (surplus : ByteArray)
      (now : Nat) (random : Random.Stream) (dialed : (x.passage c).dialer = some p)
      (ours : (x.passage c).run p = some (x.host p).incarnation)
      (untaken : (x.passage c).joined p = false) (offered : (x.passage c).Offers p arrived)
      (greeted : Handshake.take? arrived = .ok (some (theirs, surplus)))
      (meant : Handshake.mismatch? (x.host p.other).id theirs = none)
      (idle : (x.session p).stage = .idle) (dialing : (x.session p).dial.isSome) :
      Step mortal x ((x.change c fun w => w.join p arrived.size).turned p now random
        (.dialed (.ok ⟨⟨c, .dialer⟩, theirs, surplus⟩)))
  /-- Bytes arrive on the live connection. -/
  | receive (p : Party) (link : Link) (bytes : ByteArray) (now : Nat) (random : Random.Stream)
      (held : (x.session p).link = some link) (idle : (x.session p).stage = .idle)
      (offered : (x.passage link.endpoint.connection).Offers p bytes) :
      Step mortal x ((x.change link.endpoint.connection fun w => w.take p bytes.size).turned p
        now random (.received bytes))
  /-- A party is replaced by a new run, with an incarnation that it never had. -/
  | restart (p : Party) (host : Host) (may : mortal p) (same : host.id = (x.host p).id)
      (fresh : host.incarnation ∉ (x.host p).incarnation :: x.former p) :
      Step mortal x (x.restarted p host)

namespace Correspondence

/-- What two kernels can get to from the beginning. -/
def Reachable (mortal : Party → Prop) (x : Correspondence) : Prop :=
  ∃ host, Relation.ReflTransGen (Step mortal) (begin host) x

/-- What is reachable stays so after one more step. -/
theorem Reachable.tail {mortal : Party → Prop} {x y : Correspondence}
    (reachable : Reachable mortal x) (step : Step mortal x y) : Reachable mortal y := by
  obtain ⟨host, steps⟩ := reachable
  exact ⟨host, .tail steps step⟩

end Correspondence

end Courier
