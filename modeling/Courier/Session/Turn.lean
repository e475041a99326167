import Courier.Session.Basic

/-!
# Turns of a session

A session moves in turns. A turn takes up one event, changes the session, and asks
the surroundings for effects: to begin or drop an attempt to connect, to open, feed
or hang up a connection, and to tell the application something. Randomness is drawn
from the stream of the kernel.

A turn never waits. Where the application is told something, may call back, and the
session has more to do then, the turn ends and the session goes on with the next event,
so the calls of the application meet a session between two turns like all other calls
do. Giving up on a peer is told within one turn: nothing is left to do then but to tell.
While the application works on a message nothing is taken up until it replies.
-/

namespace Courier

/-- A message that is to be written, with its frame. -/
structure Dispatch where
  seq : Nat
  ack : Nat
  body : Body
  frame : List UInt8

/-- A message and its frame, unless the message has none. -/
def Dispatch.of? (body : Body) (seq ack : Nat) : Option Dispatch :=
  match Frame.encode (body.envelope seq ack) with
  | .ok frame => some ⟨seq, ack, body, frame⟩
  | .error _ => none

/-- What the application is told about a peer. -/
inductive Upcall where
  | message (payload : List UInt8)
  | settled (promise : PromiseId) (result : Except CommsError (List UInt8))
  | gaveUp
  | restarted (incarnation : Incarnation)

/-- What a session asks of its surroundings. -/
inductive Effect where
  | dial (dial : Dial)
  | cancelDial
  | opened (endpoint : Endpoint)
  | write (endpoint : Endpoint) (dispatches : List Dispatch)
  | hangUp (endpoint : Endpoint)
  | tell (upcall : Upcall)

/-- What a session takes up. -/
inductive Event where
  /-- The next command. -/
  | command
  /-- The wake-up. -/
  | wake
  /-- The end of the attempt to connect. -/
  | dialed (outcome : Except LinkError Greeted)
  /-- The wait between two attempts is over. -/
  | backoffElapsed
  /-- An acknowledgement is due. -/
  | ackElapsed
  /-- Bytes from the connection. -/
  | received (bytes : ByteArray)
  /-- The connection is lost. -/
  | lost
  /-- The next part of what the session is in the middle of. -/
  | proceed
  /-- The application is done with a message. -/
  | replied (reply : Option (List UInt8))

/-- A session at work, with the randomness left and the effects so far, in order. -/
structure Turn where
  session : Session
  random : Random.Stream
  effects : List Effect := []

/-- What decides between the connection held and others. -/
def Link.origin (link : Link) (host : Host) (peer : PeerId) : Origin :=
  ⟨link.endpoint.side.initiator host.id peer, link.incarnation⟩

/-- What decides between a new connection and others. -/
def Greeted.origin (greeted : Greeted) (host : Host) (peer : PeerId) : Origin :=
  ⟨greeted.endpoint.side.initiator host.id peer, greeted.hello.incarnation⟩

namespace Turn

/-- Ask for an effect. -/
def emit (t : Turn) (effect : Effect) : Turn := { t with effects := t.effects ++ [effect] }

/-- Change the session. -/
def amend (t : Turn) (change : Session → Session) : Turn := { t with session := change t.session }

/-- Change the ledger. -/
def record (t : Turn) (change : Ledger → Ledger) : Turn :=
  t.amend fun s => { s with ledger := change s.ledger }

/-- Change the tally. -/
def count (t : Turn) (change : Tally → Tally) : Turn := t.record fun l => l.count change

/-- Turn to a stage. -/
def enter (t : Turn) (stage : Stage) : Turn := t.amend ({ · with stage })

/-- Drop the connection, if there is one. Nothing is acknowledged any more. -/
def dropLink (t : Turn) : Turn :=
  match t.session.link with
  | none => t.amend ({ · with ackDue := none })
  | some link =>
    ((t.amend ({ · with ackDue := none, link := none })).count Tally.parted).emit
      (.hangUp link.endpoint)

/-- Drop the attempt to connect, if there is one. -/
def dropDial (t : Turn) : Turn :=
  match t.session.dial with
  | none => t
  | some _ => (t.amend ({ · with dial := none })).emit .cancelDial

/-- Stop waiting for the next attempt. -/
def dropBackoff (t : Turn) : Turn := t.amend ({ · with backoffDue := none })

/-- Begin an attempt to connect, if the phase permits one. -/
def startDial (host : Host) (t : Turn) : Turn :=
  match t.session.ledger.move? .connecting with
  | none => t
  | some ledger =>
    let ledger := ledger.count Tally.attempted
    let dial : Dial := ⟨ledger.candidates host.options.relays, host.hello ledger⟩
    (t.amend ({ · with ledger, dial := some dial })).emit (.dial dial)

/-- Draw the delay before the next attempt. -/
def drawDelay (host : Host) (t : Turn) : Duration × Turn :=
  let (delay, random) := host.options.backoff.delay t.session.ledger.attempt t.random
  (delay, { t with random })

/-- Wait for the next attempt. -/
def armBackoff (now : Nat) (delay : Duration) (t : Turn) : Turn :=
  t.amend ({ · with backoffDue := some (now + delay.ticks) })

/-- The connection is lost: wait for the next attempt, unless the phase forbids it.
The delay is drawn in either case. -/
def loseLink (host : Host) (now : Nat) (t : Turn) : Turn :=
  match t.session.link with
  | none => t.dropLink
  | some _ =>
    let (delay, t) := (t.dropLink.count Tally.lostOne).drawDelay host
    match t.session.ledger.move? .backingOff with
    | none => t
    | some ledger => (t.amend ({ · with ledger })).armBackoff now delay

/-- Reject promises one after another, and tell then that the peer was given up. -/
def rejectAll (promises : List PromiseId) (t : Turn) : Turn :=
  (promises.foldl (fun t promise =>
    t.emit (.tell (.settled promise (.error (.connectionLost t.session.ledger.peer))))) t).emit
      (.tell .gaveUp)

/-- An attempt to connect failed: count it, and wait for the next attempt or give up.
The delay is drawn in either case, for the attempts before this one. -/
def failDial (host : Host) (now : Nat) (t : Turn) : Turn :=
  let (delay, t) := (t.count fun tally => tally.failed (.ofMillis now)).drawDelay host
  let t := t.record fun l => { l with attempt := min (l.attempt + 1) Ledger.maxAttempt }
  if 0 < host.options.maxAttempts ∧ host.options.maxAttempts ≤ t.session.ledger.attempt then
    match t.session.ledger.giveUp? with
    | none => t
    | some (promises, ledger) =>
      (t.amend ({ · with ledger })).rejectAll promises
  else
    match t.session.ledger.move? .backingOff with
    | none => t
    | some ledger => (t.amend ({ · with ledger })).armBackoff now delay

/-- Write dispatches, if there are any. -/
def write (endpoint : Endpoint) (dispatches : List Dispatch) (t : Turn) : Turn :=
  if dispatches.isEmpty then t else t.emit (.write endpoint dispatches)

/-- Write everything that is still to be written, with the latest acknowledgement. -/
def flush (t : Turn) : Turn :=
  match t.session.link with
  | none => t
  | some link =>
    if t.session.ledger.phase ≠ .connected ∨ t.session.ledger.outbox.unsent = 0 then t
    else
      let (ack, entries, ledger) := t.session.ledger.drain
      let dispatches := entries.filterMap fun (entry : Entry Parcel) =>
        Dispatch.of? (.parcel entry.body) entry.seq ack
      (t.amend ({ · with ledger, ackDue := none })).write link.endpoint dispatches

/-- Write an acknowledgement of its own, if the peer is owed one. -/
def writeAck (t : Turn) : Turn :=
  match t.session.link with
  | none => t
  | some link =>
    if t.session.ledger.window.ackPending then
      let (ack, window) := t.session.ledger.window.takeAck
      (t.record ({ · with window })).write link.endpoint (Dispatch.of? .ack 0 ack).toList
    else t

/-- Set the time of an acknowledgement, if one is owed and no time is set. -/
def armAck (host : Host) (now : Nat) (t : Turn) : Turn :=
  if t.session.link.isSome ∧ t.session.ackDue.isNone ∧ t.session.ledger.window.ackPending then
    t.amend ({ · with ackDue := some (now + host.options.ackDelay.ticks) })
  else t

/-- Make a greeted connection the live one. Its greeting tells whether the peer
restarted, and what it has received from this run of the kernel; everything else is
written again. -/
def install (host : Host) (now : Nat) (greeted : Greeted) (ledger : Ledger) (t : Turn) : Turn :=
  let restarted := Incarnation.restarted ledger.incarnation greeted.hello.incarnation
  let ledger := ledger.onConnected host.incarnation greeted.hello (.ofMillis now)
  let t := t.dropDial.dropBackoff
  let t := match t.session.link with
    | none => t
    | some link => t.emit (.hangUp link.endpoint)
  let link : Link := ⟨greeted.endpoint, greeted.hello.incarnation, greeted.surplus⟩
  let t := t.amend ({ · with ledger, ackDue := none, link := some link })
  let t := t.emit (.opened greeted.endpoint)
  let t := if restarted then t.emit (.tell (.restarted greeted.hello.incarnation)) else t
  t.enter .greeting

/-- Adopt a greeted connection, or hang it up: another connection may be preferred,
and the phase may forbid it. -/
def adopt (host : Host) (now : Nat) (greeted : Greeted) (t : Turn) : Turn :=
  let refuse (t : Turn) : Turn := t.emit (.hangUp greeted.endpoint)
  let join (t : Turn) : Turn :=
    match t.session.ledger.move? .connected with
    | none => refuse t
    | some ledger => t.install host now greeted ledger
  match t.session.link with
  | none => join t
  | some link =>
    let peer := t.session.ledger.peer
    let t := t.count Tally.duplicate
    if (greeted.origin host peer).replaces (link.origin host peer) host.id peer then
      join t
    else refuse t

/-- Take in a parcel: one that was received before is dropped; a message is for the
application, and a reply settles the promise that it names. -/
def receiveParcel (seq : Nat) (parcel : Parcel) (t : Turn) : Turn :=
  let (again, window) := t.session.ledger.window.receive seq
  if again then
    (t.record ({ · with window })).count Tally.receivedAgain
  else
    let t := (t.record ({ · with window })).count Tally.received
    match parcel with
    | .message payload replyTo =>
      t.emit (.tell (.message payload)) |>.enter (.handling replyTo)
    | .reply replyTo payload =>
      match t.session.ledger.takeBinding replyTo with
      | none => t
      | some (promise, ledger) =>
        (t.amend ({ · with ledger })).emit (.tell (.settled promise (.ok payload)))

/-- Take in an envelope. Its acknowledgement counts whatever the rest is; an unknown
method counts as received, and parameters that do not fit their method are ignored. -/
def receiveEnvelope (e : Envelope) (t : Turn) : Turn :=
  let t := if 0 < e.ack then t.record fun l => l.applyAck e.ack else t
  match e.body with
  | .error _ => t
  | .ok none =>
    if 0 < e.seq then t.record fun l => { l with window := (l.window.receive e.seq).2 } else t
  | .ok (some (.parcel parcel)) => t.receiveParcel e.seq parcel
  | .ok (some .ack) => t
  | .ok (some (.hello _)) => t

/-- Take one frame from the buffer. When no frame is complete the session is idle
again; bytes that are no frame cost the connection. -/
def readFrame (host : Host) (now : Nat) (t : Turn) : Turn :=
  match t.session.link with
  | none => t.enter .idle
  | some link =>
    match Frame.next? link.buffer with
    | .error _ => (t.loseLink host now).enter .idle
    | .ok none => (t.armAck host now).enter .idle
    | .ok (some (e, rest)) =>
      (t.amend ({ · with link := some { link with buffer := rest } })).receiveEnvelope e

/-- Pass over a command. A connection that it would attach is hung up. -/
def forgo (t : Turn) : Command → Turn
  | .attach greeted => t.emit (.hangUp greeted.endpoint)
  | _ => t

/-- Let go of everything when the session ends: connection, attempt and timers, and
the connections that no command will attach any more. -/
def release (t : Turn) : Turn :=
  let t := t.dropLink.dropDial.dropBackoff
  let t := t.session.commands.foldl forgo t
  t.amend ({ · with commands := [], woken := false, stage := .ended })

/-- Do what a command says. -/
def obey (host : Host) (now : Nat) (t : Turn) : Command → Turn
  | .attach greeted => t.adopt host now greeted
  | .reconnect => (t.dropLink.dropDial.dropBackoff).startDial host
  | .close => t.dropLink.dropDial.dropBackoff
  | .resetBackoff =>
    if t.session.backoffDue.isSome then
      let t := t.dropBackoff
      if t.session.ledger.phase = .backingOff then t.startDial host else t
    else t
  | .shutdown => t.release

/-- Go on with what the session is in the middle of. -/
def proceed (host : Host) (now : Nat) (t : Turn) : Turn :=
  match t.session.stage with
  | .greeting => t.flush.enter .reading
  | .reading => t.readFrame host now
  | _ => t

/-- The application is done with a message: queue its reply, if the message named a
binding and the outbox has room. -/
def reply (now : Nat) (replyTo : Option Nat) (answer : Option (List UInt8)) (t : Turn) : Turn :=
  let t := t.enter .reading
  match answer, replyTo with
  | some payload, some replyTo =>
    match t.session.ledger.enqueueReply replyTo payload (.ofMillis now) with
    | .ok ledger => (t.amend ({ · with ledger })).flush
    | .error _ => t
  | _, _ => t

/-- Take up an event while the session is idle. -/
def take (host : Host) (now : Nat) (t : Turn) : Event → Turn
  | .command =>
    match t.session.commands with
    | [] => t
    | command :: rest => (t.amend ({ · with commands := rest })).obey host now command
  | .wake =>
    if t.session.woken then
      let t := t.amend ({ · with woken := false })
      match t.session.ledger.phase with
      | .connected => t.flush
      | .disconnected => if t.session.ledger.outbox.size = 0 then t else t.startDial host
      | _ => t
    else t
  | .dialed outcome =>
    if t.session.dial.isSome then
      let t := t.amend ({ · with dial := none })
      match outcome with
      | .ok greeted => t.adopt host now greeted
      | .error _ =>
        if t.session.link.isSome ∨ t.session.ledger.phase ≠ .connecting then t
        else t.failDial host now
    else t
  | .backoffElapsed =>
    if t.session.backoffDue.isSome then
      let t := t.dropBackoff
      if t.session.ledger.phase = .backingOff then t.startDial host else t
    else t
  | .ackElapsed =>
    if t.session.ackDue.isSome then (t.amend ({ · with ackDue := none })).writeAck
    else t
  | .received bytes =>
    match t.session.link with
    | none => t
    | some link =>
      let t := t.amend ({ · with link := some { link with buffer := link.buffer ++ bytes } })
      (t.count fun tally => tally.read bytes.size).enter .reading
  | .lost => t.loseLink host now
  | .proceed | .replied _ => t

/-- Take up an event. What does not fit the stage of the session changes nothing. -/
def handle (host : Host) (now : Nat) (t : Turn) (event : Event) : Turn :=
  match t.session.stage, event with
  | .idle, event => t.take host now event
  | .handling replyTo, .replied answer => t.reply now replyTo answer
  | .greeting, .proceed | .reading, .proceed => t.proceed host now
  | _, _ => t

end Turn

end Courier
