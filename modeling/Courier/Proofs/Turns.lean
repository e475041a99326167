import Courier.Ledger.Lemmas
import Courier.Session.Turn

/-!
# What a turn can do

Every turn of a session is one of a few kinds. The relations below name the kinds, with
what the session was like before, what it is like afterwards, and what was asked of the
surroundings meanwhile. The delay drawn before another attempt is left open, because it
depends on randomness.

The phases allow more than the kinds use. A session may always begin an attempt to
connect and may always be closed on purpose; a connection is adopted in every phase
except the closed one.
-/

namespace Courier

namespace Phase

/-- An attempt to connect may always begin. -/
theorem move_connecting (p : Phase) : p.move? .connecting = some .connecting := by
  cases p <;> rfl

/-- A session may always be closed on purpose. -/
theorem move_closed (p : Phase) : p.move? .intentionallyClosed = some .intentionallyClosed := by
  cases p <;> rfl

/-- A session may be connected in every phase except the closed one. -/
theorem move_connected (p : Phase) :
    p.move? .connected = if p = .intentionallyClosed then none else some .connected := by
  cases p <;> rfl

/-- Whether a phase is left to wait for another attempt. -/
def mayWait (p : Phase) : Bool := p ≠ .disconnected && p ≠ .intentionallyClosed

/-- A session may wait for another attempt in two phases fewer. -/
theorem move_backingOff (p : Phase) :
    p.move? .backingOff = if p.mayWait then some .backingOff else none := by
  cases p <;> rfl

end Phase

/-- What is written of a sequence of queued parcels. -/
def Entry.dispatches (ack : Nat) (entries : List (Entry Parcel)) : List Dispatch :=
  entries.filterMap fun entry => Dispatch.of? (.parcel entry.body) entry.seq ack

namespace Session

/-- The session with every activity of its connection ended. -/
def vacated (s : Session) : Session :=
  { s with
    ledger := s.ledger.count (if s.link.isSome then Tally.parted else id)
    link := none, dial := none, backoffDue := none, ackDue := none }

/-- What is asked of the surroundings to end every activity. -/
def partings (s : Session) : List Effect :=
  s.link.toList.map (fun link => .hangUp link.endpoint) ++
    if s.dial.isSome then [.cancelDial] else []

/-- The attempt to connect that may begin now. -/
def nextDial (host : Host) (s : Session) : Dial :=
  ⟨s.ledger.candidates host.options.relays, host.hello s.ledger⟩

/-- The session at the beginning of an attempt to connect. -/
def attempting (host : Host) (s : Session) : Session :=
  { s with
    ledger := { s.ledger with phase := .connecting }.count Tally.attempted
    dial := some (s.nextDial host) }

/-- The session when its connection is lost, with the time of the next attempt. -/
def bereft (due : Nat) (s : Session) : Session :=
  let ledger := s.ledger.count fun t => t.parted.lostOne
  if s.ledger.phase.mayWait then
    { s with
      ledger := { ledger with phase := .backingOff }
      link := none, ackDue := none, backoffDue := some due }
  else { s with ledger, link := none, ackDue := none }

/-- Whether another attempt is made when the connection is lost shows in the phase and in the wait
alone. -/
theorem bereft_eq (due : Nat) (s : Session) : ∃ phase backoffDue, s.bereft due = { s with
    ledger := { s.ledger.count (fun t => t.parted.lostOne) with phase }
    link := none, ackDue := none, backoffDue } := by
  unfold bereft
  dsimp only
  split <;> exact ⟨_, _, rfl⟩

/-- A connection that is lost is gone. -/
@[simp]
theorem bereft_link (due : Nat) (s : Session) : (s.bereft due).link = none := by
  obtain ⟨_, _, same⟩ := s.bereft_eq due
  rw [same]

/-- Losing the connection leaves the commands alone. -/
@[simp]
theorem bereft_commands (due : Nat) (s : Session) : (s.bereft due).commands = s.commands := by
  obtain ⟨_, _, same⟩ := s.bereft_eq due
  rw [same]

/-- Losing the connection does not change what the session is in the middle of. -/
@[simp]
theorem bereft_stage (due : Nat) (s : Session) : (s.bereft due).stage = s.stage := by
  obtain ⟨_, _, same⟩ := s.bereft_eq due
  rw [same]

/-- Losing the connection leaves the attempt to connect alone. -/
@[simp]
theorem bereft_dial (due : Nat) (s : Session) : (s.bereft due).dial = s.dial := by
  obtain ⟨_, _, same⟩ := s.bereft_eq due
  rw [same]

/-- What the application is told when the peer is given up: a rejection for each promise that
waits, in the order of the bindings, and the news behind them. -/
def rejections (s : Session) : List Effect :=
  s.ledger.bindings.map (fun binding =>
    .tell (.settled binding.2 (.error (.connectionLost s.ledger.peer)))) ++ [.tell .gaveUp]

/-- The ledger when an attempt to connect failed. -/
def failing (now : Nat) (s : Session) : Ledger :=
  { s.ledger.count fun t => t.failed (.ofMillis now) with
    attempt := min (s.ledger.attempt + 1) Ledger.maxAttempt }

/-- The session when a greeted connection becomes the live one. -/
def joined (host : Host) (now : Nat) (greeted : Greeted) (s : Session) : Session :=
  let ledger := { s.ledger with phase := .connected }.count
    (if s.link.isSome then Tally.duplicate else id)
  { s with
    ledger := ledger.onConnected host.incarnation greeted.hello (.ofMillis now)
    link := some ⟨greeted.endpoint, greeted.hello.incarnation, greeted.surplus⟩
    dial := none, backoffDue := none, ackDue := none, stage := .greeting }

/-- What is asked of the surroundings when a greeted connection becomes the live one. -/
def joinings (greeted : Greeted) (s : Session) : List Effect :=
  (if s.dial.isSome then [.cancelDial] else []) ++
    s.link.toList.map (fun link => .hangUp link.endpoint) ++ [.opened greeted.endpoint] ++
    if Incarnation.restarted s.ledger.incarnation greeted.hello.incarnation then
      [.tell (.restarted greeted.hello.incarnation)] else []

/-- Whether a greeted connection may become the live one: the phase admits it, and it
wins over the connection held. -/
def Admits (host : Host) (greeted : Greeted) (s : Session) : Prop :=
  s.ledger.phase ≠ .intentionallyClosed ∧ ∀ link, s.link = some link →
    (greeted.origin host s.ledger.peer).replaces (link.origin host s.ledger.peer) host.id
      s.ledger.peer

/-- The messages of a drained outbox, with their frames. -/
def dispatches (s : Session) : List Dispatch :=
  Entry.dispatches s.ledger.window.received s.ledger.outbox.unwritten

/-- Whether anything is to be written and may be. -/
def Writes (link : Link) (s : Session) : Prop :=
  s.link = some link ∧ s.ledger.phase = .connected ∧ s.ledger.outbox.unsent ≠ 0

/-- The effect of writing, if there is anything. -/
def writings (endpoint : Endpoint) (dispatches : List Dispatch) : List Effect :=
  if dispatches.isEmpty then [] else [.write endpoint dispatches]

end Session

/-- Whether an effect only lets go of something. -/
def Effect.isParting : Effect → Bool
  | .hangUp _ | .cancelDial => true
  | _ => false

section Effects

variable {P : Effect → Prop}

/-- What holds of all that only lets go of something holds of effects that do nothing else. -/
theorem Effect.forall_of_parting {effects : List Effect}
    (parting : ∀ effect ∈ effects, effect.isParting = true)
    (hungUp : ∀ endpoint, P (.hangUp endpoint)) (cancelled : P .cancelDial) :
    ∀ effect ∈ effects, P effect := by
  intro effect listed
  have parts := parting effect listed
  cases effect with
  | hangUp endpoint => exact hungUp endpoint
  | cancelDial => exact cancelled
  | _ => cases parts

/-- What holds of hanging up and of dropping an attempt holds of all that a session parts with. -/
theorem Session.forall_partings (s : Session)
    (hungUp : ∀ link, s.link = some link → P (.hangUp link.endpoint)) (cancelled : P .cancelDial) :
    ∀ effect ∈ s.partings, P effect := by
  intro effect listed
  rcases List.mem_append.mp listed with gone | cancel
  · obtain ⟨link, held, rfl⟩ := List.mem_map.mp gone
    exact hungUp link (by simpa using held)
  · split at cancel
    · exact List.mem_singleton.mp cancel ▸ cancelled
    · cases cancel

/-- What holds of hanging up, of dropping an attempt, and of the news of a connection and of a
restart holds of all that adopting a connection asks for. -/
theorem Session.forall_joinings (s : Session) (greeted : Greeted)
    (hungUp : ∀ link, s.link = some link → P (.hangUp link.endpoint)) (cancelled : P .cancelDial)
    (opened : P (.opened greeted.endpoint)) (restarted : ∀ k, P (.tell (.restarted k))) :
    ∀ effect ∈ s.joinings greeted, P effect := by
  intro effect listed
  simp only [joinings, List.mem_append] at listed
  rcases listed with ((cancel | gone) | opens) | told
  · split at cancel
    · exact List.mem_singleton.mp cancel ▸ cancelled
    · cases cancel
  · obtain ⟨link, held, rfl⟩ := List.mem_map.mp gone
    exact hungUp link (by simpa using held)
  · exact List.mem_singleton.mp opens ▸ opened
  · split at told
    · exact List.mem_singleton.mp told ▸ restarted _
    · cases told

/-- What holds of handing over dispatches holds of writing. -/
theorem Session.forall_writings (endpoint : Endpoint) (dispatches : List Dispatch)
    (written : P (.write endpoint dispatches)) :
    ∀ effect ∈ writings endpoint dispatches, P effect := by
  unfold writings
  split
  · exact nofun
  · exact List.forall_mem_singleton.mpr written

/-- What holds of every rejection and of the news that the peer was given up holds of all that is
told then. -/
theorem Session.forall_rejections (s : Session)
    (rejected : ∀ promise, P (.tell (.settled promise (.error (.connectionLost s.ledger.peer)))))
    (gaveUp : P (.tell .gaveUp)) : ∀ effect ∈ s.rejections, P effect := by
  intro effect listed
  rcases List.mem_append.mp listed with rejects | news
  · obtain ⟨binding, _, rfl⟩ := List.mem_map.mp rejects
    exact rejected binding.2
  · exact List.mem_singleton.mp news ▸ gaveUp

end Effects

/-- To part with something is to let go of it. -/
theorem Session.partings_part (s : Session) : ∀ effect ∈ s.partings, effect.isParting = true :=
  s.forall_partings (fun _ _ => rfl) rfl

/-- How a session takes a greeted connection: it is hung up, or it becomes the live one. -/
inductive Adopted (host : Host) (now : Nat) (greeted : Greeted) (s : Session) :
    Session → List Effect → Prop where
  | refused (unfit : ¬ s.Admits host greeted) :
      Adopted host now greeted s
        { s with ledger := s.ledger.count (if s.link.isSome then Tally.duplicate else id) }
        [.hangUp greeted.endpoint]
  | joined (fit : s.Admits host greeted) :
      Adopted host now greeted s (s.joined host now greeted) (s.joinings greeted)

/-- How a session writes what is still to be written: not at all, or all of it. -/
inductive Flushed (s : Session) : Session → List Effect → Prop where
  | nothing (idle : ∀ link, ¬ s.Writes link) : Flushed s s []
  | written (link : Link) (writes : s.Writes link) :
      Flushed s { s with ledger := s.ledger.drain.2.2, ackDue := none }
        (Session.writings link.endpoint s.dispatches)

/-- The ledger once the acknowledgement of an envelope is taken in. -/
def Ledger.heeding (l : Ledger) (e : Envelope) : Ledger :=
  if 0 < e.ack then l.applyAck e.ack else l

/-- An acknowledgement changes the outbox and what is acknowledged. -/
theorem Ledger.heeding_eq (l : Ledger) (e : Envelope) : ∃ outbox acked,
    l.heeding e = { l with outbox, window := { l.window with acked } } := by
  unfold heeding
  split <;> exact ⟨_, _, rfl⟩

/-- What an acknowledgement keeps is kept, whether or not there is one. -/
theorem Ledger.heeding_keeps {P : Ledger → Prop} (l : Ledger) (e : Envelope) (same : P l)
    (acknowledged : P (l.applyAck e.ack)) : P (l.heeding e) := by
  unfold heeding
  split
  · exact acknowledged
  · exact same

/-- How a session takes in an envelope. -/
inductive Took (e : Envelope) (s : Session) : Session → List Effect → Prop where
  | malformed (error : WireError) (body : e.body = .error error) :
      Took e s { s with ledger := s.ledger.heeding e } []
  | unnumbered (body : e.body = .ok none) (zero : e.seq = 0) :
      Took e s { s with ledger := s.ledger.heeding e } []
  | unknown (body : e.body = .ok none) (numbered : 0 < e.seq) :
      Took e s { s with ledger := { s.ledger.heeding e with
        window := ((s.ledger.heeding e).window.receive e.seq).2 } } []
  | greeting (hello : Hello) (body : e.body = .ok (some (.hello hello))) :
      Took e s { s with ledger := s.ledger.heeding e } []
  | ack (body : e.body = .ok (some .ack)) :
      Took e s { s with ledger := s.ledger.heeding e } []
  | again (parcel : Parcel) (body : e.body = .ok (some (.parcel parcel)))
      (old : e.seq ≤ s.ledger.window.received) :
      Took e s { s with ledger := { s.ledger.heeding e with
        window := ((s.ledger.heeding e).window.receive e.seq).2
        tally := (s.ledger.heeding e).tally.receivedAgain } } []
  | message (payload : List UInt8) (replyTo : Option Nat)
      (body : e.body = .ok (some (.parcel (.message payload replyTo))))
      (new : s.ledger.window.received < e.seq) :
      Took e s { s with
        ledger := { s.ledger.heeding e with
          window := ((s.ledger.heeding e).window.receive e.seq).2
          tally := (s.ledger.heeding e).tally.received }
        stage := .handling replyTo } [.tell (.message payload)]
  | reply (payload : List UInt8) (replyTo : Nat)
      (body : e.body = .ok (some (.parcel (.reply replyTo payload))))
      (new : s.ledger.window.received < e.seq)
      (unbound : s.ledger.takeBinding replyTo = none) :
      Took e s { s with ledger := { s.ledger.heeding e with
        window := ((s.ledger.heeding e).window.receive e.seq).2
        tally := (s.ledger.heeding e).tally.received } } []
  | settled (payload : List UInt8) (replyTo : Nat) (promise : PromiseId) (taken : Ledger)
      (body : e.body = .ok (some (.parcel (.reply replyTo payload))))
      (new : s.ledger.window.received < e.seq)
      (bound : s.ledger.takeBinding replyTo = some (promise, taken)) :
      Took e s { s with ledger := { s.ledger.heeding e with
        window := ((s.ledger.heeding e).window.receive e.seq).2
        tally := (s.ledger.heeding e).tally.received
        bindings := taken.bindings } } [.tell (.settled promise (.ok payload))]

/-- What a turn makes of a session: the event, the session afterwards, and what was asked
of the surroundings. -/
inductive Turned (host : Host) (now : Nat) (s : Session) :
    Event → Session → List Effect → Prop where
  /-- The event does not fit what the session is in the middle of, or what it holds. -/
  | still (event : Event) : Turned host now s event s []
  | attach (greeted : Greeted) (rest : List Command) (after : Session) (effects : List Effect)
      (idle : s.stage = .idle) (next : s.commands = .attach greeted :: rest)
      (adopted : Adopted host now greeted { s with commands := rest } after effects) :
      Turned host now s .command after effects
  | reconnect (rest : List Command) (idle : s.stage = .idle)
      (next : s.commands = .reconnect :: rest) :
      Turned host now s .command (({ s with commands := rest } : Session).vacated.attempting host)
        (s.partings ++ [.dial (s.nextDial host)])
  | close (rest : List Command) (idle : s.stage = .idle) (next : s.commands = .close :: rest) :
      Turned host now s .command ({ s with commands := rest } : Session).vacated s.partings
  | resetDial (rest : List Command) (idle : s.stage = .idle)
      (next : s.commands = .resetBackoff :: rest) (waiting : s.backoffDue.isSome)
      (phase : s.ledger.phase = .backingOff) :
      Turned host now s .command
        (({ s with commands := rest, backoffDue := none } : Session).attempting host)
        [.dial (s.nextDial host)]
  | resetNothing (rest : List Command) (idle : s.stage = .idle)
      (next : s.commands = .resetBackoff :: rest)
      (awake : s.backoffDue.isSome → s.ledger.phase ≠ .backingOff) :
      Turned host now s .command { s with commands := rest, backoffDue := none } []
  | shutdown (rest : List Command) (effects : List Effect) (idle : s.stage = .idle)
      (next : s.commands = .shutdown :: rest)
      (parting : ∀ effect ∈ effects, effect.isParting = true) :
      Turned host now s .command
        { s.vacated with commands := [], woken := false, stage := .ended } effects
  | wakeFlush (after : Session) (effects : List Effect) (idle : s.stage = .idle)
      (woken : s.woken) (phase : s.ledger.phase = .connected)
      (flushed : Flushed { s with woken := false } after effects) :
      Turned host now s .wake after effects
  | wakeDial (idle : s.stage = .idle) (woken : s.woken)
      (phase : s.ledger.phase = .disconnected) (queued : s.ledger.outbox.size ≠ 0) :
      Turned host now s .wake (({ s with woken := false } : Session).attempting host)
        [.dial (s.nextDial host)]
  | wakeNothing (idle : s.stage = .idle) (woken : s.woken)
      (phase : s.ledger.phase ≠ .connected)
      (empty : s.ledger.phase = .disconnected → s.ledger.outbox.size = 0) :
      Turned host now s .wake { s with woken := false } []
  | dialed (greeted : Greeted) (after : Session) (effects : List Effect)
      (idle : s.stage = .idle) (dialing : s.dial.isSome)
      (adopted : Adopted host now greeted { s with dial := none } after effects) :
      Turned host now s (.dialed (.ok greeted)) after effects
  | dialStale (error : LinkError) (idle : s.stage = .idle) (dialing : s.dial.isSome)
      (stale : s.link.isSome ∨ s.ledger.phase ≠ .connecting) :
      Turned host now s (.dialed (.error error)) { s with dial := none } []
  | dialRetry (error : LinkError) (due : Nat) (idle : s.stage = .idle) (dialing : s.dial.isSome)
      (unlinked : s.link = none) (phase : s.ledger.phase = .connecting)
      (more : 0 < host.options.maxAttempts →
        (s.failing now).attempt < host.options.maxAttempts) :
      Turned host now s (.dialed (.error error))
        { s with
          ledger := { s.failing now with phase := .backingOff }
          dial := none, backoffDue := some due } []
  | dialGiveUp (error : LinkError) (idle : s.stage = .idle) (dialing : s.dial.isSome)
      (unlinked : s.link = none) (phase : s.ledger.phase = .connecting)
      (limited : 0 < host.options.maxAttempts)
      (spent : host.options.maxAttempts ≤ (s.failing now).attempt) :
      Turned host now s (.dialed (.error error))
        { s with
          ledger := { s.failing now with
            phase := .disconnected, attempt := 0, bindings := []
            outbox := s.ledger.outbox.clear
            tally := (s.failing now).tally.gaveUp s.ledger.outbox.size }
          dial := none } s.rejections
  | elapsedDial (idle : s.stage = .idle) (waiting : s.backoffDue.isSome)
      (phase : s.ledger.phase = .backingOff) :
      Turned host now s .backoffElapsed
        (({ s with backoffDue := none } : Session).attempting host)
        [.dial (s.nextDial host)]
  | elapsedNothing (idle : s.stage = .idle) (waiting : s.backoffDue.isSome)
      (phase : s.ledger.phase ≠ .backingOff) :
      Turned host now s .backoffElapsed { s with backoffDue := none } []
  | ackWritten (link : Link) (idle : s.stage = .idle) (due : s.ackDue.isSome)
      (held : s.link = some link) (owed : s.ledger.window.ackPending) :
      Turned host now s .ackElapsed
        { s with
          ackDue := none
          ledger := { s.ledger with window := { s.ledger.window with ackPending := false } } }
        (Session.writings link.endpoint (Dispatch.of? .ack 0 s.ledger.window.received).toList)
  | ackNothing (idle : s.stage = .idle) (due : s.ackDue.isSome)
      (settled : s.link.isSome → ¬ s.ledger.window.ackPending) :
      Turned host now s .ackElapsed { s with ackDue := none } []
  | received (bytes : ByteArray) (link : Link) (idle : s.stage = .idle)
      (held : s.link = some link) :
      Turned host now s (.received bytes)
        { s with
          link := some { link with buffer := link.buffer ++ bytes }
          ledger := s.ledger.count fun t => t.read bytes.size
          stage := .reading } []
  | lost (link : Link) (due : Nat) (idle : s.stage = .idle) (held : s.link = some link) :
      Turned host now s .lost (s.bereft due) [.hangUp link.endpoint]
  | lostNothing (idle : s.stage = .idle) (unlinked : s.link = none) :
      Turned host now s .lost { s with ackDue := none } []
  | greeted (after : Session) (effects : List Effect) (stage : s.stage = .greeting)
      (flushed : Flushed s after effects) :
      Turned host now s .proceed { after with stage := .reading } effects
  | readNothing (stage : s.stage = .reading) (unlinked : s.link = none) :
      Turned host now s .proceed { s with stage := .idle } []
  | readBroken (link : Link) (error : WireError) (due : Nat) (stage : s.stage = .reading)
      (held : s.link = some link) (broken : Frame.next? link.buffer = .error error) :
      Turned host now s .proceed { s.bereft due with stage := .idle } [.hangUp link.endpoint]
  | readAll (link : Link) (stage : s.stage = .reading) (held : s.link = some link)
      (incomplete : Frame.next? link.buffer = .ok none) :
      Turned host now s .proceed
        { s with
          stage := .idle
          ackDue := if s.ackDue.isNone ∧ s.ledger.window.ackPending then
            some (now + host.options.ackDelay.ticks) else s.ackDue } []
  | read (link : Link) (e : Envelope) (rest : ByteArray) (after : Session)
      (effects : List Effect) (stage : s.stage = .reading) (held : s.link = some link)
      (complete : Frame.next? link.buffer = .ok (some (e, rest)))
      (took : Took e { s with link := some { link with buffer := rest } } after effects) :
      Turned host now s .proceed after effects
  | replied (replyTo : Nat) (payload : List UInt8) (ledger : Ledger) (after : Session)
      (effects : List Effect) (stage : s.stage = .handling (some replyTo))
      (queued : s.ledger.enqueueReply replyTo payload (.ofMillis now) = .ok ledger)
      (flushed : Flushed { s with ledger, stage := .reading } after effects) :
      Turned host now s (.replied (some payload)) after effects
  | silent (replyTo : Option Nat) (reply : Option (List UInt8))
      (stage : s.stage = .handling replyTo)
      (unqueued : ∀ n payload, replyTo = some n → reply = some payload →
        ∃ full, s.ledger.enqueueReply n payload (.ofMillis now) = .error full) :
      Turned host now s (.replied reply) { s with stage := .reading } []

/-- Two sessions with the same activities, in the same phase, with the same left to take
up. -/
structure Session.Alike (s after : Session) : Prop where
  peer : after.ledger.peer = s.ledger.peer
  phase : after.ledger.phase = s.ledger.phase
  link : after.link = s.link
  dial : after.dial = s.dial
  backoffDue : after.backoffDue = s.backoffDue
  commands : after.commands = s.commands
  woken : after.woken = s.woken

/-- A flush leaves the activities alone. -/
theorem Flushed.alike {s after : Session} {effects : List Effect}
    (flushed : Flushed s after effects) : s.Alike after := by
  cases flushed <;> exact ⟨rfl, rfl, rfl, rfl, rfl, rfl, rfl⟩

/-- A flush does not change what the session is in the middle of. -/
theorem Flushed.stage {s after : Session} {effects : List Effect}
    (flushed : Flushed s after effects) : after.stage = s.stage := by
  cases flushed <;> rfl

/-- Heeding an acknowledgement changes neither the phase nor the peer. -/
theorem Ledger.heeding_phase (l : Ledger) (e : Envelope) :
    (l.heeding e).phase = l.phase ∧ (l.heeding e).peer = l.peer := by
  obtain ⟨_, _, same⟩ := l.heeding_eq e
  rw [same]
  exact ⟨rfl, rfl⟩

/-- Taking in an envelope leaves the activities alone. -/
theorem Took.alike {e : Envelope} {s after : Session} {effects : List Effect}
    (took : Took e s after effects) : s.Alike after := by
  obtain ⟨phase, peer⟩ := s.ledger.heeding_phase e
  cases took <;> exact ⟨peer, phase, rfl, rfl, rfl, rfl, rfl⟩

/-- To note a connection in the ledger changes neither the phase nor the peer. -/
theorem Ledger.onConnected_phase (l : Ledger) (own : Incarnation) (hello : Hello)
    (now : Duration) : (l.onConnected own hello now).phase = l.phase ∧
      (l.onConnected own hello now).peer = l.peer := by
  obtain ⟨_, _, _, _, same⟩ := l.onConnected_eq own hello now
  rw [same]
  exact ⟨rfl, rfl⟩

/-- Adopting a connection does not change the peer. -/
theorem Session.joined_peer (host : Host) (now : Nat) (greeted : Greeted) (s : Session) :
    (s.joined host now greeted).ledger.peer = s.ledger.peer :=
  (Ledger.onConnected_phase _ _ _ _).2

/-- A session that adopts a connection is connected. -/
@[simp]
theorem Session.joined_phase (host : Host) (now : Nat) (greeted : Greeted) (s : Session) :
    (s.joined host now greeted).ledger.phase = .connected :=
  (Ledger.onConnected_phase _ _ _ _).1

/-- A live connection is the only activity of its session. -/
@[simp]
theorem Session.joined_activities (host : Host) (now : Nat) (greeted : Greeted) (s : Session) :
    (s.joined host now greeted).link =
        some ⟨greeted.endpoint, greeted.hello.incarnation, greeted.surplus⟩ ∧
      (s.joined host now greeted).dial = none ∧ (s.joined host now greeted).backoffDue = none ∧
      (s.joined host now greeted).stage = .greeting := ⟨rfl, rfl, rfl, rfl⟩

/-- Whatever becomes of a greeted connection, the peer stays the same. -/
theorem Adopted.peer {host : Host} {now : Nat} {greeted : Greeted} {s after : Session}
    {effects : List Effect} (adopted : Adopted host now greeted s after effects) :
    after.ledger.peer = s.ledger.peer := by
  cases adopted with
  | refused => rfl
  | joined => exact s.joined_peer host now greeted

/-- Whatever becomes of a greeted connection, the same is left to take up. -/
theorem Adopted.commands {host : Host} {now : Nat} {greeted : Greeted} {s after : Session}
    {effects : List Effect} (adopted : Adopted host now greeted s after effects) :
    after.commands = s.commands ∧ after.woken = s.woken := by
  cases adopted <;> exact ⟨rfl, rfl⟩

/-- Losing the connection does not change the peer. -/
theorem Session.bereft_peer (due : Nat) (s : Session) :
    (s.bereft due).ledger.peer = s.ledger.peer := by
  obtain ⟨_, _, same⟩ := s.bereft_eq due
  rw [same]
  rfl

/-- To queue a reply changes neither the phase nor the peer. -/
theorem Ledger.enqueueReply_phase (l queued : Ledger) (replyTo : Nat) (payload : List UInt8)
    (now : Duration) (accepted : l.enqueueReply replyTo payload now = .ok queued) :
    queued.phase = l.phase ∧ queued.peer = l.peer := by
  obtain ⟨_, _, _, _, _, rfl⟩ := l.enqueueReply_eq queued replyTo payload now accepted
  exact ⟨rfl, rfl⟩

/-- A session is about one peer for ever. -/
theorem Turned.peer {host : Host} {now : Nat} {event : Event} {s after : Session}
    {effects : List Effect} (turned : Turned host now s event after effects) :
    after.ledger.peer = s.ledger.peer := by
  cases turned with
  | attach greeted rest after effects idle next adopted => exact adopted.peer
  | dialed greeted after effects idle dialing adopted => exact adopted.peer
  | wakeFlush after effects idle woken phase flushed => exact flushed.alike.peer
  | greeted after effects stage flushed => exact flushed.alike.peer
  | replied replyTo payload ledger after effects stage queued flushed =>
    exact flushed.alike.peer.trans (Ledger.enqueueReply_phase _ _ _ _ _ queued).2
  | lost link due => exact s.bereft_peer due
  | readBroken link error due => exact s.bereft_peer due
  | read link e rest after effects stage held complete took => exact took.alike.peer
  | _ => rfl

/-- Commands are taken up in their order, or all at once when the session ends. -/
theorem Turned.commands {host : Host} {now : Nat} {event : Event} {s after : Session}
    {effects : List Effect} (turned : Turned host now s event after effects) :
    after.commands <:+ s.commands := by
  have first (command : Command) (rest : List Command) (next : s.commands = command :: rest) :
      rest <:+ s.commands := next ▸ List.suffix_cons command rest
  have same (others : List Command) (equal : others = s.commands) : others <:+ s.commands :=
    equal ▸ List.suffix_refl others
  cases turned with
  | attach greeted rest after effects idle next adopted =>
    rw [adopted.commands.1]
    exact first _ rest next
  | reconnect rest idle next | close rest idle next | resetDial rest idle next
  | resetNothing rest idle next => exact first _ rest next
  | shutdown => exact List.nil_suffix
  | dialed greeted after effects idle dialing adopted => exact same _ adopted.commands.1
  | wakeFlush after effects idle woken phase flushed => exact same _ flushed.alike.commands
  | greeted after effects stage flushed => exact same _ flushed.alike.commands
  | replied replyTo payload ledger after effects stage queued flushed =>
    exact same _ flushed.alike.commands
  | lost link due => exact same _ (s.bereft_commands due)
  | readBroken link error due => exact same _ (s.bereft_commands due)
  | read link e rest after effects stage held complete took =>
    exact same _ took.alike.commands
  | _ => exact List.suffix_refl _

/-- A session ends only when it takes up a command to shut down. -/
theorem Turned.ended {host : Host} {now : Nat} {event : Event} {s after : Session}
    {effects : List Effect} (turned : Turned host now s event after effects)
    (ended : after.stage = .ended) : s.stage = .ended ∨ s.commands.head? = some .shutdown := by
  have flushing (t : Session) (flushed : Flushed t after effects) : after.stage = t.stage := by
    cases flushed <;> rfl
  have adopting (greeted : Greeted) (t : Session)
      (adopted : Adopted host now greeted t after effects) : t.stage = .ended := by
    cases adopted with
    | refused => exact ended
    | joined => cases ended
  cases turned with
  | still => exact .inl ended
  | attach greeted rest after effects idle next adopted =>
    exact .inl (adopting greeted { s with commands := rest } adopted)
  | shutdown rest effects idle next => exact .inr (by simp [next])
  | wakeFlush after effects idle woken phase flushed =>
    exact .inl ((flushing { s with woken := false } flushed).symm.trans ended)
  | dialed greeted after effects idle dialing adopted =>
    exact .inl (adopting greeted { s with dial := none } adopted)
  | lost link due idle held =>
    exact .inl ((s.bereft_stage due).symm.trans ended)
  | read link e rest after effects stage held complete took =>
    cases took <;> first | exact .inl ended | cases ended
  | replied replyTo payload ledger after effects stage queued flushed =>
    cases (flushing { s with ledger, stage := .reading } flushed).symm.trans ended
  | _ => first | exact .inl ended | cases ended

namespace Turn

/-- A turn goes from one session to another, asking for something meanwhile, as a relation
says. -/
def Goes (t after : Turn) (kind : Session → List Effect → Prop) : Prop :=
  ∃ effects, after.effects = t.effects ++ effects ∧ kind after.session effects

/-- To write dispatches is to ask for that, unless there are none. -/
theorem write_eq (endpoint : Endpoint) (dispatches : List Dispatch) (t : Turn) :
    t.write endpoint dispatches =
      { t with effects := t.effects ++ Session.writings endpoint dispatches } := by
  unfold write Session.writings
  split <;> simp [emit]

/-- Everything that is queued is written. -/
theorem flush_eq (t : Turn) (link : Link) (writes : t.session.Writes link) :
    t.flush = ⟨{ t.session with ledger := t.session.ledger.drain.2.2, ackDue := none }, t.random,
      t.effects ++ Session.writings link.endpoint t.session.dispatches⟩ := by
  obtain ⟨held, phase, queued⟩ := writes
  have flushed : t.flush =
      (t.amend ({ · with ledger := t.session.ledger.drain.2.2, ackDue := none })).write
        link.endpoint t.session.dispatches := by
    simp only [flush, held, phase, queued, ne_eq, not_true_eq_false, or_self, if_false]
    rfl
  rw [flushed, write_eq]
  rfl

/-- A flush writes all or nothing. -/
theorem flush_goes (t : Turn) : t.Goes t.flush (Flushed t.session) := by
  by_cases writes : ∃ link, t.session.Writes link
  · obtain ⟨link, writes⟩ := writes
    rw [t.flush_eq link writes]
    exact ⟨_, rfl, .written link writes⟩
  · have idle : t.flush = t := by
      unfold flush
      split
      · rfl
      · next link held =>
        split
        · rfl
        · next active =>
          simp only [not_or, Decidable.not_not] at active
          exact absurd ⟨link, held, active⟩ writes
    rw [idle]
    exact ⟨[], (List.append_nil _).symm, .nothing fun link held => writes ⟨link, held⟩⟩

/-- Ending every activity. -/
theorem drop_all (t : Turn) : t.dropLink.dropDial.dropBackoff =
    { t with session := t.session.vacated, effects := t.effects ++ t.session.partings } := by
  obtain ⟨⟨ledger, link, dial, backoffDue, ackDue, commands, woken, stage⟩, random, effects⟩ := t
  cases link <;> cases dial <;>
    simp [dropLink, dropDial, dropBackoff, amend, emit, count, record, Session.vacated,
      Session.partings, Ledger.count]

/-- An attempt to connect may begin in every phase. -/
theorem startDial_eq (host : Host) (t : Turn) : t.startDial host =
    { t with
      session := t.session.attempting host
      effects := t.effects ++ [.dial (t.session.nextDial host)] } := by
  simp only [startDial, Ledger.move?, Phase.move_connecting, Option.map_some]
  rfl

/-- A connection that is held is lost. -/
theorem loseLink_goes (host : Host) (now : Nat) (t : Turn) (link : Link)
    (held : t.session.link = some link) :
    ∃ due, t.Goes (t.loseLink host now) fun after effects =>
      after = t.session.bereft due ∧ effects = [.hangUp link.endpoint] := by
  obtain ⟨⟨ledger, _, dial, backoffDue, ackDue, commands, woken, stage⟩, random, effects⟩ := t
  subst held
  refine ⟨now + (host.options.backoff.delay ledger.attempt random).1.ticks,
    [.hangUp link.endpoint], ?_, ?_, rfl⟩
  all_goals
    simp only [loseLink, drawDelay, dropLink, amend, emit, count, record, Ledger.move?,
      Ledger.count, Phase.move_backingOff, Session.bereft]
    by_cases waits : ledger.phase.mayWait <;> simp [waits, armBackoff, amend]

/-- Making a greeted connection the live one. -/
theorem install_eq (host : Host) (now : Nat) (greeted : Greeted) (ledger : Ledger) (t : Turn)
    (known : ledger.incarnation = t.session.ledger.incarnation) :
    t.install host now greeted ledger =
      { t with
        session := { t.session with
          ledger := ledger.onConnected host.incarnation greeted.hello (.ofMillis now)
          link := some ⟨greeted.endpoint, greeted.hello.incarnation, greeted.surplus⟩
          dial := none, backoffDue := none, ackDue := none, stage := .greeting }
        effects := t.effects ++ t.session.joinings greeted } := by
  obtain ⟨⟨held, link, dial, backoffDue, ackDue, commands, woken, stage⟩, random, effects⟩ := t
  change ledger.incarnation = held.incarnation at known
  simp only [install, dropDial, dropBackoff, amend, emit, enter, Session.joinings, known]
  cases link <;> cases dial <;>
    cases restarted : Incarnation.restarted held.incarnation greeted.hello.incarnation <;>
    simp

/-- A greeted connection that may become the live one does. -/
theorem adopt_joined (host : Host) (now : Nat) (greeted : Greeted) (t : Turn)
    (fit : t.session.Admits host greeted) :
    t.adopt host now greeted =
      { t with
        session := t.session.joined host now greeted
        effects := t.effects ++ t.session.joinings greeted } := by
  obtain ⟨⟨ledger, link, dial, backoffDue, ackDue, commands, woken, stage⟩, random, effects⟩ := t
  obtain ⟨phase, wins⟩ := fit
  cases link with
  | none =>
    simp only [adopt, Ledger.move?, Phase.move_connected, if_neg phase, Option.map_some]
    rw [install_eq]
    · rfl
    · rfl
  | some link =>
    simp only [adopt, wins link rfl, count, record, amend, Ledger.count, if_true, Ledger.move?,
      Phase.move_connected, if_neg phase, Option.map_some]
    rw [install_eq]
    · rfl
    · rfl

/-- Any other is hung up. -/
theorem adopt_refused (host : Host) (now : Nat) (greeted : Greeted) (t : Turn)
    (unfit : ¬ t.session.Admits host greeted) :
    t.adopt host now greeted =
      { t with
        session := { t.session with
          ledger := t.session.ledger.count
            (if t.session.link.isSome then Tally.duplicate else id) }
        effects := t.effects ++ [.hangUp greeted.endpoint] } := by
  obtain ⟨⟨ledger, link, dial, backoffDue, ackDue, commands, woken, stage⟩, random, effects⟩ := t
  by_cases closed : ledger.phase = .intentionallyClosed
  · obtain ⟨peer, phase, attempt, incarnation, hints, outbox, window, bindings, nextBinding,
      tally⟩ := ledger
    change phase = _ at closed
    subst closed
    cases link <;> simp [adopt, emit, count, record, amend, Ledger.count, Ledger.move?,
      Phase.move_connected]
  · cases link with
    | none => exact absurd ⟨closed, by simp⟩ unfit
    | some link =>
      have loses : ¬ (greeted.origin host ledger.peer).replaces (link.origin host ledger.peer)
          host.id ledger.peer := by
        intro wins
        refine unfit ⟨closed, ?_⟩
        rintro other held
        cases held
        exact wins
      simp [adopt, emit, count, record, amend, Ledger.count, loses]

/-- A greeted connection is hung up or becomes the live one. -/
theorem adopt_goes (host : Host) (now : Nat) (greeted : Greeted) (t : Turn) :
    t.Goes (t.adopt host now greeted) (Adopted host now greeted t.session) := by
  by_cases fit : t.session.Admits host greeted
  · rw [adopt_joined host now greeted t fit]
    exact ⟨_, rfl, .joined fit⟩
  · rw [adopt_refused host now greeted t fit]
    exact ⟨_, rfl, .refused fit⟩

/-- Heeding an acknowledgement counts nothing as received. -/
theorem heeding_received (l : Ledger) (e : Envelope) :
    (l.heeding e).window.received = l.window.received := by
  obtain ⟨_, _, same⟩ := l.heeding_eq e
  rw [same]

/-- Heeding an acknowledgement touches no binding. -/
theorem heeding_bindings (l : Ledger) (e : Envelope) :
    (l.heeding e).bindings = l.bindings := by
  obtain ⟨_, _, same⟩ := l.heeding_eq e
  rw [same]

/-- Releasing a promise depends on the bindings alone. -/
theorem takeBinding_of_bindings (l other : Ledger) (n : Nat)
    (same : other.bindings = l.bindings) :
    other.takeBinding n =
      (l.takeBinding n).map fun taken =>
        (taken.1, { other with bindings := taken.2.bindings }) := by
  simp only [Ledger.takeBinding, same, Option.map_map]
  rfl

/-- The acknowledgement that comes with an envelope is taken in first of all. -/
theorem record_heeding (e : Envelope) (t : Turn) :
    (if 0 < e.ack then t.record fun l => l.applyAck e.ack else t) =
      { t with session := { t.session with ledger := t.session.ledger.heeding e } } := by
  unfold Ledger.heeding
  split <;> rfl

/-- An envelope is taken in. There is one case for each kind of body, and a parcel may be new or
not. -/
theorem receiveEnvelope_goes (e : Envelope) (t : Turn) :
    t.Goes (t.receiveEnvelope e) (Took e t.session) := by
  obtain ⟨s, random, effects⟩ := t
  have received := heeding_received s.ledger e
  simp only [receiveEnvelope, record_heeding]
  split
  · next error body => exact ⟨[], by simp, .malformed error body⟩
  · next body =>
    split
    · next numbered => exact ⟨[], by simp [record, amend], .unknown body numbered⟩
    · next zero => exact ⟨[], by simp, .unnumbered body (Nat.eq_zero_of_not_pos zero)⟩
  · next parcel body =>
    by_cases old : e.seq ≤ s.ledger.window.received
    · have again := Took.again (s := s) parcel body old
      refine ⟨[], ?_, ?_⟩
      · simp [receiveParcel, Window.receive, received, old, count, record, amend]
      · simpa [receiveParcel, Window.receive, received, old, count, record, amend, Ledger.count]
          using again
    · have new : s.ledger.window.received < e.seq := Nat.lt_of_not_le old
      simp only [receiveParcel, Window.receive, received, old, if_false]
      cases parcel with
      | message payload replyTo =>
        refine ⟨[.tell (.message payload)], rfl, ?_⟩
        have message := Took.message (s := s) payload replyTo body new
        simpa [Window.receive, received, old, count, record, amend, Ledger.count, enter, emit]
          using message
      | reply replyTo payload =>
        simp only [Bool.false_eq_true, if_false, count, record, amend, Ledger.count]
        rw [takeBinding_of_bindings s.ledger]
        case same => exact heeding_bindings s.ledger e
        cases taking : s.ledger.takeBinding replyTo with
        | none =>
          have reply := Took.reply (s := s) payload replyTo body new taking
          refine ⟨[], by simp, ?_⟩
          simpa [Window.receive, received, old] using reply
        | some taken =>
          have settled := Took.settled (s := s) payload replyTo taken.1 taken.2 body new taking
          refine ⟨[.tell (.settled taken.1 (.ok payload))], by simp [emit], ?_⟩
          simpa [Window.receive, received, old, emit] using settled
  · next body => exact ⟨[], by simp, .ack body⟩
  · next hello body => exact ⟨[], by simp, .greeting hello body⟩

/-- Commands are passed over by hanging up. -/
theorem forgo_all (commands : List Command) (t : Turn) : ∃ effects,
    (∀ effect ∈ effects, effect.isParting = true) ∧
      commands.foldl forgo t = { t with effects := t.effects ++ effects } := by
  induction commands generalizing t with
  | nil => exact ⟨[], nofun, by simp⟩
  | cons command rest inductionHypothesis =>
    obtain ⟨effects, parting, same⟩ := inductionHypothesis (t.forgo command)
    rw [List.foldl_cons, same]
    cases command with
    | attach greeted =>
      refine ⟨.hangUp greeted.endpoint :: effects, ?_, by simp [forgo, emit]⟩
      exact List.forall_mem_cons.mpr ⟨rfl, parting⟩
    | _ => exact ⟨effects, parting, rfl⟩

/-- A session that is over holds nothing, and no connection will be attached any more. -/
theorem release_goes (t : Turn) : ∃ effects, t.release.effects = t.effects ++ effects ∧
    (∀ effect ∈ effects, effect.isParting = true) ∧ t.release.session =
      { t.session.vacated with commands := [], woken := false, stage := .ended } := by
  obtain ⟨effects, parting, same⟩ := forgo_all t.session.vacated.commands
    { t with session := t.session.vacated, effects := t.effects ++ t.session.partings }
  have released : t.release = (⟨t.session.vacated, t.random,
      t.effects ++ t.session.partings ++ effects⟩ : Turn).amend
        ({ · with commands := [], woken := false, stage := .ended }) := by
    unfold release
    rw [drop_all]
    exact congrArg (fun t : Turn =>
      t.amend ({ · with commands := [], woken := false, stage := .ended })) same
  refine ⟨t.session.partings ++ effects, ?_⟩
  rw [released]
  refine ⟨List.append_assoc _ _ _, ?_, rfl⟩
  exact List.forall_mem_append.mpr ⟨t.session.partings_part, parting⟩

/-- A command that was taken up. There is one case for each command. -/
theorem obey_goes (host : Host) (now : Nat) (t : Turn) (idle : t.session.stage = .idle)
    (command : Command) (rest : List Command) (next : t.session.commands = command :: rest) :
    t.Goes ((t.amend ({ · with commands := rest })).obey host now command)
      (Turned host now t.session .command) := by
  cases command with
  | attach greeted =>
    obtain ⟨effects, asked, adopted⟩ := adopt_goes host now greeted
      (t.amend ({ · with commands := rest }))
    exact ⟨effects, asked, .attach greeted rest _ effects idle next adopted⟩
  | reconnect =>
    simp only [obey, drop_all, startDial_eq]
    exact ⟨_, List.append_assoc _ _ _, .reconnect rest idle next⟩
  | close =>
    simp only [obey, drop_all]
    exact ⟨_, rfl, .close rest idle next⟩
  | resetBackoff =>
    simp only [obey]
    split
    · next waiting =>
      split
      · next phase =>
        rw [startDial_eq]
        exact ⟨_, rfl, .resetDial rest idle next waiting phase⟩
      · next phase =>
        exact ⟨[], by simp [dropBackoff, amend], .resetNothing rest idle next fun _ => phase⟩
    · next awake =>
      have none : t.session.backoffDue = none := Option.not_isSome_iff_eq_none.mp awake
      have nothing : Turned host now t.session .command _ [] :=
        .resetNothing rest idle next fun waiting => absurd waiting awake
      refine ⟨[], by simp [amend], ?_⟩
      simpa only [amend, none] using nothing
  | shutdown =>
    obtain ⟨effects, asked, parting, released⟩ :=
      release_goes (t.amend ({ · with commands := rest }))
    refine ⟨effects, asked, ?_⟩
    simp only [obey, released]
    exact .shutdown rest effects idle next parting

/-- To reject promises asks for a rejection of each, and for the news behind them. -/
theorem rejectAll_eq (promises : List PromiseId) (t : Turn) :
    t.rejectAll promises = { t with
      effects := t.effects ++ promises.map (fun promise =>
        .tell (.settled promise (.error (.connectionLost t.session.ledger.peer)))) ++
          [.tell .gaveUp] } := by
  unfold rejectAll
  induction promises generalizing t with
  | nil => simp [emit]
  | cons promise rest inductionHypothesis =>
    rw [List.foldl_cons, inductionHypothesis]
    simp [emit]

/-- The last failure that is permitted gives the peer up: what is queued and what waits is let
go, and the rejections are told within the turn. -/
theorem take_exhausted (host : Host) (now : Nat) (error : LinkError) (t : Turn)
    (dialing : t.session.dial.isSome) (unlinked : t.session.link = none)
    (phase : t.session.ledger.phase = .connecting) (limited : 0 < host.options.maxAttempts)
    (spent : host.options.maxAttempts ≤ (t.session.failing now).attempt) :
    t.take host now (.dialed (.error error)) =
      { session := { t.session with
          ledger := { t.session.failing now with
            phase := .disconnected, attempt := 0, bindings := []
            outbox := t.session.ledger.outbox.clear
            tally := (t.session.failing now).tally.gaveUp t.session.ledger.outbox.size }
          dial := none }
        random := (host.options.backoff.delay t.session.ledger.attempt t.random).2
        effects := t.effects ++ t.session.rejections } := by
  have fresh : ¬ (t.session.link.isSome = true ∨ t.session.ledger.phase ≠ .connecting) := by
    simp [unlinked, phase]
  have move : t.session.ledger.phase.move? .disconnected = some .disconnected := by
    rw [phase]
    rfl
  have exhausted : 0 < host.options.maxAttempts ∧
      host.options.maxAttempts ≤ min (t.session.ledger.attempt + 1) Ledger.maxAttempt :=
    ⟨limited, spent⟩
  simp only [take, dialing, amend, fresh, if_true, if_false, failDial, count, record, drawDelay,
    Ledger.count, exhausted, and_self, Ledger.giveUp?, Ledger.move?, move, rejectAll_eq,
    Option.map_some]
  simp [Session.rejections, Session.failing, Ledger.count]

/-- An attempt to connect failed while it was the only activity. -/
theorem failDial_goes (host : Host) (now : Nat) (error : LinkError) (t : Turn)
    (idle : t.session.stage = .idle) (dialing : t.session.dial.isSome)
    (unlinked : t.session.link = none) (phase : t.session.ledger.phase = .connecting) :
    t.Goes (t.take host now (.dialed (.error error)))
      (Turned host now t.session (.dialed (.error error))) := by
  by_cases exhausted : 0 < host.options.maxAttempts ∧
      host.options.maxAttempts ≤ (t.session.failing now).attempt
  · obtain ⟨limited, spent⟩ := exhausted
    rw [take_exhausted host now error t dialing unlinked phase limited spent]
    exact ⟨t.session.rejections, rfl, .dialGiveUp error idle dialing unlinked phase limited spent⟩
  · have fresh : ¬ (t.session.link.isSome = true ∨ t.session.ledger.phase ≠ .connecting) := by
      simp [unlinked, phase]
    have move : t.session.ledger.phase.move? .backingOff = some .backingOff := by
      rw [phase]
      rfl
    have left : ¬ (0 < host.options.maxAttempts ∧
        host.options.maxAttempts ≤ min (t.session.ledger.attempt + 1) Ledger.maxAttempt) :=
      exhausted
    have retry (due : Nat) : Turned host now t.session (.dialed (.error error)) _ _ :=
      .dialRetry error due idle dialing unlinked phase
      fun limited => Nat.lt_of_not_le fun spent => exhausted ⟨limited, spent⟩
    simp only [take, dialing, amend, fresh, if_true, if_false, failDial, count, record, drawDelay,
      Ledger.count, left, Ledger.move?, move, armBackoff, Option.map_some]
    exact ⟨[], (List.append_nil _).symm, retry _⟩

/-- The end of an attempt to connect, however it ended. -/
theorem dialed_goes (host : Host) (now : Nat) (t : Turn) (idle : t.session.stage = .idle)
    (dialing : t.session.dial.isSome) (outcome : Except LinkError Greeted) :
    t.Goes (t.take host now (.dialed outcome)) (Turned host now t.session (.dialed outcome)) := by
  cases outcome with
  | ok greeted =>
    obtain ⟨effects, asked, adopted⟩ := adopt_goes host now greeted
      (t.amend ({ · with dial := none }))
    simp only [take, dialing, if_true]
    exact ⟨effects, asked, .dialed greeted _ effects idle dialing adopted⟩
  | error error =>
    by_cases stale : t.session.link.isSome ∨ t.session.ledger.phase ≠ .connecting
    · simp only [take, dialing, amend, stale, if_true]
      exact ⟨[], (List.append_nil _).symm, .dialStale error idle dialing stale⟩
    · simp only [not_or, Decidable.not_not, Option.not_isSome_iff_eq_none] at stale
      exact failDial_goes host now error t idle dialing stale.1 stale.2

/-- An acknowledgement is due. -/
theorem writeAck_goes (host : Host) (now : Nat) (t : Turn) (idle : t.session.stage = .idle)
    (due : t.session.ackDue.isSome) :
    t.Goes (t.amend ({ · with ackDue := none })).writeAck
      (Turned host now t.session .ackElapsed) := by
  unfold writeAck
  split
  · next unlinked =>
    change t.session.link = none at unlinked
    refine ⟨[], (List.append_nil _).symm, .ackNothing idle due ?_⟩
    intro held
    simp [unlinked] at held
  · next link held =>
    split
    · next owed =>
      dsimp only
      rw [write_eq]
      exact ⟨_, rfl, .ackWritten link idle due held owed⟩
    · next settled => exact ⟨[], (List.append_nil _).symm, .ackNothing idle due fun _ => settled⟩

/-- An event that an idle session takes up. There is one case for each event; an event that does not
fit what the session holds leaves it still. -/
theorem take_goes (host : Host) (now : Nat) (t : Turn) (idle : t.session.stage = .idle)
    (event : Event) : t.Goes (t.take host now event) (Turned host now t.session event) := by
  have still : t.Goes t (Turned host now t.session event) :=
    ⟨[], (List.append_nil _).symm, .still event⟩
  cases event with
  | command =>
    cases next : t.session.commands with
    | nil => simpa only [take, next] using still
    | cons command rest =>
      simp only [take, next]
      exact obey_goes host now t idle command rest next
  | wake =>
    by_cases woken : t.session.woken
    · cases phase : t.session.ledger.phase with
      | connected =>
        obtain ⟨effects, asked, flushed⟩ := flush_goes (t.amend ({ · with woken := false }))
        simp only [take, woken, if_true, amend, phase]
        exact ⟨effects, asked, .wakeFlush _ effects idle woken phase flushed⟩
      | disconnected =>
        simp only [take, woken, if_true, amend, phase]
        by_cases queued : t.session.ledger.outbox.size = 0
        · simp only [queued, if_true]
          exact ⟨[], (List.append_nil _).symm,
            .wakeNothing idle woken (by simp [phase]) fun _ => queued⟩
        · simp only [queued, if_false, startDial_eq]
          exact ⟨_, rfl, .wakeDial idle woken phase queued⟩
      | connecting | backingOff | intentionallyClosed =>
        simp only [take, woken, if_true, amend, phase]
        exact ⟨[], (List.append_nil _).symm,
          .wakeNothing idle woken (by simp [phase]) (by simp [phase])⟩
    · simpa [take, woken] using still
  | dialed outcome =>
    by_cases dialing : t.session.dial.isSome
    · exact dialed_goes host now t idle dialing outcome
    · simpa [take, dialing] using still
  | backoffElapsed =>
    by_cases waiting : t.session.backoffDue.isSome
    · simp only [take, waiting, if_true]
      split
      · next phase =>
        rw [startDial_eq]
        exact ⟨_, rfl, .elapsedDial idle waiting phase⟩
      · next phase =>
        exact ⟨[], (List.append_nil _).symm, .elapsedNothing idle waiting phase⟩
    · simpa [take, waiting] using still
  | ackElapsed =>
    by_cases due : t.session.ackDue.isSome
    · have taken :
          t.take host now .ackElapsed = (t.amend ({ · with ackDue := none })).writeAck := by
        simp only [take, due, if_true]
      rw [taken]
      exact writeAck_goes host now t idle due
    · simpa [take, due] using still
  | received bytes =>
    cases held : t.session.link with
    | none => simpa only [take, held] using still
    | some link =>
      simp only [take, held]
      exact ⟨[], (List.append_nil _).symm, .received bytes link idle held⟩
  | lost =>
    cases held : t.session.link with
    | none =>
      simp only [take, loseLink, held, dropLink]
      exact ⟨[], (List.append_nil _).symm, .lostNothing idle held⟩
    | some link =>
      obtain ⟨due, effects, asked, bereft, rfl⟩ := loseLink_goes host now t link held
      refine ⟨[.hangUp link.endpoint], asked, ?_⟩
      simp only [take, bereft]
      exact .lost link due idle held
  | proceed => exact still
  | replied reply => exact still

/-- One frame of the buffer, if there is one. -/
theorem readFrame_goes (host : Host) (now : Nat) (t : Turn) (stage : t.session.stage = .reading) :
    t.Goes (t.readFrame host now) (Turned host now t.session .proceed) := by
  unfold readFrame
  split
  · next unlinked => exact ⟨[], (List.append_nil _).symm, .readNothing stage unlinked⟩
  · next link held =>
    split
    · next error broken =>
      obtain ⟨due, effects, asked, bereft, rfl⟩ := loseLink_goes host now t link held
      refine ⟨[.hangUp link.endpoint], asked, ?_⟩
      simp only [enter, amend, bereft]
      exact .readBroken link error due stage held broken
    · next incomplete =>
      have all : Turned host now t.session .proceed _ _ := .readAll link stage held incomplete
      have linked : t.session.link.isSome = true := by simp [held]
      have armed : (t.armAck host now).enter .idle = { t with session := { t.session with
          stage := .idle
          ackDue := if t.session.ackDue.isNone ∧ t.session.ledger.window.ackPending then
            some (now + host.options.ackDelay.ticks) else t.session.ackDue } } := by
        simp only [armAck, linked, true_and, enter, amend]
        split <;> rfl
      rw [armed]
      exact ⟨[], (List.append_nil _).symm, all⟩
    · next e rest complete =>
      obtain ⟨effects, asked, took⟩ := receiveEnvelope_goes e
        (t.amend ({ · with link := some { link with buffer := rest } }))
      exact ⟨effects, asked, .read link e rest _ effects stage held complete took⟩

/-- The next part of what a session is in the middle of. -/
theorem proceed_goes (host : Host) (now : Nat) (t : Turn) :
    t.Goes (t.proceed host now) (Turned host now t.session .proceed) := by
  have still : t.Goes t (Turned host now t.session .proceed) :=
    ⟨[], (List.append_nil _).symm, .still .proceed⟩
  cases stage : t.session.stage with
  | greeting =>
    obtain ⟨effects, asked, flushed⟩ := flush_goes t
    simp only [proceed, stage]
    exact ⟨effects, asked, .greeted _ effects stage flushed⟩
  | reading =>
    simp only [proceed, stage]
    exact readFrame_goes host now t stage
  | idle | handling | ended => simpa only [proceed, stage] using still

/-- A reply of the application, or none. -/
theorem reply_goes (now : Nat) (host : Host) (t : Turn) (replyTo : Option Nat)
    (stage : t.session.stage = .handling replyTo) (answer : Option (List UInt8)) :
    t.Goes (t.reply now replyTo answer) (Turned host now t.session (.replied answer)) := by
  have silent (unqueued : ∀ n payload, replyTo = some n → answer = some payload →
      ∃ full, t.session.ledger.enqueueReply n payload (.ofMillis now) = .error full) :
      t.Goes (t.enter .reading) (Turned host now t.session (.replied answer)) :=
    ⟨[], (List.append_nil _).symm, .silent replyTo answer stage unqueued⟩
  cases answer with
  | none => exact silent (by simp)
  | some payload =>
    cases replyTo with
    | none => exact silent (by simp)
    | some n =>
      cases queued : t.session.ledger.enqueueReply n payload (.ofMillis now) with
      | error full =>
        simp only [reply, enter, amend, queued]
        refine silent ?_
        rintro _ _ ⟨⟩ ⟨⟩
        exact ⟨full, queued⟩
      | ok ledger =>
        obtain ⟨effects, asked, flushed⟩ :=
          flush_goes ((t.enter .reading).amend ({ · with ledger }))
        simp only [reply, enter, amend, queued]
        exact ⟨effects, asked, .replied n payload ledger _ effects stage queued flushed⟩

/-- Every turn is of one of the kinds. -/
theorem handle_goes (host : Host) (now : Nat) (t : Turn) (event : Event) :
    t.Goes (t.handle host now event) (Turned host now t.session event) := by
  have still : t.Goes t (Turned host now t.session event) :=
    ⟨[], (List.append_nil _).symm, .still event⟩
  unfold handle
  split
  · next idle => exact take_goes host now t idle _
  · next replyTo answer stage => exact reply_goes now host t replyTo stage answer
  · exact proceed_goes host now t
  · exact proceed_goes host now t
  · exact still

end Turn

end Courier
