import Courier.Proofs.Correspondence

/-!
# The traffic between all runs of two kernels

Both kernels may be started any number of times, and every run of them is followed with
every connection that was ever opened between any two. A run has an incarnation of its own
and begins with nothing remembered. A run that another one replaced is not held up: it may
go on to take up what arrives, and what it wrote to its connections may arrive at any time
later, or never. Runs of one kernel have nothing in common but the id that they greet with.

The log tells what the runs did with the promises and replies of the applications and with
the numbers of messages. Nothing that a run does depends on it.
-/

namespace Courier

/-- A run of one of the kernels. -/
structure Actor where
  party : Party
  run : Incarnation
  deriving DecidableEq

/-- A run of the other kernel. -/
def Actor.across (a : Actor) (run : Incarnation) : Actor := ⟨a.party.other, run⟩

/-- A message that was handed to an application: which run wrote it to the connection, its
number, and its payload. -/
structure Errand where
  sender : Option Incarnation
  seq : Nat
  payload : List UInt8

/-- What a run of a kernel did. -/
inductive Affair where
  /-- It accepted a message with a promise, under a number and a binding. -/
  | promised (seq : Nat) (payload : List UInt8) (binding : Nat) (promise : PromiseId)
  /-- Its application was done with a message and gave a reply. -/
  | answered (errand : Errand) (reply : List UInt8)
  /-- It settled a promise with a reply. -/
  | settled (promise : PromiseId) (reply : List UInt8)
  /-- It counted as received the number of an envelope that a run of the other kernel wrote. -/
  | counted (sender : Option Incarnation) (seq : Nat)
  /-- An acknowledgement took the message with a number from its outbox. -/
  | retired (seq : Nat)

/-- What happened, and to which run. -/
structure Note where
  actor : Actor
  affair : Affair

/-- Each affair of one run. -/
def Actor.notes (a : Actor) (affairs : List Affair) : List Note := affairs.map (⟨a, ·⟩)

/-- What is kept of a run: its options, its session about the other kernel, and the message
that its application is at work on. -/
structure Run where
  options : Options
  session : Session
  errand : Option Errand := none

/-- What an effect writes to a connection. -/
def Effect.writes (c : Nat) : Effect → List Dispatch
  | .write endpoint dispatches => if endpoint.connection = c then dispatches else []
  | _ => []

/-- The payload of a message that an effect hands to the application. -/
def Effect.handed? : Effect → Option (List UInt8)
  | .tell (.message payload) => some payload
  | _ => none

/-- The affair that an effect amounts to. -/
def Effect.affair? : Effect → Option Affair
  | .tell (.settled promise (.ok reply)) => some (.settled promise reply)
  | _ => none

namespace Session

/-- What a call amounts to. -/
def callAffairs (s : Session) : Occurrence → List Affair
  | .post letter now =>
    match s.post letter now, letter.promise with
    | .ok posted, some promise =>
      [.promised posted.ledger.window.sent letter.payload s.ledger.nextBinding promise]
    | _, _ => []
  | _ => []

/-- The messages that were in the outbox before and are acknowledged afterwards. -/
def retires (s after : Session) : List Nat :=
  (s.ledger.outbox.entries.filter (·.seq ≤ after.ledger.window.acked)).map (·.seq)

/-- What an acknowledgement retires is what it takes out of an outbox in order: the numbers that
were queued are those that are retired and, behind them, those that stay. -/
theorem retires_applyAck (s : Session)
    (ordered : s.ledger.outbox.entries.Pairwise fun e f => e.seq < f.seq) (seq : Nat) :
    s.retires { s with ledger := s.ledger.applyAck seq } ++
        (s.ledger.applyAck seq).outbox.entries.map (·.seq) =
      s.ledger.outbox.entries.map (·.seq) := by
  let covered (e : Entry Parcel) : Bool := e.seq ≤ (s.ledger.applyAck seq).window.acked
  have stays : (s.ledger.applyAck seq).outbox.entries =
      s.ledger.outbox.entries.dropWhile covered := s.ledger.applyAck_entries seq
  have above : ∀ e ∈ s.ledger.outbox.entries.dropWhile covered, covered e = false := by
    intro e listed
    have high := s.ledger.outbox.ack_above ordered _ e (stays ▸ listed)
    exact decide_eq_false (Nat.not_le_of_lt high)
  -- As the numbers increase, the covered front is all that is covered.
  have front : s.ledger.outbox.entries.filter covered =
      s.ledger.outbox.entries.takeWhile covered := by
    have parts := List.takeWhile_append_dropWhile (p := covered) (l := s.ledger.outbox.entries)
    have all : (s.ledger.outbox.entries.takeWhile covered).filter covered =
        s.ledger.outbox.entries.takeWhile covered :=
      List.filter_eq_self.mpr fun e listed => List.mem_takeWhile_imp listed
    have none : (s.ledger.outbox.entries.dropWhile covered).filter covered = [] :=
      List.filter_eq_nil_iff.mpr fun e listed => by simp [above e listed]
    conv => lhs; rw [← parts]
    rw [List.filter_append, all, none, List.append_nil]
  change (s.ledger.outbox.entries.filter covered).map _ ++ _ = _
  rw [front, stays, ← List.map_append, List.takeWhile_append_dropWhile]

end Session

namespace Run

/-- The run after a turn. A message that is handed out is what its application is at work
on from then on. -/
def onward (r : Run) (sender : Option Incarnation) (after : Session) (effects : List Effect) :
    Run :=
  { r with
    session := after
    errand := ((effects.findSome? Effect.handed?).map
      fun payload => ⟨sender, r.session.frontSeq, payload⟩).or r.errand }

/-- The reply of the application to the message that it was at work on. -/
def answers (r : Run) (event : Event) : List Affair :=
  match r.session.stage, r.errand, event with
  | .handling _, some errand, .replied (some reply) => [.answered errand reply]
  | _, _, _ => []

/-- What a turn does with what the other kernel wrote: a reply is given, a number is
counted. -/
def hearings (r : Run) (sender : Option Incarnation) (after : Session) (event : Event) :
    List Affair :=
  r.answers event ++
    if r.session.ledger.window.received < after.ledger.window.received then
      [.counted sender r.session.frontSeq]
    else []

/-- What follows from it: promises are settled, and messages retired. -/
def outcomes (r : Run) (after : Session) (effects : List Effect) : List Affair :=
  effects.filterMap Effect.affair? ++ (r.session.retires after).map .retired

end Run

/-- The runs of two kernels, with the ids that these greet with, all connections between
them, and what happened. -/
structure Traffic where
  peer : Party → PeerId
  run : Actor → Option Run := fun _ => none
  passage : Nat → Passage := fun _ => {}
  log : List Note := []

namespace Traffic

/-- The identity of a run. -/
def host (x : Traffic) (a : Actor) (r : Run) : Host := ⟨x.peer a.party, a.run, r.options⟩

/-- Replace what is kept of a run. -/
def amend (x : Traffic) (a : Actor) (r : Run) : Traffic :=
  { x with run := Function.update x.run a (some r) }

/-- Change a connection. -/
def change (x : Traffic) (c : Nat) (change : Passage → Passage) : Traffic :=
  { x with passage := Function.update x.passage c (change (x.passage c)) }

/-- Which run of the other kernel greeted on the live connection of a run. -/
def sender (x : Traffic) (a : Actor) (r : Run) : Option Incarnation :=
  r.session.link.bind fun link => (x.passage link.endpoint.connection).run a.party.other

/-- The application of a run calls its kernel. -/
def called (x : Traffic) (a : Actor) (r : Run) (call : Occurrence) : Traffic :=
  { x.amend a { r with session := r.session.undergo (x.host a r) call } with
    log := x.log ++ a.notes (r.session.callAffairs call) }

/-- The session of a run took up an event, and asked for something. What it writes is on its
way. -/
def followed (x : Traffic) (a : Actor) (r : Run) (event : Event) (after : Session)
    (effects : List Effect) : Traffic :=
  { x.amend a (r.onward (x.sender a r) after effects) with
    passage := fun c => (x.passage c).append a.party (effects.flatMap (Effect.writes c))
    log := x.log ++ a.notes (r.hearings (x.sender a r) after event ++ r.outcomes after effects) }

/-- The session of a run takes up an event. -/
def turned (x : Traffic) (a : Actor) (r : Run) (now : Nat) (random : Random.Stream)
    (event : Event) : Traffic :=
  let t := Turn.handle (x.host a r) now ⟨r.session, random, []⟩ event
  x.followed a r event t.session t.effects

/-- What may happen next. -/
inductive Step (x : Traffic) : Traffic → Prop where
  /-- A kernel is started, with an incarnation that no run of it had. -/
  | start (a : Actor) (options : Options) (fresh : x.run a = none) :
      Step x (x.amend a ⟨options, .fresh (x.peer a.party.other) options, none⟩)
  | call (a : Actor) (r : Run) (runs : x.run a = some r) (call : Occurrence) (fit : call.IsCall) :
      Step x (x.called a r call)
  | turn (a : Actor) (r : Run) (runs : x.run a = some r) (now : Nat) (random : Random.Stream)
      (event : Event) (own : event.isOwn = true) : Step x (x.turned a r now random event)
  /-- An attempt to connect opens a connection and greets on it. -/
  | dial (a : Actor) (r : Run) (runs : x.run a = some r) (dial : Dial) (c : Nat)
      (hello : Dispatch) (dialing : r.session.dial = some dial)
      (unused : (x.passage c).dialer = none)
      (greeting : Dispatch.of? (.hello dial.hello) 0 dial.hello.ack = some hello) :
      Step x (x.change c fun _ => ({ dialer := some a.party } : Passage).greet a.party a.run hello)
  /-- A run of the kernel that was dialed greets back. -/
  | answer (a : Actor) (r : Run) (runs : x.run a = some r) (c : Nat) (arrived : ByteArray)
      (theirs : Hello) (surplus : ByteArray) (hello : Dispatch)
      (dialed : (x.passage c).dialer = some a.party.other)
      (unanswered : (x.passage c).run a.party = none)
      (offered : (x.passage c).Offers a.party arrived)
      (greeted : Handshake.take? arrived = .ok (some (theirs, surplus)))
      (known : theirs.peer = x.peer a.party.other)
      (welcome : r.session.ledger.phase ≠ .intentionallyClosed)
      (greeting : Dispatch.of? (.hello ((x.host a r).hello r.session.ledger)) 0
        r.session.ledger.window.received = some hello) :
      Step x (x.change c fun w => w.greet a.party a.run hello)
  /-- The run that greeted back hands the connection to its session, maybe much later. -/
  | attach (a : Actor) (r : Run) (runs : x.run a = some r) (c : Nat) (arrived : ByteArray)
      (theirs : Hello) (surplus : ByteArray) (dialed : (x.passage c).dialer = some a.party.other)
      (answered : (x.passage c).run a.party = some a.run)
      (untaken : (x.passage c).joined a.party = false)
      (offered : (x.passage c).Offers a.party arrived)
      (greeted : Handshake.take? arrived = .ok (some (theirs, surplus))) :
      Step x ((x.change c fun w => w.join a.party arrived.size).amend a
        { r with session := r.session.push (.attach ⟨⟨c, .acceptor⟩, theirs, surplus⟩) })
  /-- The attempt to connect succeeds. -/
  | reach (a : Actor) (r : Run) (runs : x.run a = some r) (c : Nat) (arrived : ByteArray)
      (theirs : Hello) (surplus : ByteArray) (now : Nat) (random : Random.Stream)
      (dialed : (x.passage c).dialer = some a.party)
      (ours : (x.passage c).run a.party = some a.run)
      (untaken : (x.passage c).joined a.party = false)
      (offered : (x.passage c).Offers a.party arrived)
      (greeted : Handshake.take? arrived = .ok (some (theirs, surplus)))
      (meant : Handshake.mismatch? (x.peer a.party.other) theirs = none)
      (idle : r.session.stage = .idle) (dialing : r.session.dial.isSome) :
      Step x ((x.change c fun w => w.join a.party arrived.size).turned a r now random
        (.dialed (.ok ⟨⟨c, .dialer⟩, theirs, surplus⟩)))
  /-- Bytes arrive on the live connection. -/
  | receive (a : Actor) (r : Run) (runs : x.run a = some r) (link : Link) (bytes : ByteArray)
      (now : Nat) (random : Random.Stream) (held : r.session.link = some link)
      (idle : r.session.stage = .idle)
      (offered : (x.passage link.endpoint.connection).Offers a.party bytes) :
      Step x ((x.change link.endpoint.connection fun w => w.take a.party bytes.size).turned a r
        now random (.received bytes))

/-- What the runs of two kernels can get to from the beginning. -/
def Reachable (x : Traffic) : Prop := ∃ peer, Relation.ReflTransGen Step { peer } x

/-- What is reachable stays so after one more step. -/
theorem Reachable.tail {x y : Traffic} (reachable : Reachable x) (step : Step x y) :
    Reachable y := by
  obtain ⟨peer, steps⟩ := reachable
  exact ⟨peer, .tail steps step⟩

end Traffic

end Courier
