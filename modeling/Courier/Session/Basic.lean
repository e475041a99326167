import Courier.Host
import Courier.TieBreak

/-!
# Sessions

The session of a peer looks after the connection to it: the live connection, the
attempt to connect that is under way, and two timers. Calls of the application change
the ledger at once; what they ask of the connection is left to the session as a
command, which it takes up in turn, and a wake-up says that something was queued. A
second wake-up before the first is taken up adds nothing.

Times are milliseconds on the clock of the kernel. A timer is the time at which it is
due.
-/

namespace Courier

/-- A connection on which both greetings were exchanged. `surplus` holds what arrived
behind the greeting of the peer. -/
structure Greeted where
  endpoint : Endpoint
  hello : Hello
  surplus : ByteArray

/-- What a session is told to do. -/
inductive Command where
  | attach (greeted : Greeted)
  | reconnect
  | close
  | resetBackoff
  | shutdown

/-- The live connection, with the bytes that wait to be read as frames. -/
structure Link where
  endpoint : Endpoint
  incarnation : Incarnation
  buffer : ByteArray

/-- An attempt to connect: where to try, and the greeting, which is settled when the
attempt begins. -/
structure Dial where
  candidates : List Address
  hello : Hello
  deriving DecidableEq

/-- What a session is in the middle of. -/
inductive Stage where
  /-- Nothing, so that it takes up what comes next. -/
  | idle
  /-- A connection was adopted, and the outbox is written next. -/
  | greeting
  /-- Complete frames may be waiting in the buffer of the connection. -/
  | reading
  /-- The application is at work on a message; `replyTo` is the binding it named. -/
  | handling (replyTo : Option Nat)
  /-- The session is over. -/
  | ended
  deriving DecidableEq

/-- The session of one peer. -/
structure Session where
  ledger : Ledger
  link : Option Link := none
  dial : Option Dial := none
  backoffDue : Option Nat := none
  ackDue : Option Nat := none
  commands : List Command := []
  woken : Bool := false
  stage : Stage := .idle

namespace Session

/-- The session of a peer not heard of before. -/
def fresh (peer : PeerId) (options : Options) : Session := { ledger := .fresh peer options }

/-- Leave a command for the session. A session that is over takes none. -/
def push (s : Session) (command : Command) : Session :=
  if s.stage = .ended then s else { s with commands := s.commands ++ [command] }

/-- Wake the session up. -/
def wake (s : Session) : Session := { s with woken := true }

/-- Queue a letter, unless the peer was closed on purpose or the outbox refuses. -/
def post (s : Session) (letter : Letter) (now : Duration) : Except CommsError Session :=
  if s.ledger.phase = .intentionallyClosed then .error (.closedOnPurpose s.ledger.peer)
  else
    match s.ledger.enqueueLetter letter now with
    | .error full => .error (.queueAtCapacity s.ledger.peer full.capacity)
    | .ok ledger => .ok { s with ledger }.wake

/-- Take in location hints, and count the addresses among them. -/
def addHints (s : Session) (hints : List String) : Nat × Session :=
  let (accepted, ledger) := s.ledger.addHints hints
  (accepted, { s with ledger })

/-- Ask for a new connection with a fresh count of attempts. -/
def reconnect (s : Session) (hints : List String) : Session :=
  let ledger := { (s.ledger.addHints hints).2 with attempt := 0 }
  { s with ledger := ledger.moveIfAllowed .connecting }.push .reconnect

/-- Close the connection on purpose. -/
def close (s : Session) : Session :=
  { s with ledger := s.ledger.moveIfAllowed .intentionallyClosed }.push .close

/-- Start the count of attempts afresh and cut a wait short. -/
def resetBackoff (s : Session) : Session :=
  { s with ledger := { s.ledger with attempt := 0 } }.push .resetBackoff

end Session

end Courier
