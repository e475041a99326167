import Courier.Address
import Courier.Endpoint
import Courier.Network.Pipe

/-!
# A network in memory

Listeners are bound to addresses of the memory transport, one to each address. A dial
to a bound address makes a connection at once and leaves its accepting end with the
listener, which takes it up when it gets to it. A connection is a pair of pipes.

An address is bound as long as its listener lives: closing the listener frees it and
hangs up the connections that were never taken up.
-/

namespace Courier

/-- Two pipes between two ends. -/
structure Connection where
  fromDialer : Pipe := {}
  fromAcceptor : Pipe := {}

/-- A listener, with the connections that wait for it and where they came from. -/
structure Listener where
  key : String
  number : Nat
  waiting : List (Endpoint × String) := []

/-- All listeners and connections. Listeners and dials are counted; the number of a
dial is the number of its connection and names where it came from. -/
structure Network where
  listeners : List Listener := []
  listenersMade : Nat := 0
  dialsMade : Nat := 0
  connections : List (Nat × Connection) := []

namespace Connection

/-- The pipe that an end writes to. -/
def outward (c : Connection) : Side → Pipe
  | .dialer => c.fromDialer
  | .acceptor => c.fromAcceptor

/-- The pipe that an end reads from. -/
def inward (c : Connection) (side : Side) : Pipe := c.outward side.other

/-- Replace the pipe that an end writes to. -/
def setOutward (c : Connection) (pipe : Pipe) : Side → Connection
  | .dialer => { c with fromDialer := pipe }
  | .acceptor => { c with fromAcceptor := pipe }

/-- Replace the pipe that an end reads from. -/
def setInward (c : Connection) (pipe : Pipe) (side : Side) : Connection :=
  c.setOutward pipe side.other

end Connection

namespace Network

/-- The address under which a listener on a text is bound. -/
def keyOf (text : String) : String := ((Address.parse text).map Address.transportPart).getD text

/-- The listener bound to an address. -/
def listener? (n : Network) (key : String) : Option Listener :=
  n.listeners.find? fun listener => listener.key = key

/-- Whether a listener is bound to the address that a text names. -/
def isBound (n : Network) (text : String) : Bool := (n.listener? (keyOf text)).isSome

/-- Bind a listener, and tell its number and the address it is bound to. -/
def listen (n : Network) (text : String) : Except NetworkError (Nat × String × Network) :=
  if Transport.classify text ≠ some .memory then
    .error ⟨.invalidInput, "not a memory address: " ++ text⟩
  else
    let key := keyOf text
    if (n.listener? key).isSome then .error ⟨.addressInUse, "address already bound: " ++ key⟩
    else
      let number := n.listenersMade + 1
      .ok (number, key,
        { n with listeners := n.listeners ++ [{ key, number }], listenersMade := number })

/-- Open a connection to an address, and hand out its dialing end. -/
def dial (n : Network) (a : Address) : Except NetworkError Endpoint × Network :=
  if a.kind ≠ .memory then (.error a.unavailable, n)
  else
    let number := n.dialsMade + 1
    let n := { n with dialsMade := number }
    let key := a.transportPart
    if (n.listener? key).isSome then
      let arrival := (⟨number, .acceptor⟩, "/memory/client-" ++ toString number)
      (.ok ⟨number, .dialer⟩,
        { n with
          listeners := n.listeners.map fun listener =>
            if listener.key = key then { listener with waiting := listener.waiting ++ [arrival] }
            else listener
          connections := (number, {}) :: n.connections })
    else (.error ⟨.connectionRefused, "no listener at " ++ key⟩, n)

/-- Take up the connection that has waited longest for a listener. -/
def accept? (n : Network) (number : Nat) : Option ((Endpoint × String) × Network) :=
  match n.listeners.find? fun listener => listener.number = number with
  | some { waiting := arrival :: rest, .. } =>
    some (arrival,
      { n with
        listeners := n.listeners.map fun listener =>
          if listener.number = number then { listener with waiting := rest } else listener })
  | _ => none

/-- The connection with a number. -/
def connection? (n : Network) (number : Nat) : Option Connection :=
  (n.connections.find? fun entry => entry.1 = number).map (·.2)

/-- Change the connection with a number. -/
def change (n : Network) (number : Nat) (change : Connection → Connection) : Network :=
  { n with
    connections := n.connections.map fun entry =>
      if entry.1 = number then (entry.1, change entry.2) else entry }

/-- Write as much as fits at an end, and tell how much that was; nothing can be written
to a connection that is closed in this direction. -/
def write? (n : Network) (e : Endpoint) (bytes : ByteArray) (start : Nat) :
    Option (Nat × Network) :=
  (n.connection? e.connection).bind fun c =>
    ((c.outward e.side).write? bytes start).map fun (count, pipe) =>
      (count, n.change e.connection fun c => c.setOutward pipe e.side)

/-- Read at most so many bytes at an end. -/
def read (n : Network) (e : Endpoint) (limit : Nat) : Reading × Network :=
  match n.connection? e.connection with
  | none => (.ended, n)
  | some c =>
    let (reading, pipe) := (c.inward e.side).read limit
    (reading, n.change e.connection fun c => c.setInward pipe e.side)

/-- Write nothing more at an end. -/
def shutdown (n : Network) (e : Endpoint) : Network :=
  n.change e.connection fun c => c.setOutward (c.outward e.side).close e.side

/-- Let go of an end: both directions are closed. -/
def hangUp (n : Network) (e : Endpoint) : Network :=
  n.change e.connection fun c => ⟨c.fromDialer.close, c.fromAcceptor.close⟩

/-- Close a listener. -/
def unlisten (n : Network) (number : Nat) : Network :=
  match n.listeners.find? fun listener => listener.number = number with
  | none => n
  | some listener =>
    listener.waiting.foldl (fun n arrival => n.hangUp arrival.1)
      { n with listeners := n.listeners.filter fun other => other.number ≠ number }

end Network

end Courier
