import Courier.World.Node

/-!
# What goes on at a node

Everything that a node does by itself is one of a few activities, each of which goes
on in small steps: a listener takes up a connection, greetings are read or written,
an attempt to connect moves on, a session takes up an event, a writer writes. A step
is possible or not in a given state; where time decides, it is possible once the time
has come. In which order the activities take their steps is not settled here, and
neither is which of several events an idle session takes up first.
-/

namespace Courier

/-- What the session of a peer may take up. -/
inductive Occasion where
  /-- The session goes on with what it is in the middle of. -/
  | onward
  /-- The attempt to connect came to its end. -/
  | dialed
  /-- A command is there. -/
  | command
  /-- The session was woken up. -/
  | wake
  /-- The wait between two attempts is over. -/
  | backoff
  /-- An acknowledgement is due. -/
  | ack
  /-- The connection has bytes to read, or has ended. -/
  | reading
  /-- The writer of the connection failed. -/
  | failure
  deriving DecidableEq

/-- What may take a step at a node. -/
inductive Activity where
  /-- A listener takes up a connection. -/
  | accept (listener : Nat)
  /-- Greetings are exchanged on an accepted connection. -/
  | welcome (endpoint : Endpoint)
  /-- An attempt to connect moves on. -/
  | dialing (peer : PeerId)
  /-- A session takes up an event. -/
  | session (peer : PeerId) (occasion : Occasion)
  /-- A writer writes. -/
  | writer (endpoint : Endpoint)
  deriving DecidableEq

namespace Node

/-- The time allowed to an exchange of greetings that begins now. -/
def dialDue (now : Nat) (n : Node) : Nat :=
  now + (n.kernel.host?.map (·.options.dialTimeout.ticks)).getD 0

/-- Take up a connection. -/
def accept? (now : Nat) (listener : Nat) (n : Node) (network : Network) :
    Option (Node × Network) :=
  (network.accept? listener).map fun (arrival, network) =>
    let arrived : Arrival := ⟨arrival.1, n.dialDue now, .reading .empty⟩
    ({ n with arrivals := n.arrivals ++ [arrived] }, network)

/-- Turn away whoever arrived at an end. -/
def turnAway (endpoint : Endpoint) (n : Node) (network : Network) : Node × Network :=
  ({ n with arrivals := n.arrivals.filter fun a => a.endpoint ≠ endpoint },
    network.hangUp endpoint)

/-- Replace what is known of an arrival. -/
def setArrival (arrival : Arrival) (n : Node) : Node :=
  { n with
    arrivals := n.arrivals.map fun a => if a.endpoint = arrival.endpoint then arrival else a }

/-- Exchange greetings on an accepted connection: read the greeting of the peer,
decide, write the own greeting in the same time again, and hand the connection to the
session of the peer. -/
def welcome? (now : Nat) (endpoint : Endpoint) (n : Node) (network : Network) :
    Option (Node × Network) :=
  match n.arrivals.find? fun a => a.endpoint = endpoint with
  | none => none
  | some a =>
    match a.welcome with
    | .reading buffer =>
      match Handshake.take? buffer with
      | .error _ => some (n.turnAway endpoint network)
      | .ok none =>
        match network.read endpoint Handshake.chunk with
        | (.bytes bytes, network) =>
          some (n.setArrival { a with welcome := .reading (buffer ++ bytes) }, network)
        | (.ended, network) => some (n.turnAway endpoint network)
        | (.nothing, network) =>
          if a.due ≤ now then some (n.turnAway endpoint network) else none
      | .ok (some (hello, surplus)) =>
        match n.kernel.admitPeer hello.peer with
        | (.error _, kernel) => some (({ n with kernel } : Node).turnAway endpoint network)
        | (.ok own, kernel) =>
          let n := { n with kernel }
          match Handshake.frame own with
          | .error _ => some (n.turnAway endpoint network)
          | .ok frame =>
            some (n.setArrival
              ⟨endpoint, n.dialDue now, .answering hello surplus frame.toByteArray 0⟩, network)
    | .answering hello surplus frame written =>
      if frame.size ≤ written then
        match n.kernel.attach? ⟨endpoint, hello, surplus⟩ with
        | none => some (n.turnAway endpoint network)
        | some kernel =>
          some ({ n with
            kernel, arrivals := n.arrivals.filter fun a => a.endpoint ≠ endpoint }, network)
      else
        match network.write? endpoint frame written with
        | none => some (n.turnAway endpoint network)
        | some (0, network) =>
          if a.due ≤ now then some (n.turnAway endpoint network) else none
        | some (count, network) =>
          some (n.setArrival
            { a with welcome := .answering hello surplus frame (written + count) }, network)

/-- Replace what is known of an attempt to connect. -/
def setDialing (dialing : Dialing) (n : Node) : Node :=
  { n with dialings := n.dialings.map fun d => if d.peer = dialing.peer then dialing else d }

/-- Give up the candidate that is being tried. -/
def passOver (failure : LinkError) (d : Dialing) (n : Node) (network : Network) :
    Node × Network :=
  (n.setDialing { d with approach := none, failure },
    match d.approach with
    | none => network
    | some approach => network.hangUp approach.endpoint)

/-- Move an attempt to connect on. The candidates are tried in order, each in its own
time: write the own greeting, read one back, and see that it comes from the peer that
was dialed. When all candidates failed, the last failure is the outcome. -/
def dialing? (now : Nat) (peer : PeerId) (n : Node) (network : Network) :
    Option (Node × Network) :=
  match n.dialings.find? fun d => d.peer = peer with
  | none => none
  | some d =>
    match d.outcome, d.approach with
    | some _, _ => none
    | none, none =>
      match d.remaining with
      | [] => some (n.setDialing { d with outcome := some (.error d.failure) }, network)
      | address :: remaining =>
        match network.dial address with
        | (.error error, network) =>
          some (n.setDialing { d with remaining, failure := .network error.message }, network)
        | (.ok endpoint, network) =>
          match Handshake.frame d.hello with
          | .error error =>
            some (n.setDialing { d with remaining, failure := .wire error },
              network.hangUp endpoint)
          | .ok frame =>
            let approach : Approach := ⟨endpoint, n.dialDue now, .greeting frame.toByteArray 0⟩
            some (n.setDialing { d with remaining, approach := some approach }, network)
    | none, some approach =>
      match approach.introduction with
      | .greeting frame written =>
        if frame.size ≤ written then
          some (n.setDialing
            { d with approach := some { approach with introduction := .reading .empty } }, network)
        else
          match network.write? approach.endpoint frame written with
          | none => some (n.passOver (.network "broken pipe") d network)
          | some (0, network) =>
            if approach.due ≤ now then some (n.passOver .dialTimeout d network) else none
          | some (count, network) =>
            some (n.setDialing
              { d with
                approach := some
                  { approach with introduction := .greeting frame (written + count) } }, network)
      | .reading buffer =>
        match Handshake.take? buffer with
        | .error error => some (n.passOver error d network)
        | .ok none =>
          match network.read approach.endpoint Handshake.chunk with
          | (.bytes bytes, network) =>
            some (n.setDialing
              { d with
                approach := some { approach with introduction := .reading (buffer ++ bytes) } },
              network)
          | (.ended, network) => some (n.passOver .connectionLost d network)
          | (.nothing, network) =>
            if approach.due ≤ now then some (n.passOver .dialTimeout d network) else none
        | .ok (some (hello, surplus)) =>
          match Handshake.mismatch? peer hello with
          | some error => some (n.passOver error d network)
          | none =>
            let greeted : Greeted := ⟨approach.endpoint, hello, surplus⟩
            some (n.setDialing { d with approach := none, outcome := some (.ok greeted) }, network)

/-- The outcome of the attempt to connect to a peer, once it is there. -/
def outcome? (peer : PeerId) (n : Node) : Option (Except LinkError Greeted) :=
  (n.dialings.find? fun d => d.peer = peer).bind (·.outcome)

/-- Let the session of a peer take up bytes from its connection, or the end of it. -/
def listen? (now : Nat) (peer : PeerId) (link : Link) (n : Node) (network : Network) :
    Option (Node × Network) :=
  match network.read link.endpoint Handshake.chunk with
  | (.bytes bytes, network) => some (n.turn now peer network (.received bytes))
  | (.ended, network) => some (n.turn now peer network .lost)
  | (.nothing, _) => none

/-- Whether the writer of a connection failed. -/
def writerFailed (n : Node) (link : Link) : Bool :=
  n.writers.any fun w => w.endpoint = link.endpoint ∧ w.failed

/-- Let the session of a peer take up what an occasion brings. -/
def session? (now : Nat) (peer : PeerId) (occasion : Occasion) (n : Node) (network : Network) :
    Option (Node × Network) :=
  let passed (due : Option Nat) : Bool := due.any (· ≤ now)
  let take (event : Event) : Node × Network := n.turn now peer network event
  match n.kernel.session? peer with
  | none => none
  | some s =>
    match s.stage, occasion with
    | .greeting, .onward | .reading, .onward => some (take .proceed)
    | .handling _, .onward =>
      match n.works.find? fun work => work.peer = peer with
      | none => none
      | some work =>
        if work.due ≤ now then
          let n := { n with works := n.works.filter fun work => work.peer ≠ peer }
          some ((n.sendAll now work.reaction.sendings).turn now peer network
            (.replied work.reaction.reply))
        else none
    | .idle, .dialed =>
      (n.outcome? peer).map fun outcome =>
        let n := { n with dialings := n.dialings.filter fun d => d.peer ≠ peer }
        n.turn now peer network (.dialed outcome)
    | .idle, .command => if s.commands.isEmpty then none else some (take .command)
    | .idle, .wake => if s.woken then some (take .wake) else none
    | .idle, .backoff => if passed s.backoffDue then some (take .backoffElapsed) else none
    | .idle, .ack => if passed s.ackDue then some (take .ackElapsed) else none
    | .idle, .reading => s.link.bind fun link => n.listen? now peer link network
    | .idle, .failure => if s.link.any n.writerFailed then some (take .lost) else none
    | _, _ => none

/-- Replace what is known of a writer. -/
def setWriter (writer : Writer) (n : Node) : Node :=
  { n with writers := n.writers.map fun w => if w.endpoint = writer.endpoint then writer else w }

/-- Write on a live connection. Each frame has its own time; a frame counts once it is
written completely. -/
def writer? (now : Nat) (endpoint : Endpoint) (n : Node) (network : Network) :
    Option (Node × Network) :=
  match n.writers.find? fun w => w.endpoint = endpoint with
  | none => none
  | some w =>
    if w.failed then none
    else
      match w.writing with
      | none =>
        match w.queue with
        | [] => none
        | frame :: queue =>
          let due := now + (n.kernel.host?.map (·.options.writeTimeout.ticks)).getD 0
          let writing : Writing := { frame := frame.toByteArray, due }
          some (n.setWriter { w with queue, writing := some writing }, network)
      | some writing =>
        if writing.frame.size ≤ writing.written then
          let kernel := n.kernel.noteWritten w.peer writing.frame.size
          some (({ n with kernel } : Node).setWriter { w with writing := none }, network)
        else
          match network.write? endpoint writing.frame writing.written with
          | none => some (n.setWriter { w with failed := true }, network)
          | some (0, network) =>
            if writing.due ≤ now then some (n.setWriter { w with failed := true }, network)
            else none
          | some (count, network) =>
            some (n.setWriter
              { w with writing := some { writing with written := writing.written + count } },
              network)

/-- Take a step of an activity, if one is possible. -/
def step? (now : Nat) (n : Node) (network : Network) : Activity → Option (Node × Network)
  | .accept listener => n.accept? now listener network
  | .welcome endpoint => n.welcome? now endpoint network
  | .dialing peer => n.dialing? now peer network
  | .session peer occasion => n.session? now peer occasion network
  | .writer endpoint => n.writer? now endpoint network

end Node

end Courier
