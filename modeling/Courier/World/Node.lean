import Courier.Application
import Courier.Handshake
import Courier.Kernel

/-!
# Nodes

A node runs a kernel and its application on a network. Besides the kernel it holds
what is under way: greetings on connections that arrived, attempts to connect, the
writers of live connections, and messages that the application is at work on.

All times are milliseconds on the clock of the node, which starts with the node.
-/

namespace Courier

/-- How far the greetings on an accepted connection have come: the greeting of the
peer is read, then the own greeting is written. -/
inductive Welcome where
  | reading (buffer : ByteArray)
  | answering (hello : Hello) (surplus : ByteArray) (frame : ByteArray) (written : Nat)

/-- An accepted connection on which greetings are exchanged. -/
structure Arrival where
  endpoint : Endpoint
  due : Nat
  welcome : Welcome

/-- How far the greetings on a dialed connection have come. -/
inductive Introduction where
  | greeting (frame : ByteArray) (written : Nat)
  | reading (buffer : ByteArray)

/-- A dialed connection on which greetings are exchanged. -/
structure Approach where
  endpoint : Endpoint
  due : Nat
  introduction : Introduction

/-- An attempt to connect: the candidates not tried yet, the one being tried, and the
last failure. -/
structure Dialing where
  peer : PeerId
  hello : Hello
  remaining : List Address
  approach : Option Approach := none
  failure : LinkError := .noAddresses
  outcome : Option (Except LinkError Greeted) := none

/-- A frame that is being written. -/
structure Writing where
  frame : ByteArray
  written : Nat := 0
  due : Nat

/-- The writer of a live connection. -/
structure Writer where
  endpoint : Endpoint
  peer : PeerId
  queue : List (List UInt8) := []
  writing : Option Writing := none
  failed : Bool := false

/-- A message that the application is at work on. -/
structure Work where
  peer : PeerId
  due : Nat
  reaction : Reaction

/-- A kernel with its application and what is under way. -/
structure Node where
  number : Nat
  name : String
  epoch : Nat
  application : Application
  kernel : Kernel
  dropped : Bool := false
  arrivals : List Arrival := []
  dialings : List Dialing := []
  writers : List Writer := []
  works : List Work := []
  reports : Array Report := #[]

namespace Node

/-- Keep a report. -/
def report (n : Node) (r : Report) : Node := { n with reports := n.reports.push r }

/-- Send letters one after another on behalf of the application. -/
def sendAll (now : Nat) (n : Node) (sendings : List Sending) : Node :=
  sendings.foldl (fun n sending =>
    let (result, kernel) := n.kernel.send sending.peer sending.letter now
    ({ n with kernel } : Node).report (.sent sending.peer result)) n

/-- Tell the application something about a peer. -/
def tell (now : Nat) (peer : PeerId) (n : Node) : Upcall → Node
  | .message payload =>
    let reaction := n.application.onMessage peer payload
    ({ n with works := n.works ++ [⟨peer, now + reaction.delay, reaction⟩] } : Node).report
      (.message peer payload)
  | .settled promise result =>
    (n.report (.settled promise result)).sendAll now (n.application.onSettled promise)
  | .gaveUp => (n.report (.gaveUp peer)).sendAll now (n.application.onGiveUp peer)
  | .restarted incarnation => n.report (.restarted peer incarnation)

/-- Let go of the connection of an attempt to connect. -/
def hangUpDialing (d : Dialing) (network : Network) : Network :=
  match d.approach, d.outcome with
  | some approach, _ => network.hangUp approach.endpoint
  | none, some (.ok greeted) => network.hangUp greeted.endpoint
  | none, _ => network

/-- Drop the attempt to connect to a peer. -/
def dropDialing (peer : PeerId) (n : Node) (network : Network) : Node × Network :=
  ({ n with dialings := n.dialings.filter fun d => d.peer ≠ peer },
    (n.dialings.filter fun d => d.peer = peer).foldl (fun network d => hangUpDialing d network)
      network)

/-- Do what a session asks for. -/
def perform (now : Nat) (peer : PeerId) (n : Node) (network : Network) :
    Effect → Node × Network
  | .dial dial =>
    let (n, network) := n.dropDialing peer network
    ({ n with
        dialings := n.dialings ++ [{ peer, hello := dial.hello, remaining := dial.candidates }] },
      network)
  | .cancelDial => n.dropDialing peer network
  | .opened endpoint => ({ n with writers := n.writers ++ [{ endpoint, peer }] }, network)
  | .write endpoint dispatches =>
    ({ n with
        writers := n.writers.map fun w =>
          if w.endpoint = endpoint then { w with queue := w.queue ++ dispatches.map (·.frame) }
          else w },
      network)
  | .hangUp endpoint =>
    ({ n with writers := n.writers.filter fun w => w.endpoint ≠ endpoint },
      network.hangUp endpoint)
  | .tell upcall => (n.tell now peer upcall, network)

/-- Do all that a session asks for, in order. -/
def performAll (now : Nat) (peer : PeerId) (n : Node) (network : Network)
    (effects : List Effect) : Node × Network :=
  effects.foldl (fun (n, network) effect => n.perform now peer network effect) (n, network)

/-- Let the session of a peer take up an event. -/
def turn (now : Nat) (peer : PeerId) (n : Node) (network : Network) (event : Event) :
    Node × Network :=
  let (kernel, effects) := n.kernel.turn peer now event
  { n with kernel }.performAll now peer network effects

/-- End the session of a peer at once, whatever it is in the middle of. -/
def abort (now : Nat) (peer : PeerId) (n : Node) (network : Network) : Node × Network :=
  let (kernel, effects) := n.kernel.abort peer
  { n with kernel, works := n.works.filter fun work => work.peer ≠ peer }.performAll now peer
    network effects

/-- Let go of all connections on which greetings are exchanged. -/
def dismiss (n : Node) (network : Network) : Node × Network :=
  ({ n with arrivals := [] }, n.arrivals.foldl (fun network a => network.hangUp a.endpoint) network)

/-- Whether all sessions have ended. -/
def idle (n : Node) : Bool := n.kernel.sessions.all fun entry => entry.2.stage = .ended

/-- The times at which something is due. -/
def dues (n : Node) : List Nat :=
  n.arrivals.map (·.due) ++
  n.dialings.filterMap (fun d => d.approach.map (·.due)) ++
  n.writers.filterMap (fun w => w.writing.map (·.due)) ++
  n.works.map (·.due) ++
  n.kernel.sessions.flatMap fun entry => entry.2.backoffDue.toList ++ entry.2.ackDue.toList

end Node

end Courier
