import Courier.World.Activity

/-!
# Worlds

A world is a network with nodes on it, and a clock that counts milliseconds. Nodes
are known by name; a new node takes the place of an older one of the same name, which
is dropped and comes to its end.

The network is the one in memory. The sockets of a host, its running clock and its own
source of randomness are no part of a world: addresses of a host are judged, and what
answers behind them is left open; time passes in any amounts; and each node has a random
stream of its own. Numbers of messages and counters are natural numbers, which do not come
to an end.
-/

namespace Courier

/-- Nodes on a network, and the time. -/
structure World where
  now : Nat := 0
  network : Network := {}
  nodes : List Node := []
  made : Nat := 0

namespace World

/-- The node of a name. -/
def node? (w : World) (name : String) : Option Node :=
  w.nodes.find? fun n => n.name = name ∧ ¬ n.dropped

/-- Put a node in its place. -/
def set (w : World) (n : Node) : World :=
  { w with nodes := w.nodes.map fun other => if other.number = n.number then n else other }

/-- The time on the clock of a node. -/
def clock (w : World) (n : Node) : Nat := w.now - n.epoch

/-- Take a step of an activity of a node, if one is possible. -/
def step? (w : World) (number : Nat) (activity : Activity) : Option World :=
  match w.nodes.find? fun n => n.number = number with
  | none => none
  | some n =>
    (n.step? (w.clock n) w.network activity).map fun (n, network) => { w.set n with network }

/-- Change the node of a number. -/
def change (w : World) (number : Nat) (act : Node → Network → Nat → Node × Network) :
    World :=
  match w.nodes.find? fun n => n.number = number with
  | none => w
  | some n =>
    let (n, network) := act n w.network (w.clock n)
    { w.set n with network }

/-- Close the listeners of a node, and dismiss whoever arrived. -/
def withdraw (w : World) (number : Nat) : World :=
  w.change number fun n network _ =>
    let (kernel, network) := n.kernel.beginStop network
    ({ n with kernel } : Node).dismiss network

/-- Drop a node without waiting for its end: it withdraws, and its sessions are told to
end. -/
def release (w : World) (number : Nat) : World :=
  (w.withdraw number).change number fun n network _ =>
    ({ n with
      dropped := true
      kernel := { n.kernel with
        sessions := n.kernel.sessions.map fun entry => (entry.1, entry.2.push .shutdown) } },
      network)

/-- Set up a node with a kernel that is not active yet. -/
def add (w : World) (name : String) (application : Application) (seed : UInt64) : World :=
  let number := w.made + 1
  let n : Node :=
    { number, name, epoch := w.now, application, kernel := { random := .ofSeed seed } }
  { w with nodes := w.nodes ++ [n], made := number }

/-- Make the kernel of a node active. -/
def start (w : World) (n : Node) (seed : List UInt8) (options : Options) :
    Except CommsError Unit × World :=
  let (result, kernel, network) := n.kernel.start w.network seed options
  (result, { w.set { n with kernel } with network })

/-- Call the kernel of a node. -/
def call {α : Type} (w : World) (n : Node) (act : Kernel → Nat → α × Kernel) : α × World :=
  let (result, kernel) := act n.kernel (w.clock n)
  (result, w.set { n with kernel })

/-- The nodes that were not dropped. -/
def alive (w : World) : List Node := w.nodes.filter fun n => !n.dropped

/-- Forget the reports so far. -/
def forgetReports (w : World) : World :=
  { w with nodes := w.nodes.map fun n => { n with reports := #[] } }

end World

end Courier
