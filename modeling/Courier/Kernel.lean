import Courier.Network.Memory
import Courier.Session.Turn

/-!
# Kernels

A kernel takes part in the exchange of messages while it is active: it listens on its
addresses, and it has a session for every peer that it has sent to, was told about or
was greeted by. Each call of the application either succeeds or names why it fails.

A kernel that was stopped may become active again, as a new incarnation. While it is
stopping it answers all calls like a stopped one, and its sessions come to their end.
-/

namespace Courier

/-- What an active kernel keeps: its identity, its listeners, and the addresses under
which it can be reached. -/
structure Service where
  host : Host
  listeners : List Nat
  addresses : List String

/-- The stages of a kernel. -/
inductive Status where
  | uninitialized
  | active (service : Service)
  | stopping (host : Host)
  | stopped

/-- A kernel with its sessions in the order in which they came about. -/
structure Kernel where
  status : Status := .uninitialized
  sessions : List (PeerId × Session) := []
  random : Random.Stream

namespace Kernel

/-- What the kernel keeps while it is active. -/
def service? (k : Kernel) : Option Service :=
  match k.status with
  | .active service => some service
  | _ => none

/-- The identity under which sessions take their turns. -/
def host? (k : Kernel) : Option Host :=
  match k.status with
  | .active service => some service.host
  | .stopping host => some host
  | _ => none

/-- The session of a peer. -/
def session? (k : Kernel) (peer : PeerId) : Option Session :=
  (k.sessions.find? fun entry => entry.1 = peer).map (·.2)

/-- Put the session of a peer in the place of its former one, or behind all others. -/
def put (k : Kernel) (peer : PeerId) (session : Session) : Kernel :=
  if (k.session? peer).isSome then
    { k with
      sessions := k.sessions.map fun entry =>
        if entry.1 = peer then (peer, session) else entry }
  else { k with sessions := k.sessions ++ [(peer, session)] }

/-- The session of a peer, a fresh one if there was none. -/
def ensure (k : Kernel) (host : Host) (peer : PeerId) : Session × Kernel :=
  match k.session? peer with
  | some session => (session, k)
  | none =>
    let session := Session.fresh peer host.options
    (session, k.put peer session)

/-- Do something with the session of a peer while the kernel is active. -/
def withSession {α : Type} (k : Kernel) (peer : PeerId)
    (act : Session → Except CommsError α × Session) : Except CommsError α × Kernel :=
  match k.service? with
  | none => (.error .notInitialized, k)
  | some service =>
    let (session, k) := k.ensure service.host peer
    let (result, session) := act session
    (result, k.put peer session)

/-- Bind listeners to addresses one after another, behind those that are bound already. When
an address cannot be bound, all of them are closed again. -/
def listenAll (n : Network) (bound : List (Nat × String)) :
    List String → Except CommsError (List (Nat × String)) × Network
  | [] => (.ok bound, n)
  | address :: rest =>
    match n.listen address with
    | .error error =>
      (.error (.listen address error.message),
        bound.foldl (fun n entry => n.unlisten entry.1) n)
    | .ok (number, key, n) => listenAll n (bound ++ [(number, key)]) rest

/-- The address of a peer behind the address of its kernel. -/
def advertised (bound : String) (id : PeerId) : String := bound ++ "/p2p/" ++ id.text

/-- Become active with the identity of a seed. The incarnation is drawn once options
and seed are found good; when an address cannot be bound, none is. -/
def start (k : Kernel) (n : Network) (seed : List UInt8) (options : Options) :
    Except CommsError Unit × Kernel × Network :=
  if k.service?.isSome then (.error .alreadyInitialized, k, n)
  else
    match options.validate with
    | .error error => (.error (.invalidOptions error.message), k, n)
    | .ok () =>
      match PeerId.ofSeed seed with
      | .error _ => (.error .invalidIdentitySeed, k, n)
      | .ok id =>
        let (incarnation, random) := Incarnation.draw k.random
        let k := { k with random }
        match listenAll n [] options.listenAddresses with
        | (.error error, n) => (.error error, k, n)
        | (.ok bound, n) =>
          let addresses := bound.map (fun entry => advertised entry.2 id) ++
            options.relays.map fun relay => Ledger.circuit relay id
          let service : Service := ⟨⟨id, incarnation, options⟩, bound.map (·.1), addresses⟩
          (.ok (), { k with status := .active service, sessions := [] }, n)

/-- Begin to stop: the listeners are closed, and the sessions are left to end. -/
def beginStop (k : Kernel) (n : Network) : Kernel × Network :=
  match k.status with
  | .active service =>
    ({ k with status := .stopping service.host }, service.listeners.foldl Network.unlisten n)
  | _ => (k, n)

/-- The end of stopping: all sessions are gone. -/
def finishStop (k : Kernel) : Kernel :=
  match k.status with
  | .stopping _ => { k with status := .stopped, sessions := [] }
  | _ => k

/-- Queue a letter for a peer and wake its session. -/
def send (k : Kernel) (peer : PeerId) (letter : Letter) (now : Nat) :
    Except CommsError Unit × Kernel :=
  if Frame.maxPayload < letter.payload.length then
    (.error (.messageTooLarge letter.payload.length Frame.maxPayload), k)
  else
    k.withSession peer fun session =>
      match session.post letter (.ofMillis now) with
      | .error error => (.error error, session)
      | .ok session => (.ok (), session)

/-- Take in location hints for a peer, and count the addresses among them. -/
def addHints (k : Kernel) (peer : PeerId) (hints : List String) :
    Except CommsError Nat × Kernel :=
  k.withSession peer fun session =>
    let (accepted, session) := session.addHints hints
    (.ok accepted, session)

/-- Connect to a peer anew, even one that was closed on purpose. -/
def reconnect (k : Kernel) (peer : PeerId) (hints : List String) :
    Except CommsError Unit × Kernel :=
  k.withSession peer fun session => (.ok (), session.reconnect hints)

/-- Close the connection to a peer on purpose. -/
def close (k : Kernel) (peer : PeerId) : Except CommsError Unit × Kernel :=
  k.withSession peer fun session => (.ok (), session.close)

/-- Start all counts of attempts afresh and cut all waits short. -/
def resetBackoffs (k : Kernel) : Except CommsError Unit × Kernel :=
  match k.service? with
  | none => (.error .notInitialized, k)
  | some _ =>
    (.ok (), { k with sessions := k.sessions.map fun entry => (entry.1, entry.2.resetBackoff) })

/-- What is known about a peer, as far as the kernel is active. -/
def ledger? (k : Kernel) (peer : PeerId) : Option Ledger :=
  match k.service? with
  | none => none
  | some _ => (k.session? peer).map (·.ledger)

/-- The id of the kernel, as far as it is active. -/
def id? (k : Kernel) : Option PeerId := k.service?.map (·.host.id)

/-- The addresses under which the kernel can be reached. -/
def addresses (k : Kernel) : List String := (k.service?.map (·.addresses)).getD []

/-- Decide on a peer that greeted, and on the greeting to answer with. The kernel does
not connect to itself or to a peer that was closed on purpose. -/
def admitPeer (k : Kernel) (peer : PeerId) : Except LinkError Hello × Kernel :=
  match k.service? with
  | none => (.error .connectionLost, k)
  | some service =>
    if peer = service.host.id then (.error (.handshakeFailure "connection from self"), k)
    else
      let (session, k) := k.ensure service.host peer
      if session.ledger.phase = .intentionallyClosed then
        (.error (.handshakeFailure ("peer " ++ peer.short ++ " is intentionally closed")), k)
      else (.ok (service.host.hello session.ledger), k)

/-- Hand a greeted connection to the session of its peer. -/
def attach? (k : Kernel) (greeted : Greeted) : Option Kernel :=
  match k.service? with
  | none => none
  | some _ =>
    (k.session? greeted.hello.peer).map fun session =>
      k.put greeted.hello.peer (session.push (.attach greeted))

/-- Leave a command for the session of a peer. -/
def command (k : Kernel) (peer : PeerId) (command : Command) : Kernel :=
  match k.session? peer with
  | none => k
  | some session => k.put peer (session.push command)

/-- Let the session of a peer take up an event, and tell what it asks for. -/
def turn (k : Kernel) (peer : PeerId) (now : Nat) (event : Event) : Kernel × List Effect :=
  match k.host?, k.session? peer with
  | some host, some session =>
    let t := Turn.handle host now ⟨session, k.random, []⟩ event
    ({ k with random := t.random }.put peer t.session, t.effects)
  | _, _ => (k, [])

/-- End the session of a peer at once. -/
def abort (k : Kernel) (peer : PeerId) : Kernel × List Effect :=
  match k.session? peer with
  | none => (k, [])
  | some session =>
    let t := Turn.release ⟨session, k.random, []⟩
    (k.put peer t.session, t.effects)

/-- A frame for the peer was written completely. -/
def noteWritten (k : Kernel) (peer : PeerId) (bytes : Nat) : Kernel :=
  match k.session? peer with
  | none => k
  | some session =>
    k.put peer { session with ledger := session.ledger.count fun tally => tally.wrote bytes }

end Kernel

end Courier
