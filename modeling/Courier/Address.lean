import Courier.PeerId
import Courier.Text.Search

/-!
# Peer addresses

An address is a path of components such as `/ip4/10.0.0.5/tcp/4001/p2p/<peer>`. What
it contains decides the transport; a relayed address also holds the relay's own
transport, so the circuit marker is looked for first. A trailing `/p2p/<peer>`
component names the peer and is no part of the transport address.
-/

namespace Courier

/-- The transports an address can name. -/
inductive Transport where
  | relay
  | quic
  | tcp
  | memory
  deriving DecidableEq, Inhabited

namespace Transport

/-- The name of a transport. -/
def name : Transport → String
  | relay => "relay"
  | quic => "quic"
  | tcp => "tcp"
  | memory => "memory"

/-- All transports. -/
def all : List Transport := [relay, quic, tcp, memory]

/-- The transport that a text names as an address, if it names one. -/
def classify (text : String) : Option Transport :=
  let path := text.toList
  if Text.occurs "/p2p-circuit".toList path then some relay
  else if Text.occurs "/quic-v1".toList path then some quic
  else if Text.occurs "/tcp/".toList path then some tcp
  else if "/memory/".toList.isPrefixOf path then some memory
  else none

end Transport

/-- A text with the transport it names. -/
structure Address where
  text : String
  kind : Transport
  classified : Transport.classify text = some kind
  deriving DecidableEq

namespace Address

/-- The component that introduces a peer id. -/
def peerMarker : List Char := "/p2p/".toList

/-- Read an address; texts that name no transport are refused. -/
def parse (text : String) : Option Address :=
  match classified : Transport.classify text with
  | some kind => some ⟨text, kind, classified⟩
  | none => none

/-- The path without a trailing peer component. A peer marker in front of further
components, as in a circuit, stays. -/
def transportPath (text : List Char) : List Char :=
  match Text.splitLast? peerMarker text with
  | some (front, back) => if back.contains '/' then text else front
  | none => text

/-- The address without a trailing peer component. -/
def transportPart (a : Address) : String := String.ofList (transportPath a.text.toList)

/-- The peer named by a trailing peer component. -/
def peerSuffix (a : Address) : Option String :=
  match Text.splitLast? peerMarker a.text.toList with
  | some (_, back) =>
    if back.isEmpty || back.contains '/' then none else some (String.ofList back)
  | none => none

/-- The number of a socket at its host: decimal digits with at most one plus sign in
front, below `2 ^ 16`. -/
def socketNumber? (text : List Char) : Option Nat :=
  let digits := match text with
    | '+' :: rest => rest
    | other => other
  if digits.isEmpty || !digits.all Char.isDigit then none
  else
    let value := digits.foldl (fun n c => 10 * n + (c.toNat - 48)) 0
    if value < 65536 then some value else none

/-- The `host:number` form of an address that names a host and a socket there. -/
def socketAddress (a : Address) : Option String :=
  match Text.fields '/' (transportPath a.text.toList) with
  | proto :: host :: marker :: number :: _ =>
    if marker ≠ "tcp".toList then none
    else
      match socketNumber? number with
      | none => none
      | some number =>
        let host := String.ofList host
        if proto = "ip6".toList then some ("[" ++ host ++ "]:" ++ toString number)
        else if ["ip4", "dns", "dns4", "dns6"].contains (String.ofList proto) then
          some (host ++ ":" ++ toString number)
        else none
  | _ => none

/-- An address that is written as a text is read back from it. -/
theorem parse_text (a : Address) : parse a.text = some a := by
  unfold parse
  split
  · next kind classified =>
    have same : kind = a.kind := Option.some.inj (classified.symm.trans a.classified)
    subst same
    rfl
  · next refused => rw [a.classified] at refused; cases refused

/-- A text is an address exactly when it names a transport. -/
theorem parse_isSome (text : String) :
    (parse text).isSome = (Transport.classify text).isSome := by
  unfold parse
  split
  · next kind classified => simp [classified]
  · next refused => simp [refused]

end Address

/-- The classes of failure of listening and dialing. -/
inductive NetworkFault where
  | invalidInput
  | addressInUse
  | connectionRefused
  | unsupported
  | brokenPipe
  deriving DecidableEq

/-- A failure of the network with its wording. -/
structure NetworkError where
  fault : NetworkFault
  message : String
  deriving DecidableEq

namespace Address

/-- The refusal of an address whose transport is not at hand. -/
def unavailable (a : Address) : NetworkError :=
  ⟨.unsupported, a.kind.name ++ " transport not available: " ++ a.text⟩

/-- The socket address of a host to listen on, or why the text is none. -/
def hostListen (text : String) : Except NetworkError String :=
  match parse text with
  | some a =>
    if a.kind ≠ .tcp then .error ⟨.invalidInput, "not a TCP listen address: " ++ text⟩
    else
      match a.socketAddress with
      | some socket => .ok socket
      | none => .error ⟨.invalidInput, "malformed TCP address: " ++ text⟩
  | none => .error ⟨.invalidInput, "not a TCP listen address: " ++ text⟩

/-- The socket address of a host to dial, or why the address names none. -/
def hostDial (a : Address) : Except NetworkError String :=
  if a.kind ≠ .tcp then .error a.unavailable
  else
    match a.socketAddress with
    | some socket => .ok socket
    | none => .error ⟨.invalidInput, "malformed TCP address: " ++ a.text⟩

end Address

end Courier
