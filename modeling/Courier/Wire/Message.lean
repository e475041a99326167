import Courier.Address
import Courier.Incarnation
import Courier.Json.Reader

/-!
# Messages between kernels

A connection opens with a greeting from either side. After that it carries parcels,
which are numbered and sent again until they are acknowledged, and bare
acknowledgements. Each message travels in an envelope that names its method and
carries the sequence number of the parcel and the highest number received from the
other side. Numbers have at most sixty-four bits, and payloads travel as hexadecimal
text.
-/

namespace Courier

/-- What each side says when a connection opens. The acknowledgement counts only for
the run of the other kernel that it names. -/
structure Hello where
  peer : PeerId
  incarnation : Incarnation
  ack : Nat
  acked : Option Incarnation
  deriving DecidableEq

/-- What is delivered reliably: a message of the application, which names the
sender's binding when a reply is expected, or the reply to such a message. -/
inductive Parcel where
  | message (payload : List UInt8) (replyTo : Option Nat)
  | reply (replyTo : Nat) (payload : List UInt8)
  deriving DecidableEq

/-- Whether a parcel is a reply. -/
def Parcel.isReply : Parcel → Bool
  | message _ _ => false
  | reply _ _ => true

/-- The content of an envelope with a known method. -/
inductive Body where
  | hello (hello : Hello)
  | parcel (parcel : Parcel)
  | ack
  deriving DecidableEq

/-- What a frame carries. Sequence number zero marks what is not numbered. -/
structure Envelope where
  seq : Nat
  ack : Nat
  method : String
  params : Json

/-- Why bytes are no message. -/
inductive WireError where
  | checksumMismatch (expected actual : UInt32)
  | frameTooLarge (size : Nat)
  | invalidLength (length : Nat)
  | malformed
  deriving DecidableEq

section Text

open Json

variable {ν : Type} [Readable ν]

/-- Read a peer id. -/
def PeerId.read? (node : ν) : Option PeerId :=
  (text? node).bind fun text => (PeerId.parse text).toOption

/-- Read an incarnation. -/
def Incarnation.read? (node : ν) : Option Incarnation := do
  let f ← fields? ["first", "second"] node
  let first ← f.required "first" word?
  let second ← f.required "second" word?
  some ⟨UInt64.ofNat first, UInt64.ofNat second⟩

/-- The written form of an incarnation. -/
def Incarnation.toJson (i : Incarnation) : Json :=
  .obj [("first", .ofNat i.first.toNat), ("second", .ofNat i.second.toNat)]

/-- Read a payload. -/
def payload? (node : ν) : Option (List UInt8) :=
  (text? node).bind fun text => Hex.decode? text.toList

/-- Read a greeting. -/
def Hello.read? (node : ν) : Option Hello := do
  let f ← fields? ["peer_id", "incarnation", "ack", "acked_incarnation"] node
  let peer ← f.required "peer_id" PeerId.read?
  let incarnation ← f.required "incarnation" Incarnation.read?
  let ack ← f.required "ack" word?
  let acked ← f.nullable "acked_incarnation" Incarnation.read?
  some ⟨peer, incarnation, ack, acked⟩

/-- The written form of a greeting. -/
def Hello.toJson (h : Hello) : Json :=
  .obj [("ack", .ofNat h.ack),
    ("acked_incarnation", (h.acked.map Incarnation.toJson).getD .null),
    ("incarnation", h.incarnation.toJson), ("peer_id", .str h.peer.text)]

/-- Read a message of the application. -/
def Parcel.readMessage? (node : ν) : Option Parcel := do
  let f ← fields? ["payload", "reply_to"] node
  let payload ← f.required "payload" payload?
  let replyTo ← f.withDefault "reply_to" none (optional? word?)
  some (.message payload replyTo)

/-- Read a reply. -/
def Parcel.readReply? (node : ν) : Option Parcel := do
  let f ← fields? ["reply_to", "payload"] node
  let replyTo ← f.required "reply_to" word?
  let payload ← f.required "payload" payload?
  some (.reply replyTo payload)

/-- The written form of a parcel. -/
def Parcel.toJson : Parcel → Json
  | message payload replyTo =>
    .obj [("payload", .str (Hex.text payload)), ("reply_to", (replyTo.map Json.ofNat).getD .null)]
  | reply replyTo payload =>
    .obj [("payload", .str (Hex.text payload)), ("reply_to", .ofNat replyTo)]

/-- Read an envelope whose parameters nest at most so deep. -/
def Envelope.readWithin? (depth : Nat) (node : ν) : Option Envelope := do
  let f ← fields? ["seq", "ack", "method", "params"] node
  let seq ← f.required "seq" word?
  let ack ← f.required "ack" word?
  let method ← f.required "method" text?
  let params ← f.withDefault "params" Json.null (Readable.value? depth)
  some ⟨seq, ack, method, params⟩

/-- Read an envelope. It is a container itself, which leaves one level less to its
parameters. -/
def Envelope.read? (node : ν) : Option Envelope := Envelope.readWithin? (maxDepth - 1) node

/-- The written form of an envelope. -/
def Envelope.toJson (e : Envelope) : Json :=
  .obj [("seq", .ofNat e.seq), ("ack", .ofNat e.ack), ("method", .str e.method),
    ("params", e.params)]

end Text

namespace Body

/-- The name of the method that carries a body. -/
def method : Body → String
  | hello _ => "hello"
  | parcel (.message _ _) => "deliver"
  | parcel (.reply _ _) => "reply"
  | ack => "ack"

/-- The parameters that carry a body. -/
def params : Body → Json
  | hello h => h.toJson
  | parcel p => p.toJson
  | ack => .null

/-- Put a body into an envelope. -/
def envelope (b : Body) (seq ack : Nat) : Envelope := ⟨seq, ack, b.method, b.params⟩

end Body

/-- The content of an envelope: none when its method is not known here, an error when
its parameters are not those of its method. -/
def Envelope.body (e : Envelope) : Except WireError (Option Body) :=
  let known (body : Option Body) : Except WireError (Option Body) :=
    match body with
    | some body => .ok (some body)
    | none => .error .malformed
  match e.method with
  | "hello" => known ((Hello.read? e.params).map .hello)
  | "deliver" => known ((Parcel.readMessage? e.params).map .parcel)
  | "reply" => known ((Parcel.readReply? e.params).map .parcel)
  | "ack" => .ok (some .ack)
  | _ => .ok none

end Courier
