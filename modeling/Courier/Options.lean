import Courier.Address
import Courier.Backoff
import Courier.Decimal.Layout
import Courier.Json.Reader

/-!
# Options of a kernel's communications

Every option has a default, and durations are given in whole milliseconds. Options
are checked once, before anything is bound; the first problem in a fixed order is
the one reported.
-/

namespace Courier

/-- What happens to a new message when the queue is full. -/
inductive Overflow where
  | dropOldest
  | rejectNew
  deriving DecidableEq, Inhabited

namespace Overflow

/-- The name of a policy. -/
def name : Overflow → String
  | dropOldest => "drop_oldest"
  | rejectNew => "reject_new"

/-- The policy of a name. -/
def ofName? (name : String) : Option Overflow := [dropOldest, rejectNew].find? (·.name = name)

end Overflow

/-- The transport of a name. -/
def Transport.ofName? (name : String) : Option Transport := Transport.all.find? (·.name = name)

/-- The options of a kernel's communications. -/
structure Options where
  relays : List String := []
  listenAddresses : List String := []
  maxAttempts : Nat := 0
  maxQueue : Nat := 200
  overflow : Overflow := .dropOldest
  backoff : Backoff := .standard
  dialTimeout : Duration := .ofSeconds 10
  writeTimeout : Duration := .ofSeconds 10
  ackDelay : Duration := .ofMillis 50

/-- Why options are refused. -/
inductive OptionsError where
  | emptyQueue
  | noBaseDelay
  | limitBelowBase
  | jitterOutOfRange (jitter : Float)
  | noDialTimeout
  | noWriteTimeout
  | unknownRelay (text : String)
  | unknownListenAddress (text : String)
  deriving DecidableEq

/-- The wording of a refusal. -/
def OptionsError.message : OptionsError → String
  | emptyQueue => "max_queue must be at least 1"
  | noBaseDelay => "backoff.base_delay must be non-zero"
  | limitBelowBase => "backoff.max_delay must not be below backoff.base_delay"
  | jitterOutOfRange jitter =>
    "backoff.jitter must be in [0, 1), got " ++ String.ofList (Decimal.plain jitter)
  | noDialTimeout => "dial_timeout must be non-zero"
  | noWriteTimeout => "write_timeout must be non-zero"
  | unknownRelay text => "unrecognized relay address: " ++ text
  | unknownListenAddress text => "unrecognized listen address: " ++ text

namespace Options

/-- Whether a text is the address of a relay: an address that names the relay's peer. -/
def isRelay (text : String) : Bool := ((Address.parse text).bind Address.peerSuffix).isSome

/-- Whether a text names a transport to listen on. -/
def isListenAddress (text : String) : Bool := (Transport.classify text).isSome

/-- Check the options; the first problem found is reported. -/
def validate (o : Options) : Except OptionsError Unit :=
  if o.maxQueue = 0 then .error .emptyQueue
  else if o.backoff.base.nanos = 0 then .error .noBaseDelay
  else if o.backoff.limit.nanos < o.backoff.base.nanos then .error .limitBelowBase
  else if !(0.0 ≤ o.backoff.jitter && o.backoff.jitter < 1.0) then
    .error (.jitterOutOfRange o.backoff.jitter)
  else if o.dialTimeout.nanos = 0 then .error .noDialTimeout
  else if o.writeTimeout.nanos = 0 then .error .noWriteTimeout
  else
    match o.relays.find? (!isRelay ·) with
    | some text => .error (.unknownRelay text)
    | none =>
      match o.listenAddresses.find? (!isListenAddress ·) with
      | some text => .error (.unknownListenAddress text)
      | none => .ok ()

end Options

section Text

open Json

variable {ν : Type} [Readable ν]

/-- A duration in whole milliseconds. -/
def Duration.read? (node : ν) : Option Duration := (word? node).map Duration.ofMillis

/-- The whole milliseconds of a duration. -/
def Duration.toJson (d : Duration) : Json := .ofNat d.millis

/-- Read the parameters of the backoff. -/
def Backoff.read? (node : ν) : Option Backoff := do
  let f ← fields? ["base_delay", "max_delay", "jitter"] node
  let base ← f.withDefault "base_delay" Backoff.standard.base Duration.read?
  let limit ← f.withDefault "max_delay" Backoff.standard.limit Duration.read?
  let jitter ← f.withDefault "jitter" Backoff.standard.jitter float?
  some ⟨base, limit, jitter⟩

/-- The written form of the parameters of the backoff. -/
def Backoff.toJson (b : Backoff) : Json :=
  .obj [("base_delay", b.base.toJson), ("max_delay", b.limit.toJson),
    ("jitter", .num (.float b.jitter))]

/-- The names of the options in order. -/
def Options.names : List String :=
  ["relays", "direct_listen_addresses", "max_retry_attempts", "max_queue", "overflow_policy",
    "backoff", "dial_timeout", "write_timeout", "ack_delay"]

/-- Read options. -/
def Options.read? (node : ν) : Option Options := do
  let f ← fields? Options.names node
  let d : Options := {}
  let relays ← f.withDefault "relays" d.relays (list? text?)
  let listenAddresses ← f.withDefault "direct_listen_addresses" d.listenAddresses (list? text?)
  let maxAttempts ← f.withDefault "max_retry_attempts" d.maxAttempts (natUpTo? 0xffffffff)
  let maxQueue ← f.withDefault "max_queue" d.maxQueue word?
  let overflow ← f.withDefault "overflow_policy" d.overflow (choice? Overflow.ofName?)
  let backoff ← f.withDefault "backoff" d.backoff Backoff.read?
  let dialTimeout ← f.withDefault "dial_timeout" d.dialTimeout Duration.read?
  let writeTimeout ← f.withDefault "write_timeout" d.writeTimeout Duration.read?
  let ackDelay ← f.withDefault "ack_delay" d.ackDelay Duration.read?
  some { relays, listenAddresses, maxAttempts, maxQueue, overflow, backoff, dialTimeout,
         writeTimeout, ackDelay }

/-- The written form of options. -/
def Options.toJson (o : Options) : Json :=
  .obj [("relays", .arr (o.relays.map .str)),
    ("direct_listen_addresses", .arr (o.listenAddresses.map .str)),
    ("max_retry_attempts", .ofNat o.maxAttempts), ("max_queue", .ofNat o.maxQueue),
    ("overflow_policy", .str o.overflow.name), ("backoff", o.backoff.toJson),
    ("dial_timeout", o.dialTimeout.toJson), ("write_timeout", o.writeTimeout.toJson),
    ("ack_delay", o.ackDelay.toJson)]

end Text

end Courier
