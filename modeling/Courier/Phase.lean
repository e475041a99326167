/-!
# Phases of a peer

The connection to a peer is in one of five phases, and only some phases follow each
other. A peer that was closed on purpose is left only towards a new attempt to
connect. Staying in a phase is no transition and always permitted.
-/

namespace Courier

/-- The phase of the connection to a peer. -/
inductive Phase where
  | disconnected
  | connecting
  | connected
  | backingOff
  | intentionallyClosed
  deriving DecidableEq, Inhabited

namespace Phase

/-- All phases. -/
def all : List Phase := [disconnected, connecting, connected, backingOff, intentionallyClosed]

/-- The name of a phase. -/
def name : Phase → String
  | disconnected => "disconnected"
  | connecting => "connecting"
  | connected => "connected"
  | backingOff => "backing_off"
  | intentionallyClosed => "intentionally_closed"

/-- The label of a phase in messages. -/
def label : Phase → String
  | disconnected => "Disconnected"
  | connecting => "Connecting"
  | connected => "Connected"
  | backingOff => "BackingOff"
  | intentionallyClosed => "IntentionallyClosed"

/-- Whether one phase may follow another. -/
def mayFollow (start target : Phase) : Bool :=
  match start, target with
  | disconnected, connecting | disconnected, connected | disconnected, intentionallyClosed => true
  | connecting, connected | connecting, backingOff | connecting, disconnected
  | connecting, intentionallyClosed => true
  | connected, backingOff | connected, connecting | connected, intentionallyClosed => true
  | backingOff, connecting | backingOff, connected | backingOff, intentionallyClosed => true
  | intentionallyClosed, connecting => true
  | _, _ => false

/-- Move to a phase that may follow, or stay. -/
def move? (start target : Phase) : Option Phase :=
  if start = target ∨ start.mayFollow target then some target else none

end Phase

end Courier
