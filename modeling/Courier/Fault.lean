import Courier.Phase
import Courier.Wire.Frame

/-!
# Failures

Calls of the application fail with a communications error. What goes wrong with one
connection stays inside and is known by its cause alone.
-/

namespace Courier

/-- Why a call of the application fails. -/
inductive CommsError where
  | alreadyInitialized
  | notInitialized
  | invalidOptions (reason : String)
  | invalidIdentitySeed
  | listen (address reason : String)
  | messageTooLarge (size max : Nat)
  | queueAtCapacity (peer : PeerId) (capacity : Nat)
  | connectionLost (peer : PeerId)
  | closedOnPurpose (peer : PeerId)
  deriving DecidableEq

/-- The wording of a communications error. -/
def CommsError.message : CommsError → String
  | alreadyInitialized => "remote comms already initialized"
  | notInitialized => "remote comms not initialized"
  | invalidOptions reason => "invalid remote comms options: " ++ reason
  | invalidIdentitySeed => "invalid identity seed"
  | listen address reason => "failed to listen on " ++ address ++ ": " ++ reason
  | messageTooLarge size max =>
    "message too large: " ++ toString size ++ " bytes (max " ++ toString max ++ ")"
  | queueAtCapacity peer capacity =>
    "queue for peer " ++ peer.text ++ " at capacity (" ++ toString capacity ++ ")"
  | connectionLost peer => "connection to peer " ++ peer.text ++ " lost"
  | closedOnPurpose peer => "connection to peer " ++ peer.text ++ " was intentionally closed"

/-- Why a connection fails. -/
inductive LinkError where
  | dialTimeout
  | handshakeFailure (reason : String)
  | noAddresses
  | connectionLost
  | writeTimeout
  | duplicateConnection
  | invalidTransition (start target : Phase)
  | network (reason : String)
  | wire (error : WireError)
  deriving DecidableEq

/-- The wording of a connection's failure. -/
def LinkError.message : LinkError → String
  | dialTimeout => "dial timed out"
  | handshakeFailure reason => "handshake failed: " ++ reason
  | noAddresses => "no addresses known for peer"
  | connectionLost => "connection lost"
  | writeTimeout => "write timed out"
  | duplicateConnection => "duplicate connection"
  | invalidTransition start target =>
    "invalid transition from " ++ start.label ++ " to " ++ target.label
  | network reason => "I/O error: " ++ reason
  | wire error => "wire error: " ++ error.message

end Courier
