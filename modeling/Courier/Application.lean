import Courier.Fault
import Courier.Letter
import Courier.Incarnation

/-!
# Applications

What a kernel tells its application and what the application does in turn. On a
message the application may take its time, send letters, and reply; on the other
occasions it may send letters at once. A record of all this is kept as reports.
-/

namespace Courier

/-- A letter and its addressee. -/
structure Sending where
  peer : PeerId
  letter : Letter
  deriving DecidableEq

/-- What an application makes of a message: after so many milliseconds it sends
letters and replies. -/
structure Reaction where
  delay : Nat := 0
  sendings : List Sending := []
  reply : Option (List UInt8) := none

/-- The behaviour of an application. -/
structure Application where
  onMessage : PeerId → List UInt8 → Reaction
  onSettled : PromiseId → List Sending
  onGiveUp : PeerId → List Sending

/-- What an application was told or did. -/
inductive Report where
  | message (peer : PeerId) (payload : List UInt8)
  | settled (promise : PromiseId) (result : Except CommsError (List UInt8))
  | gaveUp (peer : PeerId)
  | restarted (peer : PeerId) (incarnation : Incarnation)
  | sent (peer : PeerId) (result : Except CommsError Unit)

/-- A behaviour by rule. Every message is forwarded if `forward` says where to; replies
go to messages that begin with `only`, or to all, and are the message behind `echo`, or
else `fixed`. -/
structure Script where
  delay : Nat := 0
  forward : Option (PeerId × Option PromiseId) := none
  only : Option (List UInt8) := none
  echo : Option (List UInt8) := none
  fixed : Option (List UInt8) := none
  onSettle : Option (PeerId × List UInt8) := none
  onGiveUp : Option (List UInt8) := none

namespace Script

/-- The reply to a message. -/
def reply (s : Script) (payload : List UInt8) : Option (List UInt8) :=
  let chosen := match s.only with
    | none => true
    | some start => start.isPrefixOf payload
  if chosen then
    match s.echo with
    | some lead => some (lead ++ payload)
    | none => s.fixed
  else none

/-- The behaviour that a script describes. -/
def application (s : Script) : Application where
  onMessage _ payload :=
    { delay := s.delay
      sendings := s.forward.toList.map fun (peer, promise) => ⟨peer, { payload, promise }⟩
      reply := s.reply payload }
  onSettled _ := s.onSettle.toList.map fun (peer, payload) => ⟨peer, { payload }⟩
  onGiveUp peer := s.onGiveUp.toList.map fun payload => ⟨peer, { payload }⟩

end Script

end Courier
