/-!
# Letters

What an application hands over for a peer: a payload, and, when a reply is expected,
the promise that the reply settles. Promises are named by the application.
-/

namespace Courier

/-- A promise of the application that waits for a reply. -/
structure PromiseId where
  text : String
  deriving DecidableEq

/-- A message of the application on its way to a peer. -/
structure Letter where
  payload : List UInt8
  promise : Option PromiseId := none
  deriving DecidableEq

end Courier
