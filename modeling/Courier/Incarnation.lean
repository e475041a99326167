import Courier.Random.Stream
import Courier.Text.Hex

/-!
# Incarnations

An incarnation is one run of a kernel, told apart by a token of 128 random bits. A
peer keeps its id across restarts and changes its incarnation, so comparing the
incarnation of a new connection with the last one seen tells a restart from a
connection that merely dropped.
-/

namespace Courier

/-- The token of one run of a kernel. -/
structure Incarnation where
  first : UInt64
  second : UInt64
  deriving DecidableEq, Inhabited

namespace Incarnation

/-- Draw a fresh token. -/
def draw (stream : Random.Stream) : Incarnation × Random.Stream :=
  let (first, stream) := stream.next
  let (second, stream) := stream.next
  (⟨first, second⟩, stream)

/-- Both halves in sixteen digits each. -/
def text (i : Incarnation) : String :=
  String.ofList (Hex.ofNat 16 i.first.toNat ++ Hex.ofNat 16 i.second.toNat)

/-- What the incarnation of a new connection says about the peer. -/
inductive Change where
  | first
  | same
  | changed (previous : Incarnation)
  deriving DecidableEq

/-- Compare an observed incarnation with the last one seen, if any. -/
def compare (known : Option Incarnation) (observed : Incarnation) : Change :=
  match known with
  | none => .first
  | some previous => if previous = observed then .same else .changed previous

/-- Whether an observed incarnation reveals a restart. -/
def restarted (known : Option Incarnation) (observed : Incarnation) : Bool :=
  match known with
  | none => false
  | some previous => previous ≠ observed

end Incarnation

end Courier
