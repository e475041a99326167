import Courier.Digest.Sha256
import Courier.Text.Hex

/-!
# Peer identities

A peer is known by sixty-four lower-case hexadecimal digits, the digest of its
identity seed behind a fixed prefix that keeps these digests apart from others. The
same seed always names the same peer. An empty seed names none.
-/

namespace Courier

/-- Why a text or a seed names no peer. -/
inductive IdentityError where
  | emptySeed
  | invalidPeerId (text : String)
  deriving DecidableEq

/-- The wording of an identity error. -/
def IdentityError.message : IdentityError → String
  | emptySeed => "identity seed must not be empty"
  | invalidPeerId text => "invalid peer id: " ++ text

/-- Whether characters are the digits of a peer id. -/
def isPeerId (text : List Char) : Bool := text.length = 64 && text.all Hex.isLower

/-- A stable peer identifier. -/
structure PeerId where
  text : String
  wellFormed : isPeerId text.toList = true
  deriving DecidableEq

namespace PeerId

/-- What is digested in front of the seed. -/
def domain : List UInt8 := "ocap-remote/peer-id/v1".toUTF8.data.toList

/-- The digits of a digest are the digits of a peer id. -/
theorem digest_wellFormed (message : List UInt8) :
    isPeerId (Hex.text (Sha256.digest message)).toList = true := by
  simp [isPeerId, Hex.text, String.toList_ofList, Hex.encode_length, Sha256.digest_length,
    Hex.encode_lower]

/-- The peer of an identity seed. -/
def ofSeed (seed : List UInt8) : Except IdentityError PeerId :=
  if seed.isEmpty then .error .emptySeed
  else .ok ⟨Hex.text (Sha256.digest (domain ++ seed)), digest_wellFormed _⟩

/-- The peer that a text names. -/
def parse (text : String) : Except IdentityError PeerId :=
  if wellFormed : isPeerId text.toList = true then .ok ⟨text, wellFormed⟩
  else .error (.invalidPeerId text)

/-- The first twelve digits, for messages. -/
def short (id : PeerId) : String := String.ofList (id.text.toList.take 12)

/-- Whether one id comes before another in the order of their texts. -/
def before (id other : PeerId) : Bool := id.text < other.text

/-- The smaller of two ids. -/
def smaller (id other : PeerId) : PeerId := if other.before id then other else id

/-- The smaller of two ids does not depend on which is named first. -/
theorem smaller_comm (id other : PeerId) : id.smaller other = other.smaller id := by
  unfold smaller before
  by_cases less : other.text < id.text
  · have notGreater : ¬ id.text < other.text := String.lt_asymm less
    simp [less, notGreater]
  · by_cases greater : id.text < other.text
    · simp [less, greater]
    · have same : id = other := by
        cases id
        cases other
        simp only [PeerId.mk.injEq]
        exact String.le_antisymm (String.not_lt.mp less) (String.not_lt.mp greater)
      simp [same]

/-- The text of an id names it. -/
theorem parse_text (id : PeerId) : parse id.text = .ok id := by
  simp [parse, id.wellFormed]

end PeerId

end Courier
