import Courier.Proofs.RoundTrip

/-!
# The largest payload leaves room for its envelope

Three limits are tied by how a message is written: the limit for payloads, the limit for bodies,
and the width of the length in a header. A payload takes two digits for each of its bytes, and the
text around it has three numbers of up to twenty digits. Every payload within its limit has a
frame, the header of the frame says how long the frame is, and the frame is taken as soon as it
has arrived, with nothing before that mistaken for a fault.
-/

namespace Courier

open Json

namespace Frame

/-- A frame is no longer than a header and the largest body, which is less than a header can
say. -/
theorem encode_within (e : Envelope) (frame : List UInt8) (encoded : encode e = .ok frame) :
    frame.length ≤ headerSize + maxBody ∧ frame.length < UInt32.size := by
  have limit : headerSize + maxBody < UInt32.size := by decide
  obtain ⟨rfl, small⟩ := encode_eq e frame encoded
  rw [List.length_append, headerBytes_length]
  omega

/-- The header of a frame says how long the frame is, and nothing is wrong with that. -/
theorem encode_header (e : Envelope) (frame : List UInt8) (encoded : encode e = .ok frame) :
    ∃ h, Header.ofBytes? (frame.take headerSize) = some h ∧ h.length = frame.length ∧
      h.fault? = none := by
  obtain ⟨rfl, small⟩ := encode_eq e frame encoded
  generalize e.toJson.render = body at small ⊢
  refine ⟨⟨headerSize + body.length, Crc32c.checksum body⟩, ?_, ?_, fault?_header _ body small⟩
  · rw [List.take_left' (headerBytes_length body)]
    exact ofBytes?_headerBytes body small
  · rw [List.length_append, headerBytes_length]

/-- However much of a frame has arrived, and whatever stands behind it, the frame is taken once
it is complete, and before that nothing is taken. -/
theorem next?_arriving (e : Envelope) (wellFormed : e.WellFormed) (frame : List UInt8)
    (encoded : encode e = .ok frame) (arrived later rest : List UInt8)
    (stream : arrived ++ later = frame ++ rest) :
    next? ⟨arrived.toArray⟩ = .ok (if frame.length ≤ arrived.length
      then some (e, ⟨(arrived.drop frame.length).toArray⟩) else none) := by
  by_cases complete : frame.length ≤ arrived.length
  · obtain ⟨behind, rfl⟩ : frame <+: arrived :=
      List.prefix_of_prefix_length_le ⟨rest, rfl⟩ ⟨later, stream⟩ complete
    rw [if_pos complete, List.drop_left]
    exact next?_encode e wellFormed frame behind encoded
  · obtain ⟨missing, held⟩ : arrived <+: frame :=
      List.prefix_of_prefix_length_le ⟨later, stream⟩ ⟨rest, rfl⟩ (by omega)
    have lacks : missing ≠ [] := by
      rintro rfl
      rw [List.append_nil] at held
      exact complete (by rw [held])
    rw [if_neg complete]
    exact next?_partial e frame missing encoded ⟨arrived.toArray⟩ held lacks

/-- A frame that brings an envelope across: the envelope is written as this frame, the header
says how long it is without being cut to its width, and the envelope is taken as soon as the
frame has arrived. -/
structure Brings (e : Envelope) (frame : List UInt8) : Prop where
  encoded : encode e = .ok frame
  within : frame.length ≤ headerSize + maxBody ∧ frame.length < UInt32.size
  header : ∃ h, Header.ofBytes? (frame.take headerSize) = some h ∧ h.length = frame.length ∧
    h.fault? = none
  taken : ∀ arrived later rest, arrived ++ later = frame ++ rest →
    next? ⟨arrived.toArray⟩ = .ok (if frame.length ≤ arrived.length
      then some (e, ⟨(arrived.drop frame.length).toArray⟩) else none)

/-- The frame that an envelope is written as brings it across. -/
theorem Brings.of_encode (e : Envelope) (wellFormed : e.WellFormed) (frame : List UInt8)
    (encoded : encode e = .ok frame) : Brings e frame where
  encoded := encoded
  within := encode_within e frame encoded
  header := encode_header e frame encoded
  taken := next?_arriving e wellFormed frame encoded

/-- Every message and every reply with a payload within the limit for payloads is brought across
by a frame, whatever words its numbers are. -/
theorem parcel_within_limit (parcel : Parcel) (seq ack : Nat)
    (fits : (Body.parcel parcel).Fits) (seqFits : seq ≤ maxWord) (ackFits : ack ≤ maxWord)
    (accepted : parcel.payload.length ≤ maxPayload) :
    ∃ frame, Brings ((Body.parcel parcel).envelope seq ack) frame := by
  obtain ⟨d, formed⟩ := Option.isSome_iff_exists.mp
    (Dispatch.of?_parcel parcel fits seq ack seqFits ackFits accepted)
  obtain ⟨_, _, _, encoded⟩ := Dispatch.of?_eq _ seq ack d formed
  have wellFormed := (Body.parcel parcel).envelope_wellFormed fits seq ack seqFits ackFits
  exact ⟨d.frame, .of_encode _ wellFormed d.frame encoded⟩

/-- The largest reply with the largest numbers. -/
theorem largest_reply_brought :
    (List.replicate maxPayload (0xAB : UInt8)).length ≤ maxPayload ∧
      ∃ frame, Brings ((Body.parcel (.reply maxWord
        (List.replicate maxPayload 0xAB))).envelope maxWord maxWord) frame := by
  have whole : (List.replicate maxPayload (0xAB : UInt8)).length ≤ maxPayload :=
    Nat.le_of_eq List.length_replicate
  exact ⟨whole, parcel_within_limit (.reply maxWord (List.replicate maxPayload 0xAB)) maxWord
    maxWord (Nat.le_refl maxWord) (Nat.le_refl maxWord) (Nat.le_refl maxWord) whole⟩

end Frame

end Courier
