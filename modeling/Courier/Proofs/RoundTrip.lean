import Courier.Proofs.Frames

/-!
# Decoding undoes encoding

An envelope that has a frame is read back from it, whatever stands behind the frame, and exactly
the frame is used up. That holds for every method and for all parameters without fractions that
nest no deeper than is read: integers of sixty-four bits with or without a sign, texts of any
characters, and objects as they are held, with the names of their members in order. The
envelopes of messages are among them, and the message is read back from its envelope.
-/

namespace Courier

open Json

namespace Json

mutual

/-- A value that is read back has no fractions. -/
theorem isExact_of_readsBack (depth : Nat) : (v : Json) → (readsBack : v.ReadsBack depth) →
    v.isExact = true
  | .null, _ => rfl
  | .bool _, _ => rfl
  | .str _, _ => rfl
  | .num (.int _), _ => rfl
  | .arr items, readsBack => by
    cases depth with
    | zero => exact readsBack.elim
    | succ depth => exact itemsExact_of_readBack depth items readsBack
  | .obj members, readsBack => by
    cases depth with
    | zero => exact readsBack.elim
    | succ depth => exact membersExact_of_readBack depth members readsBack.2

/-- Items that are read back have no fractions. -/
theorem itemsExact_of_readBack (depth : Nat) : (items : List Json) →
    (readBack : ItemsReadBack depth items) → itemsExact items = true
  | [], _ => rfl
  | item :: rest, readBack => by
    rw [itemsExact, Bool.and_eq_true]
    exact ⟨isExact_of_readsBack depth item readBack.1, itemsExact_of_readBack depth rest readBack.2⟩

/-- Members that are read back have no fractions. -/
theorem membersExact_of_readBack (depth : Nat) : (members : List (String × Json)) →
    (readBack : MembersReadBack depth members) → membersExact members = true
  | [], _ => rfl
  | (_, member) :: rest, readBack => by
    rw [membersExact, Bool.and_eq_true]
    exact ⟨isExact_of_readsBack depth member readBack.1,
      membersExact_of_readBack depth rest readBack.2⟩

end

end Json

/-- An envelope as it can be written: its numbers have at most sixty-four bits, and its parameters
are read back within the depth that an envelope leaves to them. -/
structure Envelope.WellFormed (e : Envelope) : Prop where
  seq : e.seq ≤ maxWord
  ack : e.ack ≤ maxWord
  params : e.params.ReadsBack (maxDepth - 1)

/-- The envelope of a message whose numbers are words is well-formed. -/
theorem Body.envelope_wellFormed (b : Body) (fits : b.Fits) (seq ack : Nat)
    (seqFits : seq ≤ maxWord) (ackFits : ack ≤ maxWord) : (b.envelope seq ack).WellFormed where
  seq := seqFits
  ack := ackFits
  params := b.params_readBack fits 124

/-- A frame is taken from the front of a buffer, and what stands behind it is left. -/
theorem Frame.next?_encode (e : Envelope) (wellFormed : e.WellFormed) (frame rest : List UInt8)
    (encoded : encode e = .ok frame) :
    next? ⟨(frame ++ rest).toArray⟩ = .ok (some (e, ⟨rest.toArray⟩)) := by
  have exact' := isExact_of_readsBack _ e.params wellFormed.params
  obtain ⟨taken, left⟩ := next?_whole e frame rest encoded exact' ⟨(frame ++ rest).toArray⟩ rfl
  rw [e.read?_exact wellFormed.params wellFormed.seq wellFormed.ack] at taken
  rw [taken]
  refine congrArg (fun behind => Except.ok (some (e, behind))) ?_
  exact ByteArray.ext (Array.toList_inj.mp left)

/-- Decoding undoes encoding: a well-formed envelope is taken back from its frame with anything
behind it, and the envelope of a message holds the message and is well-formed. -/
theorem Frame.next?_undoes_encode :
    (∀ e : Envelope, e.WellFormed → ∀ frame rest : List UInt8, encode e = .ok frame →
      next? ⟨(frame ++ rest).toArray⟩ = .ok (some (e, ⟨rest.toArray⟩))) ∧
    ∀ b : Body, b.Fits → ∀ seq ack, (b.envelope seq ack).body = .ok (some b) ∧
      (seq ≤ maxWord → ack ≤ maxWord → (b.envelope seq ack).WellFormed) := by
  refine ⟨next?_encode, fun b fits seq ack => ⟨b.envelope_body fits seq ack, ?_⟩⟩
  exact b.envelope_wellFormed fits seq ack

/-- An envelope with a method that is not known, and parameters of every kind. -/
def motley : Envelope where
  seq := maxWord
  ack := 0
  method := "caf\u00e9 \"\\\n"
  params := .obj [
    ("", .arr [.null, .bool true, .num (.int (-9223372036854775808)), .ofNat maxWord]),
    ("\t", .str "€ 𝄞"), ("empty", .arr [.arr [], .obj []])]

/-- The envelope with parameters of every kind can be written. -/
theorem motley_wellFormed : motley.WellFormed where
  seq := Nat.le_refl _
  ack := Nat.zero_le _
  params := by
    have smallest : -(maxNegative : Int) ≤ -9223372036854775808 ∧
        (-9223372036854775808 : Int) ≤ maxWord := by decide
    have largest := readsBack_ofNat 124 maxWord (Nat.le_refl _)
    refine ⟨?_, ⟨trivial, trivial, smallest, largest, trivial⟩, trivial,
      ⟨trivial, ⟨.nil, trivial⟩, trivial⟩, trivial⟩
    simp only [List.pairwise_cons, List.mem_cons, List.not_mem_nil, or_false, forall_eq_or_imp,
      forall_eq]
    exact ⟨⟨by decide, by decide⟩, by decide, nofun, .nil⟩

/-- The frame of the envelope is its text behind a header. -/
theorem motley_framed : Frame.encode motley =
    .ok (Frame.headerBytes motley.toJson.render ++ motley.toJson.render) :=
  Frame.encode_small motley (by decide +kernel)

/-- The envelope is taken back with the beginning of another frame behind it, and a reply with
the largest number is read back from its envelope. -/
theorem motley_reads_back : (∃ frame, Frame.encode motley = .ok frame ∧ motley.WellFormed ∧
      Frame.next? ⟨(frame ++ [8, 0, 0]).toArray⟩ = .ok (some (motley, ⟨#[8, 0, 0]⟩))) ∧
    (Body.parcel (.reply maxWord [0, 255])).Fits ∧
      ((Body.parcel (.reply maxWord [0, 255])).envelope maxWord 1).body =
        .ok (some (.parcel (.reply maxWord [0, 255]))) := by
  have fits : (Body.parcel (.reply maxWord [0, 255])).Fits := Nat.le_refl _
  obtain ⟨taken, read⟩ := Frame.next?_undoes_encode
  refine ⟨⟨_, motley_framed, motley_wellFormed, ?_⟩, fits, (read _ fits maxWord 1).1⟩
  exact taken motley motley_wellFormed _ [8, 0, 0] motley_framed

end Courier
