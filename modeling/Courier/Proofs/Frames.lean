import Courier.Proofs.Envelopes
import Courier.Session.Turn

/-!
# Frames are taken as they were written

A frame at the front of a buffer is taken whatever stands behind it, and a frame that has
not arrived completely is not taken. So the envelopes taken from a stream of frames are
those that were written, in their order, however the stream was cut on its way.
-/

namespace Courier

open Json

namespace Frame

/-- A word is made of its four bytes. -/
theorem wordOf_bytes (w : UInt32) :
    wordOf w.toUInt8 (w >>> 8).toUInt8 (w >>> 16).toUInt8 (w >>> 24).toUInt8 = w := by
  have eight : UInt32.toBitVec 8 % 32 = 8#32 := rfl
  have sixteen : UInt32.toBitVec 16 % 32 = 16#32 := rfl
  have twentyFour : UInt32.toBitVec 24 % 32 = 24#32 := rfl
  apply UInt32.toBitVec_inj.mp
  apply BitVec.eq_of_getLsbD_eq
  intro i below
  simp only [wordOf, UInt32.toBitVec_or, UInt32.toBitVec_shiftLeft, UInt8.toBitVec_toUInt32,
    UInt32.toBitVec_toUInt8, UInt32.toBitVec_shiftRight, BitVec.getLsbD_or, BitVec.getLsbD_setWidth,
    eight, sixteen, twentyFour, BitVec.shiftLeft_eq', BitVec.ushiftRight_eq',
    BitVec.getLsbD_shiftLeft, BitVec.getLsbD_ushiftRight, BitVec.toNat_ofNat, below, decide_true,
    Bool.true_and]
  rcases (by omega : i < 8 ∨ (8 ≤ i ∧ i < 16) ∨ (16 ≤ i ∧ i < 24) ∨ 24 ≤ i) with
    first | ⟨low, high⟩ | ⟨low, high⟩ | last
  · simp [first, show i < 16 by omega, show i < 24 by omega]
  · simp [high, show ¬ i < 8 by omega, show i - 8 < 8 by omega, show i < 24 by omega,
      show 8 + (i - 8) = i by omega, show i - 8 < 32 by omega]
  · simp [high, show ¬ i < 8 by omega, show ¬ i - 8 < 8 by omega, show ¬ i < 16 by omega,
      show i - 16 < 8 by omega, show 16 + (i - 16) = i by omega, show i - 16 < 32 by omega]
  · simp [show ¬ i < 8 by omega, show ¬ i - 8 < 8 by omega, show ¬ i < 16 by omega,
      show ¬ i - 16 < 8 by omega, show ¬ i < 24 by omega, show i - 24 < 8 by omega,
      show 24 + (i - 24) = i by omega, show i - 24 < 32 by omega]

/-- The bytes of a part of a buffer. -/
theorem extract_bytes (buffer : ByteArray) (start stop : Nat) :
    (buffer.extract start stop).data.toList =
      (buffer.data.toList.drop start).take (stop - start) := by
  rw [ByteArray.data_extract, Array.toList_extract, List.extract_eq_take_drop]

/-- The size of a buffer is the number of its bytes. -/
theorem size_bytes (buffer : ByteArray) : buffer.size = buffer.data.toList.length := rfl

/-- The header in front of a body. -/
def headerBytes (body : List UInt8) : List UInt8 :=
  wordBytes (UInt32.ofNat (headerSize + body.length)) ++ wordBytes (Crc32c.checksum body)

/-- Every header has the same size. -/
theorem headerBytes_length (body : List UInt8) : (headerBytes body).length = headerSize := rfl

/-- A frame is a header and a body within the limit. -/
theorem encode_eq (e : Envelope) (frame : List UInt8) (encoded : encode e = .ok frame) :
    frame = headerBytes e.toJson.render ++ e.toJson.render ∧
      e.toJson.render.length ≤ maxBody := by
  unfold encode at encoded
  dsimp only at encoded
  split at encoded
  · cases encoded
  · next small =>
    cases encoded
    exact ⟨rfl, Nat.le_of_not_lt small⟩

/-- An envelope within the limit has a frame. -/
theorem encode_small (e : Envelope) (small : ¬ maxBody < e.toJson.render.length) :
    encode e = .ok (headerBytes e.toJson.render ++ e.toJson.render) := by
  unfold encode
  dsimp only
  rw [if_neg small]
  rfl

/-- A header says how long the frame is, and which checksum its body should have. -/
theorem ofBytes?_wordBytes (checksum : UInt32) (body : List UInt8)
    (small : body.length ≤ maxBody) :
    Header.ofBytes? (wordBytes (UInt32.ofNat (headerSize + body.length)) ++ wordBytes checksum) =
      some ⟨headerSize + body.length, checksum⟩ := by
  have fits : headerSize + body.length < UInt32.size := by
    unfold maxBody at small
    unfold headerSize UInt32.size
    omega
  have length : (UInt32.ofNat (headerSize + body.length)).toNat = headerSize + body.length :=
    UInt32.toNat_ofNat_of_lt' fits
  simp only [wordBytes, List.cons_append, List.nil_append, Header.ofBytes?, wordOf_bytes, length]

/-- A header reads back from its bytes, as long as the body is within the limit. -/
theorem ofBytes?_headerBytes (body : List UInt8) (small : body.length ≤ maxBody) :
    Header.ofBytes? (headerBytes body) =
      some ⟨headerSize + body.length, Crc32c.checksum body⟩ :=
  ofBytes?_wordBytes (Crc32c.checksum body) body small

/-- The header of a body within the limit has no fault. -/
theorem fault?_header (checksum : UInt32) (body : List UInt8) (small : body.length ≤ maxBody) :
    (⟨headerSize + body.length, checksum⟩ : Header).fault? = none := by
  unfold Header.fault?
  dsimp only
  rw [if_neg (by omega), if_neg (by omega)]

/-- A complete body is opened with what its header says, whatever stands behind it. -/
theorem next?_framed (checksum : UInt32) (body rest : List UInt8) (small : body.length ≤ maxBody)
    (buffer : ByteArray) (held : buffer.data.toList =
      wordBytes (UInt32.ofNat (headerSize + body.length)) ++ wordBytes checksum ++ body ++ rest) :
    next? buffer = (match openBody ⟨headerSize + body.length, checksum⟩ body with
      | .error fault => .error fault
      | .ok e => .ok (some (e, buffer.extract (headerSize + body.length) buffer.size))) := by
  have length : (wordBytes (UInt32.ofNat (headerSize + body.length)) ++
      wordBytes checksum).length = headerSize := rfl
  have header : slice buffer 0 headerSize =
      wordBytes (UInt32.ofNat (headerSize + body.length)) ++ wordBytes checksum := by
    rw [slice, extract_bytes, held, List.drop_zero, Nat.sub_zero, List.append_assoc]
    exact List.take_left' length
  have body' : slice buffer headerSize (headerSize + body.length) = body := by
    rw [slice, extract_bytes, held, List.append_assoc, List.drop_left' length,
      Nat.add_sub_cancel_left]
    exact List.take_left
  have enough : ¬ buffer.size < headerSize + body.length := by
    rw [size_bytes, held, List.length_append, List.length_append]
    exact Nat.not_lt.mpr (Nat.le_add_right (headerSize + body.length) rest.length)
  unfold next?
  rw [header, ofBytes?_wordBytes checksum body small]
  dsimp only
  rw [fault?_header checksum body small]
  dsimp only
  cases opened : openBody ⟨headerSize + body.length, checksum⟩ body with
  | error fault => simp only [if_neg enough, body', opened]
  | ok e => simp only [if_neg enough, body', opened]

/-- A frame at the front of a buffer is taken, whatever stands behind it. -/
theorem next?_whole (e : Envelope) (frame rest : List UInt8) (encoded : encode e = .ok frame)
    (exact' : e.params.isExact = true) (buffer : ByteArray)
    (held : buffer.data.toList = frame ++ rest) :
    next? buffer = (match Envelope.read? e.toJson.raw with
      | some read => .ok (some (read, buffer.extract frame.length buffer.size))
      | none => .error .malformed) ∧
      (buffer.extract frame.length buffer.size).data.toList = rest := by
  obtain ⟨rfl, small⟩ := encode_eq e frame encoded
  generalize spelled : e.toJson.render = body at *
  have length : (headerBytes body ++ body).length = headerSize + body.length := by
    rw [List.length_append, headerBytes_length]
  have parsed : Raw.parse? body = some e.toJson.raw := by
    rw [← spelled]
    refine parse?_render _ ?_
    simpa [Envelope.toJson, isExact, membersExact, Json.ofNat] using exact'
  constructor
  · rw [next?_framed (Crc32c.checksum body) body rest small buffer held, openBody]
    dsimp only
    rw [if_neg (by simp), parsed, Option.bind_some, length]
    cases Envelope.read? e.toJson.raw <;> rfl
  · rw [extract_bytes, size_bytes, held, List.drop_left, List.take_of_length_le]
    rw [List.length_append]
    omega

/-- A frame that has not arrived completely is not taken. -/
theorem next?_partial (e : Envelope) (frame missing : List UInt8)
    (encoded : encode e = .ok frame) (buffer : ByteArray)
    (held : buffer.data.toList ++ missing = frame) (lacks : missing ≠ []) :
    next? buffer = .ok none := by
  obtain ⟨rfl, small⟩ := encode_eq e frame encoded
  generalize e.toJson.render = body at *
  have total := congrArg List.length held
  rw [List.length_append, List.length_append, headerBytes_length, ← size_bytes] at total
  have positive := List.length_pos_iff.mpr lacks
  unfold next?
  by_cases enough : headerSize ≤ buffer.size
  · have header : slice buffer 0 headerSize = headerBytes body := by
      have front := congrArg (List.take headerSize) held
      rw [List.take_append_of_le_length enough, List.take_left' (headerBytes_length body)] at front
      rw [slice, extract_bytes, List.drop_zero, Nat.sub_zero]
      exact front
    rw [header, ofBytes?_headerBytes body small]
    dsimp only
    rw [fault?_header (Crc32c.checksum body) body small]
    dsimp only
    rw [if_pos (by omega)]
  · have short : (slice buffer 0 headerSize).length < 8 := by
      rw [slice, extract_bytes, List.length_take, List.length_drop, ← size_bytes]
      unfold headerSize at *
      omega
    generalize slice buffer 0 headerSize = bytes at short
    have none : Header.ofBytes? bytes = none := by
      unfold Header.ofBytes?
      split
      · simp at short
      · rfl
    rw [none]

end Frame

/-- The parameters of a body keep their text exactly when they are written. -/
theorem Body.params_exact (b : Body) : b.params.isExact = true := by
  have optional (n : Option Nat) : ((n.map Json.ofNat).getD .null).isExact = true := by
    cases n <;> rfl
  have incarnation (i : Option Incarnation) :
      ((i.map Incarnation.toJson).getD .null).isExact = true := by
    cases i <;> rfl
  cases b with
  | hello h =>
    simp [params, Hello.toJson, Incarnation.toJson, isExact, membersExact, Json.ofNat, incarnation]
  | parcel parcel =>
    cases parcel <;>
      simp [params, Parcel.toJson, isExact, membersExact, Json.ofNat, optional]
  | ack => rfl

namespace Dispatch

/-- A message together with its own frame. -/
def Formed (d : Dispatch) : Prop := of? d.body d.seq d.ack = some d

/-- A dispatch is made of the body and the numbers that it was made for, and its frame is theirs. -/
theorem of?_eq (body : Body) (seq ack : Nat) (d : Dispatch) (formed : of? body seq ack = some d) :
    d.body = body ∧ d.seq = seq ∧ d.ack = ack ∧
      Frame.encode (body.envelope seq ack) = .ok d.frame := by
  unfold of? at formed
  split at formed
  · next frame encoded =>
    cases formed
    exact ⟨rfl, rfl, rfl, encoded⟩
  · cases formed

/-- A dispatch that was made has its own frame: made again of its parts, it is the same. -/
theorem of?_formed (body : Body) (seq ack : Nat) (d : Dispatch)
    (formed : of? body seq ack = some d) : d.Formed := by
  obtain ⟨rfl, rfl, rfl, _⟩ := of?_eq body seq ack d formed
  exact formed

/-- The envelope that a message travels in. -/
def envelope (d : Dispatch) : Envelope := d.body.envelope d.seq d.ack

/-- What reading makes of the envelope of a message. -/
structure Reads (d : Dispatch) (e : Envelope) : Prop where
  seq : e.seq = d.seq
  ack : e.ack = d.ack
  method : e.method = d.body.method
  bounded : e.seq ≤ maxWord ∧ e.ack ≤ maxWord
  body : d.body.Fits → e.body = .ok (some d.body)

/-- What is read of the envelope that a dispatch travels in are the numbers of the dispatch, and its
body where that fits. -/
theorem reads_raw (d : Dispatch) (e : Envelope)
    (read : Envelope.read? d.envelope.toJson.raw = some e) : d.Reads e := by
  rw [Envelope.read?_raw] at read
  split at read
  · next words =>
    obtain ⟨params, opened, rfl⟩ := Option.map_eq_some_iff.mp read
    refine ⟨rfl, rfl, rfl, words, fun fits => ?_⟩
    have readsBack : d.envelope.params.ReadsBack (maxDepth - 1) := d.body.params_readBack fits 124
    rw [ofRaw?_raw _ _ readsBack] at opened
    cases opened
    exact d.body.envelope_body fits d.seq d.ack
  · cases read

/-- The bytes of a sequence of messages. -/
def bytes (dispatches : List Dispatch) : List UInt8 := dispatches.flatMap (·.frame)

/-- Whether every number of a message is a word. -/
def Fits (d : Dispatch) : Prop := d.body.Fits ∧ d.seq ≤ maxWord ∧ d.ack ≤ maxWord

/-- A dispatch fits when its body and its numbers do. -/
theorem of?_fits (body : Body) (seq ack : Nat) (d : Dispatch)
    (formed : of? body seq ack = some d) (fits : body.Fits) (seqFits : seq ≤ maxWord)
    (ackFits : ack ≤ maxWord) : d.Fits := by
  obtain ⟨rfl, rfl, rfl, _⟩ := of?_eq body seq ack d formed
  exact ⟨fits, seqFits, ackFits⟩

/-- The envelope of a dispatch that fits has the body of the dispatch. -/
theorem envelope_body (d : Dispatch) (fits : d.Fits) : d.envelope.body = .ok (some d.body) :=
  d.body.envelope_body fits.1 d.seq d.ack

/-- A message that arrived completely is taken as it was written, whatever stands behind
it. -/
theorem next?_front (d : Dispatch) (formed : d.Formed) (fits : d.Fits) (buffer : ByteArray)
    (behind : List UInt8) (held : buffer.data.toList = d.frame ++ behind) :
    ∃ rest, Frame.next? buffer = .ok (some (d.envelope, rest)) ∧ rest.data.toList = behind := by
  obtain ⟨body, seq, ack⟩ := fits
  obtain ⟨_, _, _, encoded⟩ := of?_eq _ _ _ d formed
  obtain ⟨taken, left⟩ :=
    Frame.next?_whole _ _ behind encoded d.body.params_exact buffer held
  have read : Envelope.read? (d.body.envelope d.seq d.ack).toJson.raw = some d.envelope :=
    d.envelope.read?_exact (d.body.params_readBack body 124) seq ack
  rw [read] at taken
  exact ⟨_, taken, left⟩

/-- What is taken from the front of a stream of messages is the first of them. The bytes of the
stream begin with its frame, which is complete or not, as the length in its header says. -/
theorem next?_stream (todo : List Dispatch) (formed : ∀ d ∈ todo, d.Formed) (buffer : ByteArray)
    (later : List UInt8) (stream : buffer.data.toList ++ later = bytes todo) (e : Envelope)
    (rest : ByteArray) (complete : Frame.next? buffer = .ok (some (e, rest))) :
    ∃ d more, todo = d :: more ∧ buffer.data.toList = d.frame ++ rest.data.toList ∧
      d.Reads e := by
  cases todo with
  | nil =>
    have empty : buffer.data.toList = [] := (List.append_eq_nil_iff.mp stream).1
    have nothing : Frame.next? buffer = .ok none := by
      unfold Frame.next? Frame.slice
      rw [Frame.extract_bytes, empty]
      rfl
    rw [nothing] at complete
    cases complete
  | cons d more =>
    obtain ⟨_, _, _, encoded⟩ := of?_eq _ _ _ d (formed d List.mem_cons_self)
    have whole : buffer.data.toList ++ later = d.frame ++ bytes more := stream
    by_cases arrived : d.frame.length ≤ buffer.data.toList.length
    · obtain ⟨behind, held⟩ : d.frame <+: buffer.data.toList :=
        List.prefix_of_prefix_length_le ⟨bytes more, rfl⟩ ⟨later, whole⟩ arrived
      obtain ⟨taken, left⟩ :=
        Frame.next?_whole _ _ behind encoded d.body.params_exact buffer held.symm
      rw [taken] at complete
      split at complete
      · next read opened =>
        cases complete
        exact ⟨d, more, rfl, by rw [left]; exact held.symm, d.reads_raw _ opened⟩
      · cases complete
    · obtain ⟨missing, held⟩ : buffer.data.toList <+: d.frame :=
        List.prefix_of_prefix_length_le ⟨later, whole⟩ ⟨bytes more, rfl⟩ (by omega)
      have lacks : missing ≠ [] := by
        rintro rfl
        rw [List.append_nil] at held
        exact arrived (by rw [held])
      rw [Frame.next?_partial _ _ missing encoded buffer held lacks] at complete
      cases complete

end Dispatch

/-- The digits of hexadecimal text need no escapes. -/
theorem escapeChar_lower (c : Char) (lower : Hex.isLower c = true) :
    (escapeChar c).length = 1 := by
  have bounds : 48 ≤ c.toNat ∧ c.toNat ≤ 102 := by
    simp only [Hex.isLower, Bool.or_eq_true, Bool.and_eq_true, decide_eq_true_eq, Char.le_def,
      UInt32.le_iff_toNat_le] at lower
    change (48 ≤ c.toNat ∧ c.toNat ≤ 57) ∨ (97 ≤ c.toNat ∧ c.toNat ≤ 102) at lower
    omega
  have quote : c ≠ '"' := by
    rintro rfl
    cases lower
  have slash : c ≠ '\\' := by
    rintro rfl
    cases lower
  unfold escapeChar
  rw [if_neg quote, if_neg slash, if_neg (by omega), if_neg (by omega), if_neg (by omega),
    if_neg (by omega), if_neg (by omega), if_neg (by omega), charBytes_small c (by omega)]
  rfl

/-- Lower-case letters and digits are spelled as they are. -/
theorem escape_lower (chars : List Char) (lower : chars.all Hex.isLower = true) :
    (chars.flatMap escapeChar).length = chars.length := by
  induction chars with
  | nil => rfl
  | cons c rest inductionHypothesis =>
    rw [List.all_cons, Bool.and_eq_true] at lower
    rw [List.flatMap_cons, List.length_append, escapeChar_lower c lower.1,
      inductionHypothesis lower.2, List.length_cons, Nat.add_comm]

/-- A payload takes two characters for each byte. -/
theorem escapeText_hex (payload : List UInt8) :
    (escapeText (Hex.text payload)).length = 2 * payload.length := by
  rw [escapeText, Hex.text, String.toList_ofList, escape_lower _ (Hex.encode_lower payload),
    Hex.encode_length]

/-- An id takes sixty-four characters. -/
theorem escapeText_peer (id : PeerId) : (escapeText id.text).length = 64 := by
  have wellFormed := id.wellFormed
  rw [isPeerId, Bool.and_eq_true, decide_eq_true_eq] at wellFormed
  rw [escapeText, escape_lower _ wellFormed.2, wellFormed.1]

/-- The digits of a word are twenty at most. -/
theorem natLexeme_word (n : Nat) (small : n ≤ maxWord) : (natLexeme n).length ≤ 20 := by
  have limit : maxWord < Nat.pow 10 20 := by decide
  exact natLexeme_length n 20 (by decide) (Nat.lt_of_le_of_lt small limit)

/-- A number that may be absent takes the room of a word at most, for null is shorter. -/
theorem optionalNumber_room (n : Option Nat) (small : ∀ m ∈ n, m ≤ maxWord) :
    ((n.map Json.ofNat).getD .null).room ≤ 20 := by
  cases n with
  | none => decide
  | some m => exact natLexeme_word m (small m rfl)

/-- How many bytes an incarnation takes at most. -/
theorem Incarnation.room (i : Incarnation) : i.toJson.room ≤ 61 := by
  have first := natLexeme_word i.first.toNat (toNat_le_maxWord _)
  have second := natLexeme_word i.second.toNat (toNat_le_maxWord _)
  have names : (escapeText "first").length = 5 ∧ (escapeText "second").length = 6 := by decide
  have number (n : Nat) : (Json.ofNat n).room = (natLexeme n).length := rfl
  simp only [toJson, Json.room, membersRoom, number, names]
  omega

/-- The payload of a parcel. -/
def Parcel.payload : Parcel → List UInt8
  | message payload _ => payload
  | reply _ payload => payload

namespace Dispatch

/-- Parameters that leave some room in a frame have one. -/
theorem of?_room (body : Body) (seq ack : Nat) (seqFits : seq ≤ maxWord)
    (ackFits : ack ≤ maxWord) (room : body.params.room + 100 ≤ Frame.maxBody) :
    (of? body seq ack).isSome := by
  have methods : (escapeText "hello").length = 5 ∧ (escapeText "deliver").length = 7 ∧
      (escapeText "reply").length = 5 ∧ (escapeText "ack").length = 3 := by decide
  have method : (escapeText body.method).length ≤ 7 := by
    rcases body with _ | (_ | _) | _ <;> simp [Body.method, methods]
  have small : (body.envelope seq ack).toJson.render.length ≤ Frame.maxBody := by
    have seqRoom := natLexeme_word seq seqFits
    have ackRoom := natLexeme_word ack ackFits
    have names : (escapeText "seq").length = 3 ∧ (escapeText "ack").length = 3 ∧
        (escapeText "method").length = 6 ∧ (escapeText "params").length = 6 := by decide
    have number (n : Nat) : (Json.ofNat n).room = (natLexeme n).length := rfl
    refine Nat.le_trans (render_length _) ?_
    simp only [Body.envelope, Envelope.toJson, Json.room, membersRoom, number, names]
    omega
  unfold of? Frame.encode
  dsimp only
  rw [if_neg (Nat.not_lt_of_le small)]
  rfl

/-- Every greeting has a frame. -/
theorem of?_hello (h : Hello) (seq ack : Nat) (fits : h.ack ≤ maxWord) (seqFits : seq ≤ maxWord)
    (ackFits : ack ≤ maxWord) : (of? (.hello h) seq ack).isSome := by
  have acked : ((h.acked.map Incarnation.toJson).getD .null).room ≤ 61 := by
    cases h.acked with
    | none => decide
    | some i => exact i.room
  have names : (escapeText "ack").length = 3 ∧ (escapeText "acked_incarnation").length = 17 ∧
      (escapeText "incarnation").length = 11 ∧ (escapeText "peer_id").length = 7 := by decide
  have limit : Frame.maxBody = 1048576 := by decide
  have number (n : Nat) : (Json.ofNat n).room = (natLexeme n).length := rfl
  have own := h.incarnation.room
  have ackRoom := natLexeme_word h.ack fits
  refine of?_room _ seq ack seqFits ackFits ?_
  simp only [Body.params, Hello.toJson, Json.room, membersRoom, number, names, escapeText_peer]
  omega

/-- A parcel with a payload that is accepted for sending has a frame. -/
theorem of?_parcel (parcel : Parcel) (fits : (Body.parcel parcel).Fits) (seq ack : Nat)
    (seqFits : seq ≤ maxWord) (ackFits : ack ≤ maxWord)
    (accepted : parcel.payload.length ≤ Frame.maxPayload) :
    (of? (.parcel parcel) seq ack).isSome := by
  have names : (escapeText "payload").length = 7 ∧ (escapeText "reply_to").length = 8 := by
    decide
  have limits : Frame.maxBody = 1048576 ∧ Frame.maxPayload = 522240 := by decide
  have number (n : Nat) : (Json.ofNat n).room = (natLexeme n).length := rfl
  refine of?_room _ seq ack seqFits ackFits ?_
  cases parcel with
  | message payload replyTo =>
    have binding := optionalNumber_room replyTo fits
    simp only [Body.params, Parcel.toJson, Json.room, membersRoom, escapeText_hex, names,
      Parcel.payload] at accepted ⊢
    omega
  | reply replyTo payload =>
    have binding := natLexeme_word replyTo fits
    simp only [Body.params, Parcel.toJson, Json.room, membersRoom, escapeText_hex, number, names,
      Parcel.payload] at accepted ⊢
    omega

/-- An acknowledgement of its own has a frame. -/
theorem of?_ack (seq ack : Nat) (seqFits : seq ≤ maxWord) (ackFits : ack ≤ maxWord) :
    (of? .ack seq ack).isSome := of?_room _ seq ack seqFits ackFits (by decide)

end Dispatch

end Courier
