import Courier.Handshake
import Courier.Proofs.Frames
import Mathlib.Data.List.Induction

/-!
# However a stream is cut

What is at the front of a buffer does not change when more arrives behind it: a frame that is
complete is the same frame with more bytes left behind it, and what is wrong with a buffer stays
wrong. An error may show as soon as the header is there or only with the last byte of the body,
but it is the same error. So it makes no difference in which pieces a stream arrives: taking the
frames after every piece gives the same envelopes, and the same bytes left or the same error, as
taking them from the whole.

Exchanging greetings takes one frame and leaves what arrived behind it. Whatever the pieces were,
these bytes and the pieces that follow give the rest of the envelopes.
-/

namespace Courier

namespace Frame

/-- A part of a buffer is the same with more behind it. -/
theorem slice_append (buffer more : ByteArray) (start stop : Nat) (within : stop ≤ buffer.size) :
    slice (buffer ++ more) start stop = slice buffer start stop := by
  have none : stop - buffer.size = 0 := Nat.sub_eq_zero_of_le within
  have nothing : more.extract (start - buffer.size) 0 = .empty := by
    apply ByteArray.size_eq_zero_iff.mp
    rw [ByteArray.size_extract]
    omega
  rw [slice, ByteArray.extract_append, none, nothing, ByteArray.append_empty, slice]

/-- What stands behind a position, with more behind it. -/
theorem extract_append_more (buffer more : ByteArray) (start : Nat) (within : start ≤ buffer.size) :
    (buffer ++ more).extract start (buffer ++ more).size =
      buffer.extract start buffer.size ++ more := by
  have first : start - buffer.size = 0 := Nat.sub_eq_zero_of_le within
  have whole : (buffer ++ more).size - buffer.size = more.size := by
    rw [ByteArray.size_append, Nat.add_sub_cancel_left]
  rw [ByteArray.extract_append, first, whole, ByteArray.extract_zero_size]
  congr 1
  apply ByteArray.ext
  apply Array.toList_inj.mp
  rw [extract_bytes, extract_bytes, List.take_of_length_le, List.take_of_length_le]
  · rw [List.length_drop, size_bytes]
  · rw [List.length_drop, ByteArray.size_append, size_bytes]
    omega

/-- A header needs its eight bytes. -/
theorem ofBytes?_complete (buffer : ByteArray) (h : Header)
    (header : Header.ofBytes? (slice buffer 0 headerSize) = some h) :
    headerSize ≤ buffer.size := by
  have length : (slice buffer 0 headerSize).length = 8 := by
    unfold Header.ofBytes? at header
    split at header
    · next same => rw [same]; rfl
    · cases header
  rw [slice, extract_bytes, List.drop_zero, List.length_take, ← size_bytes] at length
  unfold headerSize at *
  omega

/-- A header that is sound tells a length that includes the header itself. -/
theorem headerSize_le_length (h : Header) (sound : h.fault? = none) : headerSize ≤ h.length := by
  unfold Header.fault? at sound
  split at sound
  · cases sound
  · next long => exact Nat.le_of_not_lt long

/-- What is found at the front of a buffer. -/
inductive Front (buffer : ByteArray) : Except WireError (Option (Envelope × ByteArray)) → Prop where
  | short (header : Header.ofBytes? (slice buffer 0 headerSize) = none) : Front buffer (.ok none)
  | faulty (h : Header) (header : Header.ofBytes? (slice buffer 0 headerSize) = some h)
      (fault : WireError) (faulty : h.fault? = some fault) : Front buffer (.error fault)
  | incomplete (h : Header) (header : Header.ofBytes? (slice buffer 0 headerSize) = some h)
      (sound : h.fault? = none) (short : buffer.size < h.length) : Front buffer (.ok none)
  | broken (h : Header) (header : Header.ofBytes? (slice buffer 0 headerSize) = some h)
      (sound : h.fault? = none) (complete : h.length ≤ buffer.size) (fault : WireError)
      (broken : openBody h (slice buffer headerSize h.length) = .error fault) :
      Front buffer (.error fault)
  | whole (h : Header) (header : Header.ofBytes? (slice buffer 0 headerSize) = some h)
      (sound : h.fault? = none) (complete : h.length ≤ buffer.size) (e : Envelope)
      (opened : openBody h (slice buffer headerSize h.length) = .ok e) :
      Front buffer (.ok (some (e, buffer.extract h.length buffer.size)))

/-- What is at the front of a buffer. There is one case for each point at which reading stops. -/
theorem next?_found (buffer : ByteArray) : Front buffer (next? buffer) := by
  unfold next?
  split
  · next header => exact .short header
  · next h header =>
    split
    · next fault faulty => exact .faulty h header fault faulty
    · next sound =>
      split
      · next short => exact .incomplete h header sound short
      · next complete =>
        have complete := Nat.le_of_not_lt complete
        split
        · next fault broken => exact .broken h header sound complete fault broken
        · next e opened => exact .whole h header sound complete e opened

/-- A header stays the same when more arrives. -/
theorem ofBytes?_append (buffer more : ByteArray) (h : Header)
    (header : Header.ofBytes? (slice buffer 0 headerSize) = some h) :
    Header.ofBytes? (slice (buffer ++ more) 0 headerSize) = some h := by
  rw [slice_append buffer more 0 headerSize (ofBytes?_complete buffer h header), header]

/-- What is wrong with a buffer stays wrong. -/
theorem next?_error_append (buffer more : ByteArray) (error : WireError)
    (wrong : next? buffer = .error error) : next? (buffer ++ more) = .error error := by
  have found := next?_found buffer
  rw [wrong] at found
  unfold next?
  cases found with
  | faulty h header fault faulty =>
    rw [ofBytes?_append buffer more h header]
    simp only [faulty]
  | broken h header sound complete fault broken =>
    have enough : ¬ (buffer ++ more).size < h.length := by
      rw [ByteArray.size_append]
      omega
    rw [ofBytes?_append buffer more h header]
    simp only [sound, enough, if_false, slice_append buffer more headerSize h.length complete,
      broken]

/-- A complete frame is taken with more left behind it. -/
theorem next?_some_append (buffer more : ByteArray) (e : Envelope) (rest : ByteArray)
    (taken : next? buffer = .ok (some (e, rest))) :
    next? (buffer ++ more) = .ok (some (e, rest ++ more)) := by
  have found := next?_found buffer
  rw [taken] at found
  unfold next?
  cases found with
  | whole h header sound complete e opened =>
    have enough : ¬ (buffer ++ more).size < h.length := by
      rw [ByteArray.size_append]
      omega
    rw [ofBytes?_append buffer more h header]
    simp only [sound, enough, if_false, slice_append buffer more headerSize h.length complete,
      opened, extract_append_more buffer more h.length complete]

/-- A frame that is taken uses up some of the buffer. -/
theorem next?_shorter (buffer : ByteArray) (e : Envelope) (rest : ByteArray)
    (taken : next? buffer = .ok (some (e, rest))) : rest.size < buffer.size := by
  have found := next?_found buffer
  rw [taken] at found
  cases found with
  | whole h header sound complete e opened =>
    have long := headerSize_le_length h sound
    have positive : 0 < headerSize := by decide
    rw [ByteArray.size_extract]
    omega

/-- What comes of taking frames: the envelopes taken, and the bytes that wait for more or what is
wrong with them. -/
structure Taken where
  envelopes : List Envelope
  outcome : Except WireError ByteArray

/-- More envelopes were taken before. -/
def Taken.behind (envelopes : List Envelope) (t : Taken) : Taken :=
  { t with envelopes := envelopes ++ t.envelopes }

/-- Take frames from the front of a buffer until more is needed or something is wrong. -/
def takeAll (buffer : ByteArray) : Taken :=
  match _ : next? buffer with
  | .error error => ⟨[], .error error⟩
  | .ok none => ⟨[], .ok buffer⟩
  | .ok (some (e, rest)) => (takeAll rest).behind [e]
termination_by buffer.size
decreasing_by exact next?_shorter buffer e rest ‹_›

/-- Go on with one more piece, unless something is wrong already. -/
def Taken.feed (t : Taken) (piece : ByteArray) : Taken :=
  match t.outcome with
  | .error _ => t
  | .ok held => (takeAll (held ++ piece)).behind t.envelopes

/-- Nothing taken before makes no difference. -/
@[simp]
theorem Taken.behind_nil (t : Taken) : t.behind [] = t := rfl

/-- What was taken before what was taken before stands in front of both. -/
theorem Taken.behind_behind (t : Taken) (envelopes more : List Envelope) :
    (t.behind more).behind envelopes = t.behind (envelopes ++ more) := by
  unfold behind
  rw [List.append_assoc]

/-- Taking from one more piece does not depend on what was taken before. -/
theorem Taken.feed_behind (t : Taken) (envelopes : List Envelope) (piece : ByteArray) :
    (t.behind envelopes).feed piece = (t.feed piece).behind envelopes := by
  unfold feed behind
  dsimp only
  split
  · rfl
  · rw [List.append_assoc]

/-- Take frames while pieces arrive one after another. -/
def takePieces (pieces : List ByteArray) : Taken := pieces.foldl Taken.feed ⟨[], .ok .empty⟩

/-- The pieces put together. -/
def together (pieces : List ByteArray) : ByteArray := pieces.foldl (· ++ ·) .empty

/-- No pieces make no bytes. -/
@[simp]
theorem together_nil : together [] = .empty := rfl

/-- One more piece stands behind the others. -/
@[simp]
theorem together_append_one (pieces : List ByteArray) (piece : ByteArray) :
    together (pieces ++ [piece]) = together pieces ++ piece := List.foldl_append

/-- Two lists of pieces make the bytes of either, one behind the other. -/
theorem together_append (pieces more : List ByteArray) :
    together (pieces ++ more) = together pieces ++ together more := by
  induction more using List.reverseRecOn with
  | nil => simp
  | append_singleton more piece inductionHypothesis =>
    rw [← List.append_assoc, together_append_one, together_append_one, inductionHypothesis,
      ByteArray.append_assoc]

/-- The first piece stands in front. -/
@[simp]
theorem together_cons (piece : ByteArray) (pieces : List ByteArray) :
    together (piece :: pieces) = piece ++ together pieces := by
  have one : together [piece] = piece := ByteArray.empty_append
  rw [← List.singleton_append, together_append, one]

/-- Nothing is taken from a buffer that has something wrong in front. -/
theorem takeAll_error (buffer : ByteArray) (error : WireError)
    (wrong : next? buffer = .error error) : takeAll buffer = ⟨[], .error error⟩ := by
  rw [takeAll]
  split
  · next other found =>
    cases wrong.symm.trans found
    rfl
  · next found => cases wrong.symm.trans found
  · next found => cases wrong.symm.trans found

/-- Nothing is taken from a buffer that is incomplete. -/
theorem takeAll_none (buffer : ByteArray) (incomplete : next? buffer = .ok none) :
    takeAll buffer = ⟨[], .ok buffer⟩ := by
  rw [takeAll]
  split
  · next found => cases incomplete.symm.trans found
  · rfl
  · next found => cases incomplete.symm.trans found

/-- The envelope in front is taken before all that comes behind it. -/
theorem takeAll_some (buffer : ByteArray) (e : Envelope) (rest : ByteArray)
    (taken : next? buffer = .ok (some (e, rest))) :
    takeAll buffer = (takeAll rest).behind [e] := by
  rw [takeAll]
  split
  · next found => cases taken.symm.trans found
  · next found => cases taken.symm.trans found
  · next found =>
    cases taken.symm.trans found
    rfl

/-- Taking frames from a buffer and going on when more arrives is taking them from all of it. -/
theorem takeAll_append (buffer more : ByteArray) :
    takeAll (buffer ++ more) = (takeAll buffer).feed more := by
  -- The induction is on the bytes left, a frame less each time.
  induction size : buffer.size using Nat.strongRecOn generalizing buffer with
  | ind size' inductionHypothesis =>
    match found : next? buffer with
    | .error error =>
      rw [takeAll_error buffer error found,
        takeAll_error _ error (next?_error_append buffer more error found)]
      rfl
    | .ok none =>
      rw [takeAll_none buffer found]
      rfl
    | .ok (some (e, rest)) =>
      have shorter := next?_shorter buffer e rest found
      rw [takeAll_some buffer e rest found,
        takeAll_some _ e _ (next?_some_append buffer more e rest found),
        inductionHypothesis rest.size (size ▸ shorter) rest rfl, Taken.feed_behind]

/-- It makes no difference in which pieces a stream arrives. -/
theorem takePieces_together (pieces : List ByteArray) :
    takePieces pieces = takeAll (together pieces) := by
  induction pieces using List.reverseRecOn with
  | nil => exact (takeAll_none .empty rfl).symm
  | append_singleton pieces piece inductionHypothesis =>
    have fed : takePieces (pieces ++ [piece]) = (takePieces pieces).feed piece :=
      List.foldl_append
    rw [fed, inductionHypothesis, together_append_one, takeAll_append]

end Frame

end Courier
