import Courier.Proofs.Frames
import Mathlib.Data.List.Basic
import Mathlib.Data.Nat.Bitwise

/-!
# Corruption is detected

A frame that was altered within four bytes in a row of its body, or within its checksum, is
refused for its checksum, whatever the bytes were altered to and however long the body is.

Dividing a bit out of a remainder is linear in exclusive or, so two bodies of one length have
remainders that differ by the remainder of their difference. The polynomial has its highest
coefficient in the highest bit, so that a bit that is divided out is seen there: a remainder
whose high bits are clear was merely moved down. A difference that vanishes after four bytes
has been moved down throughout, and so it never left the low octets, where each byte clears it.
-/

namespace Courier

namespace Crc32c

/-- As a number, a remainder is halved, and combined with the polynomial if a bit was lost. -/
theorem toNat_shift (r : UInt32) : (shift r).toNat =
    if r.toNat % 2 = 1 then r.toNat / 2 ^^^ polynomial.toNat else r.toNat / 2 := by
  have low : r &&& 1 = 1 ↔ r.toNat % 2 = 1 := by
    rw [← UInt32.toNat_inj, UInt32.toNat_and]
    exact Eq.congr_left (Nat.and_one_is_mod r.toNat)
  have half : (r >>> 1).toNat = r.toNat / 2 := by
    rw [UInt32.toNat_shiftRight]
    exact Nat.shiftRight_one r.toNat
  unfold shift
  simp only [low]
  split
  · rw [UInt32.toNat_xor, half]
  · exact half

/-- Dividing out a bit is linear. -/
theorem shift_xor (r s : UInt32) : shift (r ^^^ s) = shift r ^^^ shift s := by
  apply UInt32.toNat_inj.mp
  have low : (r.toNat ^^^ s.toNat) % 2 = 1 ↔ ¬ (r.toNat % 2 = 1 ↔ s.toNat % 2 = 1) :=
    Nat.xor_mod_two_eq_one
  rw [UInt32.toNat_xor, toNat_shift, toNat_shift, toNat_shift, UInt32.toNat_xor, Nat.xor_div_two]
  generalize polynomial.toNat = p
  by_cases first : r.toNat % 2 = 1 <;> by_cases second : s.toNat % 2 = 1 <;>
    simp only [low, first, second, iff_self, iff_true, iff_false, not_true, not_false_iff, if_true,
      if_false]
  · rw [Nat.xor_comm (s.toNat / 2), ← Nat.xor_assoc, Nat.xor_assoc _ p p, Nat.xor_self,
      Nat.xor_zero]
  · rw [Nat.xor_assoc, Nat.xor_comm (s.toNat / 2), ← Nat.xor_assoc]
  · rw [Nat.xor_assoc]

/-- A remainder that has its highest bit clear was moved down by one bit. -/
theorem shift_low (r : UInt32) (bits : Nat) (room : bits ≤ 31)
    (small : (shift r).toNat < 2 ^ bits) :
    r.toNat = 2 * (shift r).toNat ∧ r.toNat < 2 ^ (bits + 1) := by
  have clear : (shift r).toNat.testBit 31 = false :=
    Nat.testBit_lt_two_pow (small.trans_le (Nat.pow_le_pow_right (by decide) room))
  have half : r.toNat / 2 < 2 ^ 31 := by
    have := r.toNat_lt
    omega
  rw [toNat_shift] at clear small ⊢
  split at clear
  · rw [Nat.testBit_xor, Nat.testBit_lt_two_pow half] at clear
    cases clear
  · next even =>
    rw [if_neg even] at small ⊢
    rw [Nat.pow_succ]
    omega

/-- Dividing a byte out of a remainder is linear in exclusive or. -/
theorem shiftByte_xor (r s : UInt32) : shiftByte (r ^^^ s) = shiftByte r ^^^ shiftByte s := by
  unfold shiftByte
  simp only [shift_xor]

/-- A remainder that has its highest octet clear was moved down by one octet. -/
theorem shiftByte_low (r : UInt32) (small : (shiftByte r).toNat < 2 ^ 24) :
    r.toNat = 2 ^ 8 * (shiftByte r).toNat := by
  unfold shiftByte at small ⊢
  obtain ⟨same, small⟩ := shift_low _ 24 (by decide) small
  obtain ⟨same₁, small⟩ := shift_low _ 25 (by decide) small
  obtain ⟨same₂, small⟩ := shift_low _ 26 (by decide) small
  obtain ⟨same₃, small⟩ := shift_low _ 27 (by decide) small
  obtain ⟨same₄, small⟩ := shift_low _ 28 (by decide) small
  obtain ⟨same₅, small⟩ := shift_low _ 29 (by decide) small
  obtain ⟨same₆, small⟩ := shift_low _ 30 (by decide) small
  obtain ⟨same₇, _⟩ := shift_low _ 31 (by decide) small
  omega

/-- So is taking a byte into a remainder. -/
theorem absorb_xor (r s : UInt32) (a b : UInt8) :
    absorb (r ^^^ s) (a ^^^ b) = absorb r a ^^^ absorb s b := by
  unfold absorb
  rw [← shiftByte_xor, UInt8.toUInt32_xor]
  congr 1
  ac_rfl

/-- The difference of two remainders is the remainder of the differences. -/
theorem remainder_xor (r s : UInt32) (front back : List UInt8)
    (aligned : front.length = back.length) :
    remainder (r ^^^ s) (List.zipWith (· ^^^ ·) front back) =
      remainder r front ^^^ remainder s back := by
  induction front generalizing r s back with
  | nil =>
    cases back with
    | nil => rfl
    | cons => cases aligned
  | cons a front inductionHypothesis =>
    cases back with
    | nil => cases aligned
    | cons b back =>
      have step := inductionHypothesis (absorb r a) (absorb s b) back (Nat.succ.inj aligned)
      rw [← absorb_xor] at step
      exact step

/-- A difference that vanishes after a few bytes never left the octets below. -/
theorem remainder_low (r : UInt32) (bytes : List UInt8) (few : bytes.length ≤ 4)
    (vanishes : remainder r bytes = 0) : r.toNat < 2 ^ (8 * bytes.length) := by
  induction bytes generalizing r with
  | nil =>
    have zero : r = 0 := vanishes
    subst zero
    decide
  | cons byte rest inductionHypothesis =>
    have fewer : rest.length ≤ 3 := Nat.le_of_succ_le_succ few
    have below := inductionHypothesis (absorb r byte) (by omega) vanishes
    have small : (absorb r byte).toNat < 2 ^ 24 :=
      below.trans_le (Nat.pow_le_pow_right (by decide) (by omega))
    have moved := shiftByte_low (r ^^^ byte.toUInt32) small
    have width : 2 ^ (8 * (byte :: rest).length) = 2 ^ 8 * 2 ^ (8 * rest.length) := by
      rw [← Nat.pow_add, List.length_cons]
      congr 1
      omega
    have sum : (r ^^^ byte.toUInt32).toNat < 2 ^ (8 * (byte :: rest).length) := by
      rw [moved, width]
      exact Nat.mul_lt_mul_of_pos_left below (by decide)
    have octet : byte.toUInt32.toNat < 2 ^ (8 * (byte :: rest).length) := by
      have bound : byte.toUInt32.toNat < 2 ^ 8 := byte.toNat_lt
      exact bound.trans_le (Nat.pow_le_pow_right (by decide) (by rw [List.length_cons]; omega))
    have whole : r ^^^ byte.toUInt32 ^^^ byte.toUInt32 = r := by
      rw [UInt32.xor_assoc, UInt32.xor_self, UInt32.xor_zero]
    rw [← whole, UInt32.toNat_xor]
    exact Nat.xor_lt_two_pow sum octet

/-- A difference of a few bytes vanishes only if it is none. -/
theorem remainder_zero (bytes : List UInt8) (few : bytes.length ≤ 4)
    (vanishes : remainder 0 bytes = 0) : ∀ byte ∈ bytes, byte = 0 := by
  induction bytes with
  | nil => exact nofun
  | cons byte rest inductionHypothesis =>
    have fewer : rest.length ≤ 3 := Nat.le_of_succ_le_succ few
    have below := remainder_low (absorb 0 byte) rest (by omega) vanishes
    have small : (absorb 0 byte).toNat < 2 ^ 24 :=
      below.trans_le (Nat.pow_le_pow_right (by decide) (by omega))
    have moved : (0 ^^^ byte.toUInt32).toNat = _ := shiftByte_low (0 ^^^ byte.toUInt32) small
    have octet : byte.toNat < 2 ^ 8 := byte.toNat_lt
    rw [UInt32.zero_xor, UInt8.toNat_toUInt32] at moved
    have none : byte = 0 := UInt8.toNat_inj.mp (show byte.toNat = 0 by omega)
    subst none
    exact List.forall_mem_cons.mpr ⟨rfl, inductionHypothesis (by omega) vanishes⟩

/-- A byte is divided out without loss. -/
theorem absorb_injective (r s : UInt32) (byte : UInt8) (same : absorb r byte = absorb s byte) :
    r = s := by
  have vanishes : shiftByte ((r ^^^ byte.toUInt32) ^^^ (s ^^^ byte.toUInt32)) = 0 := by
    rw [shiftByte_xor]
    exact UInt32.xor_eq_zero_iff.mpr same
  have none := shiftByte_low _ (by rw [vanishes]; decide)
  rw [vanishes] at none
  have zero : (r ^^^ byte.toUInt32) ^^^ (s ^^^ byte.toUInt32) = 0 := UInt32.toNat_inj.mp none
  exact (UInt32.xor_left_inj byte.toUInt32).mp (UInt32.xor_eq_zero_iff.mp zero)

/-- Remainders that differ still differ when the same bytes are divided out of both. -/
theorem remainder_injective (bytes : List UInt8) (r s : UInt32)
    (same : remainder r bytes = remainder s bytes) : r = s := by
  induction bytes generalizing r s with
  | nil => exact same
  | cons byte rest inductionHypothesis =>
    exact absorb_injective r s byte (inductionHypothesis _ _ same)

/-- Two bodies that differ within a few bytes in a row have different checksums. -/
theorem checksum_window (front window window' back : List UInt8)
    (aligned : window.length = window'.length) (few : window.length ≤ 4)
    (differs : window ≠ window') :
    checksum (front ++ window ++ back) ≠ checksum (front ++ window' ++ back) := by
  intro same
  have remainders := (UInt32.xor_left_inj 0xffffffff).mp same
  rw [remainder_append, remainder_append, remainder_append, remainder_append] at remainders
  have inside := remainder_injective back _ _ remainders
  have vanishes := remainder_xor (remainder 0xffffffff front) (remainder 0xffffffff front) window
    window' aligned
  rw [inside, UInt32.xor_self, UInt32.xor_self] at vanishes
  have short : (List.zipWith (· ^^^ ·) window window').length ≤ 4 := by
    rw [List.length_zipWith]
    omega
  have none := remainder_zero _ short vanishes
  refine differs (List.ext_getElem aligned fun i first second => ?_)
  have listed : window[i] ^^^ window'[i] ∈ List.zipWith (· ^^^ ·) window window' := by
    refine List.mem_iff_getElem.mpr ⟨i, ?_, List.getElem_zipWith⟩
    rw [List.length_zipWith]
    exact Nat.lt_min.mpr ⟨first, second⟩
  exact UInt8.xor_eq_zero_iff.mp (none _ listed)

end Crc32c

namespace Frame

/-- The bits of a word are those of its bytes, one behind the other. -/
theorem bit_wordOf (a b c d : UInt8) (i : Nat) (below : i < 32) :
    (wordOf a b c d).toBitVec.getLsbD i = (a.toBitVec.getLsbD i ||
      !decide (i < 8) && b.toBitVec.getLsbD (i - 8) ||
      !decide (i < 16) && c.toBitVec.getLsbD (i - 16) ||
      !decide (i < 24) && d.toBitVec.getLsbD (i - 24)) := by
  simp [wordOf, UInt32.toBitVec_shiftLeft, BitVec.shiftLeft_eq', below]

/-- Four bytes are those of the word that they make. The bits of the word are those of its bytes,
eight to each. -/
theorem wordBytes_of (a b c d : UInt8) : wordBytes (wordOf a b c d) = [a, b, c, d] := by
  have byte (byte : UInt8) (shift : UInt32) (places : Nat) (room : places ≤ 24)
      (moved : shift.toNat = places)
      (same : ∀ i, i < 8 → (wordOf a b c d).toBitVec.getLsbD (places + i) =
        byte.toBitVec.getLsbD i) : (wordOf a b c d >>> shift).toUInt8 = byte := by
    apply UInt8.toBitVec_inj.mp
    apply BitVec.eq_of_getLsbD_eq
    intro i below
    have within : (shift.toBitVec % 32).toNat = places := by
      change shift.toNat % 32 = places
      rw [moved, Nat.mod_eq_of_lt (by omega)]
    rw [UInt32.toBitVec_toUInt8, BitVec.getLsbD_setWidth, UInt32.toBitVec_shiftRight,
      BitVec.ushiftRight_eq', BitVec.getLsbD_ushiftRight, within, same i below]
    simp only [below, decide_true, Bool.true_and]
  have clear (byte : UInt8) (i : Nat) (high : 8 ≤ i) : byte.toBitVec.getLsbD i = false :=
    BitVec.getLsbD_of_ge _ _ high
  have first : (wordOf a b c d >>> 0).toUInt8 = a := by
    refine byte a 0 0 (by decide) rfl fun i below => ?_
    rw [bit_wordOf a b c d _ (by omega)]
    simp [show i < 8 by omega, show i < 16 by omega, show i < 24 by omega]
  have second : (wordOf a b c d >>> 8).toUInt8 = b := by
    refine byte b 8 8 (by decide) rfl fun i below => ?_
    rw [bit_wordOf a b c d _ (by omega)]
    simp [show 8 + i < 16 by omega, show 8 + i < 24 by omega]
  have third : (wordOf a b c d >>> 16).toUInt8 = c := by
    refine byte c 16 16 (by decide) rfl fun i below => ?_
    rw [bit_wordOf a b c d _ (by omega)]
    simp [clear a (16 + i) (by omega), clear b (16 + i - 8) (by omega),
      show 16 + i < 24 by omega]
  have fourth : (wordOf a b c d >>> 24).toUInt8 = d := by
    refine byte d 24 24 (by decide) rfl fun i below => ?_
    rw [bit_wordOf a b c d _ (by omega)]
    simp [clear a (24 + i) (by omega), clear b (24 + i - 8) (by omega),
      clear c (24 + i - 16) (by omega)]
  rw [UInt32.shiftRight_zero] at first
  rw [wordBytes, first, second, third, fourth]

/-- A frame whose checksum is not that of its body is refused, whatever stands behind it. -/
theorem next?_mismatch (checksum : UInt32) (body rest : List UInt8)
    (small : body.length ≤ maxBody) (buffer : ByteArray) (held : buffer.data.toList =
      wordBytes (UInt32.ofNat (headerSize + body.length)) ++ wordBytes checksum ++ body ++ rest)
    (mismatch : Crc32c.checksum body ≠ checksum) :
    next? buffer = .error (.checksumMismatch checksum (Crc32c.checksum body)) := by
  rw [next?_framed checksum body rest small buffer held, openBody]
  dsimp only
  rw [if_pos mismatch]

/-- One list differs from another of its length, and nowhere but between two positions. -/
structure Alters (start width : Nat) (frame altered : List UInt8) : Prop where
  length : altered.length = frame.length
  differs : altered ≠ frame
  outside (i : Nat) : i < start ∨ start + width ≤ i → altered[i]? = frame[i]?

/-- What was altered is replaced between parts that were left as they were. -/
theorem Alters.parts {start width : Nat} {frame altered : List UInt8}
    (alters : Alters start width frame altered) (within : start + width ≤ frame.length) :
    ∃ window window', window.length = width ∧ window'.length = width ∧ window ≠ window' ∧
      frame = frame.take start ++ window ++ frame.drop (start + width) ∧
      altered = frame.take start ++ window' ++ frame.drop (start + width) := by
  have front : altered.take start = frame.take start := by
    apply List.ext_getElem?
    intro i
    rw [List.getElem?_take, List.getElem?_take]
    split
    · next below => exact alters.outside i (.inl below)
    · rfl
  have back : altered.drop (start + width) = frame.drop (start + width) := by
    apply List.ext_getElem?
    intro i
    rw [List.getElem?_drop, List.getElem?_drop]
    exact alters.outside _ (.inr (Nat.le_add_right _ _))
  have parts (bytes : List UInt8) :
      bytes = bytes.take start ++ (bytes.drop start).take width ++ bytes.drop (start + width) := by
    rw [List.append_assoc, ← List.drop_drop, List.take_append_drop, List.take_append_drop]
  have length (bytes : List UInt8) (room : start + width ≤ bytes.length) :
      ((bytes.drop start).take width).length = width := by
    rw [List.length_take, List.length_drop]
    omega
  have altered_eq := parts altered
  rw [front, back] at altered_eq
  refine ⟨_, _, length frame within, length altered (alters.length ▸ within), ?_, parts frame,
    altered_eq⟩
  intro same
  rw [← same, ← parts frame] at altered_eq
  exact alters.differs altered_eq

/-- A body that was altered within a few bytes in a row does not fit the checksum of its header. -/
theorem next?_altered_body (front window window' back rest : List UInt8)
    (aligned : window.length = window'.length) (few : window.length ≤ 4)
    (differs : window ≠ window') (small : (front ++ window ++ back).length ≤ maxBody)
    (buffer : ByteArray) (held : buffer.data.toList =
      headerBytes (front ++ window ++ back) ++ (front ++ window' ++ back) ++ rest) :
    next? buffer = .error (.checksumMismatch (Crc32c.checksum (front ++ window ++ back))
      (Crc32c.checksum (front ++ window' ++ back))) := by
  have length : (front ++ window ++ back).length = (front ++ window' ++ back).length := by
    simp only [List.length_append, aligned]
  rw [headerBytes, length] at held
  exact next?_mismatch _ _ rest (length ▸ small) buffer held
    (Crc32c.checksum_window front window window' back aligned few differs).symm

/-- A header that holds other bytes for the checksum does not fit its body. -/
theorem next?_altered_checksum (a b c d : UInt8) (body rest : List UInt8)
    (differs : wordBytes (Crc32c.checksum body) ≠ [a, b, c, d]) (small : body.length ≤ maxBody)
    (buffer : ByteArray) (held : buffer.data.toList =
      wordBytes (UInt32.ofNat (headerSize + body.length)) ++ [a, b, c, d] ++ body ++ rest) :
    next? buffer = .error (.checksumMismatch (wordOf a b c d) (Crc32c.checksum body)) := by
  rw [← wordBytes_of a b c d] at held differs
  refine next?_mismatch _ body rest small buffer held fun same => differs ?_
  rw [same]

/-- A frame that was altered within four bytes in a row of its body, or within the bytes of its
checksum, is refused for its checksum: the one that it holds is not that of its body. -/
theorem next?_corrupted (e : Envelope) (frame altered rest : List UInt8)
    (encoded : encode e = .ok frame) (start width : Nat)
    (window : headerSize ≤ start ∧ start + width ≤ frame.length ∧ width ≤ 4 ∨
      start = 4 ∧ width = 4)
    (alters : Alters start width frame altered) :
    ∃ expected, wordBytes expected = (altered.drop 4).take 4 ∧
      next? ⟨(altered ++ rest).toArray⟩ =
        .error (.checksumMismatch expected (Crc32c.checksum (altered.drop headerSize))) := by
  obtain ⟨rfl, small⟩ := encode_eq e frame encoded
  generalize e.toJson.render = body at *
  obtain ⟨inBody, inside, few⟩ | ⟨rfl, rfl⟩ := window
  · obtain ⟨bytes, bytes', length, length', differs, framed, altered_eq⟩ := alters.parts inside
    obtain ⟨before, rfl⟩ := Nat.exists_eq_add_of_le inBody
    -- The header was left as it is, and the altered body is as long as it says.
    have header : (headerBytes body ++ body).take (headerSize + before) =
        headerBytes body ++ body.take before := by
      rw [← headerBytes_length body, List.take_length_add_append]
    rw [header, List.append_assoc (headerBytes body), List.append_assoc (headerBytes body)]
      at framed altered_eq
    generalize body.take before = front, List.drop _ _ = back at framed altered_eq
    have body_eq := List.append_cancel_left framed
    subst body_eq altered_eq
    rw [List.drop_left' (headerBytes_length (front ++ bytes ++ back))]
    refine ⟨Crc32c.checksum (front ++ bytes ++ back), rfl, ?_⟩
    exact next?_altered_body front bytes bytes' back rest (length.trans length'.symm)
      (length.trans_le few) differs small ⟨_⟩ rfl
  · have inside : 4 + 4 ≤ (headerBytes body ++ body).length := Nat.le_add_left 8 body.length
    obtain ⟨bytes, bytes', length, length', differs, framed, altered_eq⟩ := alters.parts inside
    obtain ⟨a, b, c, d, rfl⟩ := List.length_eq_four.mp length'
    have checksum : wordBytes (Crc32c.checksum body) = bytes :=
      List.append_cancel_left (List.append_cancel_right framed)
    subst checksum altered_eq
    refine ⟨wordOf a b c d, wordBytes_of a b c d, ?_⟩
    exact next?_altered_checksum a b c d body rest differs small ⟨_⟩ rfl

/-- The frame of an acknowledgement that has its first brace overwritten is refused, and so is the
frame that has the first byte of its checksum overwritten, whatever stands behind it. -/
theorem overwritten_refused : ∃ frame, encode (Body.ack.envelope 0 7) = .ok frame ∧
    (∃ expected, wordBytes expected = ((frame.set 8 0).drop 4).take 4 ∧
      next? ⟨(frame.set 8 0 ++ []).toArray⟩ =
        .error (.checksumMismatch expected
          (Crc32c.checksum ((frame.set 8 0).drop headerSize)))) ∧
    ∃ expected, wordBytes expected = ((frame.set 4 0).drop 4).take 4 ∧
      next? ⟨(frame.set 4 0 ++ [8, 0]).toArray⟩ =
        .error (.checksumMismatch expected
          (Crc32c.checksum ((frame.set 4 0).drop headerSize))) := by
  have encoded := encode_small (Body.ack.envelope 0 7) (by decide +kernel)
  refine ⟨_, encoded, ?_, ?_⟩
  · refine next?_corrupted _ _ _ [] encoded 8 1 (.inl ⟨Nat.le_refl 8, ?_, by decide⟩)
      ⟨List.length_set, ?_, fun i outside => List.getElem?_set_ne (by omega)⟩
    · decide +kernel
    · decide +kernel
  · refine next?_corrupted _ _ _ [8, 0] encoded 4 4 (.inr ⟨rfl, rfl⟩)
      ⟨List.length_set, ?_, fun i outside => List.getElem?_set_ne (by omega)⟩
    decide +kernel

end Frame

end Courier
