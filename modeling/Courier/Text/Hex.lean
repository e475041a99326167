/-!
# Hexadecimal text

Bytes are written as two lower-case digits each, the high half first. Reading
accepts either letter case and refuses an odd number of digits and every other
character. Reading what was written gives the bytes back, and written text has
exactly twice as many characters as there were bytes.
-/

namespace Courier.Hex

/-- The lower-case digit of a value below sixteen. -/
def digit (n : Nat) : Char :=
  if n < 10 then Char.ofNat (48 + n) else Char.ofNat (87 + n)

/-- The value of a digit in either letter case. -/
def value? (c : Char) : Option Nat :=
  if '0' ≤ c ∧ c ≤ '9' then some (c.toNat - 48)
  else if 'a' ≤ c ∧ c ≤ 'f' then some (c.toNat - 87)
  else if 'A' ≤ c ∧ c ≤ 'F' then some (c.toNat - 55)
  else none

/-- The two digits of one byte. -/
def pair (b : UInt8) : List Char := [digit (b.toNat / 16), digit (b.toNat % 16)]

/-- The written form of a byte sequence. -/
def encode (bytes : List UInt8) : List Char := bytes.flatMap pair

/-- The written form of a byte sequence, as text. -/
def text (bytes : List UInt8) : String := String.ofList (encode bytes)

/-- Read digit pairs behind the bytes already read, which are held latest first. -/
def decodeOnto (read : List UInt8) : List Char → Option (List UInt8)
  | [] => some read.reverse
  | [_] => none
  | high :: low :: rest =>
    match value? high, value? low with
    | some h, some l => decodeOnto (UInt8.ofNat (16 * h + l) :: read) rest
    | _, _ => none

/-- The bytes a text stands for, when it is a sequence of digit pairs. -/
def decode? (text : List Char) : Option (List UInt8) := decodeOnto [] text

/-- Whether a character is one that `digit` writes. -/
def isLower (c : Char) : Bool := ('0' ≤ c && c ≤ '9') || ('a' ≤ c && c ≤ 'f')

/-- A number in exactly `width` digits; higher places are dropped. -/
def ofNat (width n : Nat) : List Char :=
  (List.range width).reverse.map fun place => digit (n / Nat.pow 16 place % 16)

/-- The sixteen digits stand for their values. -/
theorem value_digit_all : ∀ n : Fin 16, value? (digit n) = some n.val := by decide

/-- A digit stands for its value. -/
theorem value_digit (n : Nat) (small : n < 16) : value? (digit n) = some n :=
  value_digit_all ⟨n, small⟩

/-- The sixteen digits are digits in lower case. -/
theorem digit_lower_all : ∀ n : Fin 16, isLower (digit n) = true := by decide

/-- A digit is a digit in lower case. -/
theorem digit_lower (n : Nat) (small : n < 16) : isLower (digit n) = true :=
  digit_lower_all ⟨n, small⟩

/-- One written byte is read back and added to the bytes read before it. -/
theorem decodeOnto_pair (read : List UInt8) (b : UInt8) (rest : List Char) :
    decodeOnto read (pair b ++ rest) = decodeOnto (b :: read) rest := by
  have bound : b.toNat < 256 := b.toNat_lt
  have whole : 16 * (b.toNat / 16) + b.toNat % 16 = b.toNat := by omega
  simp only [pair, List.cons_append, List.nil_append, decodeOnto,
    value_digit (b.toNat / 16) (by omega), value_digit (b.toNat % 16) (by omega), whole,
    UInt8.ofNat_toNat]

/-- The digits of some bytes are read back as the bytes, behind what was read before. -/
theorem decodeOnto_encode (read bytes : List UInt8) :
    decodeOnto read (encode bytes) = some (read.reverse ++ bytes) := by
  induction bytes generalizing read with
  | nil => simp [encode, decodeOnto]
  | cons b rest inductionHypothesis =>
    change decodeOnto read (pair b ++ encode rest) = _
    rw [decodeOnto_pair, inductionHypothesis]
    simp

/-- Reading a written byte sequence gives it back. -/
theorem decode_encode (bytes : List UInt8) : decode? (encode bytes) = some bytes :=
  decodeOnto_encode [] bytes

/-- Each byte takes two characters. -/
theorem encode_length (bytes : List UInt8) : (encode bytes).length = 2 * bytes.length := by
  induction bytes with
  | nil => rfl
  | cons b rest inductionHypothesis =>
    change (pair b ++ encode rest).length = _
    rw [List.length_append, inductionHypothesis]
    simp only [pair, List.length_cons, List.length_nil]
    omega

/-- Written text holds lower-case digits only. -/
theorem encode_lower (bytes : List UInt8) : (encode bytes).all isLower = true := by
  rw [List.all_eq_true]
  intro c member
  obtain ⟨b, _, inPair⟩ := List.mem_flatMap.mp member
  have bound : b.toNat < 256 := b.toNat_lt
  simp only [pair, List.mem_cons, List.not_mem_nil, or_false] at inPair
  rcases inPair with rfl | rfl
  · exact digit_lower _ (by omega)
  · exact digit_lower _ (by omega)

end Courier.Hex
