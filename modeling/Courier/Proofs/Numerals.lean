import Courier.Json.Reader
import Mathlib.Data.List.TakeWhile

/-!
# Spelled numbers

A natural number is spelled by its decimal digits, without a leading zero. Reading the
spelling gives the number back as long as it fits sixty-four bits; the spelling of a larger
one is never read as a number of sixty-four bits.
-/

namespace Courier.Json

/-- The spelling of a natural number. -/
def natLexeme (n : Nat) : List UInt8 := intLexeme n

/-- The byte of a decimal digit. -/
def digitByte (d : Nat) : UInt8 := UInt8.ofNat d.digitChar.toNat

/-- The bytes of the ten digits are digits, stand for their values, and only the first is zero. -/
theorem digitByte_all : ∀ d : Fin 10, isDigit (digitByte d) = true ∧
    (digitByte d).toNat - 48 = d.val ∧ (digitByte d = 48 ↔ d.val = 0) := by decide

/-- The byte of a digit is a digit, stands for its value, and is zero only for zero. -/
theorem digitByte_spec (d : Nat) (small : d < 10) : isDigit (digitByte d) = true ∧
    (digitByte d).toNat - 48 = d ∧ (digitByte d = 48 ↔ d = 0) := digitByte_all ⟨d, small⟩

/-- A number is spelled by its digits alone. -/
theorem natLexeme_spelled (n : Nat) :
    natLexeme n = (Nat.toDigits 10 n).map fun c => UInt8.ofNat c.toNat := by
  have positive : ¬ (n : Int) < 0 := by omega
  simp [natLexeme, intLexeme, Decimal.signed, Decimal.digitsOf, positive]

/-- The digits of a number are those of its tenth and one more. -/
theorem natLexeme_eq (n : Nat) : natLexeme n =
    if n < 10 then [digitByte n] else natLexeme (n / 10) ++ [digitByte (n % 10)] := by
  rw [natLexeme_spelled, natLexeme_spelled, Nat.toDigits_eq_if (by decide)]
  split
  · rfl
  · rw [List.map_append]
    rfl

/-- A number is spelled by digits. -/
theorem natLexeme_digits (n : Nat) : ∀ b ∈ natLexeme n, isDigit b = true := by
  induction n using Nat.strongRecOn with
  | ind n inductionHypothesis =>
    rw [natLexeme_eq]
    intro b listed
    split at listed
    · next small =>
      rw [List.mem_singleton.mp listed]
      exact (digitByte_spec n small).1
    · next large =>
      rcases List.mem_append.mp listed with front | last
      · exact inductionHypothesis (n / 10) (by omega) b front
      · rw [List.mem_singleton.mp last]
        exact (digitByte_spec (n % 10) (by omega)).1

/-- The number that digits stand for, behind a number read before them. -/
def numeralOnto (before : Nat) (digits : List UInt8) : Nat :=
  digits.foldl (fun n b => 10 * n + (b.toNat - 48)) before

/-- The digits of a number stand for the number. -/
theorem numeral_natLexeme (n : Nat) : numeralOnto 0 (natLexeme n) = n := by
  induction n using Nat.strongRecOn with
  | ind n inductionHypothesis =>
    rw [natLexeme_eq]
    split
    · next small =>
      change 10 * 0 + ((digitByte n).toNat - 48) = n
      rw [(digitByte_spec n small).2.1]
      omega
    · next large =>
      have front := inductionHypothesis (n / 10) (by omega)
      unfold numeralOnto at front ⊢
      rw [List.foldl_append, front]
      change 10 * (n / 10) + ((digitByte (n % 10)).toNat - 48) = n
      rw [(digitByte_spec (n % 10) (by omega)).2.1]
      omega

/-- A number is spelled by one digit at least. -/
theorem natLexeme_ne_nil (n : Nat) : natLexeme n ≠ [] := by
  rw [natLexeme_eq]
  split <;> simp

/-- Only zero is spelled with a zero in front, and with nothing else. -/
theorem natLexeme_cons (n : Nat) : ∃ b rest, natLexeme n = b :: rest ∧ isDigit b = true ∧
    (b = 48 → rest = []) ∧ ∀ d ∈ rest, isDigit d = true := by
  have digits := natLexeme_digits n
  have lead : ∀ rest, natLexeme n = 48 :: rest → n = 0 := by
    induction n using Nat.strongRecOn with
    | ind n inductionHypothesis =>
      intro rest spelled
      rw [natLexeme_eq] at spelled
      split at spelled
      · next small =>
        obtain ⟨same, _⟩ := List.cons.inj spelled
        exact (digitByte_spec n small).2.2.mp same
      · next large =>
        cases front : natLexeme (n / 10) with
        | nil => exact absurd front (natLexeme_ne_nil _)
        | cons b more =>
          rw [front] at spelled
          obtain ⟨rfl, _⟩ := List.cons.inj spelled
          have zero := inductionHypothesis (n / 10) (by omega) (natLexeme_digits _) more front
          omega
  cases spelled : natLexeme n with
  | nil => exact absurd spelled (natLexeme_ne_nil n)
  | cons b rest =>
    rw [spelled] at digits
    refine ⟨b, rest, rfl, digits b List.mem_cons_self, ?_, ?_⟩
    · rintro rfl
      have zero := lead rest spelled
      subst zero
      cases spelled
      rfl
    · exact fun d listed => digits d (List.mem_cons_of_mem _ listed)

/-- A number of at most `k` digits is below the power of ten. -/
theorem natLexeme_length (n k : Nat) (positive : 0 < k) (small : n < Nat.pow 10 k) :
    (natLexeme n).length ≤ k := by
  have unsigned : ¬ (n : Int) < 0 := by omega
  simp only [natLexeme, intLexeme, Decimal.signed, Decimal.digitsOf, unsigned, decide_false,
    Bool.false_eq_true, if_false, List.length_map, Int.natAbs_natCast]
  exact (Nat.length_toDigits_le_iff (by decide) positive).mpr small

/-- Digits grow a number. -/
theorem le_numeralOnto (before : Nat) (digits : List UInt8) :
    before ≤ numeralOnto before digits := by
  induction digits generalizing before with
  | nil => exact Nat.le_refl before
  | cons b rest inductionHypothesis =>
    have grown := inductionHypothesis (10 * before + (b.toNat - 48))
    change before ≤ numeralOnto (10 * before + (b.toNat - 48)) rest
    omega

/-- Digits are gathered completely exactly if what they stand for is within the limit. -/
theorem gather_eq (limit before : Nat) (digits : List UInt8) (within : before ≤ limit) :
    (numeralOnto before digits ≤ limit →
      gather limit before digits = (numeralOnto before digits, [])) ∧
      (limit < numeralOnto before digits → (gather limit before digits).2 ≠ []) := by
  induction digits generalizing before with
  | nil =>
    refine ⟨fun _ => rfl, fun beyond => ?_⟩
    change limit < before at beyond
    omega
  | cons b rest inductionHypothesis =>
    have next :
        numeralOnto before (b :: rest) = numeralOnto (10 * before + (b.toNat - 48)) rest := rfl
    rw [next, gather]
    by_cases fits : 10 * before + (b.toNat - 48) ≤ limit
    · simp only [fits, if_true]
      exact inductionHypothesis _ fits
    · have grown := le_numeralOnto (10 * before + (b.toNat - 48)) rest
      simp only [fits, if_false]
      refine ⟨fun small => absurd (Nat.le_trans grown small) fits, fun _ => by simp⟩

/-- The spelling of an integer: its digits, behind a minus if it is negative. -/
theorem intLexeme_eq (value : Int) : intLexeme value =
    if value < 0 then 45 :: natLexeme value.natAbs else natLexeme value.natAbs := by
  rw [natLexeme_spelled]
  unfold intLexeme Decimal.signed
  by_cases negative : value < 0
  · rw [if_pos negative, if_pos (decide_eq_true negative)]
    rfl
  · rw [if_neg negative, if_neg (mt of_decide_eq_true negative)]
    rfl

/-- The parts of a spelled integer. -/
theorem ofLexeme_intLexeme (value : Int) :
    Numeral.ofLexeme (intLexeme value) =
      ⟨decide (value < 0), natLexeme value.natAbs, [], none⟩ := by
  obtain ⟨b, rest, spelled, digit, _, digits⟩ := natLexeme_cons value.natAbs
  have unsigned : b ≠ 45 := by
    rintro rfl
    cases digit
  have taken : (natLexeme value.natAbs).takeWhile isDigit = natLexeme value.natAbs :=
    List.takeWhile_eq_self_iff.mpr (natLexeme_digits _)
  have dropped : (natLexeme value.natAbs).dropWhile isDigit = [] :=
    List.dropWhile_eq_nil_iff.mpr (natLexeme_digits _)
  unfold Numeral.ofLexeme
  rw [intLexeme_eq]
  by_cases negative : value < 0
  · simp only [negative, if_true, decide_true, taken, dropped]
  · simp only [negative, if_false, decide_false]
    rw [spelled] at taken dropped ⊢
    split
    · next other heading => exact absurd (List.cons.inj heading).1 unsigned
    · simp only [taken, dropped]

/-- An integer of sixty-four bits is read from its spelling. -/
theorem ofLexeme?_intLexeme (value : Int) (low : -maxNegative ≤ value)
    (high : value ≤ maxWord) :
    Number.ofLexeme? (intLexeme value) = some (.int value) := by
  have limits : maxNegative ≤ maxWord := by decide
  have small : value.natAbs ≤ maxWord := by omega
  have spelled := numeral_natLexeme value.natAbs
  obtain ⟨within, _⟩ := gather_eq maxWord 0 (natLexeme value.natAbs) (Nat.zero_le _)
  rw [spelled] at within
  rw [Number.ofLexeme?, ofLexeme_intLexeme, Numeral.value?]
  simp only [within small, List.isEmpty_nil, Option.isNone_none, and_self, if_true,
    decide_eq_true_eq]
  by_cases negative : value < 0
  · have bounded : ¬ (value.natAbs = 0 ∨ maxNegative < value.natAbs) := by omega
    have same : -(value.natAbs : Int) = value := by omega
    rw [if_pos negative, if_neg bounded, same]
  · have same : (value.natAbs : Int) = value := by omega
    rw [if_neg negative, same]

/-- The spelling of a number is read as its digits, without a sign, a fraction or an exponent. -/
theorem ofLexeme_natLexeme (n : Nat) :
    Numeral.ofLexeme (natLexeme n) = ⟨false, natLexeme n, [], none⟩ := by
  have positive : ¬ (n : Int) < 0 := by omega
  have parts := ofLexeme_intLexeme n
  simp only [positive, decide_false, Int.natAbs_natCast] at parts
  exact parts

/-- A spelled natural number is read as it was, and never as another number of sixty-four
bits. -/
theorem ofLexeme_natLexeme_int (n : Nat) (value : Int)
    (read : Number.ofLexeme? (natLexeme n) = some (.int value)) : value = n ∧ n ≤ maxWord := by
  have spelled := numeral_natLexeme n
  obtain ⟨within, beyond⟩ := gather_eq maxWord 0 (natLexeme n) (Nat.zero_le _)
  rw [spelled] at within beyond
  rw [Number.ofLexeme?, ofLexeme_natLexeme, Numeral.value?] at read
  by_cases small : n ≤ maxWord
  · simp only [within small, List.isEmpty_nil, Option.isNone_none, and_self, if_true,
      Bool.false_eq_true, if_false, Option.some.injEq, Number.int.injEq] at read
    exact ⟨read.symm, small⟩
  · have unread := beyond (Nat.lt_of_not_le small)
    have some' : ((gather maxWord 0 (natLexeme n)).2).isEmpty = false := by simpa using unread
    simp only [some', List.isEmpty_nil, Option.isNone_none, Bool.false_eq_true, and_false,
      if_false, scaled, Option.map_eq_some_iff, reduceCtorEq, and_false, exists_false] at read

/-- A word is read from the spelling of a number exactly if the number fits sixty-four bits. -/
theorem word?_natLexeme (n : Nat) :
    word? (Raw.number (natLexeme n)) = if n ≤ maxWord then some n else none := by
  have looked : Readable.look (Raw.number (natLexeme n)) =
      ((Number.ofLexeme? (natLexeme n)).map Look.num).getD .unreadable := rfl
  unfold word? natUpTo?
  rw [looked]
  by_cases small : n ≤ maxWord
  · rw [natLexeme, ofLexeme?_intLexeme n (by omega) (by omega), if_pos small]
    have bounds : (0 : Int) ≤ n ∧ (n : Int) ≤ maxWord := ⟨by omega, by omega⟩
    simp only [Option.map_some, Option.getD_some, bounds, and_self, if_true, Int.toNat_natCast]
  · rw [if_neg small]
    cases read : Number.ofLexeme? (natLexeme n) with
    | none => rfl
    | some number =>
      cases number with
      | int value => exact absurd (ofLexeme_natLexeme_int n value read).2 small
      | float value => rfl

end Courier.Json
