import Courier.Json.Text

/-!
# Written texts are read back

Inside a string a character is spelled in one of three ways: behind a backslash with a
letter of its own, by four hexadecimal digits if it is a control character without such a
letter, and otherwise by its bytes. Each way is undone by reading, so every text is read
back from its spelling; and the spelling holds neither a quote nor a control character
that would end or spoil the string.
-/

namespace Courier.Json

/-- A character of ASCII is its own byte. -/
theorem charBytes_small (c : Char) (small : c.toNat < 128) :
    charBytes c = [UInt8.ofNat c.toNat] := by
  have bound : c.val.toNat ≤ 0x7f := Nat.le_of_lt_succ small
  unfold charBytes String.utf8EncodeChar
  simp only [bound, if_true]
  rfl

/-- The bytes of every other character are beyond ASCII. -/
theorem charBytes_large (c : Char) (large : 128 ≤ c.toNat) :
    ∀ b ∈ charBytes c, 128 ≤ b.toNat := by
  have bound : ¬ c.val.toNat ≤ 0x7f := Nat.not_le_of_lt large
  have beyond (n k : Nat) (high : 128 ≤ k) (within : n + k < 256) :
      128 ≤ (UInt8.ofNat (n + k)).toNat := by
    rw [UInt8.toNat_ofNat_of_lt' within]
    omega
  intro b listed
  unfold charBytes String.utf8EncodeChar at listed
  simp only [bound, if_false] at listed
  split at listed
  · simp only [List.mem_cons, List.not_mem_nil, or_false] at listed
    rcases listed with rfl | rfl <;> exact beyond _ _ (by decide) (by omega)
  · split at listed
    · simp only [List.mem_cons, List.not_mem_nil, or_false] at listed
      rcases listed with rfl | rfl | rfl <;> exact beyond _ _ (by decide) (by omega)
    · simp only [List.mem_cons, List.not_mem_nil, or_false] at listed
      rcases listed with rfl | rfl | rfl | rfl <;> exact beyond _ _ (by decide) (by omega)

/-- The three ways to spell a character inside a string. -/
inductive Spelled (c : Char) : List UInt8 → Prop where
  | letter (b value : UInt8) (escapes : isEscape b = true) (other : b ≠ 117)
      (stands : escapeValue? b = some value) (means : charBytes c = [value]) :
      Spelled c [92, b]
  | digits (x y z w : UInt8) (hexadecimal : ∀ b ∈ [x, y, z, w], isHexDigit b = true)
      (value : hexQuad? x y z w = some c.toNat) (control : c.toNat < 32) :
      Spelled c [92, 117, x, y, z, w]
  | itself (harmless : ∀ b ∈ charBytes c, ¬ b < 32 ∧ b ≠ 34 ∧ b ≠ 92) :
      Spelled c (charBytes c)

/-- Four digits spell each control character. -/
theorem controlDigits_all : ∀ n : Fin 32,
    (match (Hex.ofNat 4 n).flatMap charBytes with
    | [x, y, z, w] => [x, y, z, w].all isHexDigit && hexQuad? x y z w == some n.val
    | _ => false) = true := by decide

/-- A control character is spelled by four hexadecimal digits. -/
theorem spelled_control (c : Char) (control : c.toNat < 32) :
    Spelled c ([92, 117] ++ (Hex.ofNat 4 c.toNat).flatMap charBytes) := by
  have digits := controlDigits_all ⟨c.toNat, control⟩
  dsimp only at digits
  split at digits
  · next x y z w spelling =>
    rw [Bool.and_eq_true, List.all_eq_true, beq_iff_eq] at digits
    rw [spelling]
    exact .digits x y z w digits.1 digits.2 control
  · cases digits

/-- A character with a letter of its own is spelled by that letter behind a backslash. -/
theorem spelled_letter (c : Char) (b : UInt8) (escapes : isEscape b = true) (other : b ≠ 117)
    (small : c.toNat < 128) (stands : escapeValue? b = some (UInt8.ofNat c.toNat)) :
    Spelled c [92, b] := .letter b _ escapes other stands (charBytes_small c small)

/-- Each character is spelled in one of the three ways. The cases are those of the table of escapes;
behind them a character is a control character or stands for itself. -/
theorem escapeChar_spelled (c : Char) : Spelled c (escapeChar c) := by
  unfold escapeChar
  split
  · next quote => subst quote; exact spelled_letter '"' 34 rfl (by decide) (by decide) rfl
  split
  · next slash => subst slash; exact spelled_letter '\\' 92 rfl (by decide) (by decide) rfl
  split
  · next eight =>
    exact spelled_letter c 98 rfl (by decide) (by omega) (by rw [eight]; rfl)
  split
  · next twelve =>
    exact spelled_letter c 102 rfl (by decide) (by omega) (by rw [twelve]; rfl)
  split
  · next ten =>
    exact spelled_letter c 110 rfl (by decide) (by omega) (by rw [ten]; rfl)
  split
  · next thirteen =>
    exact spelled_letter c 114 rfl (by decide) (by omega) (by rw [thirteen]; rfl)
  split
  · next nine =>
    exact spelled_letter c 116 rfl (by decide) (by omega) (by rw [nine]; rfl)
  split
  · next control => exact spelled_control c control
  next quote slash _ _ _ _ _ control =>
  refine .itself fun b listed => ?_
  by_cases small : c.toNat < 128
  · rw [charBytes_small c small, List.mem_singleton] at listed
    subst listed
    have value : (UInt8.ofNat c.toNat).toNat = c.toNat :=
      UInt8.toNat_ofNat_of_lt' (Nat.lt_trans small (by decide))
    have apart (d : Char) (unlike : c ≠ d) : c.toNat ≠ d.toNat := fun same =>
      unlike (Char.ext (UInt32.toNat_inj.mp same))
    refine ⟨fun low => ?_, fun same => ?_, fun same => ?_⟩
    · rw [UInt8.lt_iff_toNat_lt, value] at low
      exact control low
    · exact apart '"' quote (value.symm.trans (congrArg UInt8.toNat same))
    · exact apart '\\' slash (value.symm.trans (congrArg UInt8.toNat same))
  · have high := charBytes_large c (by omega) b listed
    refine ⟨fun low => ?_, ?_, ?_⟩
    · rw [UInt8.lt_iff_toNat_lt] at low
      have : (32 : UInt8).toNat = 32 := rfl
      omega
    · rintro rfl
      exact absurd high (by decide)
    · rintro rfl
      exact absurd high (by decide)

/-- Bytes other than the backslash stand for themselves. -/
theorem unescapeOnto_itself (undone raw rest : List UInt8) (plain : ∀ b ∈ raw, b ≠ 92) :
    unescapeOnto undone (raw ++ rest) = unescapeOnto (raw.reverse ++ undone) rest := by
  induction raw generalizing undone with
  | nil => rfl
  | cons b more inductionHypothesis =>
    have other : b ≠ 92 := plain b List.mem_cons_self
    have onward := inductionHypothesis (b :: undone)
      fun b listed => plain b (List.mem_cons_of_mem _ listed)
    rw [List.cons_append, unescapeOnto, if_neg other, onward, List.reverse_cons, List.append_assoc]
    · rfl
    · intro _ _ _ _ _ same
      exact absurd same other
    · intro _ _ same
      exact absurd same other

/-- The spelling of a character is undone to its bytes. -/
theorem Spelled.undone {c : Char} {spelling : List UInt8} (spelled : Spelled c spelling)
    (undone rest : List UInt8) : unescapeOnto undone (spelling ++ rest) =
      unescapeOnto ((charBytes c).reverse ++ undone) rest := by
  cases spelled with
  | letter b value escapes other stands means =>
    change unescapeOnto undone (92 :: b :: rest) = _
    rw [unescapeOnto, stands, means]
    · rfl
    · intro _ _ _ _ _ same
      exact absurd same other
  | digits x y z w hexadecimal value control =>
    change unescapeOnto undone (92 :: 117 :: x :: y :: z :: w :: rest) = _
    have itself : Char.ofNat c.toNat = c := Char.ofNat_toNat c
    rw [unescapeOnto, value]
    dsimp only
    rw [if_neg (by omega), if_neg (by omega), itself]
  | itself harmless =>
    exact unescapeOnto_itself undone _ rest fun b listed => (harmless b listed).2.2

/-- The spelling of a text is read back as the text, behind what was read before. -/
theorem unescapeOnto_text (undone : List UInt8) (chars : List Char) :
    unescapeOnto undone (chars.flatMap escapeChar) =
      some (undone.reverse ++ chars.flatMap charBytes) := by
  induction chars generalizing undone with
  | nil => simp [unescapeOnto]
  | cons c rest inductionHypothesis =>
    rw [List.flatMap_cons, (escapeChar_spelled c).undone, inductionHypothesis, List.flatMap_cons]
    simp

/-- Every text is read back from its spelling. -/
theorem readText?_escapeText (text : String) : readText? (escapeText text) = some text := by
  have encoded : (text.toList.flatMap charBytes).toByteArray = text.toByteArray :=
    String.utf8Encode_toList
  rw [readText?, escapeText, unescapeOnto_text]
  simp only [List.reverse_nil, List.nil_append, Option.bind_some]
  rw [textOf?, encoded, String.fromUTF8?, dif_pos text.isValidUTF8]
  rfl

end Courier.Json
