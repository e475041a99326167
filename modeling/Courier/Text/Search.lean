/-!
# Searching text

Containment and the last occurrence of a pattern, on characters. The split at the
last occurrence is exact: pattern and both sides give the text back, and the pattern
does not occur in what follows its first character.
-/

namespace Courier.Text

/-- Whether a pattern occurs somewhere in a text. -/
def occurs (pattern : List Char) : List Char → Bool
  | [] => pattern.isEmpty
  | c :: rest => pattern.isPrefixOf (c :: rest) || occurs pattern rest

/-- The text before and after the last occurrence of a pattern. -/
def splitLast? (pattern : List Char) : List Char → Option (List Char × List Char)
  | [] => if pattern.isEmpty then some ([], []) else none
  | c :: rest =>
    match splitLast? pattern rest with
    | some (front, back) => some (c :: front, back)
    | none =>
      if pattern.isPrefixOf (c :: rest) then some ([], (c :: rest).drop pattern.length) else none

/-- The pieces of a text between separators, the empty ones left out. -/
def fields (separator : Char) (text : List Char) : List (List Char) :=
  (text.splitOn separator).filter (· ≠ [])

/-- A pattern occurs in a text when the text has it as a part. -/
theorem occurs_iff (pattern text : List Char) : occurs pattern text = true ↔ pattern <:+: text := by
  induction text with
  | nil => simp only [occurs, List.isEmpty_iff, List.infix_nil]
  | cons c rest inductionHypothesis =>
    rw [occurs, Bool.or_eq_true, List.isPrefixOf_iff_prefix, inductionHypothesis,
      List.infix_cons_iff]

/-- There is a split exactly when the pattern occurs. -/
theorem splitLast_isSome (pattern text : List Char) :
    (splitLast? pattern text).isSome = occurs pattern text := by
  induction text with
  | nil =>
    simp only [splitLast?, occurs]
    cases pattern.isEmpty <;> rfl
  | cons c rest inductionHypothesis =>
    simp only [splitLast?, occurs, ← inductionHypothesis]
    cases splitLast? pattern rest with
    | some found => simp
    | none => cases pattern.isPrefixOf (c :: rest) <;> rfl

/-- A split at an occurrence of the pattern gives the text back. -/
theorem splitLast_append (pattern text front back : List Char)
    (split : splitLast? pattern text = some (front, back)) : front ++ pattern ++ back = text := by
  induction text generalizing front with
  | nil =>
    simp only [splitLast?, List.isEmpty_iff] at split
    split at split
    · simp_all
    · cases split
  | cons c rest inductionHypothesis =>
    simp only [splitLast?] at split
    split at split
    · next found =>
      simp only [Option.some.injEq, Prod.mk.injEq] at split
      obtain ⟨rfl, rfl⟩ := split
      simp [← inductionHypothesis _ found]
    · split at split
      · next here =>
        simp only [Option.some.injEq, Prod.mk.injEq] at split
        obtain ⟨rfl, rfl⟩ := split
        obtain ⟨tail, equal⟩ := List.isPrefixOf_iff_prefix.mp here
        simp [← equal]
      · cases split

/-- The split is at an occurrence behind whose first character the pattern does not occur again. -/
theorem splitLast_eq (pattern front back : List Char) (inhabited : pattern ≠ [])
    (last : occurs pattern (pattern ++ back).tail = false) :
    splitLast? pattern (front ++ pattern ++ back) = some (front, back) := by
  induction front with
  | nil =>
    cases pattern with
    | nil => exact absurd rfl inhabited
    | cons c pattern =>
      have none : splitLast? (c :: pattern) (pattern ++ back) = none := by
        rw [← splitLast_isSome] at last
        exact Option.not_isSome_iff_eq_none.mp (Bool.eq_false_iff.mp last)
      simp [splitLast?, none]
  | cons c front inductionHypothesis =>
    rw [List.append_assoc] at inductionHypothesis
    rw [List.cons_append, List.cons_append, List.append_assoc, splitLast?, inductionHypothesis]

end Courier.Text
