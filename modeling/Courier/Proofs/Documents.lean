import Courier.Proofs.Numerals
import Courier.Proofs.Texts

/-!
# Written documents are read back

A written document is scanned into the tokens it was written from: every token but a
number ends with its last byte, a number ends with the next token, and no two numbers
stand side by side. The tokens of a document build its raw form again, whatever was built
before them. Both facts follow the way in which the tokens are gathered, so each is an
induction over the document, its items and its members.

Doubles are left out, because their spelling is a matter of its own.
-/

namespace Courier.Json

mutual

/-- The raw form of a value. -/
def raw : Json → Raw
  | .null => .null
  | .bool value => .bool value
  | .num value => .number value.lexeme
  | .str value => .string (escapeText value)
  | .arr items => .array (rawItems items)
  | .obj members => .object (rawMembers members)

/-- The raw forms of the items of an array. -/
def rawItems : List Json → List Raw
  | [] => []
  | item :: rest => item.raw :: rawItems rest

/-- The raw forms of the members of an object. -/
def rawMembers : List (String × Json) → List (List UInt8 × Raw)
  | [] => []
  | (name, member) :: rest => (escapeText name, member.raw) :: rawMembers rest

end

mutual

/-- Whether all numbers of a value are integers. -/
def isExact : Json → Bool
  | .num (.float _) => false
  | .arr items => itemsExact items
  | .obj members => membersExact members
  | .null | .bool _ | .num (.int _) | .str _ => true

/-- Whether all numbers of the items of an array are integers. -/
def itemsExact : List Json → Bool
  | [] => true
  | item :: rest => item.isExact && itemsExact rest

/-- Whether all numbers of the members of an object are integers. -/
def membersExact : List (String × Json) → Bool
  | [] => true
  | (_, member) :: rest => member.isExact && membersExact rest

end

section Scanning

/-- How a scan stands behind a sequence of tokens, latest first: between two tokens, or at
the end of a number that is not yet known to be complete. -/
inductive Settled : List Token → Scan → Prop where
  | between (tokens : List Token) : Settled tokens ⟨tokens, .between⟩
  | number (lexeme : List UInt8) (part : NumberPart) (tokens : List Token)
      (complete : part.complete = true) :
      Settled (.number lexeme :: tokens) ⟨tokens, .number lexeme.reverse part⟩

/-- The bytes of a sequence of tokens, latest first, are scanned into these tokens. -/
def Scans (gathered : List Token) : Prop := ∃ s,
  (gathered.reverse.flatMap Token.bytes).foldlM Scan.step {} = some s ∧ Settled gathered s

/-- Whether a token is a number. -/
def Token.isNumber : Token → Bool
  | .number _ => true
  | _ => false

/-- A further token is scanned from where the scan stands. -/
theorem Scans.further {gathered : List Token} (scans : Scans gathered) (token : Token)
    (onward : ∀ s, Settled gathered s →
      ∃ after, token.bytes.foldlM Scan.step s = some after ∧ Settled (token :: gathered) after) :
    Scans (token :: gathered) := by
  obtain ⟨s, scanned, settled⟩ := scans
  obtain ⟨after, stepped, settledAfter⟩ := onward s settled
  refine ⟨after, ?_, settledAfter⟩
  rw [List.reverse_cons, List.flatMap_append, List.foldlM_append, scanned]
  simpa using stepped

/-- A byte that cannot continue a number begins the next token, wherever a scan stands. -/
theorem Settled.begin {gathered : List Token} {s : Scan} (settled : Settled gathered s)
    (b : UInt8) (ends : isDigit b = false ∧ b ≠ 46 ∧ b ≠ 101 ∧ b ≠ 69) :
    s.step b = Scan.begin gathered b := by
  cases settled with
  | between => rfl
  | number lexeme part tokens complete =>
    obtain ⟨digit, point, small, large⟩ := ends
    have ended : part.next? b = none := by
      cases part with
      | zero | whole | fraction | exponent =>
        simp [NumberPart.next?, digit, point, small, large]
      | sign | point | mark | markSign => cases complete
    simp only [Scan.step, ended, complete, if_true, List.reverse_reverse]

/-- The bytes of a string are held until the quote that ends it. -/
theorem scan_string (tokens : List Token) (raw text : List UInt8) (chars : List Char)
    (spelled : text = chars.flatMap escapeChar) :
    (text ++ [34]).foldlM Scan.step ⟨tokens, .string raw⟩ =
      some ⟨.string (raw.reverse ++ text) :: tokens, .between⟩ := by
  have onward (raw bytes rest : List UInt8) (c : Char) (way : Spelled c bytes) :
      (bytes ++ rest).foldlM Scan.step ⟨tokens, .string raw⟩ =
        rest.foldlM Scan.step ⟨tokens, .string (bytes.reverse ++ raw)⟩ := by
    cases way with
    | letter b value escapes other stands means =>
      simp [List.foldlM_cons, Scan.step, escapes, other]
    | digits x y z w hexadecimal value control =>
      have hex (b : UInt8) (listed : b ∈ [x, y, z, w]) := hexadecimal b listed
      simp [List.foldlM_cons, Scan.step, hex]
    | itself harmless =>
      generalize charBytes c = bytes at harmless
      induction bytes generalizing raw with
      | nil => rfl
      | cons b more inductionHypothesis =>
        obtain ⟨visible, unquoted, unescaped⟩ := harmless b List.mem_cons_self
        have further := inductionHypothesis (b :: raw)
          fun b listed => harmless b (List.mem_cons_of_mem _ listed)
        rw [List.cons_append, List.foldlM_cons]
        simp only [Scan.step, unquoted, unescaped, visible, if_false, Option.bind_eq_bind,
          Option.bind_some]
        simpa using further
  subst spelled
  induction chars generalizing raw with
  | nil => simp [Scan.step]
  | cons c rest inductionHypothesis =>
    rw [List.flatMap_cons, List.append_assoc, onward raw _ _ c (escapeChar_spelled c),
      inductionHypothesis]
    simp

/-- Digits continue the whole part of a number. -/
theorem scan_digits (tokens : List Token) (lexeme digits : List UInt8)
    (all : ∀ b ∈ digits, isDigit b = true) :
    digits.foldlM Scan.step ⟨tokens, .number lexeme .whole⟩ =
      some ⟨tokens, .number (digits.reverse ++ lexeme) .whole⟩ := by
  induction digits generalizing lexeme with
  | nil => rfl
  | cons b rest inductionHypothesis =>
    have further := inductionHypothesis (b :: lexeme)
      fun b listed => all b (List.mem_cons_of_mem _ listed)
    have digit := all b List.mem_cons_self
    rw [List.foldlM_cons]
    simp only [Scan.step, NumberPart.next?, digit, if_true, Option.bind_eq_bind, Option.bind_some]
    simpa using further

/-- The digits of a natural number are scanned as the whole part of a number, from its
first byte on or behind a minus. -/
theorem scan_natLexeme (tokens : List Token) (n : Nat) (s : Scan) (before : List UInt8)
    (zero : s.step 48 = some ⟨tokens, .number (48 :: before) .zero⟩)
    (whole : ∀ b, isDigit b = true → b ≠ 48 →
      s.step b = some ⟨tokens, .number (b :: before) .whole⟩) :
    ∃ part, part.complete = true ∧ (natLexeme n).foldlM Scan.step s =
      some ⟨tokens, .number ((natLexeme n).reverse ++ before) part⟩ := by
  obtain ⟨b, rest, spelled, digit, alone, digits⟩ := natLexeme_cons n
  rw [spelled, List.foldlM_cons]
  by_cases leading : b = 48
  · subst leading
    rw [alone rfl, zero]
    exact ⟨.zero, rfl, rfl⟩
  · refine ⟨.whole, rfl, ?_⟩
    rw [whole b digit leading]
    simpa using scan_digits tokens (b :: before) rest digits

/-- The digits that may lead a number are those from one to nine, checked on all bytes. -/
theorem leadingDigit_all : ∀ n : Fin 256, isDigit (UInt8.ofNat n) = true → UInt8.ofNat n ≠ 48 →
    UInt8.ofNat n ∈ ([49, 50, 51, 52, 53, 54, 55, 56, 57] : List UInt8) := by
  decide +kernel

/-- A digit other than zero begins the whole part of a number. -/
theorem begin_digit (tokens : List Token) (b : UInt8) (digit : isDigit b = true)
    (leading : b ≠ 48) : Scan.begin tokens b = some ⟨tokens, .number [b] .whole⟩ := by
  have listed := leadingDigit_all ⟨b.toNat, b.toNat_lt⟩
  simp only [UInt8.ofNat_toNat] at listed
  have nine := listed digit leading
  simp only [List.mem_cons, List.not_mem_nil, or_false] at nine
  rcases nine with rfl | rfl | rfl | rfl | rfl | rfl | rfl | rfl | rfl <;> rfl

/-- Scanning the digits of an integer between two tokens ends inside a number that may end there,
with no token given out. -/
theorem scan_intLexeme (tokens : List Token) (value : Int) : ∃ part, part.complete = true ∧
    (intLexeme value).foldlM Scan.step ⟨tokens, .between⟩ =
      some ⟨tokens, .number (intLexeme value).reverse part⟩ := by
  rw [intLexeme_eq]
  split
  · obtain ⟨part, complete, scanned⟩ := scan_natLexeme tokens value.natAbs
      ⟨tokens, .number [45] .sign⟩ [45] rfl fun b digit leading => by
        simp [Scan.step, NumberPart.next?, digit, leading]
    refine ⟨part, complete, ?_⟩
    rw [List.foldlM_cons, List.reverse_cons]
    exact scanned
  · obtain ⟨part, complete, scanned⟩ := scan_natLexeme tokens value.natAbs
      ⟨tokens, .between⟩ [] rfl (begin_digit tokens)
    rw [List.append_nil] at scanned
    exact ⟨part, complete, scanned⟩

/-- A token other than a number is scanned behind everything. -/
theorem Scans.plain {gathered : List Token} (scans : Scans gathered) (token : Token)
    (plain : token.isNumber = false)
    (spelled : ∀ raw, token = .string raw → ∃ chars : List Char, raw = chars.flatMap escapeChar) :
    Scans (token :: gathered) := by
  have settles (b : UInt8) (rest : List UInt8) (bytes : token.bytes = b :: rest)
      (ends : isDigit b = false ∧ b ≠ 46 ∧ b ≠ 101 ∧ b ≠ 69)
      (scanned : (b :: rest).foldlM Scan.step ⟨gathered, .between⟩ =
        some ⟨token :: gathered, .between⟩) : Scans (token :: gathered) := by
    refine scans.further token fun s settled => ⟨⟨token :: gathered, .between⟩, ?_, .between _⟩
    rw [bytes, List.foldlM_cons, settled.begin b ends]
    exact scanned
  cases token with
  | number lexeme => cases plain
  | string raw =>
    obtain ⟨chars, rfl⟩ := spelled raw rfl
    refine settles 34 (_ ++ [34]) rfl (by decide) ?_
    exact scan_string gathered [] _ chars rfl
  | bool value =>
    cases value with
    | true => exact settles 116 (bytesOf "rue") (by decide) (by decide) rfl
    | false => exact settles 102 (bytesOf "alse") (by decide) (by decide) rfl
  | null => exact settles 110 (bytesOf "ull") (by decide) (by decide) rfl
  | openArray => exact settles 91 [] (by decide) (by decide) rfl
  | closeArray => exact settles 93 [] (by decide) (by decide) rfl
  | openObject => exact settles 123 [] (by decide) (by decide) rfl
  | closeObject => exact settles 125 [] (by decide) (by decide) rfl
  | colon => exact settles 58 [] (by decide) (by decide) rfl
  | comma => exact settles 44 [] (by decide) (by decide) rfl

/-- An integer is scanned behind everything but a number. -/
theorem Scans.int {gathered : List Token} (scans : Scans gathered)
    (apart : ∀ token ∈ gathered.head?, token.isNumber = false) (value : Int) :
    Scans (.number (intLexeme value) :: gathered) := by
  refine scans.further _ fun s settled => ?_
  cases settled with
  | between =>
    obtain ⟨part, complete, scanned⟩ := scan_intLexeme gathered value
    exact ⟨_, scanned, .number _ part _ complete⟩
  | number lexeme => exact absurd (apart _ rfl) (by simp [Token.isNumber])

mutual

/-- A value is scanned behind everything but a number. -/
theorem Scans.value {gathered : List Token} (scans : Scans gathered)
    (apart : ∀ token ∈ gathered.head?, token.isNumber = false) :
    (v : Json) → (exact' : v.isExact = true) → Scans (tokensOnto gathered v)
  | .null, _ => scans.plain .null rfl (by simp)
  | .bool value, _ => scans.plain (.bool value) rfl (by simp)
  | .num (.int value), _ => scans.int apart value
  | .num (.float _), exact' => by cases exact'
  | .str value, _ => scans.plain (.string (escapeText value)) rfl
      (by rintro _ ⟨⟩; exact ⟨value.toList, rfl⟩)
  | .arr items, exact' =>
    ((scans.plain .openArray rfl (by simp)).items true (fun _ => by rintro _ ⟨⟩; rfl) items
      exact').plain .closeArray rfl (by simp)
  | .obj members, exact' =>
    ((scans.plain .openObject rfl (by simp)).members true members exact').plain .closeObject rfl
      (by simp)

/-- The items of an array are scanned, the first one behind everything but a number. -/
theorem Scans.items {gathered : List Token} (scans : Scans gathered) (first : Bool)
    (apart : first = true → ∀ token ∈ gathered.head?, token.isNumber = false) :
    (items : List Json) → (exact' : itemsExact items = true) →
      Scans (itemTokensOnto gathered first items)
  | [], _ => scans
  | item :: rest, exact' => by
    rw [itemsExact, Bool.and_eq_true] at exact'
    refine Scans.items ?_ false nofun rest exact'.2
    cases first with
    | true => exact scans.value (apart rfl) item exact'.1
    | false => exact (scans.plain .comma rfl (by simp)).value (by rintro _ ⟨⟩; rfl) item exact'.1

/-- The members of an object are scanned behind everything. -/
theorem Scans.members {gathered : List Token} (scans : Scans gathered) (first : Bool) :
    (members : List (String × Json)) → (exact' : membersExact members = true) →
      Scans (memberTokensOnto gathered first members)
  | [], _ => scans
  | (name, member) :: rest, exact' => by
    rw [membersExact, Bool.and_eq_true] at exact'
    have separated : Scans (if first then gathered else .comma :: gathered) := by
      cases first with
      | true => exact scans
      | false => exact scans.plain .comma rfl (by simp)
    have named := separated.plain (.string (escapeText name)) rfl
      (by rintro _ ⟨⟩; exact ⟨name.toList, rfl⟩)
    have next := (named.plain .colon rfl (by simp)).value (by rintro _ ⟨⟩; rfl) member exact'.1
    exact next.members false rest exact'.2

end

/-- A written document is scanned into its tokens. -/
theorem tokens?_render (v : Json) (exact' : v.isExact = true) :
    tokens? v.render = some v.tokens := by
  have empty : Scans [] := ⟨{}, rfl, .between []⟩
  obtain ⟨s, scanned, settled⟩ := empty.value (by simp) v exact'
  have rendered : v.render.foldlM Scan.step {} = some s := scanned
  rw [tokens?, rendered]
  generalize gathering : tokensOnto [] v = gathered at settled
  have listed : v.tokens = gathered.reverse := congrArg List.reverse gathering
  rw [listed]
  cases settled with
  | between => rfl
  | number lexeme part tokens complete =>
    simp only [Option.bind_some, Scan.finish, complete, if_true, List.reverse_reverse]

end Scanning

section Building

/-- A sequence of tokens, latest first, leads from one builder to another. -/
def Builds (origin : Builder) (gathered : List Token) (builder : Builder) : Prop :=
  gathered.reverse.foldlM Builder.push origin = some builder

/-- A builder that has gathered some tokens has gathered one more once it accepted it. -/
theorem Builds.further {origin builder after : Builder} {gathered : List Token}
    (builds : Builds origin gathered builder) (token : Token)
    (pushed : builder.push token = some after) : Builds origin (token :: gathered) after := by
  unfold Builds at builds ⊢
  rw [List.reverse_cons, List.foldlM_append, builds]
  simpa using pushed

/-- Where the tokens of a value begin: where any value is awaited, or at the first place of
an array, which might also be empty. -/
inductive Receptive : List Frame → Builder → Prop where
  | awaiting (stack : List Frame) : Receptive stack (.awaiting stack)
  | firstItem (stack : List Frame) : Receptive (.array [] :: stack) (.firstItem stack)

/-- A receptive builder takes a token as the beginning of a value, unless it closes the array. -/
theorem Receptive.push {stack : List Frame} {builder : Builder}
    (receptive : Receptive stack builder) (token : Token) (opens : token ≠ .closeArray) :
    builder.push token = Builder.start stack token := by
  cases receptive with
  | awaiting => rfl
  | firstItem => cases token <;> first | rfl | exact absurd rfl opens

mutual

/-- The tokens of a value hand its raw form to the innermost open container. -/
theorem Builds.value {origin builder : Builder} {gathered : List Token} {stack : List Frame}
    (builds : Builds origin gathered builder) (receptive : Receptive stack builder) :
    (v : Json) → Builds origin (tokensOnto gathered v) (Builder.give v.raw stack)
  | .null => builds.further .null (receptive.push _ nofun)
  | .bool value => builds.further (.bool value) (receptive.push _ nofun)
  | .num value => builds.further (.number value.lexeme) (receptive.push _ nofun)
  | .str value => builds.further (.string (escapeText value)) (receptive.push _ nofun)
  | .arr items => by
    have opened := builds.further .openArray (receptive.push _ nofun)
    cases items with
    | nil => exact opened.further .closeArray rfl
    | cons item rest =>
      have first := opened.value (.firstItem stack) item
      have all := first.items rest
      exact all.further .closeArray (by simp [Builder.push, raw, rawItems])
  | .obj members => by
    have opened := builds.further .openObject (receptive.push _ nofun)
    cases members with
    | nil => exact opened.further .closeObject rfl
    | cons member rest =>
      obtain ⟨name, member⟩ := member
      have named := (opened.further (.string (escapeText name)) rfl).further .colon rfl
      have first := named.value (.awaiting _) member
      have all := first.members rest
      exact all.further .closeObject (by simp [Builder.push, raw, rawMembers])

/-- The tokens of further items put their raw forms behind the items before them. -/
theorem Builds.items {origin : Builder} {gathered : List Token} {held : List Raw}
    {stack : List Frame} (builds : Builds origin gathered (.afterItem held stack)) :
    (items : List Json) → Builds origin (itemTokensOnto gathered false items)
      (.afterItem ((rawItems items).reverse ++ held) stack)
  | [] => builds
  | item :: rest => by
    have separated := builds.further .comma rfl
    have next := separated.value (.awaiting _) item
    have all := next.items rest
    rw [rawItems, List.reverse_cons, List.append_assoc]
    exact all

/-- The tokens of further members put their raw forms behind the members before them. -/
theorem Builds.members {origin : Builder} {gathered : List Token}
    {held : List (List UInt8 × Raw)} {stack : List Frame}
    (builds : Builds origin gathered (.afterMember held stack)) :
    (members : List (String × Json)) → Builds origin (memberTokensOnto gathered false members)
      (.afterMember ((rawMembers members).reverse ++ held) stack)
  | [] => builds
  | (name, member) :: rest => by
    have separated := builds.further .comma rfl
    have named := (separated.further (.string (escapeText name)) rfl).further .colon rfl
    have next := named.value (.awaiting _) member
    have all := next.members rest
    rw [rawMembers, List.reverse_cons, List.append_assoc]
    exact all

end

/-- The tokens of a value build its raw form. -/
theorem ofTokens?_tokens (v : Json) : Raw.ofTokens? v.tokens = some v.raw := by
  have empty : Builds (.awaiting []) [] (.awaiting []) := rfl
  have builds := empty.value (.awaiting []) v
  unfold Builds at builds
  rw [Raw.ofTokens?, tokens, builds]
  rfl

end Building

section Reading

mutual

/-- Whether a value is read back from its raw form, when so many containers may lie inside
each other: integers have at most sixty-four bits, and members stand in the order of their
names, which differ. -/
def ReadsBack (depth : Nat) : Json → Prop
  | .null | .bool _ | .str _ => True
  | .num (.int value) => -maxNegative ≤ value ∧ value ≤ maxWord
  | .num (.float _) => False
  | .arr items =>
    match depth with
    | 0 => False
    | depth + 1 => ItemsReadBack depth items
  | .obj members =>
    match depth with
    | 0 => False
    | depth + 1 => members.Pairwise (fun a b => a.1 < b.1) ∧ MembersReadBack depth members

/-- Whether the items of an array are read back. -/
def ItemsReadBack (depth : Nat) : List Json → Prop
  | [] => True
  | item :: rest => item.ReadsBack depth ∧ ItemsReadBack depth rest

/-- Whether the members of an object are read back. -/
def MembersReadBack (depth : Nat) : List (String × Json) → Prop
  | [] => True
  | (_, member) :: rest => member.ReadsBack depth ∧ MembersReadBack depth rest

end

/-- Members in the order of their names, which differ, are left as they are. -/
theorem arrange_ordered (members : List (String × Json))
    (ordered : members.Pairwise fun a b => a.1 < b.1) : arrange members = members := by
  have sorted : members.Pairwise fun a b => decide (a.1 ≤ b.1) = true :=
    ordered.imp fun less => decide_eq_true (String.not_lt.mp (String.lt_asymm less))
  have kept (members : List (String × Json))
      (ordered : members.Pairwise fun a b => a.1 < b.1) : lastWins members = members := by
    induction members with
    | nil => rfl
    | cons member rest inductionHypothesis =>
      cases rest with
      | nil => rfl
      | cons next rest =>
        obtain ⟨first, others⟩ := List.pairwise_cons.mp ordered
        have less := first next List.mem_cons_self
        have differ : member.1 ≠ next.1 := fun same => String.lt_irrefl _ (same ▸ less)
        rw [lastWins, if_neg differ, inductionHypothesis others]
  rw [arrange, List.mergeSort_of_pairwise sorted]
  exact kept members ordered

mutual

/-- A value that is written raw reads back as itself, as long as its integers fit and its nesting
stays within the depth; a proof by recursion on the value, with the lists of items and members
alongside. -/
theorem ofRaw?_raw (depth : Nat) : (v : Json) → (readsBack : v.ReadsBack depth) →
    ofRaw? depth v.raw = some v
  | .null, _ => rfl
  | .bool _, _ => rfl
  | .str value, _ => by rw [raw, ofRaw?, readText?_escapeText]; rfl
  | .num (.int value), readsBack => by
    rw [raw, ofRaw?, Number.lexeme, ofLexeme?_intLexeme value readsBack.1 readsBack.2]
    rfl
  | .arr items, readsBack => by
    cases depth with
    | zero => exact readsBack.elim
    | succ depth =>
      rw [raw, ofRaw?, itemsOnto_raw depth [] items readsBack]
      rfl
  | .obj members, readsBack => by
    cases depth with
    | zero => exact readsBack.elim
    | succ depth =>
      rw [raw, ofRaw?, membersOnto_raw depth [] members readsBack.2]
      simp only [List.reverse_nil, List.nil_append, Option.map_some, arrange_ordered _ readsBack.1]

/-- Items that are written raw read back in their order, behind those that were read. -/
theorem itemsOnto_raw (depth : Nat) (read : List Json) : (items : List Json) →
    (readBack : ItemsReadBack depth items) →
      itemsOnto depth read (rawItems items) = some (read.reverse ++ items)
  | [], _ => by rw [rawItems, itemsOnto, List.append_nil]
  | item :: rest, readBack => by
    rw [rawItems, itemsOnto, ofRaw?_raw depth item readBack.1]
    dsimp only
    rw [itemsOnto_raw depth (item :: read) rest readBack.2]
    simp

/-- Members that are written raw read back in their order, behind those that were read. -/
theorem membersOnto_raw (depth : Nat) (read : List (String × Json)) :
    (members : List (String × Json)) → (readBack : MembersReadBack depth members) →
      membersOnto depth read (rawMembers members) = some (read.reverse ++ members)
  | [], _ => by rw [rawMembers, membersOnto, List.append_nil]
  | (name, member) :: rest, readBack => by
    rw [rawMembers, membersOnto, readText?_escapeText, ofRaw?_raw depth member readBack.1]
    dsimp only
    rw [membersOnto_raw depth ((name, member) :: read) rest readBack.2]
    simp

end

end Reading

section Room

mutual

/-- How many bytes the text of a value takes at most. -/
def room : Json → Nat
  | .null => 4
  | .bool _ => 5
  | .num value => value.lexeme.length
  | .str value => (escapeText value).length + 2
  | .arr items => itemsRoom items + 2
  | .obj members => membersRoom members + 2

/-- How many bytes the items of an array take at most, with a comma each. -/
def itemsRoom : List Json → Nat
  | [] => 0
  | item :: rest => item.room + 1 + itemsRoom rest

/-- How many bytes the members of an object take at most, with a comma each. -/
def membersRoom : List (String × Json) → Nat
  | [] => 0
  | (name, member) :: rest => (escapeText name).length + 4 + member.room + membersRoom rest

end

/-- The number of bytes of a sequence of tokens. -/
def spelledLength : List Token → Nat
  | [] => 0
  | token :: rest => token.bytes.length + spelledLength rest

/-- Every token adds the bytes of its own spelling. -/
@[simp]
theorem spelledLength_cons (token : Token) (tokens : List Token) :
    spelledLength (token :: tokens) = token.bytes.length + spelledLength tokens := rfl

/-- The order of tokens does not matter for their length. -/
theorem reverse_length (tokens : List Token) :
    (tokens.reverse.flatMap Token.bytes).length = spelledLength tokens := by
  induction tokens with
  | nil => rfl
  | cons token rest inductionHypothesis =>
    rw [List.reverse_cons, List.flatMap_append, List.length_append, inductionHypothesis,
      List.flatMap_singleton, spelledLength_cons, Nat.add_comm]

/-- A string is spelled with a quotation mark on either side. -/
theorem string_length (raw : List UInt8) : (Token.string raw).bytes.length = raw.length + 2 := by
  simp [Token.bytes]

mutual

/-- The tokens of a value are spelled within the room that its shape gives it, behind whatever was
gathered. -/
theorem spelledLength_value (gathered : List Token) : (v : Json) →
    spelledLength (tokensOnto gathered v) ≤ spelledLength gathered + v.room
  | .null => by
    have : Token.null.bytes.length = 4 := by decide
    simp only [tokensOnto, spelledLength_cons, room]
    omega
  | .bool value => by
    have : (Token.bool value).bytes.length ≤ 5 := by cases value <;> decide
    simp only [tokensOnto, spelledLength_cons, room]
    omega
  | .num value => by
    have : (Token.number value.lexeme).bytes.length = value.lexeme.length := rfl
    simp only [tokensOnto, spelledLength_cons, room]
    omega
  | .str value => by
    simp only [tokensOnto, spelledLength_cons, room, string_length]
    omega
  | .arr items => by
    have brackets : Token.openArray.bytes.length = 1 ∧ Token.closeArray.bytes.length = 1 := by
      decide
    have inner := spelledLength_items (.openArray :: gathered) true items
    simp only [tokensOnto, spelledLength_cons, room] at inner ⊢
    omega
  | .obj members => by
    have braces : Token.openObject.bytes.length = 1 ∧ Token.closeObject.bytes.length = 1 := by
      decide
    have inner := spelledLength_members (.openObject :: gathered) true members
    simp only [tokensOnto, spelledLength_cons, room] at inner ⊢
    omega

/-- The tokens of a list of items are spelled within the room of the items, one comma before each
but the first. -/
theorem spelledLength_items (gathered : List Token) (first : Bool) : (items : List Json) →
    spelledLength (itemTokensOnto gathered first items) ≤ spelledLength gathered + itemsRoom items
  | [] => by simp [itemTokensOnto, itemsRoom]
  | item :: rest => by
    have comma : Token.comma.bytes.length = 1 := by decide
    have head := spelledLength_value (if first then gathered else .comma :: gathered) item
    have tail := spelledLength_items
      (tokensOnto (if first then gathered else .comma :: gathered) item) false rest
    rw [itemTokensOnto, itemsRoom]
    cases first <;>
      simp only [if_true, Bool.false_eq_true, if_false, spelledLength_cons] at * <;>
      omega

/-- The tokens of a list of members are spelled within the room of the members, with a colon behind
each name. -/
theorem spelledLength_members (gathered : List Token) (first : Bool) :
    (members : List (String × Json)) → spelledLength (memberTokensOnto gathered first members) ≤
      spelledLength gathered + membersRoom members
  | [] => by simp [memberTokensOnto, membersRoom]
  | (name, member) :: rest => by
    have signs : Token.comma.bytes.length = 1 ∧ Token.colon.bytes.length = 1 := by decide
    have head := spelledLength_value (.colon :: .string (escapeText name) ::
      if first then gathered else .comma :: gathered) member
    have tail := spelledLength_members (tokensOnto (.colon :: .string (escapeText name) ::
      if first then gathered else .comma :: gathered) member) false rest
    rw [memberTokensOnto, membersRoom]
    cases first <;>
      simp only [if_true, Bool.false_eq_true, if_false, spelledLength_cons, string_length] at * <;>
      omega

end

/-- The text of a value takes no more bytes than there is room for. -/
theorem render_length (v : Json) : v.render.length ≤ v.room := by
  have total := spelledLength_value [] v
  rw [render, tokens, reverse_length]
  exact Nat.le_trans total (Nat.le_of_eq (Nat.zero_add _))

end Room

/-- The text of a value is read as its raw form. -/
theorem parse?_render (v : Json) (exact' : v.isExact = true) :
    Raw.parse? v.render = some v.raw := by
  rw [Raw.parse?, tokens?_render v exact']
  exact ofTokens?_tokens v

end Courier.Json
