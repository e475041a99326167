import Courier.Proofs.Documents
import Courier.Wire.Message

/-!
# Written envelopes are read back

An envelope is read from its written form exactly if its two numbers have at most
sixty-four bits and its parameters are read. The parameters that carry a body give this
body again, and the method alone decides which kind of body that is.
-/

namespace Courier

open Json

namespace Json

variable {ν : Type}

/-- The members of an object with known and different names are gathered as they are. -/
theorem gatherFields_known (names : List String) (found members : List (String × ν))
    (known : ∀ member ∈ members, member.1 ∈ names)
    (distinct : ((found ++ members).map (·.1)).Nodup) :
    gatherFields names found (members.map fun member => (some member.1, member.2)) =
      some (members.reverse ++ found) := by
  induction members generalizing found with
  | nil => rfl
  | cons member rest inductionHypothesis =>
    have listed : names.contains member.1 = true :=
      List.contains_iff_mem.mpr (known member List.mem_cons_self)
    have absent : found.any (fun field => field.1 = member.1) = false := by
      rw [List.map_append, List.nodup_append] at distinct
      rw [List.any_eq_false]
      intro field held same
      exact distinct.2.2 field.1 (List.mem_map_of_mem held) member.1 (by simp)
        (of_decide_eq_true same)
    have moved : ((member :: found ++ rest).map (·.1)).Nodup := by
      refine (List.Perm.nodup_iff ?_).mp distinct
      exact List.Perm.map _ List.perm_middle
    rw [List.map_cons, gatherFields]
    simp only [listed, absent, Bool.not_true, Bool.false_eq_true, if_false]
    rw [inductionHypothesis (member :: found)
      (fun other held => known other (List.mem_cons_of_mem _ held)) moved]
    simp

variable [Readable ν]

/-- The fields of an object whose members have known and different names. -/
theorem fields?_known (names : List String) (node : ν) (members : List (String × ν))
    (looked : Readable.look node = .obj (members.map fun member => (some member.1, member.2)))
    (known : ∀ member ∈ members, member.1 ∈ names) (distinct : (members.map (·.1)).Nodup) :
    fields? names node = some ⟨true, members.reverse⟩ := by
  unfold fields?
  rw [looked]
  simp only [gatherFields_known names [] members known distinct, Option.map_some, List.append_nil]

/-- The members of an object that is written raw are seen under their names. -/
theorem look_raw (members : List (String × Json)) : Readable.look (raw (.obj members)) =
    .obj ((members.map fun member => (member.1, member.2.raw)).map
      fun member => (some member.1, member.2)) := by
  have listed (members : List (String × Json)) :
      (rawMembers members).map (fun member => (readText? member.1, member.2)) =
        (members.map fun member => (member.1, member.2.raw)).map
          fun member => (some member.1, member.2) := by
    induction members with
    | nil => rfl
    | cons member rest inductionHypothesis =>
      rw [rawMembers, List.map_cons, inductionHypothesis, readText?_escapeText]
      rfl
  exact congrArg Look.obj (listed members)

/-- A number is read as a word exactly if it has at most sixty-four bits. -/
theorem word?_ofNat (n : Nat) : word? (Json.ofNat n) = if n ≤ maxWord then some n else none := by
  have looked : Readable.look (Json.ofNat n) = .num (.int n) := rfl
  unfold word? natUpTo?
  rw [looked]
  have bounds : (0 ≤ (n : Int) ∧ (n : Int) ≤ maxWord) ↔ n ≤ maxWord := by omega
  simp only [bounds, Int.toNat_natCast]

/-- A text is read off a string as it is. -/
theorem text?_str (text : String) : text? (Json.str text) = some text := rfl

end Json

/-- An envelope is read from its written form exactly if its numbers are words and its
parameters are read. -/
theorem Envelope.read?_raw (e : Envelope) : Envelope.read? e.toJson.raw =
    if e.seq ≤ maxWord ∧ e.ack ≤ maxWord then
      (ofRaw? (maxDepth - 1) e.params.raw).map fun params => { e with params }
    else none := by
  have gathered : fields? ["seq", "ack", "method", "params"] e.toJson.raw = some ⟨true, _⟩ :=
    fields?_known _ _ _ (look_raw _) (by simp) (by simp)
  have word (n : Nat) : word? (Json.ofNat n).raw = if n ≤ maxWord then some n else none :=
    word?_natLexeme n
  have text : text? (Json.str e.method).raw = some e.method := by
    unfold text?
    simp only [raw, Readable.look, readText?_escapeText, Option.map_some, Option.getD_some]
  unfold Envelope.read? Envelope.readWithin?
  rw [gathered]
  simp only [Fields.required, Fields.withDefault, Fields.find?, List.map_cons, List.map_nil,
    List.reverse_cons, List.reverse_nil, List.nil_append, List.cons_append, List.find?_cons,
    Option.map_some, Option.bind_some, word, text, decide_true, Option.bind_eq_bind,
    String.reduceEq, decide_false]
  change _ = if _ then ((Readable.value? (maxDepth - 1) e.params.raw).map _) else _
  by_cases small : e.seq ≤ maxWord
  · by_cases short : e.ack ≤ maxWord
    · simp only [small, short, and_self, if_true, Option.bind_some]
      cases Readable.value? (maxDepth - 1) e.params.raw <;> rfl
    · simp [small, short]
  · simp [small]

/-- Parameters that are read back leave only the two numbers to fail. -/
theorem Envelope.read?_exact (e : Envelope) (readsBack : e.params.ReadsBack (maxDepth - 1))
    (seq : e.seq ≤ maxWord) (ack : e.ack ≤ maxWord) : Envelope.read? e.toJson.raw = some e := by
  rw [Envelope.read?_raw, if_pos ⟨seq, ack⟩, ofRaw?_raw _ _ readsBack]
  rfl

/-- Whether the numbers of a body are words. -/
def Body.Fits : Body → Prop
  | .hello h => h.ack ≤ maxWord
  | .parcel (.message _ replyTo) => ∀ n ∈ replyTo, n ≤ maxWord
  | .parcel (.reply replyTo _) => replyTo ≤ maxWord
  | .ack => True

/-- A number that is a word reads back at every depth. -/
theorem readsBack_ofNat (depth n : Nat) (small : n ≤ maxWord) :
    (Json.ofNat n).ReadsBack depth := ⟨by omega, by omega⟩

/-- Machine words are no larger than the largest word. -/
theorem toNat_le_maxWord (w : UInt64) : w.toNat ≤ maxWord := Nat.le_of_lt_succ w.toNat_lt

/-- An incarnation reads back one level deeper than its two numbers. -/
theorem Incarnation.readsBack (i : Incarnation) (depth : Nat) :
    i.toJson.ReadsBack (depth + 1) := by
  refine ⟨?_, readsBack_ofNat _ _ (toNat_le_maxWord _), readsBack_ofNat _ _ (toNat_le_maxWord _),
    trivial⟩
  simp only [List.pairwise_cons, List.mem_singleton, forall_eq, List.not_mem_nil]
  exact ⟨by decide, nofun, .nil⟩

/-- A number that may be absent reads back, whether it is there or null. -/
theorem optionalNumber_readsBack (n : Option Nat) (depth : Nat) (small : ∀ m ∈ n, m ≤ maxWord) :
    ((n.map Json.ofNat).getD .null).ReadsBack depth := by
  cases n with
  | none => trivial
  | some m => exact readsBack_ofNat depth m (small m rfl)

/-- The parameters of a body whose numbers are words are read back. -/
theorem Body.params_readBack (b : Body) (fits : b.Fits) (depth : Nat) :
    b.params.ReadsBack (depth + 2) := by
  cases b with
  | hello h =>
    have acked : ((h.acked.map Incarnation.toJson).getD .null).ReadsBack (depth + 1) := by
      cases h.acked with
      | none => trivial
      | some i => exact i.readsBack depth
    refine ⟨?_, readsBack_ofNat _ _ fits, acked, h.incarnation.readsBack depth, trivial, trivial⟩
    simp only [List.pairwise_cons, List.mem_cons, List.not_mem_nil, or_false, forall_eq_or_imp,
      forall_eq]
    exact ⟨by decide, by decide, by decide, nofun, .nil⟩
  | parcel parcel =>
    cases parcel with
    | message payload replyTo =>
      refine ⟨?_, trivial, optionalNumber_readsBack replyTo _ fits, trivial⟩
      simp only [List.pairwise_cons, List.mem_singleton, forall_eq, List.not_mem_nil]
      exact ⟨by decide, nofun, .nil⟩
    | reply replyTo payload =>
      refine ⟨?_, trivial, readsBack_ofNat _ _ fits, trivial⟩
      simp only [List.pairwise_cons, List.mem_singleton, forall_eq, List.not_mem_nil]
      exact ⟨by decide, nofun, .nil⟩
  | ack => trivial

/-- The members of an object are seen under their names. -/
theorem look_json (members : List (String × Json)) : Readable.look (Json.obj members) =
    .obj (members.map fun member => (some member.1, member.2)) := rfl

/-- An incarnation is read off its own document. -/
theorem Incarnation.read?_toJson (i : Incarnation) : Incarnation.read? i.toJson = some i := by
  have gathered : fields? ["first", "second"] i.toJson = some ⟨true, _⟩ :=
    fields?_known _ _ _ (look_json _) (by simp) (by simp)
  unfold Incarnation.read?
  rw [gathered]
  simp [Fields.required, Fields.find?, word?_ofNat, toNat_le_maxWord]

/-- A payload is read off its digits. -/
theorem payload?_text (payload : List UInt8) :
    payload? (Json.str (Hex.text payload)) = some payload := by
  unfold payload?
  rw [text?_str, Option.bind_some, Hex.text, String.toList_ofList, Hex.decode_encode]

/-- A greeting is read off its own document, as long as its acknowledgement is a word. -/
theorem Hello.read?_toJson (h : Hello) (small : h.ack ≤ maxWord) :
    Hello.read? h.toJson = some h := by
  have gathered : fields? ["peer_id", "incarnation", "ack", "acked_incarnation"] h.toJson =
      some ⟨true, _⟩ := fields?_known _ _ _ (look_json _) (by simp) (by simp)
  have peer : PeerId.read? (Json.str h.peer.text) = some h.peer := by
    unfold PeerId.read?
    rw [text?_str, Option.bind_some, PeerId.parse_text]
    rfl
  have acked : optional? Incarnation.read? ((h.acked.map Incarnation.toJson).getD .null) =
      some h.acked := by
    cases h.acked with
    | none => rfl
    | some i => exact congrArg (Option.map some) i.read?_toJson
  unfold Hello.read?
  rw [gathered]
  simp [Fields.required, Fields.nullable, Fields.find?, word?_ofNat, small, peer, acked,
    Incarnation.read?_toJson]

/-- A message is read off its own document, as long as the binding that it names is a word. -/
theorem Parcel.readMessage?_toJson (payload : List UInt8) (replyTo : Option Nat)
    (small : ∀ n ∈ replyTo, n ≤ maxWord) :
    Parcel.readMessage? (Parcel.message payload replyTo).toJson =
      some (.message payload replyTo) := by
  have gathered : fields? ["payload", "reply_to"] (Parcel.message payload replyTo).toJson =
      some ⟨true, _⟩ := fields?_known _ _ _ (look_json _) (by simp) (by simp)
  have number : optional? word? ((replyTo.map Json.ofNat).getD .null) = some replyTo := by
    cases replyTo with
    | none => rfl
    | some n =>
      have read := word?_ofNat n
      rw [if_pos (small n rfl)] at read
      exact congrArg (Option.map some) read
  unfold Parcel.readMessage?
  rw [gathered]
  simp [Fields.required, Fields.withDefault, Fields.find?, payload?_text, number]

/-- A reply is read off its own document, as long as the binding that it names is a word. -/
theorem Parcel.readReply?_toJson (replyTo : Nat) (payload : List UInt8)
    (small : replyTo ≤ maxWord) :
    Parcel.readReply? (Parcel.reply replyTo payload).toJson = some (.reply replyTo payload) := by
  have gathered : fields? ["reply_to", "payload"] (Parcel.reply replyTo payload).toJson =
      some ⟨true, _⟩ := fields?_known _ _ _ (look_json _) (by simp) (by simp)
  unfold Parcel.readReply?
  rw [gathered]
  simp [Fields.required, Fields.find?, payload?_text, word?_ofNat, small]

/-- A body whose numbers are words is read from the envelope that carries it. -/
theorem Body.envelope_body (b : Body) (fits : b.Fits) (seq ack : Nat) :
    (b.envelope seq ack).body = .ok (some b) := by
  cases b with
  | hello h => simp [envelope, Envelope.body, method, params, h.read?_toJson fits]
  | parcel parcel =>
    cases parcel with
    | message payload replyTo =>
      simp [envelope, Envelope.body, method, params,
        Parcel.readMessage?_toJson payload replyTo fits]
    | reply replyTo payload =>
      simp [envelope, Envelope.body, method, params,
        Parcel.readReply?_toJson replyTo payload fits]
  | ack => rfl

/-- What is read as a message is a message. -/
theorem Parcel.readMessage?_message (node : Json) (parcel : Parcel)
    (read : readMessage? node = some parcel) :
    ∃ payload replyTo, parcel = .message payload replyTo := by
  unfold readMessage? at read
  simp only [Option.bind_eq_bind, Option.bind_eq_some_iff, Option.some.injEq] at read
  obtain ⟨_, _, payload, _, replyTo, _, rfl⟩ := read
  exact ⟨payload, replyTo, rfl⟩

/-- What is read as a reply is a reply. -/
theorem Parcel.readReply?_reply (node : Json) (parcel : Parcel)
    (read : readReply? node = some parcel) :
    ∃ replyTo payload, parcel = .reply replyTo payload := by
  unfold readReply? at read
  simp only [Option.bind_eq_bind, Option.bind_eq_some_iff, Option.some.injEq] at read
  obtain ⟨_, _, replyTo, _, payload, _, rfl⟩ := read
  exact ⟨replyTo, payload, rfl⟩

/-- The method of an envelope names the kind of its body. -/
theorem Envelope.body_method (e : Envelope) (b : Body) (read : e.body = .ok (some b)) :
    e.method = b.method := by
  unfold Envelope.body at read
  dsimp only at read
  split at read
  · next hello =>
    split at read
    · next body known =>
      cases read
      obtain ⟨h, _, rfl⟩ := Option.map_eq_some_iff.mp known
      exact hello
    · cases read
  · next deliver =>
    split at read
    · next body known =>
      cases read
      obtain ⟨parcel, message, rfl⟩ := Option.map_eq_some_iff.mp known
      obtain ⟨payload, replyTo, rfl⟩ := Parcel.readMessage?_message _ _ message
      exact deliver
    · cases read
  · next reply =>
    split at read
    · next body known =>
      cases read
      obtain ⟨parcel, answer, rfl⟩ := Option.map_eq_some_iff.mp known
      obtain ⟨replyTo, payload, rfl⟩ := Parcel.readReply?_reply _ _ answer
      exact reply
    · cases read
  · next ack =>
    cases read
    exact ack
  · cases read

/-- The name of a method tells messages and replies from everything else. -/
theorem Body.method_parcel (b : Body) (parcel : Parcel)
    (same : b.method = (Body.parcel parcel).method) :
    ∃ other, b = .parcel other ∧ other.isReply = parcel.isReply := by
  cases b with
  | hello => cases parcel <;> simp [method] at same
  | ack => cases parcel <;> simp [method] at same
  | parcel other =>
    refine ⟨other, rfl, ?_⟩
    cases other <;> cases parcel <;> simp [method, Parcel.isReply] at same ⊢

/-- An envelope without a known method is none that carries a body. -/
theorem Envelope.body_none (e : Envelope) (b : Body) (unknown : e.body = .ok none) :
    e.method ≠ b.method := by
  intro same
  unfold Envelope.body at unknown
  dsimp only at unknown
  split at unknown
  · split at unknown <;> cases unknown
  · split at unknown <;> cases unknown
  · split at unknown <;> cases unknown
  · cases unknown
  · next hello deliver reply ack =>
    cases b with
    | hello => exact hello same
    | parcel parcel =>
      cases parcel with
      | message => exact deliver same
      | reply => exact reply same
    | ack => exact ack same

end Courier
