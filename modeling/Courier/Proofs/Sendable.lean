import Courier.Proofs.Frames
import Courier.Proofs.Orphans

/-!
# What is queued can be sent, unless it is a reply that is too large

A letter is refused when its payload is too large for a frame, so that every letter in an
outbox has a frame under every sequence number and every acknowledgement. The reply of an
application is queued as it is. A reply that is too large has no frame: writing the outbox
passes over it, marks it written like all others, and an acknowledgement retires it later
as if the peer had received it. Everything else that is written goes out as one frame each,
in the order of the outbox.
-/

namespace Courier

open Json

namespace Json

variable {ν : Type} [Readable ν]

/-- A word that is read has at most sixty-four bits. -/
theorem word?_le (node : ν) (n : Nat) (read : word? node = some n) : n ≤ maxWord := by
  unfold word? natUpTo? at read
  split at read
  · next value looked =>
    split at read
    · next small =>
      cases read
      omega
    · cases read
  · cases read

end Json

/-- A member that is read as a number of sixty-four bits is one. -/
theorem Fields.required_word {ν : Type} [Readable ν] (f : Fields ν) (name : String) (n : Nat)
    (read : f.required name word? = some n) : n ≤ maxWord := by
  obtain ⟨node, _, word⟩ := Option.bind_eq_some_iff.mp read
  exact word?_le node n word

/-- The numbers of an envelope that was read are words. -/
theorem Envelope.read?_words {ν : Type} [Readable ν] (node : ν) (e : Envelope)
    (read : Envelope.read? node = some e) : e.seq ≤ maxWord ∧ e.ack ≤ maxWord := by
  unfold read? readWithin? at read
  simp only [Option.bind_eq_bind, Option.bind_eq_some_iff] at read
  obtain ⟨f, _, seq, first, ack, second, method, _, params, _, same⟩ := read
  cases same
  exact ⟨Fields.required_word f "seq" seq first, Fields.required_word f "ack" ack second⟩

/-- The numbers of an envelope that is read off a buffer have at most sixty-four bits. -/
theorem Frame.next?_words (buffer rest : ByteArray) (e : Envelope)
    (taken : Frame.next? buffer = .ok (some (e, rest))) : e.seq ≤ maxWord ∧ e.ack ≤ maxWord := by
  unfold Frame.next? at taken
  split at taken
  · cases taken
  · split at taken
    · cases taken
    · split at taken
      · cases taken
      · split at taken
        · cases taken
        · next opened =>
          cases taken
          unfold Frame.openBody at opened
          dsimp only at opened
          split at opened
          · cases opened
          · split at opened
            · next read =>
              cases opened
              obtain ⟨raw, _, read⟩ := Option.bind_eq_some_iff.mp read
              exact Envelope.read?_words raw e read
            · cases opened

/-- The binding that a message asks a reply under has at most sixty-four bits. -/
theorem Parcel.readMessage?_word (node : Json) (payload : List UInt8) (n : Nat)
    (read : readMessage? node = some (.message payload (some n))) : n ≤ maxWord := by
  simp only [readMessage?, Option.bind_eq_bind, Option.bind_eq_some_iff] at read
  obtain ⟨f, _, found, _, replyTo, named, same⟩ := read
  cases same
  unfold Fields.withDefault at named
  split at named
  · unfold optional? at named
    split at named
    · cases named
    · obtain ⟨word, read, same⟩ := Option.map_eq_some_iff.mp named
      cases same
      exact word?_le _ n read
  · cases named

/-- The binding that a message names is a word. -/
theorem Envelope.message_word (e : Envelope) (payload : List UInt8) (n : Nat)
    (body : e.body = .ok (some (.parcel (.message payload (some n))))) : n ≤ maxWord := by
  have deliver : e.method = "deliver" := e.body_method _ body
  unfold Envelope.body at body
  simp only [deliver] at body
  split at body
  · next opened known =>
    cases body
    obtain ⟨parcel, read, same⟩ := Option.map_eq_some_iff.mp known
    cases same
    exact Parcel.readMessage?_word _ payload n read
  · cases body

/-- The text of a reply in its envelope: sixty-eight bytes of its own, the three numbers, and
two digits for each byte of the payload. -/
theorem Body.reply_length (replyTo : Nat) (payload : List UInt8) (seq ack : Nat) :
    ((Body.parcel (.reply replyTo payload)).envelope seq ack).toJson.render.length =
      68 + 2 * payload.length + (natLexeme seq).length + (natLexeme ack).length +
        (natLexeme replyTo).length := by
  have number (n : Nat) : (Token.number (Number.lexeme (.int n))).bytes.length =
      (natLexeme n).length := rfl
  have names : (escapeText "seq").length = 3 ∧ (escapeText "ack").length = 3 ∧
      (escapeText "method").length = 6 ∧ (escapeText "params").length = 6 ∧
      (escapeText "payload").length = 7 ∧ (escapeText "reply_to").length = 8 ∧
      (escapeText "reply").length = 5 := by decide
  have signs : Token.comma.bytes.length = 1 ∧ Token.colon.bytes.length = 1 ∧
      Token.openObject.bytes.length = 1 ∧ Token.closeObject.bytes.length = 1 := by decide
  rw [render, tokens, reverse_length]
  simp only [Body.envelope, Envelope.toJson, Body.params, Body.method, Parcel.toJson, Json.ofNat,
    tokensOnto, memberTokensOnto, spelledLength_cons, spelledLength, string_length, number, names,
    signs, escapeText_hex, if_true, Bool.false_eq_true, if_false]
  omega

/-- Whether a queued message is a reply whose text is too large for a frame. -/
def Entry.isOversized (ack : Nat) (e : Entry Parcel) : Bool :=
  match e.body with
  | .message _ _ => false
  | .reply replyTo payload => Frame.maxBody < 68 + 2 * payload.length + (natLexeme e.seq).length +
      (natLexeme ack).length + (natLexeme replyTo).length

/-- A queued message that may be handed out: a letter within the limit for letters, or a
reply. Its numbers are words as long as its sequence number is. -/
structure Entry.Admitted (e : Entry Parcel) : Prop where
  letter : ∀ payload replyTo, e.body = .message payload replyTo →
    payload.length ≤ Frame.maxPayload ∧ ∀ n ∈ replyTo, n ≤ e.seq
  reply : ∀ replyTo payload, e.body = .reply replyTo payload → replyTo ≤ maxWord

/-- A queued message has a frame unless it is a reply that is too large. -/
theorem Entry.Admitted.framed {e : Entry Parcel} (admitted : e.Admitted) (seq : e.seq ≤ maxWord)
    (ack : Nat) (ackFits : ack ≤ maxWord) :
    (Dispatch.of? (.parcel e.body) e.seq ack).isSome = !e.isOversized ack := by
  cases body : e.body with
  | message payload replyTo =>
    obtain ⟨small, numbers⟩ := admitted.letter payload replyTo body
    have fits : (Body.parcel (.message payload replyTo)).Fits :=
      fun n named => (numbers n named).trans seq
    rw [Dispatch.of?_parcel _ fits e.seq ack seq ackFits small]
    simp [isOversized, body]
  | reply replyTo payload =>
    have length := Body.reply_length replyTo payload e.seq ack
    unfold Dispatch.of? Frame.encode
    dsimp only
    rw [length]
    by_cases large : Frame.maxBody < 68 + 2 * payload.length + (natLexeme e.seq).length +
        (natLexeme ack).length + (natLexeme replyTo).length
    · rw [if_pos large]
      simp [isOversized, body, large]
    · rw [if_neg large]
      simp [isOversized, body, large]

/-- A reply that is too large is beyond the limit for letters. -/
theorem Entry.Admitted.oversized {e : Entry Parcel} (admitted : e.Admitted)
    (seq : e.seq ≤ maxWord) (ack : Nat) (ackFits : ack ≤ maxWord)
    (oversized : e.isOversized ack = true) :
    e.body.isReply = true ∧ Frame.maxPayload < e.body.payload.length := by
  have limits : Frame.maxBody = 1048576 ∧ Frame.maxPayload = 522240 := by decide
  unfold isOversized at oversized
  split at oversized
  · cases oversized
  · next replyTo payload body =>
    have large := of_decide_eq_true oversized
    have first := natLexeme_word e.seq seq
    have second := natLexeme_word ack ackFits
    have third := natLexeme_word replyTo (admitted.reply replyTo payload body)
    rw [body]
    refine ⟨rfl, ?_⟩
    simp only [Parcel.payload]
    omega

namespace Session

/-- What may be in a session whose letters are within the limit. -/
structure Packed (s : Session) : Prop where
  received : s.ledger.window.received ≤ maxWord
  numbered : s.ledger.nextBinding ≤ s.ledger.window.sent + 1
  queued : ∀ e ∈ s.ledger.outbox.entries, e.seq ≤ s.ledger.window.sent ∧ e.Admitted
  handling : ∀ n, s.stage = .handling (some n) → n ≤ maxWord

/-- A session of a peer not heard of before has nothing queued. -/
theorem fresh_packed (peer : PeerId) (options : Options) : (fresh peer options).Packed where
  received := Nat.zero_le _
  numbered := Nat.le_refl 1
  queued := nofun
  handling := nofun

/-- Only a letter takes a binding. -/
theorem undergo_nextBinding (host : Host) (s : Session) (occurrence : Occurrence)
    (unpledged : s.pledge? occurrence = none) :
    (s.undergo host occurrence).ledger.nextBinding = s.ledger.nextBinding := by
  cases s.dealt host occurrence with
  | turned _ outcome =>
    generalize s.asked host occurrence = effects at outcome
    cases outcome with
    | spared _ bears => exact bears.nextBinding
    | answered _ _ _ _ _ _ next => exact next
    | gaveUp _ _ next => exact next
  | pledged pledge noted => cases unpledged.symm.trans noted

/-- A turn receives words only, and hands out messages that name words. -/
theorem Packed.heard {host : Host} {now : Nat} {event : Event} {s after : Session}
    {effects : List Effect} (packed : s.Packed) (turned : Turned host now s event after effects) :
    after.ledger.window.received ≤ maxWord ∧
      ∀ n, after.stage = .handling (some n) → n ≤ maxWord := by
  cases turned.heard with
  | nothing _ _ _ received passed untold still =>
    refine ⟨received ▸ packed.received, fun n handling => ?_⟩
    rcases still with same | idle
    · exact packed.handling n (same ▸ handling)
    · exact absurd handling (idle (some n))
  | renewed _ _ _ _ _ _ _ _ _ received _ _ stage =>
    refine ⟨received ▸ Nat.zero_le _, fun n handling => ?_⟩
    cases stage.symm.trans handling
  | read link e rest _ _ held front took =>
    obtain ⟨reading, live, holds, complete⟩ := s.front?_reading e rest front
    have word := (Frame.next?_words live.buffer rest e complete).1
    constructor
    · rcases took.leaves.received with same | raised
      · exact same ▸ packed.received
      · rw [raised]
        exact Nat.max_le.mpr ⟨packed.received, word⟩
    · intro n handling
      cases took with
      | message payload replyTo body new =>
        cases handling
        exact e.message_word payload n body
      | _ => cases reading.symm.trans handling

/-- What may be in a session stays so, as long as letters are within the limit. Only a letter and a
reply are ever queued. A letter is within the limit, and a reply names the binding that a message
named. -/
theorem Packed.undergo {s : Session} (packed : s.Packed) (host : Host) (occurrence : Occurrence)
    (small : ∀ letter now, occurrence = .post letter now →
      letter.payload.length ≤ Frame.maxPayload) : (s.undergo host occurrence).Packed := by
  have pushed (made : Outbox Parcel) (evicted : Option (Entry Parcel))
      (room : s.ledger.outbox.makeRoom = .ok (made, evicted)) (parcel : Parcel) (now : Duration)
      (admitted : (⟨s.ledger.window.sent + 1, parcel, now⟩ : Entry Parcel).Admitted) :
      ∀ e ∈ made.entries ++ [⟨s.ledger.window.sent + 1, parcel, now⟩],
        e.seq ≤ s.ledger.window.sent + 1 ∧ e.Admitted := by
    intro e listed
    rcases List.mem_append.mp listed with old | last
    · have held := (s.ledger.outbox.makeRoom_fewer made evicted room).1.subset old
      exact (packed.queued e held).imp_left Nat.le_succ_of_le
    · rw [List.mem_singleton.mp last]
      exact ⟨Nat.le_refl _, admitted⟩
  have undergone := s.undergone host occurrence
  generalize same : s.undergo host occurrence = after at undergone ⊢
  cases undergone with
  | spared _ _ spared =>
    constructor
    · rw [spared.window]
      exact packed.received
    · rw [spared.nextBinding, spared.window]
      exact packed.numbered
    · rw [spared.outbox, spared.window]
      exact packed.queued
    · intro n handling
      rcases spared.stage with kept | ended
      · exact packed.handling n (kept ▸ handling)
      · cases ended.symm.trans handling
  | posted letter now queued accepted posted =>
    obtain ⟨made, evicted, tally, room, _, rfl⟩ :=
      s.ledger.enqueueLetter_eq queued letter now accepted
    obtain ⟨number, next⟩ := s.ledger.bind_number letter.promise
    constructor
    · exact packed.received
    · exact next.trans (Nat.succ_le_succ packed.numbered)
    · refine pushed made evicted room _ now ⟨?_, nofun⟩
      rintro payload replyTo ⟨⟩
      exact ⟨small letter now rfl, fun n named => number n named ▸ packed.numbered⟩
    · exact packed.handling
  | turned now random event =>
    obtain ⟨effects, turned⟩ := s.undergo_turn host now random event
    obtain ⟨received, handling⟩ := packed.heard turned
    have bindings := s.undergo_nextBinding host (.turn now random event) rfl
    have numbered (sent : s.ledger.window.sent ≤
        (s.undergo host (.turn now random event)).ledger.window.sent) :
        (s.undergo host (.turn now random event)).ledger.nextBinding ≤
          (s.undergo host (.turn now random event)).ledger.window.sent + 1 := by
      rw [bindings]
      exact packed.numbered.trans (Nat.succ_le_succ sent)
    cases turned.stored with
    | shed sheds sent =>
      refine ⟨received, numbered (Nat.le_of_eq sent.symm), ?_, handling⟩
      rw [sent]
      exact fun e listed => packed.queued e (sheds.part.subset listed)
    | replied replyTo payload made evicted stage room entries overflow sent =>
      refine ⟨received, numbered (sent ▸ Nat.le_succ _), ?_, handling⟩
      rw [entries, sent]
      refine pushed made evicted room _ (.ofMillis now) ⟨nofun, ?_⟩
      rintro _ _ ⟨⟩
      exact packed.handling replyTo stage
    | cleared outbox bindings sent =>
      refine ⟨received, numbered (Nat.le_of_eq sent.symm), ?_, handling⟩
      rw [outbox]
      exact nofun

/-- As long as its letters are within the limit, a session holds only what may be handed out, all
through a life. -/
theorem Packed.live {s : Session} (packed : s.Packed) (host : Host) (life : List Occurrence)
    (small : ∀ letter now, .post letter now ∈ life →
      letter.payload.length ≤ Frame.maxPayload) : (s.live host life).Packed := by
  induction life generalizing s with
  | nil => exact packed
  | cons occurrence rest inductionHypothesis =>
    refine inductionHypothesis (packed.undergo host occurrence ?_) ?_
    · exact fun letter now posts => small letter now (posts ▸ List.mem_cons_self)
    · exact fun letter now listed => small letter now (List.mem_cons_of_mem _ listed)

end Session

namespace Outbox

variable {β : Type}

/-- What an outbox holds outside of its written messages is still to be written. -/
theorem entries_missing [DecidableEq β] (o : Outbox β) (before : List (Entry β))
    (written : ∀ e ∈ o.written, e ∈ before) (unwritten : ∀ e ∈ o.unwritten, e ∉ before) :
    Entry.missing o.entries before = o.unwritten := by
  rw [← o.written_append_unwritten, Entry.missing_append, Entry.missing_nil written,
    List.nil_append]
  apply List.filter_eq_self.mpr
  intro e listed
  simpa using unwritten e listed

end Outbox

/-- Whether a message carries a parcel. -/
def Body.isParcel : Body → Bool
  | .parcel _ => true
  | _ => false

/-- The parcels that are handed to the writer. -/
def Effect.parcels : Effect → List Dispatch
  | .write _ dispatches => dispatches.filter (·.body.isParcel)
  | _ => []

/-- Each entry that has a frame is dispatched as a parcel, with the acknowledgement given. -/
theorem Entry.dispatches_body (ack : Nat) (entries : List (Entry Parcel)) :
    ∀ d ∈ Entry.dispatches ack entries, d.Formed ∧ d.ack = ack ∧ d.body.isParcel = true := by
  intro d listed
  obtain ⟨e, _, framed⟩ := List.mem_filterMap.mp listed
  obtain ⟨body, _, same, _⟩ := Dispatch.of?_eq _ _ _ d framed
  exact ⟨Dispatch.of?_formed _ _ _ d framed, same, body ▸ rfl⟩

/-- Of messages that have frames unless they are too large, all others are written. -/
theorem Entry.dispatches_framed (ack : Nat) (entries : List (Entry Parcel))
    (framed : ∀ e ∈ entries,
      (Dispatch.of? (.parcel e.body) e.seq ack).isSome = !e.isOversized ack) :
    (Entry.dispatches ack entries).map (fun d => (d.seq, d.body)) =
      (entries.filter fun e => !e.isOversized ack).map fun e => (e.seq, .parcel e.body) := by
  induction entries with
  | nil => rfl
  | cons e rest inductionHypothesis =>
    obtain ⟨first, others⟩ := List.forall_mem_cons.mp framed
    have later := inductionHypothesis others
    cases formed : Dispatch.of? (.parcel e.body) e.seq ack with
    | none =>
      have skipped : Entry.dispatches ack (e :: rest) = Entry.dispatches ack rest :=
        List.filterMap_cons_none formed
      rw [formed] at first
      rw [skipped, later, List.filter_cons, ← first]
      rfl
    | some d =>
      have written : Entry.dispatches ack (e :: rest) = d :: Entry.dispatches ack rest :=
        List.filterMap_cons_some formed
      obtain ⟨body, seq, _⟩ := Dispatch.of?_eq _ _ _ d formed
      rw [formed] at first
      rw [written, List.map_cons, later, List.filter_cons, ← first, body, seq]
      rfl

namespace Session

/-- The parcels that are handed to the writer are those among the dispatches. -/
theorem writings_parcels (endpoint : Endpoint) (dispatches : List Dispatch) :
    (writings endpoint dispatches).flatMap Effect.parcels =
      dispatches.filter (·.body.isParcel) := by
  cases dispatches with
  | nil => rfl
  | cons d rest => exact List.append_nil _

/-- What is silent hands no parcel to the writer. -/
theorem parcels_silent {effects : List Effect}
    (silent : ∀ effect ∈ effects, effect.isSilent = true) :
    effects.flatMap Effect.parcels = [] := by
  refine List.flatMap_eq_nil_iff.mpr fun effect listed => ?_
  have mute := silent effect listed
  cases effect with
  | write => cases mute
  | _ => rfl

/-- The messages that a turn marks as written. -/
def marks (s after : Session) : List (Entry Parcel) :=
  Entry.missing after.ledger.outbox.written s.ledger.outbox.written

/-- Writing an outbox marks what was still to be written in it. -/
theorem marks_drained {s after : Session} (o : Outbox Parcel)
    (drained : after.ledger.outbox = o.drain.2)
    (written : ∀ e ∈ o.written, e ∈ s.ledger.outbox.written)
    (unwritten : ∀ e ∈ o.unwritten, e ∉ s.ledger.outbox.written) :
    s.marks after = o.unwritten := by
  unfold marks
  rw [drained, o.drain_written, o.written_append_unwritten]
  exact o.entries_missing _ written unwritten

end Session

/-- A turn hands over what it marks as written, as far as that has frames. What a flush drains was
not written before, since every message is in the outbox once, and so it is what is marked anew. -/
theorem Moved.hands {limit : Nat} {host : Host} {now : Nat} {event : Event} {s after : Session}
    {effects : List Effect} (moved : Moved host now s event after effects)
    (orderly : s.ledger.Orderly limit) :
    effects.flatMap Effect.parcels =
      Entry.dispatches s.ledger.window.received (s.marks after) := by
  have disjoint : ∀ e ∈ s.ledger.outbox.unwritten, e ∉ s.ledger.outbox.written := by
    have distinct : s.ledger.outbox.entries.Nodup :=
      orderly.ordered.imp fun less same => absurd (congrArg Entry.seq same) (Nat.ne_of_lt less)
    intro e later former
    exact List.disjoint_take_drop distinct (Nat.le_refl _) former later
  have nothing (unmarked : s.marks after = []) (mute : effects.flatMap Effect.parcels = []) :
      effects.flatMap Effect.parcels =
        Entry.dispatches s.ledger.window.received (s.marks after) := by
    rw [unmarked, mute]
    rfl
  have untouched (outbox : after.ledger.outbox = s.ledger.outbox) : s.marks after = [] :=
    Entry.missing_nil fun e => by rw [outbox]; exact id
  have flushed (o : Outbox Parcel) (endpoint : Endpoint)
      (drained : after.ledger.outbox = o.drain.2)
      (written : ∀ e ∈ o.written, e ∈ s.ledger.outbox.written)
      (unwritten : ∀ e ∈ o.unwritten, e ∉ s.ledger.outbox.written) :
      (Session.writings endpoint
        (Entry.dispatches s.ledger.window.received o.unwritten)).flatMap Effect.parcels =
        Entry.dispatches s.ledger.window.received (s.marks after) := by
    rw [Session.marks_drained o drained written unwritten, Session.writings_parcels]
    exact List.filter_eq_self.mpr fun d listed => (Entry.dispatches_body _ _ d listed).2.2
  cases moved with
  | quiet event after effects quiet silent =>
    exact nothing (untouched quiet.outbox) (Session.parcels_silent silent)
  | joined event greeted t effects quiet origin link silent =>
    exact nothing (Entry.missing_nil nofun) (Session.parcels_silent silent)
  | flushed event t middle after effects before flush behind =>
    cases flush with
    | nothing =>
      exact nothing (untouched (behind.outbox.trans before.outbox)) rfl
    | written link writes =>
      rw [Session.dispatches, before.outbox, before.received]
      refine flushed s.ledger.outbox link.endpoint ?_ (fun _ => id) disjoint
      rw [behind.outbox, ← before.outbox]
      rfl
  | replied replyTo payload ledger after effects stage queued flush =>
    obtain ⟨made, evicted, tally, room, _, rfl⟩ :=
      s.ledger.enqueueReply_eq ledger replyTo payload _ queued
    have sound := s.ledger.outbox.makeRoom_sound made orderly.marked evicted room
    have former : ∀ e ∈ (made.enqueue (s.ledger.window.sent + 1) (.reply replyTo payload)
        (.ofMillis now)).written, e ∈ s.ledger.outbox.written := by
      rw [made.enqueue_written sound]
      exact (s.ledger.outbox.makeRoom_fewer made evicted room).2
    cases flush with
    | nothing => exact nothing (Entry.missing_nil former) rfl
    | written link writes =>
      refine flushed _ link.endpoint rfl former ?_
      rw [made.enqueue_unwritten sound]
      refine List.forall_mem_append.mpr ⟨?_, List.forall_mem_singleton.mpr ?_⟩
      · intro e listed
        exact disjoint e (s.ledger.outbox.makeRoom_unwritten made evicted room e listed)
      · intro listed
        have before := (orderly.between _ (List.mem_of_mem_take listed)).2
        exact absurd before (Nat.not_succ_le_self _)
  | acknowledged event link after held quiet =>
    refine nothing (untouched quiet.outbox) ?_
    rw [Session.writings_parcels]
    refine List.filter_eq_nil_iff.mpr fun d listed => ?_
    obtain ⟨body, _⟩ := Dispatch.of?_eq _ _ _ d (Option.mem_toList.mp listed)
    rw [body]
    exact nofun
  | received bytes link held => exact nothing (untouched rfl) rfl
  | read link e rest after effects held complete took =>
    refine nothing (Entry.missing_nil ?_) ?_
    · rw [took.leaves.outbox]
      exact s.ledger.heeding_written e
    · cases took <;> rfl
  | gaveUp error after t quiet cleared =>
    subst cleared
    refine nothing (Entry.missing_nil nofun) ?_
    exact List.flatMap_eq_nil_iff.mpr (s.forall_rejections (fun _ => rfl) rfl)

namespace Session

/-- What can be sent of what a session queues. -/
structure Sendable (host : Host) (s : Session) : Prop where
  /-- What is queued has a frame under every acknowledgement, unless it is too large. -/
  framed : ∀ e ∈ s.ledger.outbox.entries, ∀ ack ≤ maxWord,
    (Dispatch.of? (.parcel e.body) e.seq ack).isSome = !e.isOversized ack
  /-- Only replies beyond the limit for letters are too large. -/
  limited : ∀ e ∈ s.ledger.outbox.entries, ∀ ack ≤ maxWord, e.isOversized ack = true →
    e.body.isReply = true ∧ Frame.maxPayload < e.body.payload.length
  /-- What a turn marks as written it hands over in order, in a frame each, except for replies
  that are too large. -/
  handed : ∀ now random event,
    let t := Turn.handle host now ⟨s, random, []⟩ event
    (t.effects.flatMap Effect.parcels).map (fun d => (d.seq, d.body)) =
        ((s.marks t.session).filter fun e => !e.isOversized s.ledger.window.received).map
          (fun e => (e.seq, .parcel e.body)) ∧
      ∀ d ∈ t.effects.flatMap Effect.parcels, d.Formed ∧ d.ack = s.ledger.window.received

/-- A turn gives out one number at most. -/
theorem undergo_sent (host : Host) (s : Session) (now : Nat) (random : Random.Stream)
    (event : Event) : (s.undergo host (.turn now random event)).ledger.window.sent ≤
      s.ledger.window.sent + 1 := by
  obtain ⟨effects, turned⟩ := s.undergo_turn host now random event
  cases turned.stored with
  | shed _ sent | cleared _ _ sent => exact sent ▸ Nat.le_succ _
  | replied _ _ _ _ _ _ _ _ sent => exact Nat.le_of_eq sent

/-- What is packed in order can be sent, as long as there are numbers left. -/
theorem Packed.sendable {limit : Nat} {s : Session} (packed : s.Packed) (host : Host)
    (orderly : s.ledger.Orderly limit) (counted : s.ledger.window.sent < maxWord) :
    s.Sendable host := by
  constructor
  case framed =>
    intro e listed ack small
    obtain ⟨seq, admitted⟩ := packed.queued e listed
    exact admitted.framed (seq.trans (Nat.le_of_lt counted)) ack small
  case limited =>
    intro e listed ack small oversized
    obtain ⟨seq, admitted⟩ := packed.queued e listed
    exact admitted.oversized (seq.trans (Nat.le_of_lt counted)) ack small oversized
  case handed =>
    intro now random event
    obtain ⟨effects, asked, turned⟩ := Turn.handle_goes host now ⟨s, random, []⟩ event
    have still := packed.undergo host (.turn now random event) nofun
    have sent := s.undergo_sent host now random event
    dsimp only
    rw [asked, List.nil_append, turned.moved.hands orderly]
    constructor
    · refine Entry.dispatches_framed _ _ fun e marked => ?_
      have listed := List.mem_of_mem_take (List.mem_filter.mp marked).1
      obtain ⟨seq, admitted⟩ := still.queued e listed
      exact admitted.framed (seq.trans (sent.trans counted)) _ packed.received
    · intro d listed
      obtain ⟨formed, ack, _⟩ := Entry.dispatches_body _ _ d listed
      exact ⟨formed, ack⟩

end Session

namespace Kernel

/-- A kernel passes on only letters within the limit. -/
theorem occurrences_small (k : Kernel) (peer : PeerId) (deed : Deed) (letter : Letter)
    (now : Duration) (posts : .post letter now ∈ k.occurrences peer deed) :
    letter.payload.length ≤ Frame.maxPayload := by
  cases occurs_of_mem posts with
  | post given time fits => exact fits

/-- Along every life of a kernel, all that is queued can be sent except for replies that are too
large. -/
theorem live_sendable (k : Kernel) (empty : k.sessions = []) (life : List Deed) (peer : PeerId)
    (s : Session) (held : (k.live life).session? peer = some s)
    (counted : s.ledger.window.sent < maxWord) :
    ∃ host, (k.live life).host? = some host ∧ s.Sendable host := by
  have begins (host : Host) (peer : PeerId) : (Session.fresh peer host.options).Packed ∧
      (Session.fresh peer host.options).ledger.Regular (max host.options.maxQueue 1) :=
    ⟨Session.fresh_packed peer host.options, Ledger.fresh_regular_max peer host.options⟩
  have keeps (k : Kernel) (host : Host) (peer : PeerId) (deed : Deed) (s : Session)
      (sound : s.Packed ∧ s.ledger.Regular (max host.options.maxQueue 1)) :
      (s.live host (k.occurrences peer deed)).Packed ∧
        (s.live host (k.occurrences peer deed)).ledger.Regular (max host.options.maxQueue 1) :=
    ⟨sound.1.live host _ (k.occurrences_small peer deed),
      Session.regular_live host s host.options.room_pos sound.2 _⟩
  obtain ⟨host, running, packed, regular⟩ := k.live_holds empty
    (fun host _ s => s.Packed ∧ s.ledger.Regular (max host.options.maxQueue 1)) begins keeps life
    peer s held
  exact ⟨host, running, packed.sendable host regular.toOrderly counted⟩

/-- The greeting of the peer left one letter unacknowledged, which the next turn writes. -/
theorem greeted_is_sendable : ∃ s,
    ((started aliceService quiet).live greetedLife).session? bob = some s ∧
      s.stage = .greeting ∧ s.ledger.outbox.unwritten.map (·.seq) = [2] ∧
      s.ledger.window.sent < maxWord ∧
      ∃ host, ((started aliceService quiet).live greetedLife).host? = some host ∧
        s.Sendable host :=
  ⟨_, rfl, rfl, rfl, by decide,
    live_sendable (started aliceService quiet) rfl greetedLife bob _ rfl (by decide)⟩

/-- A turn of a session that a kernel has. -/
theorem session?_turn (k : Kernel) (host : Host) (running : k.host? = some host) (peer : PeerId)
    (s : Session) (held : k.session? peer = some s) (now : Nat) (event : Event) :
    (k.undergo (.turn peer now event)).host? = some host ∧
      (k.undergo (.turn peer now event)).session? peer =
        some (Turn.handle host now ⟨s, k.random, []⟩ event).session := by
  have keeps := k.undergo_keeps (.turn peer now event) rfl
  refine ⟨(host?_of_status keeps.status).1.trans running, ?_⟩
  rw [k.session?_undergo host running peer s held _ keeps]
  simp [occurrences, Session.undergo]

section Lavish

open Correspondence (made made_eq)

/-- A message of a peer that asks for a reply. -/
def asking : Dispatch := made (.parcel (.message [7] (some 1))) 1 0

/-- The message that asks for a reply fits in a frame. -/
theorem asking_fits : (Body.parcel (.message [7] (some 1))).Fits := by
  rintro n ⟨⟩
  decide

/-- The message that asks for a reply has its frame. -/
theorem asking_framed : Dispatch.of? (.parcel (.message [7] (some 1))) 1 0 = some asking :=
  made_eq (Dispatch.of?_parcel (.message [7] (some 1)) asking_fits 1 0 (by decide) (by decide)
    (by decide))

/-- The connection on which the message arrives, along with the greeting. -/
def visiting : Greeted := ⟨⟨0, .acceptor⟩, ⟨bob, ⟨0, 2⟩, 0, none⟩, ⟨asking.frame.toArray⟩⟩

/-- The connection is adopted, and the session is about to read. -/
def visited : List Deed :=
  [.meet bob, .attach visiting, .turn bob 0 .command, .turn bob 0 .proceed]

/-- The message is handed out, and the application replies. -/
def answered (payload : List UInt8) : List Deed :=
  visited ++ [.turn bob 0 .proceed, .turn bob 0 (.replied (some payload))]

/-- The session that is about to read. -/
def attended : Session := ((started aliceService quiet).live visited).session aliceService.host bob

/-- The session once the message was handed out. -/
def answering (rest : ByteArray) : Session :=
  { attended with
    link := some ⟨⟨0, .acceptor⟩, ⟨0, 2⟩, rest⟩
    ledger := { attended.ledger with
      window := (attended.ledger.window.receive 1).2
      tally := attended.ledger.tally.received }
    stage := .handling (some 1) }

/-- The next turn hands the message out, with nothing left in the buffer. -/
theorem attended_answering (random : Random.Stream) : ∃ rest : ByteArray, rest.data.toList = [] ∧
    (Turn.handle aliceService.host 0 ⟨attended, random, []⟩ .proceed).session = answering rest := by
  have fits := Dispatch.of?_fits _ _ _ asking asking_framed asking_fits (by decide) (by decide)
  obtain ⟨body, seq, ack, _⟩ := Dispatch.of?_eq _ _ _ asking asking_framed
  have arrived : visiting.surplus.data.toList = asking.frame ++ [] := by
    rw [List.append_nil]
    exact List.toList_toArray
  have new : attended.ledger.window.received < asking.seq := by
    rw [seq]
    exact Nat.one_pos
  obtain ⟨rest, left, handed, _⟩ := attended.takes_message aliceService.host 0 random
    ⟨⟨0, .acceptor⟩, ⟨0, 2⟩, visiting.surplus⟩ asking [] rfl rfl
    (Dispatch.of?_formed _ _ _ asking asking_framed) fits arrived [7] (some 1) body new
  have unheeded : attended.ledger.heeding asking.envelope = attended.ledger :=
    if_neg (Nat.not_lt_of_le (Nat.le_of_eq ack))
  refine ⟨rest, left, ?_⟩
  rw [handed, unheeded, seq, answering]

/-- The reply of the application is queued, whatever it is. -/
theorem reply_queued (payload : List UInt8) : ∃ s,
    ((started aliceService quiet).live (answered payload)).session? bob = some s ∧
      s.ledger.outbox.entries = [⟨1, .reply 1 payload, .ofMillis 0⟩] := by
  have split : (started aliceService quiet).live (answered payload) =
      ((((started aliceService quiet).live visited).undergo (.turn bob 0 .proceed)).undergo
        (.turn bob 0 (.replied (some payload)))) := List.foldl_append
  generalize begun : (started aliceService quiet).live visited = k at split
  have running : k.host? = some aliceService.host := begun ▸ rfl
  have held : k.session? bob = some attended := begun ▸ rfl
  obtain ⟨rest, _, handed⟩ := attended_answering k.random
  obtain ⟨running, held⟩ := k.session?_turn _ running bob attended held 0 .proceed
  obtain ⟨_, held⟩ := session?_turn _ _ running bob _ held 0 (.replied (some payload))
  rw [handed] at held
  refine ⟨_, split ▸ held, ?_⟩
  rw [(answering rest).handle_replied aliceService.host 0 _ ⟨⟨0, .acceptor⟩, ⟨0, 2⟩, rest⟩ 1 payload
    _ rfl rfl ⟨rfl, rfl, Nat.one_ne_zero⟩]
  rfl

/-- A reply half as large as a body has no frame, whatever it acknowledges: its digits alone fill
the body. -/
theorem large_reply_unframed (payload : List UInt8) (large : payload.length = 524288)
    (ack : Nat) (small : ack ≤ maxWord) :
    Dispatch.of? (.parcel (.reply 1 payload)) 1 ack = none := by
  have limit : Frame.maxBody = 1048576 := by decide
  have admitted : (⟨1, .reply 1 payload, .ofMillis 0⟩ : Entry Parcel).Admitted := by
    refine ⟨nofun, ?_⟩
    rintro _ _ ⟨⟩
    decide
  have word : 1 ≤ maxWord := by decide
  have framed := admitted.framed word ack small
  have oversized : (⟨1, .reply 1 payload, .ofMillis 0⟩ : Entry Parcel).isOversized ack = true := by
    simp only [Entry.isOversized, decide_eq_true_eq]
    omega
  rw [oversized] at framed
  exact Option.not_isSome_iff_eq_none.mp (by simp [framed])

/-- A reply of half a mebibyte has no frame. -/
theorem large_reply_unsendable : ¬ ∀ (k : Kernel) (life : List Deed) (peer : PeerId)
    (s : Session), k.sessions = [] → (k.live life).session? peer = some s →
    ∀ e ∈ s.ledger.outbox.entries, ∀ ack ≤ maxWord,
      (Dispatch.of? (.parcel e.body) e.seq ack).isSome = true := by
  intro sendable
  obtain ⟨payload, large⟩ : ∃ payload : List UInt8, payload.length = 524288 :=
    ⟨List.replicate 524288 0, List.length_replicate⟩
  obtain ⟨s, held, entries⟩ := reply_queued payload
  have framed := sendable _ _ bob s rfl held _ (entries ▸ List.mem_singleton_self _) 0
    (Nat.zero_le _)
  rw [large_reply_unframed payload large 0 (Nat.zero_le _)] at framed
  cases framed

end Lavish

end Kernel

end Courier
