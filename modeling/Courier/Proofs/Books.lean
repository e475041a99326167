import Courier.Proofs.Orphans

/-!
# The books of a session

A ledger keeps books of what it queued and of how it fared: the messages in the outbox, the
numbers given out and acknowledged, and the counts of discarded messages, of failed attempts and
of the times that the peer was given up. Few occurrences make an entry. A message is queued, at
the cost of the oldest if there is no room; an envelope is read and its acknowledgement heeded; a
connection is adopted with the greeting that came on it; an attempt fails, and the peer may be
given up over it; or the application asks for a fresh count of attempts. Everything else leaves
the books as they are.
-/

namespace Courier

/-- Whether an effect announces that a connection was adopted. -/
def Effect.isOpening : Effect → Bool
  | .opened _ => true
  | _ => false

/-- Whether an occurrence is a call that asks for a fresh count of attempts. -/
def Occurrence.isRenewal : Occurrence → Bool
  | .reconnect _ | .resetBackoff => true
  | _ => false

namespace Session

/-- The greeted connection that an occurrence offers to a session: one that was attached, or the
outcome of its own attempt. -/
def offered? (s : Session) : Occurrence → Option Greeted
  | .turn _ _ .command =>
    match s.commands with
    | .attach greeted :: _ => some greeted
    | _ => none
  | .turn _ _ (.dialed (.ok greeted)) => some greeted
  | _ => none

/-- The greeted connection that an occurrence makes a session adopt. -/
def adopts? (host : Host) (s : Session) (occurrence : Occurrence) : Option Greeted :=
  (s.offered? occurrence).filter fun _ => (s.asked host occurrence).any Effect.isOpening

/-- Whether an occurrence ends the attempt to connect that a session waits for while it has no
connection, without one. -/
def AttemptFails (s : Session) (occurrence : Occurrence) : Prop :=
  ∃ now random error, occurrence = .turn now random (.dialed (.error error)) ∧ s.stage = .idle ∧
    s.dial.isSome ∧ s.link = none ∧ s.ledger.phase = .connecting

/-- Whether an occurrence counts a failed attempt. -/
def misses (host : Host) (s : Session) (occurrence : Occurrence) : Bool :=
  s.ledger.tally.failures < (s.undergo host occurrence).ledger.tally.failures

end Session

/-- What a ledger keeps books of: the messages queued, the numbers given out and acknowledged, and
the counts of what was dropped, of the attempts, of all failures and of the times that the peer was
given up. -/
structure Books where
  entries : List (Entry Parcel)
  sent : Nat
  acked : Nat
  dropped : Nat
  attempt : Nat
  failures : Nat
  giveUps : Nat

namespace Ledger

/-- The books of a ledger. -/
def books (l : Ledger) : Books where
  entries := l.outbox.entries
  sent := l.window.sent
  acked := l.window.acked
  dropped := l.tally.dropped
  attempt := l.attempt
  failures := l.tally.failures
  giveUps := l.tally.giveUps

/-- Two ledgers with the same books. -/
def SameBooks (l after : Ledger) : Prop := after.books = l.books

section SameBooks

variable {l middle after : Ledger}

/-- Twice the same books are the same books. -/
theorem SameBooks.trans (first : l.SameBooks middle) (second : middle.SameBooks after) :
    l.SameBooks after := Eq.trans second first

/-- With the same books the same messages are queued. -/
theorem SameBooks.entries (same : l.SameBooks after) :
    after.outbox.entries = l.outbox.entries := congrArg Books.entries same

/-- With the same books the same numbers were given out. -/
theorem SameBooks.sent (same : l.SameBooks after) : after.window.sent = l.window.sent :=
  congrArg Books.sent same

/-- With the same books the same numbers were acknowledged. -/
theorem SameBooks.acked (same : l.SameBooks after) : after.window.acked = l.window.acked :=
  congrArg Books.acked same

/-- With the same books as many messages were dropped. -/
theorem SameBooks.dropped (same : l.SameBooks after) : after.tally.dropped = l.tally.dropped :=
  congrArg Books.dropped same

/-- With the same books the count of attempts is the same. -/
theorem SameBooks.attempt (same : l.SameBooks after) : after.attempt = l.attempt :=
  congrArg Books.attempt same

/-- With the same books as many attempts failed. -/
theorem SameBooks.failures (same : l.SameBooks after) :
    after.tally.failures = l.tally.failures := congrArg Books.failures same

/-- With the same books the peer was given up as many times. -/
theorem SameBooks.giveUps (same : l.SameBooks after) : after.tally.giveUps = l.tally.giveUps :=
  congrArg Books.giveUps same

end SameBooks

/-- The ledger when a parcel is queued in an outbox that was made room in. -/
def queued (l : Ledger) (made : Outbox Parcel) (evicted : Option (Entry Parcel)) (parcel : Parcel)
    (now : Duration) : Ledger :=
  { l with
    window := { l.window with sent := l.window.sent + 1 }
    outbox := made.enqueue (l.window.sent + 1) parcel now
    tally := if evicted.isSome then l.tally.discarded 1 else l.tally }

/-- The ledger when the peer is given up. -/
def surrendered (l : Ledger) : Ledger :=
  { l with attempt := 0, outbox := l.outbox.clear, tally := l.tally.gaveUp l.outbox.size }

/-- A letter that is accepted is entered as one message, at the cost of what makes room for it. -/
theorem enqueueLetter_books (l queued : Ledger) (letter : Letter) (now : Duration)
    (accepted : l.enqueueLetter letter now = .ok queued) : ∃ made evicted parcel,
      l.outbox.makeRoom = .ok (made, evicted) ∧
        (l.queued made evicted parcel now).SameBooks queued := by
  obtain ⟨made, evicted, _, given, rfl, rfl⟩ := l.enqueueLetter_eq queued letter now accepted
  exact ⟨made, evicted, .message letter.payload (l.bind letter.promise).1, given, rfl⟩

/-- A reply that is accepted is entered as one message, at the cost of what makes room for it. -/
theorem enqueueReply_books (l queued : Ledger) (replyTo : Nat) (payload : List UInt8)
    (now : Duration) (accepted : l.enqueueReply replyTo payload now = .ok queued) :
    ∃ made evicted, l.outbox.makeRoom = .ok (made, evicted) ∧
      (l.queued made evicted (.reply replyTo payload) now).SameBooks queued := by
  obtain ⟨made, evicted, _, given, rfl, rfl⟩ :=
    l.enqueueReply_eq queued replyTo payload now accepted
  exact ⟨made, evicted, given, rfl⟩

/-- The phase and the duplicates counted do not matter to a greeting. -/
theorem onConnected_books (l : Ledger) (phase : Phase) (duplicate : Bool) (own : Incarnation)
    (hello : Hello) (now : Duration) : (l.onConnected own hello now).SameBooks
      (({ l with phase }.count (if duplicate then Tally.duplicate else id)).onConnected own hello
        now) := by
  unfold onConnected observe
  by_cases restarted : Incarnation.restarted l.incarnation hello.incarnation
  all_goals
    by_cases named : hello.acked = some own
    all_goals
      cases duplicate
      all_goals
        simp only [count, restarted, named, if_true, if_false]
        exact rfl

end Ledger

open Ledger

/-- Leaving the connected phase makes no entry. -/
theorem Session.vacated_books (s : Session) : s.ledger.SameBooks s.vacated.ledger := by
  unfold vacated
  cases s.link <;> exact rfl

/-- Losing the connection makes no entry. -/
theorem Session.bereft_books (s : Session) (due : Nat) :
    s.ledger.SameBooks (s.bereft due).ledger := by
  obtain ⟨_, _, same⟩ := s.bereft_eq due
  rw [same]
  rfl

/-- A flush makes no entry. -/
theorem Flushed.books {s after : Session} {effects : List Effect}
    (flushed : Flushed s after effects) : s.ledger.SameBooks after.ledger := by
  cases flushed <;> exact rfl

/-- An envelope that is read counts for its acknowledgement alone. -/
theorem Took.books {e : Envelope} {s after : Session} {effects : List Effect}
    (took : Took e s after effects) : (s.ledger.heeding e).SameBooks after.ledger := by
  have received (w : Window) : (w.receive e.seq).2.sent = w.sent ∧
      (w.receive e.seq).2.acked = w.acked := by
    rw [w.receive_eq]
    exact ⟨rfl, rfl⟩
  obtain ⟨sent, acked⟩ := received (s.ledger.heeding e).window
  cases took with
  | malformed | unnumbered | greeting | ack => exact rfl
  | unknown | again | message | reply | settled =>
    exact congrArg₂ (fun sent acked => Books.mk _ sent acked _ _ _ _) sent acked

/-- What an occurrence enters in the books. -/
inductive Booked (host : Host) (s : Session) (occurrence : Occurrence) (after : Ledger) :
    Prop where
  | kept (uncalled : occurrence.isRenewal = false) (unread : s.intake? host occurrence = none)
      (unopened : s.adopts? host occurrence = none) (books : s.ledger.SameBooks after)
  | renewed (called : occurrence.isRenewal = true) (unread : s.intake? host occurrence = none)
      (unopened : s.adopts? host occurrence = none)
      (books : ({ s.ledger with attempt := 0 } : Ledger).SameBooks after)
  | queued (made : Outbox Parcel) (evicted : Option (Entry Parcel)) (parcel : Parcel)
      (now : Duration) (uncalled : occurrence.isRenewal = false)
      (unread : s.intake? host occurrence = none) (unopened : s.adopts? host occurrence = none)
      (room : s.ledger.outbox.makeRoom = .ok (made, evicted))
      (books : (s.ledger.queued made evicted parcel now).SameBooks after)
  | heeded (intake : Intake) (uncalled : occurrence.isRenewal = false)
      (read : s.intake? host occurrence = some intake)
      (unopened : s.adopts? host occurrence = none)
      (books : (s.ledger.heeding intake.envelope).SameBooks after)
  | adopted (greeted : Greeted) (now : Duration) (uncalled : occurrence.isRenewal = false)
      (unread : s.intake? host occurrence = none)
      (opened : s.adopts? host occurrence = some greeted)
      (books : (s.ledger.onConnected host.incarnation greeted.hello now).SameBooks after)
  | missed (now : Nat) (fails : s.AttemptFails occurrence)
      (more : 0 < host.options.maxAttempts →
        (s.failing now).attempt < host.options.maxAttempts)
      (books : (s.failing now).SameBooks after)
  | gaveUp (now : Nat) (fails : s.AttemptFails occurrence)
      (limited : 0 < host.options.maxAttempts)
      (spent : host.options.maxAttempts ≤ (s.failing now).attempt)
      (books : (s.failing now).surrendered.SameBooks after)

namespace Session

/-- The failure of an attempt reads nothing, opens nothing and is no call. -/
theorem AttemptFails.unread {s : Session} {occurrence : Occurrence}
    (fails : s.AttemptFails occurrence) (host : Host) : occurrence.isRenewal = false ∧
      s.intake? host occurrence = none ∧ s.adopts? host occurrence = none := by
  obtain ⟨now, random, error, rfl, _⟩ := fails
  exact ⟨rfl, rfl, rfl⟩

/-- A session that is offered nothing adopts nothing. -/
theorem adopts?_unoffered (host : Host) (s : Session) (occurrence : Occurrence)
    (unoffered : s.offered? occurrence = none) : s.adopts? host occurrence = none := by
  rw [adopts?, unoffered]
  rfl

/-- Who asks for nothing adopts no connection. -/
theorem adopts?_unasked (host : Host) (s : Session) (occurrence : Occurrence)
    (unasked : s.asked host occurrence = []) : s.adopts? host occurrence = none := by
  rw [adopts?, unasked]
  cases s.offered? occurrence <;> rfl

/-- A connection that is offered is adopted exactly if it becomes the live one. -/
theorem adopts?_adopted (host : Host) {s t after : Session} (occurrence : Occurrence)
    (greeted : Greeted) (offered : s.offered? occurrence = some greeted) (now : Nat)
    (adopted : Adopted host now greeted t after (s.asked host occurrence)) :
    (s.adopts? host occurrence = none ∧ after =
        { t with ledger := t.ledger.count (if t.link.isSome then Tally.duplicate else id) }) ∨
      s.adopts? host occurrence = some greeted ∧ after = t.joined host now greeted := by
  generalize asked : s.asked host occurrence = effects at adopted
  have opens : s.adopts? host occurrence =
      if effects.any Effect.isOpening then some greeted else none := by
    rw [adopts?, offered, asked]
    rfl
  cases adopted with
  | refused => exact .inl ⟨opens.trans (if_neg (by simp [Effect.isOpening])), rfl⟩
  | joined => exact .inr ⟨opens.trans (if_pos (by simp [joinings, Effect.isOpening])), rfl⟩

/-- What an offer enters in the books. -/
theorem booked_offered (host : Host) (s t after : Session) (now : Nat) (random : Random.Stream)
    (event : Event) (greeted : Greeted)
    (offered : s.offered? (.turn now random event) = some greeted) (ledger : t.ledger = s.ledger)
    (unread : s.intake? host (.turn now random event) = none)
    (adopted : Adopted host now greeted t after (s.asked host (.turn now random event))) :
    Booked host s (.turn now random event) after.ledger := by
  rcases adopts?_adopted host _ greeted offered now adopted with ⟨unopened, rfl⟩ | ⟨opened, rfl⟩
  · refine .kept rfl unread unopened ?_
    rw [← ledger]
    cases t.link <;> exact rfl
  · refine .adopted greeted (.ofMillis now) rfl unread opened ?_
    rw [← ledger]
    cases held : t.link <;> unfold joined <;> rw [held]
    · exact t.ledger.onConnected_books .connected false _ _ _
    · exact t.ledger.onConnected_books .connected true _ _ _

end Session

/-- What a turn that reads nothing enters in the books. There is one case for each kind of turn. -/
theorem Turned.booked {host : Host} {now : Nat} {event : Event} {s after : Session}
    {effects : List Effect} (turned : Turned host now s event after effects)
    (random : Random.Stream) (asked : s.asked host (.turn now random event) = effects)
    (unread : event = .proceed → s.front? = none) :
    Booked host s (.turn now random event) after.ledger := by
  have silent := s.intake?_unread host now random event unread
  have kept (after : Ledger) (unoffered : s.offered? (.turn now random event) = none)
      (books : s.ledger.SameBooks after) : Booked host s (.turn now random event) after :=
    .kept rfl silent (s.adopts?_unoffered host _ unoffered) books
  cases turned with
  | still => exact .kept rfl silent (s.adopts?_unasked host _ asked) rfl
  | attach greeted rest _ _ idle next adopted =>
    exact s.booked_offered host { s with commands := rest } after now random .command greeted
      (by simp [Session.offered?, next]) rfl silent (asked ▸ adopted)
  | dialed greeted _ _ idle dialing adopted =>
    exact s.booked_offered host { s with dial := none } after now random _ greeted rfl rfl silent
      (asked ▸ adopted)
  | reconnect rest idle next =>
    refine kept _ (by simp [Session.offered?, next]) ?_
    exact ({ s with commands := rest } : Session).vacated_books.trans rfl
  | close rest idle next =>
    exact kept _ (by simp [Session.offered?, next]) { s with commands := rest }.vacated_books
  | shutdown rest _ idle next =>
    exact kept _ (by simp [Session.offered?, next]) (s.vacated_books.trans rfl)
  | resetDial rest idle next | resetNothing rest idle next =>
    exact kept _ (by simp [Session.offered?, next]) rfl
  | wakeFlush after effects idle woken phase flushed => exact kept _ rfl flushed.books
  | greeted after effects stage flushed => exact kept _ rfl flushed.books
  | lost link due => exact kept _ rfl (s.bereft_books due)
  | readBroken link error due => exact kept _ rfl (s.bereft_books due)
  | dialRetry error due idle dialing unlinked phase more =>
    exact .missed now ⟨now, random, error, rfl, idle, dialing, unlinked, phase⟩ more rfl
  | dialGiveUp error idle dialing unlinked phase limited spent =>
    exact .gaveUp now ⟨now, random, error, rfl, idle, dialing, unlinked, phase⟩ limited spent rfl
  | replied replyTo payload ledger after effects stage accepted flushed =>
    obtain ⟨made, evicted, room, books⟩ := s.ledger.enqueueReply_books _ _ _ _ accepted
    exact .queued made evicted _ _ rfl silent rfl room (books.trans flushed.books)
  | read link e rest after effects stage held complete took =>
    have front := s.front?_of_complete link e rest stage held complete
    cases (unread rfl).symm.trans front
  | _ => exact kept _ rfl rfl

namespace Session

/-- Every occurrence enters one of these things in the books. A letter is queued or refused, a turn
enters what it does, and the other calls ask for a fresh count or make no entry. -/
theorem booked (host : Host) (s : Session) (occurrence : Occurrence) :
    Booked host s occurrence (s.undergo host occurrence).ledger := by
  have pushed (t : Session) (command : Command)
      (booked : Booked host s occurrence t.ledger) :
      Booked host s occurrence (t.push command).ledger := by
    obtain ⟨commands, same, _⟩ := t.push_eq command
    rw [same]
    exact booked
  cases occurrence with
  | post letter now =>
    rcases s.undergo_post host letter now with same | ⟨queued, _, accepted, same⟩
    · rw [same]
      exact .kept rfl rfl rfl rfl
    · obtain ⟨made, evicted, parcel, room, books⟩ :=
        s.ledger.enqueueLetter_books queued letter now accepted
      rw [same]
      exact .queued made evicted parcel now rfl rfl rfl room books
  | addHints hints =>
    obtain ⟨hinted, same⟩ := s.ledger.addHints_eq hints
    simp only [undergo, addHints, same]
    exact .kept rfl rfl rfl rfl
  | reconnect hints =>
    obtain ⟨hinted, same⟩ := s.reconnect_eq hints
    rw [undergo, same]
    exact pushed _ _ (.renewed rfl rfl rfl rfl)
  | close =>
    rw [undergo, close_eq]
    exact pushed _ _ (.kept rfl rfl rfl rfl)
  | resetBackoff => exact pushed _ _ (.renewed rfl rfl rfl rfl)
  | attach greeted => exact pushed _ _ (.kept rfl rfl rfl rfl)
  | shutdown => exact pushed _ _ (.kept rfl rfl rfl rfl)
  | wrote bytes => exact .kept rfl rfl rfl rfl
  | turn now random event =>
    cases s.takes host now random event with
    | nothing _ unread silent turned => exact turned.booked random rfl unread
    | front e rest link front reading held complete taken took =>
      exact .heeded _ rfl taken rfl took.books
  | abort random =>
    rw [undergo_abort]
    exact .kept rfl rfl rfl (s.vacated_books.trans rfl)

end Session

end Courier
