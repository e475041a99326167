import Courier.Proofs.Transcripts

/-!
# What is read is acknowledged

An envelope that carries a parcel, or a number under a method that is not known, is owed an
acknowledgement. Every dispatch acknowledges all that was received, so the next one that is handed
over will do. Until then the session remembers that one is owed, and when it is idle it has set a
time for it.

There is one exception. Draining the outbox takes up the acknowledgement that is owed before it is
known whether anything of what is drained has a frame. If nothing has, nothing is handed over, and
the acknowledgement is swallowed until the next envelope that is owed one, or the next dispatch.
-/

namespace Courier

open Json Ledger

/-- Whether an acknowledgement is owed after one more line. -/
def Line.owes (owed : Bool) : Line → Bool
  | .read e => e.isOwed || owed
  | .drained _ | .handed _ => false

/-- A transcript in which an acknowledgement was swallowed: after an envelope that is owed one the
outbox was drained, nothing was handed over since that envelope, and no other was read since the
outbox was drained. -/
def Swallowed (transcript : List Line) : Prop :=
  ∃ before e between entries after,
    transcript = before ++ .read e :: (between ++ .drained entries :: after) ∧
      e.isOwed = true ∧ 0 < e.seq ∧
      (∀ d, .handed d ∉ between ++ .drained entries :: after) ∧
      ∀ f, .read f ∈ after → f.isOwed = false

section Owes

/-- Nothing is owed before the next envelope that is owed an acknowledgement. -/
theorem Line.owes_unread (later : List Line)
    (unread : ∀ e, .read e ∈ later → e.isOwed = false) : later.foldl owes false = false := by
  induction later with
  | nil => rfl
  | cons line rest inductionHypothesis =>
    have others := inductionHypothesis fun e listed => unread e (List.mem_cons_of_mem _ listed)
    cases line with
    | read e =>
      rw [List.foldl_cons, owes, unread e List.mem_cons_self]
      exact others
    | drained | handed => exact others

/-- What was owed, and is owed no more though nothing was handed over, went with a drain. -/
theorem Line.owes_unhanded (later : List Line) (unhanded : ∀ d, .handed d ∉ later)
    (settled : later.foldl owes true = false) : ∃ between entries after,
      later = between ++ .drained entries :: after ∧
        ∀ f, .read f ∈ after → f.isOwed = false := by
  induction later using List.reverseRecOn with
  | nil => cases settled
  | append_singleton later line inductionHypothesis =>
    rw [List.foldl_append, List.foldl_cons, List.foldl_nil] at settled
    cases line with
    | read e =>
      obtain ⟨unowed, before⟩ := Bool.or_eq_false_iff.mp settled
      obtain ⟨between, entries, after, rfl, unread⟩ := inductionHypothesis
        (fun d listed => unhanded d (List.mem_append_left _ listed)) before
      refine ⟨between, entries, after ++ [.read e], by simp, fun f listed => ?_⟩
      rcases List.mem_append.mp listed with old | last
      · exact unread f old
      · cases List.mem_singleton.mp last
        exact unowed
    | drained entries => exact ⟨later, entries, [], rfl, nofun⟩
    | handed d => exact absurd (List.mem_append_right _ List.mem_cons_self) (unhanded d)

end Owes

/-- A transcript that agrees with what a ledger received and with what it remembers to owe. -/
structure Ledger.Acknowledged (l : Ledger) (transcript : List Line) : Prop where
  owed : ∃ before, l.window.ackPending = transcript.foldl Line.owes before
  counted : ∀ e, .read e ∈ transcript → e.isOwed = true → e.seq ≤ l.window.received
  /-- Every dispatch acknowledges what was read before it. -/
  answered : transcript.Pairwise fun first later => ∀ e d, first = .read e → later = .handed d →
    e.isOwed = true → e.seq ≤ d.ack
  word : l.window.received ≤ maxWord

/-- An envelope that is owed an acknowledgement counts under its number. -/
theorem Envelope.counted?_of_isOwed (e : Envelope) (owed : e.isOwed = true) :
    e.counted? = some e.seq := by
  unfold isOwed at owed
  unfold counted?
  split at owed <;> simp_all

section Acknowledged

variable {l after : Ledger} {transcript : List Line}

/-- Every dispatch that is handed over carries the number received. -/
theorem Ledger.Conveyed.acks {lines : List Line} (conveyed : l.Conveyed lines after) (d : Dispatch)
    (handed : .handed d ∈ lines) : d.ack = l.window.received := by
  cases conveyed with
  | aside | read => simp at handed
  | drained entries =>
    obtain ⟨_, listed, same⟩ := List.mem_map.mp ((List.mem_cons.mp handed).resolve_left nofun)
    cases same
    exact (Entry.dispatches_body _ _ d listed).2.1
  | acknowledged =>
    obtain ⟨_, listed, same⟩ := List.mem_map.mp handed
    cases same
    exact (Dispatch.of?_eq _ _ _ d (Option.mem_toList.mp listed)).2.2.1

/-- Dispatches that carry the number received acknowledge all that was read. -/
theorem Ledger.Acknowledged.handed (acknowledged : l.Acknowledged transcript) (lines : List Line)
    (unread : ∀ e, .read e ∉ lines)
    (acks : ∀ d, .handed d ∈ lines → d.ack = l.window.received)
    (settled : ∀ owed, lines.foldl Line.owes owed = false)
    (received : after.window.received = l.window.received)
    (ackPending : after.window.ackPending = false) : after.Acknowledged (transcript ++ lines) := by
  obtain ⟨before, owed⟩ := acknowledged.owed
  constructor
  case owed => exact ⟨before, by rw [List.foldl_append, settled, ackPending]⟩
  case counted =>
    intro e listed owes
    rw [received]
    refine acknowledged.counted e ?_ owes
    exact (List.mem_append.mp listed).resolve_right (unread e)
  case answered =>
    refine List.pairwise_append.mpr ⟨acknowledged.answered, ?_, ?_⟩
    · refine List.pairwise_of_forall_mem_list ?_
      rintro first listed later _ e d rfl
      exact absurd listed (unread e)
    · rintro first listed later handed e d rfl rfl owes
      rw [acks d handed]
      exact acknowledged.counted e listed owes
  case word => exact received ▸ acknowledged.word

/-- Whatever an occurrence adds to a transcript, it agrees with what the ledger received and with
what it remembers to owe. What is handed over acknowledges the number received, which is not below
that of anything read before. -/
theorem Ledger.Conveyed.acknowledges {lines : List Line} (conveyed : l.Conveyed lines after)
    (acknowledged : l.Acknowledged transcript) (word : after.window.received ≤ maxWord) :
    after.Acknowledged (transcript ++ lines) := by
  obtain ⟨before, owed⟩ := acknowledged.owed
  have acks := conveyed.acks
  cases conveyed with
  | aside _ _ received ackPending =>
    rw [List.append_nil]
    exact ⟨⟨before, ackPending.trans owed⟩, received ▸ acknowledged.counted,
      acknowledged.answered, word⟩
  | read e _ _ received ackPending =>
    constructor
    case owed => exact ⟨before, by rw [List.foldl_append, ← owed, ackPending]; rfl⟩
    case counted =>
      intro f listed owes
      rw [received]
      rcases List.mem_append.mp listed with old | last
      · refine (acknowledged.counted f old owes).trans ?_
        cases e.counted? with
        | none => exact Nat.le_refl _
        | some n => exact Nat.le_max_left _ _
      · cases List.mem_singleton.mp last
        rw [e.counted?_of_isOwed owes]
        exact Nat.le_max_right _ _
    case answered =>
      refine List.pairwise_append.mpr ⟨acknowledged.answered, List.pairwise_singleton _ _, ?_⟩
      rintro _ _ later last f d _ rfl
      cases List.mem_singleton.mp last
    case word => exact word
  | drained entries _ _ _ _ _ _ received ackPending =>
    have settled (owed : Bool) := Line.owes_unread
      ((Entry.dispatches l.window.received entries).map Line.handed) (by simp)
    exact acknowledged.handed _ (by simp) acks settled received ackPending
  | acknowledged _ _ received ackPending =>
    obtain ⟨d, framed⟩ := Option.isSome_iff_exists.mp
      (Dispatch.of?_ack 0 l.window.received (Nat.zero_le _) acknowledged.word)
    rw [framed] at acks ⊢
    exact acknowledged.handed _ (by simp) acks (fun owed => rfl) received ackPending

end Acknowledged

/-- A session that has set the time of an acknowledgement when it is idle and owes one. -/
def Session.Armed (s : Session) : Prop :=
  s.stage = .idle → s.link.isSome → s.ledger.window.ackPending = true → s.ackDue.isSome

section Armed

variable {s after : Session}

/-- What leaves the stage, the connection and the two notes of an acknowledgement alone. -/
theorem Session.Armed.same (armed : s.Armed) (stage : after.stage = s.stage := by rfl)
    (link : after.link = s.link := by rfl)
    (ackPending : after.ledger.window.ackPending = s.ledger.window.ackPending := by rfl)
    (ackDue : after.ackDue = s.ackDue := by rfl) : after.Armed := by
  unfold Session.Armed
  rw [stage, link, ackPending, ackDue]
  exact armed

/-- Without a connection nothing is owed on it. -/
theorem Session.Armed.gone (link : after.link = none) : after.Armed := by
  simp [Session.Armed, link]

/-- A session that is in the middle of something else has nothing to set. -/
theorem Session.Armed.busy (stage : after.stage ≠ .idle) : after.Armed :=
  fun idle => absurd idle stage

/-- A session that owes no acknowledgement has no time to set. -/
theorem Session.Armed.settled (ackPending : after.ledger.window.ackPending = false) :
    after.Armed := by
  simp [Session.Armed, ackPending]

/-- Writing the outbox pays what is owed, or changes nothing. -/
theorem Session.Armed.flushed {effects : List Effect} (armed : s.Armed)
    (flush : Flushed s after effects) : after.Armed := by
  cases flush with
  | nothing => exact armed
  | written => exact .settled rfl

/-- A connection that is adopted is greeted first; one that is refused changes nothing. -/
theorem Session.Armed.adopted {host : Host} {now : Nat} {greeted : Greeted}
    {effects : List Effect} (armed : s.Armed)
    (adopted : Adopted host now greeted s after effects) : after.Armed := by
  cases adopted with
  | refused => exact armed.same
  | joined => exact .busy nofun

/-- Every turn leaves the time set when the session is idle. A session becomes idle when nothing is
left to read, and sets the time then. -/
theorem Turned.armed {host : Host} {now : Nat} {event : Event} {effects : List Effect}
    (turned : Turned host now s event after effects) (armed : s.Armed) : after.Armed := by
  have reading (stage : after.stage = .reading) : after.Armed := .busy (by simp [stage])
  cases turned with
  | still => exact armed
  | attach greeted rest after effects idle next adopted =>
    have taken : ({ s with commands := rest } : Session).Armed := armed.same
    exact taken.adopted adopted
  | dialed greeted after effects idle dialing adopted =>
    have taken : ({ s with dial := none } : Session).Armed := armed.same
    exact taken.adopted adopted
  | wakeFlush after effects idle woken phase flushed =>
    have woken : ({ s with woken := false } : Session).Armed := armed.same
    exact woken.flushed flushed
  | reconnect | close => exact .gone rfl
  | shutdown => exact .busy nofun
  | lost link due => exact .gone (s.bereft_link due)
  | readBroken link error due => exact .gone (s.bereft_link due)
  | lostNothing idle unlinked | readNothing stage unlinked => exact .gone unlinked
  | dialGiveUp error idle dialing unlinked => exact .gone unlinked
  | dialRetry error due idle dialing unlinked => exact .gone unlinked
  | ackWritten link idle => exact .settled rfl
  | ackNothing idle due settled =>
    exact fun _ linked owed => absurd owed (settled linked)
  | readAll link stage held incomplete =>
    intro _ _ owed
    have owed : s.ledger.window.ackPending = true := owed
    cases set : s.ackDue <;> simp [owed]
  | read link e rest after effects stage held complete took =>
    rcases took.stage with same | ⟨replyTo, handling⟩
    · exact reading (same.trans stage)
    · exact .busy (by simp [handling])
  | greeted | received | silent => exact reading rfl
  | replied replyTo payload ledger after effects stage queued flushed =>
    exact reading flushed.stage
  | resetDial | resetNothing | wakeDial | wakeNothing | dialStale | elapsedDial
  | elapsedNothing => exact armed.same

end Armed

namespace Session

/-- Whatever happens to a session leaves the time set when it is idle. -/
theorem Armed.undergo {s : Session} (armed : s.Armed) (host : Host) (occurrence : Occurrence) :
    (s.undergo host occurrence).Armed := by
  have undergone := s.undergone host occurrence
  generalize s.undergo host occurrence = after at undergone ⊢
  cases undergone with
  | spared _ _ spared =>
    rcases spared.link with gone | link
    · exact .gone gone
    · rcases spared.stage with stage | ended
      · rcases spared.ackDue with due | ended
        · exact armed.same stage link (by rw [spared.window]) due
        · exact .busy (by simp [ended])
      · exact .busy (by simp [ended])
  | posted letter now queued accepted =>
    obtain ⟨_, _, _, _, _, rfl⟩ := s.ledger.enqueueLetter_eq queued letter now accepted
    exact armed.same
  | turned now random event =>
    obtain ⟨effects, turned⟩ := s.undergo_turn host now random event
    exact turned.armed armed

/-- The number received stays a word. -/
theorem undergo_word (host : Host) (s : Session) (occurrence : Occurrence)
    (word : s.ledger.window.received ≤ maxWord) :
    (s.undergo host occurrence).ledger.window.received ≤ maxWord := by
  have absorbed := s.absorbed host occurrence
  generalize taken : s.intake? host occurrence = intake? at absorbed
  cases absorbed with
  | nothing _ _ received => exact received ▸ word
  | renewed _ _ received => exact received ▸ Nat.zero_le _
  | taken e _ _ tells =>
    rw [tells.counted]
    have number : e.seq ≤ maxWord := by
      cases occurrence with
      | turn now random event =>
        cases event with
        | proceed =>
          obtain ⟨⟨f, rest⟩, front, same⟩ := Option.map_eq_some_iff.mp taken
          cases congrArg Intake.envelope same
          obtain ⟨_, link, _, complete⟩ := s.front?_reading _ rest front
          exact (Frame.next?_words link.buffer rest _ complete).1
        | _ => cases taken
      | _ => cases taken
    unfold Envelope.counted?
    split
    · exact Nat.max_le.mpr ⟨word, number⟩
    · exact Nat.max_le.mpr ⟨word, number⟩
    · exact word

/-- Whether a session remembers that it owes an acknowledgement, and has set a time for it if it
is idle. -/
def Owes (s : Session) : Prop :=
  s.ledger.window.ackPending = true ∧ (s.stage = .idle → s.ackDue.isSome)

/-- Whether every envelope of a transcript that is owed an acknowledgement got one, or is about
to. -/
def Answers (s : Session) (transcript : List Line) : Prop :=
  ∀ before e later, transcript = before ++ .read e :: later → e.isOwed = true → 0 < e.seq →
    (∃ d, .handed d ∈ later ∧ e.seq ≤ d.ack) ∨ s.Owes

/-- How a session acknowledges what it reads on the connection held. -/
structure Acknowledges (host : Host) (s : Session) (transcript : List Line) : Prop where
  /-- Every envelope that is owed an acknowledgement gets one, exactly unless it was swallowed. -/
  answers : s.link.isSome → (s.Answers transcript ↔ ¬ Swallowed transcript)
  /-- Every dispatch that is handed over acknowledges all that was received. -/
  acks : ∀ occurrence d, .handed d ∈ s.lines host occurrence → d.ack = s.ledger.window.received
  /-- What is owed is forgotten only when a dispatch is handed over, or when the outbox is drained
  and nothing of it has a frame. -/
  forgets : ∀ occurrence, s.adopts? host occurrence = none →
    s.ledger.window.ackPending = true →
    (s.undergo host occurrence).ledger.window.ackPending = false →
      (∃ d, .handed d ∈ s.lines host occurrence) ∨
        ∃ entries, s.lines host occurrence = [.drained entries] ∧
          ∀ e ∈ entries, Dispatch.of? (.parcel e.body) e.seq s.ledger.window.received = none

/-- An occurrence keeps a transcript in agreement with what the ledger received and owes. -/
theorem transcribe_acknowledged {limit : Nat} (host : Host) (s : Session)
    (orderly : s.ledger.Orderly limit) (transcript : List Line)
    (acknowledged : s.ledger.Acknowledged transcript) (occurrence : Occurrence) :
    (s.undergo host occurrence).ledger.Acknowledged (s.transcribe host transcript occurrence) := by
  have word := s.undergo_word host occurrence acknowledged.word
  unfold transcribe
  cases opened : s.adopts? host occurrence with
  | none => exact (s.conveyed host orderly occurrence opened).acknowledges acknowledged word
  | some greeted => exact ⟨⟨_, rfl⟩, nofun, .nil, word⟩

/-- All through a life the transcript of the connection held agrees with the ledger. -/
theorem transcript_acknowledged {limit : Nat} (host : Host) (s : Session) (positive : 0 < limit)
    (regular : s.ledger.Regular limit) (transcript : List Line)
    (acknowledged : s.ledger.Acknowledged transcript) (life : List Occurrence) :
    (s.live host life).ledger.Acknowledged (s.transcript host transcript life) := by
  induction life generalizing s transcript with
  | nil => exact acknowledged
  | cons occurrence rest inductionHypothesis =>
    have regular' := (s.undergo_regular host positive regular occurrence).2
    exact inductionHypothesis _ regular' _
      (s.transcribe_acknowledged host regular.toOrderly transcript acknowledged occurrence)

/-- All through a life, a session that is idle and owes an acknowledgement has set a time for it. -/
theorem live_armed (host : Host) (peer : PeerId) (life : List Occurrence) :
    ((fresh peer host.options).live host life).Armed := by
  induction life using List.reverseRecOn with
  | nil => exact .gone rfl
  | append_singleton life occurrence inductionHypothesis =>
    rw [live_append]
    exact inductionHypothesis.undergo host occurrence

/-- Nothing is owed any more once an acknowledgement was swallowed. -/
theorem not_answers_of_swallowed {s : Session} {transcript : List Line}
    (swallowed : Swallowed transcript) (acknowledged : s.ledger.Acknowledged transcript) :
    ¬ s.Answers transcript := by
  intro answers
  obtain ⟨before, e, between, entries, after, split, owed, numbered, unhanded, unread⟩ := swallowed
  obtain ⟨owing, pending⟩ := acknowledged.owed
  have forgotten : s.ledger.window.ackPending = false := by
    rw [pending, split, List.foldl_append, List.foldl_cons, List.foldl_append, List.foldl_cons]
    exact Line.owes_unread after unread
  rcases answers before e _ split owed numbered with ⟨d, handed, _⟩ | owes
  · exact unhanded d handed
  · cases forgotten.symm.trans owes.1

/-- Where no acknowledgement was swallowed, every envelope got the one it is owed, or is about to.
The last envelope without one is still owed it, since only a dispatch or a drained outbox forgets
it. -/
theorem answers_of_not_swallowed {s : Session} {transcript : List Line} (armed : s.Armed)
    (linked : s.link.isSome) (acknowledged : s.ledger.Acknowledged transcript)
    (kept : ¬ Swallowed transcript) : s.Answers transcript := by
  intro before e later split owed numbered
  by_cases handed : ∃ d, .handed d ∈ later
  · obtain ⟨d, handed⟩ := handed
    have pairs := acknowledged.answered
    rw [split, List.pairwise_append, List.pairwise_cons] at pairs
    exact .inl ⟨d, handed, pairs.2.1.1 _ handed e d rfl rfl owed⟩
  · have unhanded (d : Dispatch) : .handed d ∉ later := fun listed => handed ⟨d, listed⟩
    obtain ⟨owing, pending⟩ := acknowledged.owed
    have since : s.ledger.window.ackPending = later.foldl Line.owes true := by
      rw [pending, split, List.foldl_append, List.foldl_cons, Line.owes, owed, Bool.true_or]
    have owes : s.ledger.window.ackPending = true := by
      refine Bool.of_not_eq_false fun forgotten => kept ?_
      obtain ⟨between, entries, after, same, unread⟩ :=
        Line.owes_unhanded later unhanded (since ▸ forgotten)
      exact ⟨before, e, between, entries, after, same ▸ split, owed, numbered, same ▸ unhanded,
        unread⟩
    exact .inr ⟨owes, fun idle => armed idle linked owes⟩

/-- Every dispatch that is handed over carries the number received. -/
theorem lines_acks {limit : Nat} (host : Host) (s : Session) (orderly : s.ledger.Orderly limit)
    (occurrence : Occurrence) (d : Dispatch) (handed : .handed d ∈ s.lines host occurrence) :
    d.ack = s.ledger.window.received := by
  cases opened : s.adopts? host occurrence with
  | some greeted =>
    rw [s.lines_adopting host occurrence greeted opened] at handed
    cases handed
  | none =>
    exact (s.conveyed host orderly occurrence opened).acks d handed

/-- What is owed is forgotten when something is handed over, or with a drain of which nothing has
a frame. -/
theorem lines_forgets {limit : Nat} (host : Host) (s : Session) (orderly : s.ledger.Orderly limit)
    (word : s.ledger.window.received ≤ maxWord) (occurrence : Occurrence)
    (unopened : s.adopts? host occurrence = none) (owed : s.ledger.window.ackPending = true)
    (forgotten : (s.undergo host occurrence).ledger.window.ackPending = false) :
    (∃ d, .handed d ∈ s.lines host occurrence) ∨
      ∃ entries, s.lines host occurrence = [.drained entries] ∧
        ∀ e ∈ entries, Dispatch.of? (.parcel e.body) e.seq s.ledger.window.received = none := by
  have conveyed := s.conveyed host orderly occurrence unopened
  generalize s.lines host occurrence = lines at conveyed
  cases conveyed with
  | aside _ _ _ ackPending => cases (ackPending.symm.trans forgotten).symm.trans owed
  | read e _ _ _ ackPending =>
    rw [owed, Bool.or_true] at ackPending
    cases ackPending.symm.trans forgotten
  | drained entries =>
    cases framed : Entry.dispatches s.ledger.window.received entries with
    | nil => exact .inr ⟨entries, rfl, List.filterMap_eq_nil_iff.mp framed⟩
    | cons d rest => exact .inl ⟨d, List.mem_cons_of_mem _ List.mem_cons_self⟩
  | acknowledged =>
    obtain ⟨d, framed⟩ := Option.isSome_iff_exists.mp
      (Dispatch.of?_ack 0 s.ledger.window.received (Nat.zero_le _) word)
    exact .inl ⟨d, by simp [framed]⟩

/-- Along every life of a session, what it reads on a connection is acknowledged, unless the
acknowledgement is swallowed by a drain of which nothing has a frame. -/
theorem live_acknowledges (host : Host) (peer : PeerId) (life : List Occurrence) :
    Acknowledges host ((fresh peer host.options).live host life)
      ((fresh peer host.options).transcript host [] life) := by
  have begun : (fresh peer host.options).ledger.Acknowledged [] :=
    ⟨⟨false, rfl⟩, nofun, .nil, Nat.zero_le _⟩
  have regular := Ledger.fresh_regular_max peer host.options
  have acknowledged := transcript_acknowledged host _ host.options.room_pos regular [] begun life
  have orderly := (live_regular_max host peer life).toOrderly
  have armed := live_armed host peer life
  constructor
  case answers =>
    intro linked
    constructor
    · exact fun answers swallowed => not_answers_of_swallowed swallowed acknowledged answers
    · exact answers_of_not_swallowed armed linked acknowledged
  case acks => exact fun occurrence d => lines_acks host _ orderly occurrence d
  case forgets => exact fun occurrence => lines_forgets host _ orderly acknowledged.word occurrence

section Lavish

open Kernel (asking asking_framed asking_fits visiting attended answering attended_answering)

/-- The connection is adopted, and its message is about to be read. -/
def lavishArrival : List Occurrence :=
  [.attach visiting, .turn 0 quiet .command, .turn 0 quiet .proceed]

/-- The message is read, the application replies, and there is nothing more to read. -/
def lavishReply (payload : List UInt8) : List Occurrence :=
  [.turn 0 quiet .proceed, .turn 0 quiet (.replied (some payload)), .turn 0 quiet .proceed]

/-- The session once the reply was drained. -/
def lavished (payload : List UInt8) : Session :=
  (answering .empty).undergo aliceService.host (.turn 0 quiet (.replied (some payload)))

/-- The life ends with the connection adopted and the message in front. -/
theorem live_lavishArrival :
    (fresh bob aliceService.host.options).live aliceService.host lavishArrival = attended := rfl

/-- Nothing is drained and nothing read until then. -/
theorem transcript_lavishArrival :
    (fresh bob aliceService.host.options).transcript aliceService.host [] lavishArrival = [] := rfl

/-- The message is read, and is owed an acknowledgement. -/
theorem lines_attended :
    attended.lines aliceService.host (.turn 0 quiet .proceed) = [.read asking.envelope] ∧
      asking.envelope.isOwed = true ∧ asking.envelope.seq = 1 := by
  have fits := Dispatch.of?_fits _ _ _ asking asking_framed asking_fits (by decide) (by decide)
  obtain ⟨body, seq, _⟩ := Dispatch.of?_eq _ _ _ asking asking_framed
  obtain ⟨number, _⟩ := asking.envelope_numbers
  have arrived : visiting.surplus.data.toList = asking.frame ++ [] := by
    rw [List.append_nil]
    exact List.toList_toArray
  obtain ⟨rest, complete, _⟩ := asking.next?_front
    (Dispatch.of?_formed _ _ _ asking asking_framed) fits visiting.surplus [] arrived
  have front := attended.front?_of_complete ⟨⟨0, .acceptor⟩, ⟨0, 2⟩, visiting.surplus⟩ _ rest rfl
    rfl complete
  refine ⟨attended.lines_front _ 0 quiet _ rest front, ?_, number.trans seq⟩
  rw [Envelope.isOwed, asking.envelope_body fits, body]

/-- The reply is drained, and nothing is handed over. -/
theorem lines_answering (payload : List UInt8)
    (unframed : Dispatch.of? (.parcel (.reply 1 payload)) 1 1 = none) :
    (answering .empty).lines aliceService.host (.turn 0 quiet (.replied (some payload))) =
      [.drained [⟨1, .reply 1 payload, .ofMillis 0⟩]] ∧ (lavished payload).stage = .reading ∧
      (lavished payload).link = some ⟨⟨0, .acceptor⟩, ⟨0, 2⟩, .empty⟩ ∧
      (lavished payload).ledger.window.ackPending = false := by
  have replied := (answering .empty).handle_replied aliceService.host 0 quiet
    ⟨⟨0, .acceptor⟩, ⟨0, 2⟩, .empty⟩ 1 payload _ rfl rfl ⟨rfl, rfl, Nat.one_ne_zero⟩
  have marks : (answering .empty).marks ((answering .empty).undergo aliceService.host
      (.turn 0 quiet (.replied (some payload)))) = [⟨1, .reply 1 payload, .ofMillis 0⟩] := by
    rw [undergo, replied]
    rfl
  have mute : ((answering .empty).asked aliceService.host
      (.turn 0 quiet (.replied (some payload)))).flatMap Effect.dispatches = [] := by
    have nothing : Entry.dispatches 1 [⟨1, .reply 1 payload, .ofMillis 0⟩] = [] := by
      simp [Entry.dispatches, unframed]
    rw [asked, replied, writings_dispatches]
    exact nothing
  refine ⟨lines_unread _ _ _ rfl _ marks _ mute, ?_⟩
  rw [lavished, undergo, replied]
  exact ⟨rfl, rfl, rfl⟩

/-- There is nothing more to read, and no time is set. -/
theorem lavished_rests (payload : List UInt8)
    (unframed : Dispatch.of? (.parcel (.reply 1 payload)) 1 1 = none) :
    Turn.handle aliceService.host 0 ⟨lavished payload, quiet, []⟩ .proceed =
      ⟨{ lavished payload with stage := .idle }, quiet, []⟩ := by
  obtain ⟨_, reading, held, forgotten⟩ := lines_answering payload unframed
  have incomplete : Frame.next? ByteArray.empty = .ok none := rfl
  simp [Turn.handle, reading, Turn.proceed, Turn.readFrame, held, incomplete, Turn.armAck,
    forgotten, Turn.enter, Turn.amend]

/-- What is drained and has no frame is not handed over. -/
theorem lines_lavished (payload : List UInt8)
    (unframed : Dispatch.of? (.parcel (.reply 1 payload)) 1 1 = none) :
    (lavished payload).lines aliceService.host (.turn 0 quiet .proceed) = [] := by
  have rests := lavished_rests payload unframed
  obtain ⟨_, reading, held, _⟩ := lines_answering payload unframed
  generalize lavished payload = s at rests reading held ⊢
  have incomplete : Frame.next? ByteArray.empty = .ok none := rfl
  refine lines_unread _ _ _ ?_ [] (marks_withheld ?_) [] ?_
  · simp [intake?, front?, reading, held, incomplete]
  · rw [undergo, rests]
    exact .same
  · rw [asked, rests]
    rfl

/-- The next turn reads the message and hands it out. -/
theorem undergo_attended :
    attended.undergo aliceService.host (.turn 0 quiet .proceed) = answering .empty := by
  obtain ⟨rest, left, handed⟩ := attended_answering quiet
  rw [undergo, handed, Correspondence.empty_of_bytes left]

/-- The reply is queued and drained, and the session comes to rest. -/
theorem live_lavishReply (payload : List UInt8)
    (unframed : Dispatch.of? (.parcel (.reply 1 payload)) 1 1 = none) :
    attended.live aliceService.host (lavishReply payload) =
      { lavished payload with stage := .idle } := by
  have rests := lavished_rests payload unframed
  rw [lavishReply, live_cons, live_cons, live_one, undergo_attended, ← lavished, undergo, rests]

/-- The message is read, and the reply is drained without being handed over. -/
theorem transcript_lavishReply (payload : List UInt8)
    (unframed : Dispatch.of? (.parcel (.reply 1 payload)) 1 1 = none) :
    attended.transcript aliceService.host [] (lavishReply payload) =
      [.read asking.envelope, .drained [⟨1, .reply 1 payload, .ofMillis 0⟩]] := by
  obtain ⟨lines, reading, held, _⟩ := lines_answering payload unframed
  have silent := lines_lavished payload unframed
  rw [lavishReply, transcript, transcript, transcript, transcript, undergo_attended, ← lavished,
    transcribe_unoffered _ _ _ _ rfl, transcribe_unoffered _ _ _ _ rfl,
    transcribe_unoffered _ _ _ _ rfl, lines_attended.1, lines, silent]
  rfl

/-- A reply of half a mebibyte swallows the acknowledgement of the message that it answers. -/
theorem large_reply_swallows : ¬ ∀ (host : Host) (peer : PeerId) (life : List Occurrence),
    ((fresh peer host.options).live host life).stage = .idle →
    ((fresh peer host.options).live host life).link.isSome →
      ((fresh peer host.options).live host life).Answers
        ((fresh peer host.options).transcript host [] life) := by
  intro answers
  obtain ⟨payload, large⟩ : ∃ payload : List UInt8, payload.length = 524288 :=
    ⟨List.replicate 524288 0, List.length_replicate⟩
  have unframed := Kernel.large_reply_unframed payload large 1 (by decide)
  have lived := live_lavishReply payload unframed
  have transcript := transcript_lavishReply payload unframed
  obtain ⟨_, _, held, forgotten⟩ := lines_answering payload unframed
  obtain ⟨_, owed, seq⟩ := lines_attended
  generalize lavished payload = s at lived held forgotten
  have whole := answers aliceService.host bob (lavishArrival ++ lavishReply payload)
  rw [live_append, transcript_append, live_lavishArrival, transcript_lavishArrival, lived,
    transcript] at whole
  rcases whole rfl (by simp [held]) [] _ _ rfl owed (seq ▸ Nat.one_pos) with ⟨d, handed, _⟩ | owes
  · simp at handed
  · cases forgotten.symm.trans owes.1

end Lavish

end Session

end Courier
