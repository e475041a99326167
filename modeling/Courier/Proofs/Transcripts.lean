import Courier.Proofs.Sendable
import Courier.Proofs.Streams

/-!
# The transcript of a connection

What passes on the connection that a session holds is noted from its adoption on, line by line:
the envelopes that are read, the messages that are drained from the outbox to be written, and the
dispatches that are handed to the writer. The transcript begins anew with every connection that is
adopted.

An occurrence that adopts no connection is one of four things for the transcript of the connection
held. It adds no line, and then the outbox only loses messages or gets new ones behind all others;
it reads one envelope; it drains all that is still to be written and hands over what has a frame;
or it hands over an acknowledgement.
-/

namespace Courier

/-- A line of a transcript. -/
inductive Line where
  | read (e : Envelope)
  | drained (entries : List (Entry Parcel))
  | handed (d : Dispatch)

/-- The messages that are drained, if there are any. -/
def Line.draining (entries : List (Entry Parcel)) : List Line :=
  if entries.isEmpty then [] else [.drained entries]

/-- The dispatches that are handed to the writer. -/
def Effect.dispatches : Effect → List Dispatch
  | .write _ dispatches => dispatches
  | _ => []

/-- Whether an envelope is to be acknowledged: it carries a well-formed parcel, or it has a number
and a method that is not known. -/
def Envelope.isOwed (e : Envelope) : Bool :=
  match e.body with
  | .ok none => 0 < e.seq
  | .ok (some (.parcel _)) => true
  | _ => false

namespace Session

/-- The lines that an occurrence adds to the transcript of the connection held. -/
def lines (host : Host) (s : Session) (occurrence : Occurrence) : List Line :=
  ((s.intake? host occurrence).map fun intake => Line.read intake.envelope).toList ++
    Line.draining (s.marks (s.undergo host occurrence)) ++
    ((s.asked host occurrence).flatMap Effect.dispatches).map .handed

/-- The transcript of the connection held, after one more occurrence. -/
def transcribe (host : Host) (s : Session) (transcript : List Line) (occurrence : Occurrence) :
    List Line :=
  if (s.adopts? host occurrence).isSome then [] else transcript ++ s.lines host occurrence

/-- The transcript of the connection held, after a life that began with one. -/
def transcript (host : Host) (s : Session) (transcript : List Line) :
    List Occurrence → List Line
  | [] => transcript
  | occurrence :: rest =>
    (s.undergo host occurrence).transcript host (s.transcribe host transcript occurrence) rest

/-- The transcript of two lives is that of the second, begun with that of the first. -/
theorem transcript_append (host : Host) (s : Session) (begun : List Line)
    (life more : List Occurrence) : s.transcript host begun (life ++ more) =
      (s.live host life).transcript host (s.transcript host begun life) more := by
  induction life generalizing s begun with
  | nil => rfl
  | cons occurrence rest inductionHypothesis => exact inductionHypothesis _ _

/-- An occurrence that offers no connection adds its lines to the transcript. -/
theorem transcribe_unoffered (host : Host) (s : Session) (transcript : List Line)
    (occurrence : Occurrence) (unoffered : s.offered? occurrence = none) :
    s.transcribe host transcript occurrence = transcript ++ s.lines host occurrence := by
  rw [transcribe, s.adopts?_unoffered host occurrence unoffered]
  rfl

end Session

namespace Ledger

variable {limit : Nat} {l after : Ledger}

/-- Whether a message still has its turn to be written: it is not written yet, or not even
queued. -/
def Awaits (l : Ledger) (e : Entry Parcel) : Prop :=
  e ∈ l.outbox.unwritten ∨ l.window.sent < e.seq

/-- A ledger in which nothing was written since another one. -/
structure Withheld (l after : Ledger) : Prop where
  written : ∀ e ∈ after.outbox.written, e ∈ l.outbox.written
  unwritten : ∀ e ∈ after.outbox.unwritten, l.Awaits e

/-- What an occurrence that adopts no connection is for the transcript. -/
inductive Conveyed (l : Ledger) : List Line → Ledger → Prop where
  | aside (after : Ledger) (withheld : l.Withheld after)
      (received : after.window.received = l.window.received)
      (ackPending : after.window.ackPending = l.window.ackPending) : Conveyed l [] after
  | read (e : Envelope) (after : Ledger) (withheld : l.Withheld after)
      (received : after.window.received =
        e.counted?.elim l.window.received (max l.window.received))
      (ackPending : after.window.ackPending = (e.isOwed || l.window.ackPending)) :
      Conveyed l [.read e] after
  | drained (entries : List (Entry Parcel)) (after : Ledger) (nonempty : entries ≠ [])
      (awaited : ∀ e ∈ entries, l.Awaits e) (behind : entries <:+ after.outbox.entries)
      (all : after.outbox.unwritten = [])
      (written : ∀ e ∈ after.outbox.written, e ∈ l.outbox.written ∨ e ∈ entries)
      (received : after.window.received = l.window.received)
      (ackPending : after.window.ackPending = false) :
      Conveyed l (.drained entries :: (Entry.dispatches l.window.received entries).map .handed)
        after
  | acknowledged (after : Ledger) (withheld : l.Withheld after)
      (received : after.window.received = l.window.received)
      (ackPending : after.window.ackPending = false) :
      Conveyed l ((Dispatch.of? .ack 0 l.window.received).toList.map .handed) after

/-- With the same outbox nothing was written. -/
theorem Withheld.same (outbox : after.outbox = l.outbox := by rfl) : l.Withheld after where
  written := by rw [outbox]; exact fun _ => id
  unwritten := by rw [outbox]; exact fun _ => .inl

/-- What awaits its turn is not written. -/
theorem Awaits.unwritten {e : Entry Parcel} (awaits : l.Awaits e) (orderly : l.Orderly limit) :
    e ∉ l.outbox.written := by
  intro written
  rcases awaits with unwritten | later
  · have distinct : l.outbox.entries.Nodup :=
      orderly.ordered.imp fun less same => absurd (congrArg Entry.seq same) (Nat.ne_of_lt less)
    exact List.disjoint_take_drop distinct (Nat.le_refl _) written unwritten
  · have before := (orderly.between e (List.mem_of_mem_take written)).2
    exact absurd before (Nat.not_le_of_lt later)

/-- An acknowledgement takes messages away at the front alone. -/
theorem heeding_withheld (l : Ledger) (e : Envelope) : l.Withheld (l.heeding e) :=
  l.heeding_keeps e .same
    ⟨l.applyAck_written e.ack, fun f listed => .inl (l.outbox.ack_unwritten _ f listed)⟩

/-- A parcel that is queued stands behind all others. -/
theorem Withheld.queued (outbox : Outbox Parcel) (evicted : Option (Entry Parcel))
    (orderly : l.Orderly limit) (room : l.outbox.makeRoom = .ok (outbox, evicted))
    (parcel : Parcel) (now : Duration)
    (queued : after.outbox = outbox.enqueue (l.window.sent + 1) parcel now) :
    l.Withheld after := by
  have sound := l.outbox.makeRoom_sound outbox orderly.marked evicted room
  constructor
  · rw [queued, outbox.enqueue_written sound]
    exact (l.outbox.makeRoom_fewer outbox evicted room).2
  · rw [queued, outbox.enqueue_unwritten sound]
    refine List.forall_mem_append.mpr ⟨?_, List.forall_mem_singleton.mpr ?_⟩
    · exact fun e listed => .inl (l.outbox.makeRoom_unwritten outbox evicted room e listed)
    · exact .inr (Nat.lt_succ_self _)

end Ledger

open Ledger

namespace Session

/-- What is written are the dispatches. -/
theorem writings_dispatches (endpoint : Endpoint) (dispatches : List Dispatch) :
    (writings endpoint dispatches).flatMap Effect.dispatches = dispatches := by
  cases dispatches with
  | nil => rfl
  | cons d rest => exact List.append_nil _

/-- What is silent hands over no dispatches. -/
theorem dispatches_silent {effects : List Effect}
    (silent : ∀ effect ∈ effects, effect.isSilent = true) :
    effects.flatMap Effect.dispatches = [] := by
  refine List.flatMap_eq_nil_iff.mpr fun effect listed => ?_
  have mute := silent effect listed
  cases effect with
  | write => cases mute
  | _ => rfl

/-- The lines of an occurrence that reads nothing. -/
theorem lines_unread (host : Host) (s : Session) (occurrence : Occurrence)
    (unread : s.intake? host occurrence = none) (drained : List (Entry Parcel))
    (marks : s.marks (s.undergo host occurrence) = drained) (dispatches : List Dispatch)
    (asked : (s.asked host occurrence).flatMap Effect.dispatches = dispatches) :
    s.lines host occurrence = Line.draining drained ++ dispatches.map .handed := by
  rw [lines, unread, marks, asked]
  rfl

/-- Where nothing was written, no message is marked as written. -/
theorem marks_withheld {s after : Session} (withheld : s.ledger.Withheld after.ledger) :
    s.marks after = [] := Entry.missing_nil withheld.written

end Session

/-- Writing what is still to be written, after something was queued perhaps. -/
theorem Flushed.conveyed {limit : Nat} {s t flushed : Session} {effects : List Effect}
    (flush : Flushed t flushed effects) (orderly : s.ledger.Orderly limit)
    (withheld : s.ledger.Withheld t.ledger)
    (received : t.ledger.window.received = s.ledger.window.received)
    (ackPending : t.ledger.window.ackPending = s.ledger.window.ackPending) :
    s.ledger.Conveyed (Line.draining (s.marks flushed) ++
      (effects.flatMap Effect.dispatches).map .handed) flushed.ledger := by
  cases flush with
  | nothing =>
    rw [Session.marks_withheld withheld]
    exact .aside _ withheld received ackPending
  | written link writes =>
    have some : t.ledger.outbox.unwritten ≠ [] := by
      intro none
      have length := t.ledger.outbox.length_unwritten
      rw [none] at length
      exact writes.2.2 length.symm
    have marks : s.marks { t with ledger := t.ledger.drain.2.2, ackDue := none } =
        t.ledger.outbox.unwritten := by
      refine Session.marks_drained t.ledger.outbox rfl withheld.written ?_
      exact fun e listed => (withheld.unwritten e listed).unwritten orderly
    rw [marks, Session.writings_dispatches, Session.dispatches, received, Line.draining,
      if_neg (by simpa using some)]
    refine .drained _ _ some withheld.unwritten ?_ t.ledger.outbox.drain_unwritten ?_ received rfl
    · exact ⟨t.ledger.outbox.written, t.ledger.outbox.written_append_unwritten⟩
    · intro e listed
      have drained : e ∈ t.ledger.outbox.drain.2.written := listed
      rw [t.ledger.outbox.drain_written] at drained
      exact (List.mem_append.mp drained).imp_left (withheld.written e)

/-- Taking in an envelope writes nothing and hands nothing over. -/
theorem Took.withheld {e : Envelope} {s after : Session} {effects : List Effect}
    (took : Took e s after effects) :
    s.ledger.Withheld after.ledger ∧ effects.flatMap Effect.dispatches = [] := by
  have heeded := s.ledger.heeding_withheld e
  have outbox := took.leaves.outbox
  refine ⟨⟨outbox ▸ heeded.written, outbox ▸ heeded.unwritten⟩, ?_⟩
  cases took <;> rfl

/-- Reading an envelope. -/
theorem Took.conveyed {e : Envelope} {s after : Session} {effects : List Effect}
    (took : Took e s after effects) : s.ledger.Conveyed [.read e] after.ledger := by
  refine .read e _ took.withheld.1 took.tells.counted ?_
  have heeded : (s.ledger.heeding e).window.ackPending = s.ledger.window.ackPending := by
    obtain ⟨_, _, same⟩ := s.ledger.heeding_eq e
    rw [same]
  have pending (w : Window) : (w.receive e.seq).2.ackPending = true := by rw [w.receive_eq]
  cases took with
  | malformed error body => simpa [Envelope.isOwed, body] using heeded
  | unnumbered body zero => simpa [Envelope.isOwed, body, zero] using heeded
  | greeting hello body => simpa [Envelope.isOwed, body] using heeded
  | ack body => simpa [Envelope.isOwed, body] using heeded
  | unknown body numbered => simpa [Envelope.isOwed, body, numbered] using pending _
  | again parcel body | message payload replyTo body | reply payload replyTo body
  | settled payload replyTo promise taken body =>
    simpa [Envelope.isOwed, body] using pending _

/-- Adopting a connection is silent. -/
theorem Adopted.silent {host : Host} {now : Nat} {greeted : Greeted} {s after : Session}
    {effects : List Effect} (adopted : Adopted host now greeted s after effects) :
    ∀ effect ∈ effects, effect.isSilent = true := by
  cases adopted with
  | refused => exact List.forall_mem_singleton.mpr rfl
  | joined => exact s.joinings_silent greeted

/-- What a turn that reads nothing is for the transcript. -/
theorem Turned.conveyed {limit : Nat} {host : Host} {now : Nat} {event : Event}
    {s after : Session} {effects : List Effect} (turned : Turned host now s event after effects)
    (orderly : s.ledger.Orderly limit) (random : Random.Stream)
    (asked : s.asked host (.turn now random event) = effects)
    (unread : event = .proceed → s.front? = none)
    (unopened : s.adopts? host (.turn now random event) = none) :
    s.ledger.Conveyed (Line.draining (s.marks after) ++
      (effects.flatMap Effect.dispatches).map .handed) after.ledger := by
  have steady (after : Session) (effects : List Effect)
      (outbox : after.ledger.outbox = s.ledger.outbox)
      (received : after.ledger.window.received = s.ledger.window.received)
      (ackPending : after.ledger.window.ackPending = s.ledger.window.ackPending)
      (silent : ∀ effect ∈ effects, effect.isSilent = true) :
      s.ledger.Conveyed (Line.draining (s.marks after) ++
        (effects.flatMap Effect.dispatches).map .handed) after.ledger := by
    have withheld : s.ledger.Withheld after.ledger := .same outbox
    rw [Session.marks_withheld withheld, Session.dispatches_silent silent]
    exact .aside _ withheld received ackPending
  have one (effect : Effect) (silent : effect.isSilent = true) :
      ∀ e ∈ [effect], e.isSilent = true := List.forall_mem_singleton.mpr silent
  have parting := silent_of_parting s.partings_part
  have offered (t : Session) (greeted : Greeted) (ledger : t.ledger = s.ledger)
      (offered : s.offered? (.turn now random event) = some greeted)
      (adopted : Adopted host now greeted t after effects) :
      s.ledger.Conveyed (Line.draining (s.marks after) ++
        (effects.flatMap Effect.dispatches).map .handed) after.ledger := by
    have kinds := Session.adopts?_adopted host _ greeted offered now (asked.symm ▸ adopted)
    have silent := adopted.silent
    rcases kinds with ⟨_, rfl⟩ | ⟨opened, _⟩
    · refine steady _ _ ?_ ?_ ?_ silent <;> rw [ledger] <;> rfl
    · cases unopened.symm.trans opened
  have bereft (due : Nat) : (s.bereft due).ledger.outbox = s.ledger.outbox ∧
      (s.bereft due).ledger.window = s.ledger.window := by
    obtain ⟨_, _, same⟩ := s.bereft_eq due
    rw [same]
    exact ⟨rfl, rfl⟩
  cases turned with
  | attach greeted rest after effects idle next adopted =>
    exact offered { s with commands := rest } greeted rfl (by simp [Session.offered?, next]) adopted
  | dialed greeted after effects idle dialing adopted =>
    exact offered { s with dial := none } greeted rfl rfl adopted
  | wakeFlush after effects idle woken phase flushed =>
    exact flushed.conveyed orderly .same rfl rfl
  | greeted after effects stage flushed => exact flushed.conveyed orderly .same rfl rfl
  | replied replyTo payload ledger after effects stage queued flushed =>
    obtain ⟨made, evicted, tally, room, _, rfl⟩ := s.ledger.enqueueReply_eq _ _ _ _ queued
    exact flushed.conveyed orderly (.queued made evicted orderly room _ _ rfl) rfl rfl
  | ackWritten link idle due held owed =>
    have withheld : s.ledger.Withheld { s.ledger with
        window := { s.ledger.window with ackPending := false } } := .same
    rw [Session.marks_withheld withheld, Session.writings_dispatches]
    exact .acknowledged _ withheld rfl rfl
  | dialGiveUp =>
    have withheld : s.ledger.Withheld { s.failing now with
        phase := .disconnected, attempt := 0, bindings := []
        outbox := s.ledger.outbox.clear
        tally := (s.failing now).tally.gaveUp s.ledger.outbox.size } :=
      ⟨List.forall_mem_nil _, List.forall_mem_nil _⟩
    rw [Session.marks_withheld withheld, Session.dispatches_silent s.rejections_silent]
    exact .aside _ withheld rfl rfl
  | read link e rest after effects stage held complete took =>
    cases (unread rfl).symm.trans (s.front?_of_complete link e rest stage held complete)
  | lost link due | readBroken link error due =>
    have window := (bereft due).2
    exact steady _ _ (bereft due).1 (by rw [window]) (by rw [window]) (one _ rfl)
  | reconnect => exact steady _ _ rfl rfl rfl (List.forall_mem_append.mpr ⟨parting, one _ rfl⟩)
  | close => exact steady _ _ rfl rfl rfl parting
  | shutdown rest effects idle next parts => exact steady _ _ rfl rfl rfl (silent_of_parting parts)
  | resetDial | wakeDial | elapsedDial =>
    exact steady _ _ rfl rfl rfl (one _ rfl)
  | still | resetNothing | wakeNothing | dialStale | dialRetry | elapsedNothing | ackNothing
  | received | lostNothing | readNothing | readAll | silent =>
    exact steady _ _ rfl rfl rfl (List.forall_mem_nil _)

namespace Session

/-- What happens between two turns adds no line. -/
theorem conveyed_called {limit : Nat} (host : Host) (s : Session)
    (orderly : s.ledger.Orderly limit) (occurrence : Occurrence)
    (called : ∀ now random event, occurrence ≠ .turn now random event) :
    s.ledger.Conveyed (s.lines host occurrence) (s.undergo host occurrence).ledger := by
  have unread : s.intake? host occurrence = none := by
    cases occurrence with
    | turn now random event => exact absurd rfl (called now random event)
    | _ => rfl
  have silent : (s.asked host occurrence).flatMap Effect.dispatches = [] := by
    cases occurrence with
    | turn now random event => exact absurd rfl (called now random event)
    | abort random =>
      obtain ⟨effects, asked, parting, _⟩ := Turn.release_goes ⟨s, random, []⟩
      have asked : s.asked host (.abort random) = effects := asked
      rw [asked]
      exact dispatches_silent (silent_of_parting parting)
    | _ => rfl
  have untouched (withheld : s.ledger.Withheld (s.undergo host occurrence).ledger)
      (received : (s.undergo host occurrence).ledger.window.received = s.ledger.window.received)
      (ackPending : (s.undergo host occurrence).ledger.window.ackPending =
        s.ledger.window.ackPending) :
      s.ledger.Conveyed (s.lines host occurrence) (s.undergo host occurrence).ledger := by
    rw [s.lines_unread host occurrence unread [] (marks_withheld withheld) [] silent]
    exact .aside _ withheld received ackPending
  have undergone := s.undergone host occurrence
  generalize s.undergo host occurrence = after at undergone untouched ⊢
  cases undergone with
  | spared _ _ spared =>
    exact untouched (.same spared.outbox) (by rw [spared.window]) (by rw [spared.window])
  | posted letter now queued accepted posted =>
    obtain ⟨made, evicted, tally, room, _, rfl⟩ :=
      s.ledger.enqueueLetter_eq queued letter now accepted
    exact untouched (.queued made evicted orderly room _ _ rfl) rfl rfl
  | turned now random event => exact absurd rfl (called now random event)

/-- A turn that reads an envelope notes that and nothing else. -/
theorem lines_front (host : Host) (s : Session) (now : Nat) (random : Random.Stream)
    (e : Envelope) (rest : ByteArray) (front : s.front? = some (e, rest)) :
    s.lines host (.turn now random .proceed) = [.read e] := by
  obtain ⟨_, link, held, _⟩ := s.front?_reading e rest front
  obtain ⟨effects, asked, took⟩ :=
    Turn.handle_front host now ⟨s, random, []⟩ link e rest held front
  have asked : s.asked host (.turn now random .proceed) = effects := asked
  obtain ⟨withheld, silent⟩ := took.withheld
  have marks : s.marks (s.undergo host (.turn now random .proceed)) = [] :=
    marks_withheld withheld
  rw [lines, s.intake?_front host now random e rest front, marks, asked, silent]
  rfl

/-- Every occurrence that adopts no connection is one of the four things for the transcript. -/
theorem conveyed {limit : Nat} (host : Host) (s : Session) (orderly : s.ledger.Orderly limit)
    (occurrence : Occurrence) (unopened : s.adopts? host occurrence = none) :
    s.ledger.Conveyed (s.lines host occurrence) (s.undergo host occurrence).ledger := by
  cases occurrence with
  | turn now random event =>
    cases s.takes host now random event with
    | nothing _ unread silent turned =>
      rw [s.lines_unread host _ silent _ rfl _ rfl]
      exact turned.conveyed orderly random rfl unread unopened
    | front e rest link front reading held complete taken took =>
      rw [s.lines_front host now random e rest front]
      exact took.conveyed
  | _ => exact s.conveyed_called host orderly _ nofun

end Session

/-- A connection is adopted with the ledger that its greeting makes of the one before. A connection
is offered by a command or by the attempt, and adopting it is the same for both. -/
theorem Session.undergo_adopts (host : Host) (s : Session) (occurrence : Occurrence)
    (greeted : Greeted) (opened : s.adopts? host occurrence = some greeted) :
    ∃ (time : Nat) (t : Session), t.ledger = s.ledger ∧
      s.undergo host occurrence = t.joined host time greeted ∧
      ∀ effect ∈ s.asked host occurrence, effect.isSilent = true := by
  have unoffered (none : s.offered? occurrence = none) : False := by
    cases (s.adopts?_unoffered host occurrence none).symm.trans opened
  cases occurrence with
  | turn now random event =>
    obtain ⟨effects, asked, turned⟩ := Turn.handle_goes host now ⟨s, random, []⟩ event
    have asked : s.asked host (.turn now random event) = effects := asked
    change Turned host now s event (s.undergo host (.turn now random event)) effects at turned
    have joins (t : Session) (other : Greeted) (ledger : t.ledger = s.ledger)
        (offered : s.offered? (.turn now random event) = some other)
        (adopted : Adopted host now other t (s.undergo host (.turn now random event)) effects) :
        ∃ (time : Nat) (t : Session), t.ledger = s.ledger ∧
          s.undergo host (.turn now random event) = t.joined host time greeted ∧
          ∀ effect ∈ s.asked host (.turn now random event), effect.isSilent = true := by
      have silent := adopted.silent
      rcases adopts?_adopted host _ other offered now (asked.symm ▸ adopted) with
        ⟨unopened, _⟩ | ⟨joined, same⟩
      · cases unopened.symm.trans opened
      · cases joined.symm.trans opened
        exact ⟨now, t, ledger, same, asked.symm ▸ silent⟩
    generalize s.undergo host (.turn now random event) = after at turned joins ⊢
    cases turned with
    | still => cases (s.adopts?_unasked host _ asked).symm.trans opened
    | attach other rest _ _ idle next adopted =>
      exact joins { s with commands := rest } other rfl (by simp [offered?, next]) adopted
    | dialed other _ _ idle dialing adopted =>
      exact joins { s with dial := none } other rfl rfl adopted
    | reconnect rest idle next | close rest idle next | shutdown rest _ idle next
    | resetDial rest idle next | resetNothing rest idle next =>
      exact (unoffered (by simp [offered?, next])).elim
    | _ => exact (unoffered rfl).elim
  | _ => exact (unoffered rfl).elim

/-- Nothing is noted of an occurrence that adopts a connection. -/
theorem Session.lines_adopting (host : Host) (s : Session) (occurrence : Occurrence)
    (greeted : Greeted) (opened : s.adopts? host occurrence = some greeted) :
    s.lines host occurrence = [] := by
  obtain ⟨now, t, _, same, silent⟩ := s.undergo_adopts host occurrence greeted opened
  have unread : s.intake? host occurrence = none := by
    cases s.booked host occurrence with
    | adopted _ _ _ unread => exact unread
    | missed _ fails | gaveUp _ fails => exact (fails.unread host).2.1
    | kept _ _ unopened | renewed _ _ unopened | queued _ _ _ _ _ _ unopened
    | heeded _ _ _ unopened => cases unopened.symm.trans opened
  have marks : s.marks (s.undergo host occurrence) = [] := by
    rw [same]
    exact Entry.missing_nil nofun
  exact s.lines_unread host occurrence unread [] marks [] (dispatches_silent silent)

end Courier
