import Courier.Proofs.Reading

/-!
# What arrived is taken up

Nothing stands in the way of a message that arrived completely. A greeting is taken, a
message that is new is handed to the application by the next turn, and an acknowledgement
is heeded. In turn, a session that greeted writes what is queued, and an acknowledgement
that is due.
-/

namespace Courier

open Json

/-- A greeting that arrived is taken. -/
theorem Handshake.take?_front (h : Hello) (fits : h.ack ≤ maxWord) (d : Dispatch)
    (greeting : Dispatch.of? (.hello h) 0 h.ack = some d) (arrived : ByteArray)
    (behind : List UInt8) (held : arrived.data.toList = d.frame ++ behind) :
    ∃ surplus, Handshake.take? arrived = .ok (some (h, surplus)) ∧
      surplus.data.toList = behind := by
  obtain ⟨body, _⟩ := Dispatch.of?_eq _ _ _ d greeting
  have words : d.Fits := Dispatch.of?_fits _ _ _ d greeting fits (Nat.zero_le _) fits
  obtain ⟨surplus, taken, left⟩ :=
    d.next?_front (Dispatch.of?_formed _ _ _ d greeting) words arrived behind held
  have opened : d.envelope.body = .ok (some (.hello h)) := by
    rw [d.envelope_body words, body]
  refine ⟨surplus, ?_, left⟩
  unfold Handshake.take?
  rw [taken]
  dsimp only
  rw [opened]

/-- A message is offered once everything before it was taken. -/
theorem Passage.offers_next (w : Passage) (p : Party) (done todo : List Dispatch) (d : Dispatch)
    (bytes : ByteArray) (written : w.written p.other = done ++ d :: todo)
    (taken : w.taken p = (Dispatch.bytes done).length) (whole : bytes.data.toList = d.frame) :
    w.Offers p bytes := by
  refine ⟨Dispatch.bytes todo, ?_⟩
  rw [written, taken, Dispatch.bytes_append, List.drop_left, whole]
  rfl

namespace Session

variable (host : Host) (now : Nat) (s : Session) (random : Random.Stream) (link : Link)
  (d : Dispatch)

section Reading

variable (behind : List UInt8) (reading : s.stage = .reading) (held : s.link = some link)
  (formed : d.Formed) (fits : d.Fits) (front : link.buffer.data.toList = d.frame ++ behind)

include held formed fits front

/-- The message in front is the next one that was written. -/
theorem frontSeq_front : s.frontSeq = d.seq := by
  obtain ⟨rest, taken, _⟩ := d.next?_front formed fits link.buffer behind front
  exact s.frontSeq_eq link d.envelope rest held taken

include reading

/-- A session that reads takes in the message at the front of what arrived. -/
theorem takes_front :
    ∃ rest after effects, rest.data.toList = behind ∧
      (Turn.handle host now ⟨s, random, []⟩ .proceed).session = after ∧
      (Turn.handle host now ⟨s, random, []⟩ .proceed).effects = effects ∧
      Took d.envelope { s with link := some { link with buffer := rest } } after effects := by
  obtain ⟨rest, taken, left⟩ := d.next?_front formed fits link.buffer behind front
  obtain ⟨effects, asked, took⟩ := Turn.receiveEnvelope_goes d.envelope
    ⟨{ s with link := some { link with buffer := rest } }, random, []⟩
  have handled : Turn.handle host now ⟨s, random, []⟩ .proceed =
      (⟨{ s with link := some { link with buffer := rest } }, random, []⟩ :
        Turn).receiveEnvelope d.envelope := by
    simp only [Turn.handle, reading, Turn.proceed, Turn.readFrame, held, taken, Turn.amend]
  rw [handled]
  exact ⟨rest, _, effects, left, rfl, asked, took⟩

/-- A new message that arrived is handed to the application. -/
theorem takes_message (payload : List UInt8) (replyTo : Option Nat)
    (message : d.body = .parcel (.message payload replyTo))
    (new : s.ledger.window.received < d.seq) :
    ∃ rest : ByteArray, rest.data.toList = behind ∧
      (Turn.handle host now ⟨s, random, []⟩ .proceed).session = { s with
        link := some { link with buffer := rest }
        ledger := { s.ledger.heeding d.envelope with
          window := ((s.ledger.heeding d.envelope).window.receive d.seq).2
          tally := (s.ledger.heeding d.envelope).tally.received }
        stage := .handling replyTo } ∧
      (Turn.handle host now ⟨s, random, []⟩ .proceed).effects = [.tell (.message payload)] := by
  obtain ⟨rest, after, effects, left, same, asked, took⟩ :=
    s.takes_front host now random link d behind reading held formed fits front
  have opened := d.envelope_body fits
  rw [message] at opened
  refine ⟨rest, left, ?_⟩
  rw [same, asked]
  cases took with
  | message payload replyTo body =>
    cases body.symm.trans opened
    exact ⟨rfl, rfl⟩
  | again parcel body old => exact absurd old (Nat.not_le_of_lt new)
  | malformed error body => cases body.symm.trans opened
  | unnumbered body | unknown body | ack body => cases body.symm.trans opened
  | greeting hello body => cases body.symm.trans opened
  | reply payload replyTo body => cases body.symm.trans opened
  | settled payload replyTo promise taken body => cases body.symm.trans opened

/-- A new reply that arrived settles the promise that waits for it. -/
theorem takes_reply (payload : List UInt8) (replyTo : Nat)
    (reply : d.body = .parcel (.reply replyTo payload)) (new : s.ledger.window.received < d.seq)
    (promise : PromiseId) (taken : Ledger)
    (bound : s.ledger.takeBinding replyTo = some (promise, taken)) :
    ∃ rest : ByteArray, rest.data.toList = behind ∧
      (Turn.handle host now ⟨s, random, []⟩ .proceed).session = { s with
        link := some { link with buffer := rest }
        ledger := { s.ledger.heeding d.envelope with
          window := ((s.ledger.heeding d.envelope).window.receive d.seq).2
          tally := (s.ledger.heeding d.envelope).tally.received
          bindings := taken.bindings } } ∧
      (Turn.handle host now ⟨s, random, []⟩ .proceed).effects =
        [.tell (.settled promise (.ok payload))] := by
  obtain ⟨rest, after, effects, left, same, asked, took⟩ :=
    s.takes_front host now random link d behind reading held formed fits front
  have opened := d.envelope_body fits
  rw [reply] at opened
  refine ⟨rest, left, ?_⟩
  rw [same, asked]
  cases took with
  | settled payload replyTo promise taken body new waits =>
    cases body.symm.trans opened
    cases waits.symm.trans bound
    exact ⟨rfl, rfl⟩
  | reply payload replyTo body new unbound =>
    cases body.symm.trans opened
    cases unbound.symm.trans bound
  | again parcel body old => exact absurd old (Nat.not_le_of_lt new)
  | malformed error body => cases body.symm.trans opened
  | unnumbered body | unknown body | ack body => cases body.symm.trans opened
  | greeting hello body => cases body.symm.trans opened
  | message payload replyTo body => cases body.symm.trans opened

/-- An acknowledgement that arrived is heeded. -/
theorem takes_ack (ack : d.body = .ack) :
    ∃ rest : ByteArray, rest.data.toList = behind ∧
      (Turn.handle host now ⟨s, random, []⟩ .proceed).session = { s with
        link := some { link with buffer := rest }
        ledger := s.ledger.heeding d.envelope } ∧
      (Turn.handle host now ⟨s, random, []⟩ .proceed).effects = [] := by
  obtain ⟨rest, after, effects, left, same, asked, took⟩ :=
    s.takes_front host now random link d behind reading held formed fits front
  have opened := d.envelope_body fits
  rw [ack] at opened
  refine ⟨rest, left, ?_⟩
  rw [same, asked]
  cases took with
  | ack body => exact ⟨rfl, rfl⟩
  | malformed error body => cases body.symm.trans opened
  | unnumbered body | unknown body => cases body.symm.trans opened
  | greeting hello body => cases body.symm.trans opened
  | message payload replyTo body | reply payload replyTo body => cases body.symm.trans opened
  | again parcel body => cases body.symm.trans opened
  | settled payload replyTo promise taken body => cases body.symm.trans opened

end Reading

/-- A session that greeted writes what is queued. -/
theorem handle_greeting (greeting : s.stage = .greeting) (writes : s.Writes link) :
    Turn.handle host now ⟨s, random, []⟩ .proceed =
      ⟨{ s with ledger := s.ledger.drain.2.2, ackDue := none, stage := .reading }, random,
        writings link.endpoint s.dispatches⟩ := by
  have flushed := Turn.flush_eq ⟨s, random, []⟩ link writes
  simp only [Turn.handle, greeting, Turn.proceed, flushed, Turn.enter, Turn.amend, List.nil_append]

/-- A reply is queued, and written with all that is. -/
theorem handle_replied (replyTo : Nat) (payload : List UInt8) (queued : Ledger)
    (handling : s.stage = .handling (some replyTo))
    (accepted : s.ledger.enqueueReply replyTo payload (.ofMillis now) = .ok queued)
    (writes : ({ s with ledger := queued } : Session).Writes link) :
    Turn.handle host now ⟨s, random, []⟩ (.replied (some payload)) =
      ⟨{ s with ledger := queued.drain.2.2, ackDue := none, stage := .reading }, random,
        writings link.endpoint ({ s with ledger := queued } : Session).dispatches⟩ := by
  have flushed := Turn.flush_eq ⟨{ s with ledger := queued, stage := .reading }, random, []⟩ link
    writes
  simp only [Turn.handle, handling, Turn.reply, Turn.enter, Turn.amend, accepted, flushed,
    List.nil_append]
  rfl

/-- Bytes that arrived are taken up. -/
theorem handle_received (bytes : ByteArray) (idle : s.stage = .idle) (held : s.link = some link) :
    Turn.handle host now ⟨s, random, []⟩ (.received bytes) =
      ⟨{ s with
        link := some { link with buffer := link.buffer ++ bytes }
        ledger := s.ledger.count fun t => t.read bytes.size
        stage := .reading }, random, []⟩ := by
  simp only [Turn.handle, idle, Turn.take, held, Turn.amend, Turn.count, Turn.record, Turn.enter]

/-- An acknowledgement that is due is written. -/
theorem handle_owed (idle : s.stage = .idle) (due : s.ackDue.isSome) (held : s.link = some link)
    (owed : s.ledger.window.ackPending = true)
    (ack : Dispatch.of? .ack 0 s.ledger.window.received = some d) :
    Turn.handle host now ⟨s, random, []⟩ .ackElapsed =
      ⟨{ s with ledger := { s.ledger with window := s.ledger.window.takeAck.2 }, ackDue := none },
        random, [.write link.endpoint [d]]⟩ := by
  simp [Turn.handle, idle, Turn.take, due, Turn.writeAck, Turn.amend, Turn.record, Turn.write,
    Turn.emit, held, owed, Window.takeAck, ack]

end Session

namespace Correspondence

variable (x : Correspondence) (p : Party) (now : Nat) (random : Random.Stream) (link : Link)
  (d : Dispatch)

section Reading

variable (behind : List UInt8) (reading : (x.session p).stage = .reading)
  (held : (x.session p).link = some link) (formed : d.Formed) (fits : d.Fits)
  (front : link.buffer.data.toList = d.frame ++ behind)

include reading held formed fits front

/-- A new message that arrived is handed to the application. -/
theorem turned_message (payload : List UInt8) (replyTo : Option Nat)
    (message : d.body = .parcel (.message payload replyTo))
    (new : (x.session p).ledger.window.received < d.seq) :
    ∃ rest : ByteArray, rest.data.toList = behind ∧
      x.turned p now random .proceed =
        (x.amend p { x.session p with
          link := some { link with buffer := rest }
          ledger := { (x.session p).ledger.heeding d.envelope with
            window := (((x.session p).ledger.heeding d.envelope).window.receive d.seq).2
            tally := ((x.session p).ledger.heeding d.envelope).tally.received }
          stage := .handling replyTo }).note
        [.handed p (x.host p).incarnation d.seq payload] := by
  obtain ⟨rest, left, session, effects⟩ := (x.session p).takes_message (x.host p) now random link
    d behind reading held formed fits front payload replyTo message new
  refine ⟨rest, left, ?_⟩
  unfold turned
  dsimp only
  rw [session, effects]
  change (x.amend p _).note [.handed p _ (x.session p).frontSeq payload] = _
  rw [(x.session p).frontSeq_front link d behind held formed fits front]

/-- An acknowledgement that arrived is heeded. -/
theorem turned_ack (ack : d.body = .ack) :
    ∃ rest : ByteArray, rest.data.toList = behind ∧
      x.turned p now random .proceed = x.amend p { x.session p with
        link := some { link with buffer := rest }
        ledger := (x.session p).ledger.heeding d.envelope } := by
  obtain ⟨rest, left, session, effects⟩ := (x.session p).takes_ack (x.host p) now random link d
    behind reading held formed fits front ack
  refine ⟨rest, left, ?_⟩
  unfold turned
  dsimp only
  rw [session, effects]
  exact note_nil _

end Reading

/-- A session that greeted writes what is queued. -/
theorem turned_greeting (greeting : (x.session p).stage = .greeting)
    (writes : (x.session p).Writes link) (framed : (x.session p).dispatches ≠ []) :
    x.turned p now random .proceed =
      (x.amend p { x.session p with
        ledger := (x.session p).ledger.drain.2.2
        ackDue := none
        stage := .reading }).change link.endpoint.connection
      fun w => w.append p (x.session p).dispatches := by
  have filled : ¬ (x.session p).dispatches.isEmpty := by rwa [List.isEmpty_iff]
  unfold turned
  rw [(x.session p).handle_greeting (x.host p) now random link greeting writes, Session.writings,
    if_neg filled]
  exact note_nil _

/-- An acknowledgement that is due is written. -/
theorem turned_owed (idle : (x.session p).stage = .idle) (due : (x.session p).ackDue.isSome)
    (held : (x.session p).link = some link)
    (owed : (x.session p).ledger.window.ackPending = true)
    (ack : Dispatch.of? .ack 0 (x.session p).ledger.window.received = some d) :
    x.turned p now random .ackElapsed =
      (x.amend p { x.session p with
        ledger := { (x.session p).ledger with
          window := (x.session p).ledger.window.takeAck.2 }
        ackDue := none }).change link.endpoint.connection fun w => w.append p [d] := by
  unfold turned
  rw [(x.session p).handle_owed (x.host p) now random link d idle due held owed ack]
  exact note_nil _

end Correspondence

end Courier
