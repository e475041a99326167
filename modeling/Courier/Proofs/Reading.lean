import Courier.Proofs.Agreement

/-!
# What is read was written

An envelope that a session takes from its buffer is the next message of a stream that the
other kernel wrote. An acknowledgement in it is covered. A parcel with a new number finds
everything before it settled: what went before it on the same stream was read already, and
what did not was settled when it was written.
-/

namespace Courier

open Happening Json

namespace Correspondence

variable {x : Correspondence}

/-- What a session takes from its buffer: the next message of the stream that it reads. -/
structure Fetched (x : Correspondence) (p : Party) (link : Link) (e : Envelope)
    (rest : ByteArray) (done todo : List Dispatch) (d : Dispatch) : Prop where
  held : (x.session p).link = some link
  complete : Frame.next? link.buffer = .ok (some (e, rest))
  written : (x.passage link.endpoint.connection).written p.other = done ++ d :: todo
  reads : d.Reads e
  known : ∀ d ∈ done, p.Known (x.session p).ledger.window.received d
  aligned : (x.passage link.endpoint.connection).Aligned p rest (done ++ [d]) todo

variable {p : Party} {link : Link} {e : Envelope} {rest : ByteArray} {after : Session}
  {effects : List Effect} {done todo : List Dispatch} {d : Dispatch}

/-- The envelope in front of a buffer is the next message that was written to the stream, and all
before it is known. -/
theorem Sound.fetched (sound : Sound x) (held : (x.session p).link = some link)
    (complete : Frame.next? link.buffer = .ok (some (e, rest))) :
    ∃ done todo d, x.Fetched p link e rest done todo d := by
  have formed (d : Dispatch)
      (listed : d ∈ (x.passage link.endpoint.connection).written p.other) : d.Formed :=
    (sound.honest _ _ d listed).formed
  obtain ⟨done, d, todo, written, reads, known, aligned⟩ :=
    ((sound.holds p).link link held).read formed e rest complete
  exact ⟨done, todo, d, held, complete, written, reads, known, aligned⟩

/-- What is read says what it may, since it was written. -/
theorem Fetched.honest (fetched : x.Fetched p link e rest done todo d) (sound : Sound x) :
    x.account.Honest p.other d := by
  refine sound.honest link.endpoint.connection p.other d ?_
  rw [fetched.written]
  exact List.mem_append_right _ List.mem_cons_self

/-- The envelope stands at the front of what arrived. -/
theorem Fetched.front (fetched : x.Fetched p link e rest done todo d) :
    (x.session p).frontSeq = e.seq :=
  (x.session p).frontSeq_eq link e rest fetched.held fetched.complete

/-- A message from here is read as it was written. -/
theorem Fetched.message (fetched : x.Fetched .there link e rest done todo d) (sound : Sound x)
    (message : d.IsMessage) : e.body = .ok (some d.body) := by
  obtain ⟨payload, replyTo, body⟩ := message
  obtain ⟨_, _, _, bound⟩ := (fetched.honest sound).parcel rfl _ body
  refine fetched.reads.body ?_
  rw [body]
  intro n named
  exact Nat.le_trans (bound n named) (fetched.reads.seq ▸ fetched.reads.bounded.1)

/-- Every message before a parcel that is read there is settled. -/
theorem Fetched.overtakes (fetched : x.Fetched .there link e rest done todo d) (sound : Sound x)
    (carries : ∃ parcel, d.body = .parcel parcel) :
    ∀ m ∈ x.account.accepted, m.1 < d.seq → Settled x.log m := by
  intro m listed below
  have begins : done ++ [d] <+: (x.passage link.endpoint.connection).written .here := by
    refine ⟨todo, ?_⟩
    rw [List.append_assoc]
    exact fetched.written.symm
  have small : d.seq ≤ maxWord := fetched.reads.seq ▸ fetched.reads.bounded.1
  rcases sound.gapless _ done d begins carries small m listed below with settled | among
  · exact settled
  · obtain ⟨before, read, number, message⟩ := among
    have old := fetched.known before read rfl message
    exact sound.receives.covered.2 m listed (number ▸ old)

/-- An envelope from there may be taken in here. -/
theorem Sound.readHere (sound : Sound x) (fetched : x.Fetched .here link e rest done todo d)
    (took : Took e { x.session .here with link := some { link with buffer := rest } } after
      effects) : Sound (x.amend .here after) := by
  have covered : x.account.Covered e.ack := by
    rw [fetched.reads.ack]
    exact (fetched.honest sound).ack rfl
  have leaves := took.leaves
  have heard := sound.sends.heeding e covered
  have sends := heard.same leaves.outbox leaves.sent leaves.acked leaves.nextBinding
  refine sound.replaceHere after sends ?_ ?_ ?_ ?_
  · intro other live
    rw [leaves.link] at live
    cases live
    rw [leaves.outbox]
    exact (sound.marked link fetched.held).fewer (Ledger.heeding_written _ e)
  · refine (sound.holds .here).reads _ link fetched.held rest leaves.link ?_ nofun ?_ ?_
      fun _ _ => rfl
    · exact leaves.commands.symm ▸ List.suffix_refl _
    · exact ⟨_, _, fetched.aligned, nofun⟩
    · exact (sound.holds .here).joined _ (Holds.link_ends _ link fetched.held)
  · rw [leaves.dial]
    exact sound.dials .here
  · have before := sound.received .here
    have fits := fetched.reads.bounded.1
    rcases leaves.received with same | grown
    · rw [same]
      exact before
    · rw [grown]
      exact Nat.max_le.mpr ⟨before, fits⟩

/-- An envelope from here may be taken in there, once it is known what that means. -/
theorem Sound.readOn (sound : Sound x) (fetched : x.Fetched .there link e rest done todo d)
    (leaves : Leaves e { x.session .there with link := some { link with buffer := rest } } after)
    (news : List Happening) (accepted : acceptedBy .here news = [])
    (receives : Receives ((x.amend .there after).note news).account (x.host .there).incarnation
      (x.former .there) after.ledger)
    (grown : (x.session .there).ledger.window.received ≤ after.ledger.window.received)
    (bounded : after.ledger.window.received ≤ maxWord)
    (last : Party.Known .there after.ledger.window.received d) :
    Sound ((x.amend .there after).note news) := by
  have later : x.account.Extends ((x.amend .there after).note news).account :=
    x.account.extends_note _ news (Nat.le_refl _) (by simp [accepted])
  have holds := (sound.holds .there).grown later
  refine sound.amendThere after news accepted receives ?_ ?_ bounded
  · refine holds.reads _ link fetched.held rest leaves.link ?_ (fun _ => grown)
      ⟨done ++ [d], todo, fetched.aligned, ?_⟩
      (holds.joined _ (Holds.link_ends _ link fetched.held)) fun _ _ => rfl
    · exact leaves.commands.symm ▸ List.suffix_refl _
    · intro before listed at' message
      rcases List.mem_append.mp listed with old | new
      · exact Nat.le_trans (fetched.known before old at' message) grown
      · rw [List.mem_singleton.mp new] at message ⊢
        exact last at' message
  · intro dial begun
    rw [leaves.dial] at begun
    exact (sound.dials .there dial begun).extends later

/-- The number stays where what is read is no new parcel. -/
theorem Sound.readOld (sound : Sound x) (fetched : x.Fetched .there link e rest done todo d)
    (leaves : Leaves e { x.session .there with link := some { link with buffer := rest } } after)
    (same : after.ledger.window.received = (x.session .there).ledger.window.received)
    (last : d.IsMessage → d.seq ≤ (x.session .there).ledger.window.received) :
    Sound (x.amend .there after) := by
  have grown := Nat.le_of_eq same.symm
  have account : ((x.amend .there after).note []).account = x.account := by
    rw [account_there, List.append_nil]
    rfl
  have receives := sound.receives.passed (same ▸ sound.receives.covered) grown leaves.incarnation
  have read := sound.readOn fetched leaves [] rfl (account ▸ receives) grown
    (same ▸ sound.received .there) fun _ message => same ▸ last message
  rwa [note_nil] at read

/-- A number that is new belongs to a parcel before which everything is settled. -/
theorem Sound.readNew (sound : Sound x) (fetched : x.Fetched .there link e rest done todo d)
    (leaves : Leaves e { x.session .there with link := some { link with buffer := rest } } after)
    (parcel : Parcel) (body : d.body = .parcel parcel)
    (new : (x.session .there).ledger.window.received < d.seq)
    (number : after.ledger.window.received = d.seq) (news : List Happening)
    (accepted : acceptedBy .here news = [])
    (receives : d.seq ≤ x.account.sent → x.account.Genuine d.seq parcel →
      (∀ m ∈ x.account.accepted, m.1 < d.seq → Settled x.log m) →
      Receives ((x.amend .there after).note news).account (x.host .there).incarnation
        (x.former .there) after.ledger) : Sound ((x.amend .there after).note news) := by
  obtain ⟨given, genuine⟩ := (fetched.honest sound).parcel rfl parcel body
  have before := fetched.overtakes sound ⟨parcel, body⟩
  have small : d.seq ≤ maxWord := fetched.reads.seq ▸ fetched.reads.bounded.1
  refine sound.readOn fetched leaves news accepted (receives given genuine before) ?_
    (number ▸ small) fun _ _ => Nat.le_of_eq number.symm
  rw [number]
  exact Nat.le_of_lt new

/-- The number of a new reply is covered. -/
theorem Sound.readReply (sound : Sound x) (fetched : x.Fetched .there link e rest done todo d)
    (leaves : Leaves e { x.session .there with link := some { link with buffer := rest } } after)
    (replyTo : Nat) (payload : List UInt8)
    (body : e.body = .ok (some (.parcel (.reply replyTo payload))))
    (new : (x.session .there).ledger.window.received < d.seq)
    (number : after.ledger.window.received = d.seq) : Sound (x.amend .there after) := by
  obtain ⟨parcel, carried, kind⟩ := d.body.method_parcel (.reply replyTo payload)
    (fetched.reads.method.symm.trans (e.body_method _ body))
  have account : ((x.amend .there after).note []).account = x.account := by
    rw [account_there, List.append_nil]
    rfl
  have read := sound.readNew fetched leaves parcel carried new number [] rfl
    fun given genuine before => by
      rw [account]
      refine sound.receives.passed ⟨number ▸ given, ?_⟩ ?_ leaves.incarnation
      · intro m accepted below
        rw [number] at below
        rcases Nat.lt_or_eq_of_le below with less | equal
        · exact before m accepted less
        · cases parcel with
          | message => cases kind
          | reply => exact absurd equal (genuine m accepted)
      · rw [number]
        exact Nat.le_of_lt new
  rwa [note_nil] at read

/-- A new message is the next one to be handed out. -/
theorem Sound.readMessage (sound : Sound x) (fetched : x.Fetched .there link e rest done todo d)
    (leaves : Leaves e { x.session .there with link := some { link with buffer := rest } } after)
    (payload : List UInt8) (replyTo : Option Nat)
    (body : e.body = .ok (some (.parcel (.message payload replyTo))))
    (new : (x.session .there).ledger.window.received < d.seq)
    (number : after.ledger.window.received = d.seq) :
    Sound ((x.amend .there after).note
      [.handed .there (x.host .there).incarnation d.seq payload]) := by
  obtain ⟨parcel, carried, kind⟩ := d.body.method_parcel (.message payload replyTo)
    (fetched.reads.method.symm.trans (e.body_method _ body))
  cases parcel with
  | reply => cases kind
  | message sent binding =>
    have same := (fetched.message sound ⟨sent, binding, carried⟩).symm.trans body
    rw [carried] at same
    cases same
    refine sound.readNew fetched leaves _ carried new number _ rfl ?_
    intro given genuine before
    refine sound.receives.handed d.seq payload number new genuine.1 given before ?_
      leaves.incarnation
    intro m accepted equal
    exact sound.sends.unique m _ accepted genuine.1 equal

/-- An envelope from here may be taken in there. It is a message, a reply, or nothing that is
counted, and its number is new or was received before. -/
theorem Sound.readThere (sound : Sound x) (fetched : x.Fetched .there link e rest done todo d)
    (took : Took e { x.session .there with link := some { link with buffer := rest } } after
      effects) :
    Sound ((x.amend .there after).note ((x.session .there).turnHappenings .there
      (x.host .there).incarnation after .proceed effects)) := by
  have leaves := took.leaves
  have heard := Turn.heeding_received (x.session .there).ledger e
  have seq := fetched.reads.seq
  have raised (new : (x.session .there).ledger.window.received < e.seq) :
      ((Ledger.heeding (x.session .there).ledger e).window.receive e.seq).2.received = d.seq := by
    rw [Window.receive_received, heard, ← seq]
    exact Nat.max_eq_right (Nat.le_of_lt new)
  -- What is read as something else is no message, because messages are read as written.
  have other (same : after.ledger.window.received = (x.session .there).ledger.window.received)
      (unlike : ∀ payload replyTo, e.body ≠ .ok (some (.parcel (.message payload replyTo)))) :
      Sound ((x.amend .there after).note []) := by
    rw [note_nil]
    refine sound.readOld fetched leaves same fun message => ?_
    obtain ⟨payload, replyTo, body⟩ := message
    have read := fetched.message sound ⟨payload, replyTo, body⟩
    rw [body] at read
    exact absurd read (unlike payload replyTo)
  cases took with
  | malformed error body => exact other heard (by simp [body])
  | unnumbered body zero => exact other heard (by simp [body])
  | unknown body numbered => exact absurd fetched.reads.method (e.body_none d.body body)
  | greeting hello body => exact other heard (by simp [body])
  | ack body => exact other heard (by simp [body])
  | again parcel body old =>
    have same : ((Ledger.heeding (x.session .there).ledger e).window.receive e.seq).2.received =
        (x.session .there).ledger.window.received := by
      rw [Window.receive_received, heard]
      exact Nat.max_eq_left old
    have read := sound.readOld fetched leaves same fun _ => seq ▸ old
    exact (note_nil _).symm ▸ read
  | message payload replyTo body new =>
    have handed (t : Session) : (x.session .there).turnHappenings .there
        (x.host .there).incarnation t .proceed [.tell (.message payload)] =
          [.handed .there (x.host .there).incarnation d.seq payload] := by
      simp [Session.turnHappenings, Session.discards, fetched.front, seq]
    rw [handed]
    exact sound.readMessage fetched leaves payload replyTo body (seq ▸ new) (raised new)
  | reply payload replyTo body new unbound =>
    have read := sound.readReply fetched leaves replyTo payload body (seq ▸ new) (raised new)
    exact (note_nil _).symm ▸ read
  | settled payload replyTo promise taken body new bound =>
    have read := sound.readReply fetched leaves replyTo payload body (seq ▸ new) (raised new)
    exact (note_nil _).symm ▸ read

end Correspondence

end Courier
