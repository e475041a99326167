import Courier.Proofs.Accounts
import Mathlib.Data.List.Nodup
import Mathlib.Data.List.Pairwise

/-!
# The outbox keeps what is not settled

The ledger of the kernel whose messages are followed agrees with the account: each accepted
message is in the outbox or settled, and what the outbox holds is what was accepted. Every
operation on the ledger keeps this. Messages leave the outbox only when they are covered by
an acknowledgement or noted as discarded; a restart of the peer takes away replies alone.
-/

namespace Courier

open Happening Json

namespace Outbox

variable {β : Type}

/-- What room for another message costs is the message that is evicted for it. -/
theorem evicted_eq (o made : Outbox β) (evicted : Option (Entry β))
    (room : o.makeRoom = .ok (made, evicted)) : o.evicted = evicted.toList.map (·.seq) := by
  unfold Outbox.evicted
  rw [room]
  cases evicted <;> rfl

/-- What does not stay when room is made is the oldest message, which is evicted. -/
theorem makeRoom_lost (o made : Outbox β) (evicted : Option (Entry β))
    (room : o.makeRoom = .ok (made, evicted)) :
    ∀ e ∈ o.entries, e ∈ made.entries ∨ e.seq ∈ o.evicted := by
  intro e listed
  rw [← (o.makeRoom_entries made evicted room).1] at listed
  rcases List.mem_append.mp listed with oldest | others
  · right
    rw [evicted_eq o made evicted room]
    exact List.mem_map_of_mem oldest
  · exact .inl others

end Outbox

/-- A ledger that agrees with the account of its messages. -/
structure Sends (a : Account) (l : Ledger) : Prop where
  sent : l.window.sent = a.sent
  sound : l.outbox.Sound
  sorted : l.outbox.entries.Pairwise fun e f => e.seq < f.seq
  below : ∀ e ∈ l.outbox.entries, e.seq ≤ a.sent
  genuine : ∀ e ∈ l.outbox.entries, a.Genuine e.seq e.body
  ordered : a.accepted.Pairwise fun m n => m.1 < n.1
  numbered : ∀ m ∈ a.accepted, 0 < m.1 ∧ m.1 ≤ a.sent
  kept : ∀ m ∈ a.accepted, (∃ e ∈ l.outbox.entries, e.seq = m.1) ∨ Settled a.log m
  acked : a.Covered l.window.acked
  bindings : l.nextBinding ≤ a.sent + 1

namespace Sends

variable {a b : Account} {l after : Ledger}

/-- One number was given out for one message only. -/
theorem unique (sends : Sends a l) (m n : Nat × List UInt8) (first : m ∈ a.accepted)
    (second : n ∈ a.accepted) (same : m.1 = n.1) : m = n := by
  have distinct : (a.accepted.map (·.1)).Nodup :=
    List.pairwise_map.mpr (sends.ordered.imp Nat.ne_of_lt)
  exact List.inj_on_of_nodup_map distinct first second same

/-- What is held under the number of an accepted message is no reply. -/
theorem message (sends : Sends a l) {e : Entry Parcel} {m : Nat × List UInt8}
    (held : e ∈ l.outbox.entries) (number : e.seq = m.1) (accepted : m ∈ a.accepted) :
    e.body.isReply = false :=
  (number ▸ sends.genuine e held).message accepted

/-- Messages may leave the outbox once they are settled, and replies at any time. -/
theorem fewer (sends : Sends a l) (sent : after.window.sent = l.window.sent)
    (binding : after.nextBinding = l.nextBinding) (acked : a.Covered after.window.acked)
    (sound : after.outbox.Sound) (part : List.Sublist after.outbox.entries l.outbox.entries)
    (lost : ∀ e ∈ l.outbox.entries, e ∈ after.outbox.entries ∨ e.body.isReply = true ∨
      ∀ m ∈ a.accepted, m.1 = e.seq → Settled a.log m) : Sends a after := by
  refine ⟨sent.trans sends.sent, sound, sends.sorted.sublist part, ?_, ?_, sends.ordered,
    sends.numbered, ?_, acked, binding ▸ sends.bindings⟩
  · exact fun e listed => sends.below e (part.subset listed)
  · exact fun e listed => sends.genuine e (part.subset listed)
  · intro m listed
    rcases sends.kept m listed with ⟨e, held, number⟩ | settled
    · rcases lost e held with still | reply | settled
      · exact .inl ⟨e, still, number⟩
      · simp [sends.message held number listed] at reply
      · exact .inr (settled m listed number.symm)
    · exact .inr settled

/-- Only the outbox, three numbers and the account matter. -/
theorem same (sends : Sends a l) (outbox : after.outbox = l.outbox)
    (sent : after.window.sent = l.window.sent) (acked : after.window.acked = l.window.acked)
    (binding : after.nextBinding = l.nextBinding) : Sends a after := by
  refine sends.fewer sent binding (acked ▸ sends.acked) (outbox ▸ sends.sound) ?_ ?_
  · exact outbox.symm ▸ List.Sublist.refl _
  · intro e listed
    rw [outbox]
    exact .inl listed

/-- The account goes on without new messages. -/
theorem note (sends : Sends a l) (news : List Happening) (none : acceptedBy .here news = []) :
    Sends ⟨a.own, a.sent, a.log ++ news⟩ l := by
  have later := a.extends_note a.sent news (Nat.le_refl _) (by simp [none])
  have same : (⟨a.own, a.sent, a.log ++ news⟩ : Account).accepted = a.accepted := by
    unfold Account.accepted
    rw [acceptedBy_append, none, List.append_nil]
  refine ⟨sends.sent, sends.sound, sends.sorted, sends.below, ?_, ?_, ?_, ?_, ?_, sends.bindings⟩
  · intro e listed
    exact (sends.genuine e listed).extends (sends.below e listed) later
  · rw [same]
    exact sends.ordered
  · rw [same]
    exact sends.numbered
  · intro m listed
    rw [same] at listed
    exact (sends.kept m listed).imp id (later.settled m)
  · exact sends.acked.extends later

/-- Draining moves a mark only. -/
theorem drained (sends : Sends a l) : Sends a l.drain.2.2 := by
  refine sends.fewer rfl rfl sends.acked (Outbox.drain_sound _) (List.Sublist.refl _) ?_
  exact fun e listed => .inl listed

/-- A covered acknowledgement removes what is settled. -/
theorem heeded (sends : Sends a l) (n : Nat) (covered : a.Covered n) : Sends a (l.applyAck n) := by
  have acked : a.Covered (l.applyAck n).window.acked := by
    rcases l.applyAck_acked n with same | less
    · exact same ▸ sends.acked
    · exact covered.mono less
  refine sends.fewer rfl rfl acked (Outbox.ack_sound _ sends.sound _) (l.applyAck_sublist n) ?_
  intro e listed
  rcases l.applyAck_covers n e listed with still | small
  · exact .inl still
  · exact .inr (.inr fun m held number => acked.2 m held (number ▸ small))

/-- A restart of the peer takes away replies only. -/
theorem restarted (sends : Sends a l) : Sends a l.onRestart := by
  have sound := l.outbox.retain_sound sends.sound fun parcel => !parcel.isReply
  refine sends.fewer rfl rfl sends.acked sound List.filter_sublist ?_
  intro e listed
  cases reply : e.body.isReply with
  | true => exact .inr (.inl rfl)
  | false => exact .inl (List.mem_filter.mpr ⟨listed, by simp [reply]⟩)

/-- A new connection writes everything again that its greeting does not acknowledge. -/
theorem connected (sends : Sends a l) (own : Incarnation) (hello : Hello) (now : Duration)
    (covered : hello.acked = some own → a.Covered hello.ack) :
    Sends a (l.onConnected own hello now) ∧
      (l.onConnected own hello now).outbox.written = [] := by
  refine ⟨l.onConnected_keeps own hello now ?_ ?_ ?_, rfl⟩
  · exact l.observe_keeps hello.incarnation (sends.same rfl rfl rfl rfl) restarted
  · exact fun names m sends => sends.heeded hello.ack (covered names)
  · intro m tally sends
    refine sends.fewer rfl rfl sends.acked (Outbox.rewind_sound _) (List.Sublist.refl _) ?_
    exact fun e listed => .inl listed

/-- The next number is given out, for a message that was accepted under it or for a reply. The
number is above all others, so it is not that of a message accepted before. -/
theorem pushed (sends : Sends a l) (parcel : Parcel) (now : Duration) (news : List Happening)
    (outbox : after.outbox = l.outbox.enqueue (l.window.sent + 1) parcel now)
    (sent : after.window.sent = l.window.sent + 1)
    (acked : after.window.acked = l.window.acked) (binding : after.nextBinding ≤ l.nextBinding + 1)
    (next : b = ⟨a.own, a.sent + 1, a.log ++ news⟩)
    (fresh : ∀ m ∈ acceptedBy .here news, m.1 = a.sent + 1)
    (alone : (acceptedBy .here news).length ≤ 1) (genuine : b.Genuine (a.sent + 1) parcel) :
    Sends b after := by
  subst next
  have number := sends.sent
  have entries : after.outbox.entries = l.outbox.entries ++ [⟨a.sent + 1, parcel, now⟩] := by
    rw [outbox, number]
    rfl
  have held {e : Entry Parcel} (listed : e ∈ after.outbox.entries) :
      e ∈ l.outbox.entries ∨ e = ⟨a.sent + 1, parcel, now⟩ := by
    simpa [entries] using listed
  have later := a.extends_note (a.sent + 1) news (Nat.le_succ _) fun m listed => by
    have := fresh m listed
    omega
  have split : (⟨a.own, a.sent + 1, a.log ++ news⟩ : Account).accepted =
      a.accepted ++ acceptedBy .here news := acceptedBy_append .here a.log news
  constructor
  case sent => exact sent.trans (by rw [number])
  case sound => exact outbox ▸ Outbox.enqueue_sound _ sends.sound _ _ _
  case sorted =>
    rw [entries, List.pairwise_append]
    refine ⟨sends.sorted, List.pairwise_singleton _ _, fun e listed f last => ?_⟩
    rw [List.mem_singleton.mp last]
    exact Nat.lt_succ_of_le (sends.below e listed)
  case below =>
    intro e listed
    rcases held listed with before | rfl
    · exact Nat.le_succ_of_le (sends.below e before)
    · exact Nat.le_refl _
  case genuine =>
    intro e listed
    rcases held listed with before | rfl
    · exact (sends.genuine e before).extends (sends.below e before) later
    · exact genuine
  case ordered =>
    rw [split, List.pairwise_append]
    refine ⟨sends.ordered, ?_, fun m before n listed => ?_⟩
    · cases listed : acceptedBy .here news with
      | nil => exact .nil
      | cons m rest =>
        rw [listed] at alone
        rw [List.eq_nil_of_length_eq_zero (Nat.le_zero.mp (Nat.le_of_succ_le_succ alone))]
        exact List.pairwise_singleton _ _
    · have := sends.numbered m before
      have := fresh n listed
      omega
  case numbered =>
    intro m listed
    rw [split] at listed
    dsimp only
    rcases List.mem_append.mp listed with before | new
    · have := sends.numbered m before
      omega
    · have := fresh m new
      omega
  case kept =>
    intro m listed
    rw [split] at listed
    rw [entries]
    rcases List.mem_append.mp listed with before | new
    · exact (sends.kept m before).imp
        (fun ⟨e, held, same⟩ => ⟨e, List.mem_append_left _ held, same⟩) (later.settled m)
    · exact .inl ⟨_, List.mem_append_right _ (List.mem_singleton_self _), (fresh m new).symm⟩
  case acked => exact acked ▸ sends.acked.extends later
  case bindings =>
    have := sends.bindings
    dsimp only
    omega

/-- Room is made at the cost of messages that are noted as discarded. -/
theorem roomed (sends : Sends a l) (made : Outbox Parcel) (evicted : Option (Entry Parcel))
    (room : l.outbox.makeRoom = .ok (made, evicted))
    (noted : ∀ seq ∈ l.outbox.evicted, seq ∈ discardedBy .here a.log)
    (outbox : after.outbox = made) (sent : after.window.sent = l.window.sent)
    (acked : after.window.acked = l.window.acked) (binding : after.nextBinding = l.nextBinding) :
    Sends a after := by
  have part := (l.outbox.makeRoom_fewer made evicted room).1
  have lost := l.outbox.makeRoom_lost made evicted room
  subst outbox
  refine sends.fewer sent binding (acked ▸ sends.acked)
    (l.outbox.makeRoom_sound _ sends.sound evicted room) part ?_
  intro e listed
  rcases lost e listed with still | gone
  · exact .inl still
  · right
    right
    intro m _ number
    left
    rw [number]
    exact noted e.seq gone

/-- Everything may be given up once it is noted as discarded. -/
theorem cleared (sends : Sends a l)
    (noted : ∀ e ∈ l.outbox.entries, e.seq ∈ discardedBy .here a.log)
    (outbox : after.outbox = l.outbox.clear) (sent : after.window.sent = l.window.sent)
    (acked : after.window.acked = l.window.acked) (binding : after.nextBinding = l.nextBinding) :
    Sends a after := by
  refine sends.fewer sent binding (acked ▸ sends.acked) ?_ ?_ ?_
  · rw [outbox]
    exact Nat.zero_le _
  · rw [outbox]
    exact List.nil_sublist _
  · intro e listed
    right
    right
    intro m _ number
    left
    rw [number]
    exact noted e listed

end Sends

/-- A message from the outbox has a frame as long as its number is a word. -/
theorem Sends.encodes {a : Account} {l : Ledger} (sends : Sends a l) (e : Entry Parcel)
    (held : e ∈ l.outbox.entries) (message : e.body.isReply = false) (small : e.seq ≤ maxWord)
    (ack : Nat) (ackFits : ack ≤ maxWord) :
    ∃ d, Dispatch.of? (.parcel e.body) e.seq ack = some d ∧ d.seq = e.seq ∧ d.IsMessage := by
  have genuine := sends.genuine e held
  cases body : e.body with
  | reply replyTo payload =>
    rw [body] at message
    cases message
  | message payload replyTo =>
    rw [body] at genuine
    obtain ⟨_, accepted, bound⟩ := genuine
    have fits : (Body.parcel (.message payload replyTo)).Fits :=
      fun n named => Nat.le_trans (bound n named) small
    obtain ⟨d, formed⟩ := Option.isSome_iff_exists.mp
      (Dispatch.of?_parcel (.message payload replyTo) fits e.seq ack small ackFits accepted)
    obtain ⟨body', seq', _, _⟩ := Dispatch.of?_eq _ _ _ d formed
    exact ⟨d, formed, seq', payload, replyTo, body'⟩

/-- The messages among these entries are in a stream, as far as their numbers are words. -/
def Entry.Streamed (entries : List (Entry Parcel)) (stream : List Dispatch) : Prop :=
  ∀ e ∈ entries, e.body.isReply = false → e.seq ≤ maxWord → Dispatch.Among stream e.seq

/-- What is written of a queue begins with what is written of its first message. -/
theorem Entry.dispatches_cons (ack : Nat) (e : Entry Parcel) (rest : List (Entry Parcel)) :
    Entry.dispatches ack (e :: rest) = Entry.dispatches ack [e] ++ Entry.dispatches ack rest :=
  List.filterMap_append (l := [e])

section Flushing

variable {a : Account} {l : Ledger} {front rest : List (Entry Parcel)} {e : Entry Parcel}
  {stream : List Dispatch} {ack : Nat}

/-- What was accepted under a number below that of an entry is settled, or held before it. -/
theorem Sends.held_before (sends : Sends a l) (whole : l.outbox.entries = front ++ e :: rest)
    {m : Nat × List UInt8} (accepted : m ∈ a.accepted) (below : m.1 < e.seq) :
    Settled a.log m ∨ ∃ f ∈ front, f.seq = m.1 ∧ f.body.isReply = false := by
  rcases sends.kept m accepted with ⟨f, queued, same⟩ | settled
  · right
    have message := sends.message queued same accepted
    have sorted := sends.sorted
    rw [whole, List.pairwise_append, List.pairwise_cons] at sorted
    rw [whole, List.mem_append, List.mem_cons] at queued
    rcases queued with before | rfl | behind
    · exact ⟨f, before, same, message⟩
    · omega
    · have := sorted.2.1.1 f behind
      omega
  · exact .inl settled

/-- An entry goes behind the stream of those before it without a gap, and is in the stream then. -/
theorem Sends.flushes_one (sends : Sends a l) (whole : l.outbox.entries = front ++ e :: rest)
    (gapless : a.Gapless stream) (streamed : Entry.Streamed front stream)
    (ackFits : ack ≤ maxWord) :
    a.Gapless (stream ++ Entry.dispatches ack [e]) ∧
      Entry.Streamed (front ++ [e]) (stream ++ Entry.dispatches ack [e]) := by
  have held : e ∈ l.outbox.entries := by
    rw [whole]
    exact List.mem_append_right _ List.mem_cons_self
  constructor
  · cases encoded : Dispatch.of? (.parcel e.body) e.seq ack with
    | none =>
      have nothing : Entry.dispatches ack [e] = [] := by simp [Entry.dispatches, encoded]
      rw [nothing, List.append_nil]
      exact gapless
    | some d =>
      have one : Entry.dispatches ack [e] = [d] := by simp [Entry.dispatches, encoded]
      obtain ⟨_, number, _, _⟩ := Dispatch.of?_eq _ _ _ d encoded
      rw [one]
      refine gapless.snoc d fun _ small m accepted below => ?_
      refine (sends.held_before whole accepted (number ▸ below)).imp_right ?_
      rintro ⟨f, before, same, message⟩
      exact same ▸ streamed f before message (by omega)
  · intro f listed message small
    rcases List.mem_append.mp listed with before | last
    · exact (streamed f before message small).append _
    · rw [List.mem_singleton.mp last] at message small ⊢
      obtain ⟨d, encoded, number, carries⟩ := sends.encodes e held message small ack ackFits
      have one : Entry.dispatches ack [e] = [d] := by simp [Entry.dispatches, encoded]
      rw [one]
      exact ⟨d, List.mem_append_right _ (List.mem_singleton_self d), number, carries⟩

/-- The same of all the entries behind, one after another. -/
theorem Sends.flushes_all (sends : Sends a l) (ackFits : ack ≤ maxWord)
    (whole : l.outbox.entries = front ++ rest) (gapless : a.Gapless stream)
    (streamed : Entry.Streamed front stream) :
    a.Gapless (stream ++ Entry.dispatches ack rest) ∧
      Entry.Streamed (front ++ rest) (stream ++ Entry.dispatches ack rest) := by
  induction rest generalizing front stream with
  | nil =>
    have none : Entry.dispatches ack [] = [] := rfl
    rw [none, List.append_nil, List.append_nil]
    exact ⟨gapless, streamed⟩
  | cons e rest inductionHypothesis =>
    obtain ⟨longer, more⟩ := sends.flushes_one whole gapless streamed ackFits
    rw [Entry.dispatches_cons, ← List.append_assoc, List.append_cons]
    exact inductionHypothesis (by rw [whole, List.append_cons]) longer more

/-- Everything unwritten goes behind the stream of the written messages without a gap, and
with it all messages held are in the stream. -/
theorem Sends.flushes (sends : Sends a l) (gapless : a.Gapless stream)
    (marked : Marked l.outbox stream) (ackFits : ack ≤ maxWord) :
    a.Gapless (stream ++ Entry.dispatches ack l.outbox.unwritten) ∧
      Marked l.outbox.drain.2 (stream ++ Entry.dispatches ack l.outbox.unwritten) := by
  obtain ⟨flows, streamed⟩ :=
    sends.flushes_all ackFits l.outbox.written_append_unwritten.symm gapless marked
  refine ⟨flows, fun e listed => streamed e ?_⟩
  rwa [Outbox.drain_written] at listed

end Flushing

/-- An acknowledgement that comes with an envelope removes settled messages only. -/
theorem Sends.heeding {a : Account} {l : Ledger} (sends : Sends a l) (e : Envelope)
    (covered : a.Covered e.ack) : Sends a (l.heeding e) :=
  l.heeding_keeps e sends (sends.heeded e.ack covered)

/-- Heeding an acknowledgement writes nothing. -/
theorem Ledger.heeding_written (l : Ledger) (e : Envelope) :
    ∀ entry ∈ (l.heeding e).outbox.written, entry ∈ l.outbox.written :=
  l.heeding_keeps (P := fun m => ∀ entry ∈ m.outbox.written, entry ∈ l.outbox.written) e
    (fun _ => id) (l.applyAck_written e.ack)

end Courier
