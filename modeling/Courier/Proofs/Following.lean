import Courier.Proofs.Accounts
import Courier.Proofs.Moves

/-!
# Where a reader stands

A party that holds a connection has taken some bytes of what the other wrote there. The
frames it has read and the bytes in its buffer make up exactly these bytes, so what it
reads next is the next message written, or nothing. At most one holder stands for each end
of a connection, among the live connection and those that wait to be attached.
-/

namespace Courier

/-- What was read and what stands in the buffer are the bytes taken. -/
structure Passage.Aligned (w : Passage) (p : Party) (buffer : ByteArray)
    (done todo : List Dispatch) : Prop where
  written : w.written p.other = done ++ todo
  bounded : w.taken p ≤ (Dispatch.bytes (w.written p.other)).length
  bytes : (Dispatch.bytes (w.written p.other)).take (w.taken p) =
    Dispatch.bytes done ++ buffer.data.toList

/-- Whether a message that was read is one that the reader there counts as received. -/
def Party.Known (p : Party) (received : Nat) (d : Dispatch) : Prop :=
  p = .there → d.IsMessage → d.seq ≤ received

/-- A reader stands somewhere in the stream, and knows the messages before. -/
def Passage.Follows (w : Passage) (p : Party) (received : Nat) (buffer : ByteArray) : Prop :=
  ∃ done todo, w.Aligned p buffer done todo ∧ ∀ d ∈ done, p.Known received d

/-- The bytes of two lists of dispatches are those of either. -/
theorem Dispatch.bytes_append (front back : List Dispatch) :
    Dispatch.bytes (front ++ back) = Dispatch.bytes front ++ Dispatch.bytes back :=
  List.flatMap_append

namespace Passage

variable {w : Passage} {p : Party} {buffer : ByteArray} {done todo : List Dispatch}
  {received : Nat}

/-- What is still to come makes up the messages still to be read. -/
theorem Aligned.rest (aligned : w.Aligned p buffer done todo) :
    buffer.data.toList ++ (Dispatch.bytes (w.written p.other)).drop (w.taken p) =
      Dispatch.bytes todo := by
  have whole := List.take_append_drop (w.taken p) (Dispatch.bytes (w.written p.other))
  rw [aligned.bytes, List.append_assoc] at whole
  have split : Dispatch.bytes (w.written p.other) = Dispatch.bytes done ++ Dispatch.bytes todo := by
    rw [aligned.written, Dispatch.bytes_append]
  exact List.append_cancel_left (whole.trans split)

/-- A reader that counts more as received stands where it stood. -/
theorem Follows.mono (follows : w.Follows p received buffer) {more : Nat}
    (grown : p = .there → received ≤ more) : w.Follows p more buffer := by
  obtain ⟨done, todo, aligned, known⟩ := follows
  refine ⟨done, todo, aligned, ?_⟩
  intro d listed at' message
  exact Nat.le_trans (known d listed at' message) (grown at')

/-- A longer stream changes nothing for its reader. -/
theorem Aligned.longer (aligned : w.Aligned p buffer done todo) {after : Passage}
    (taken : after.taken p = w.taken p) (more : List Dispatch)
    (longer : w.written p.other ++ more = after.written p.other) :
    after.Aligned p buffer done (todo ++ more) := by
  have bytes : Dispatch.bytes (after.written p.other) =
      Dispatch.bytes (w.written p.other) ++ Dispatch.bytes more := by
    rw [← longer, Dispatch.bytes_append]
  refine ⟨?_, ?_, ?_⟩
  · rw [← longer, aligned.written, List.append_assoc]
  · rw [taken, bytes, List.length_append]
    exact Nat.le_add_right_of_le aligned.bounded
  · rw [taken, bytes, List.take_append_of_le_length aligned.bounded]
    exact aligned.bytes

/-- A reader stands where it stood when more is written. -/
theorem Follows.longer (follows : w.Follows p received buffer) {after : Passage}
    (taken : after.taken p = w.taken p)
    (written : w.written p.other <+: after.written p.other) : after.Follows p received buffer := by
  obtain ⟨done, todo, aligned, known⟩ := follows
  obtain ⟨more, longer⟩ := written
  exact ⟨done, todo ++ more, aligned.longer taken more longer, known⟩

/-- Bytes that arrive go behind those in the buffer. -/
theorem Aligned.take (aligned : w.Aligned p buffer done todo) (bytes : ByteArray)
    (offered : w.Offers p bytes) :
    (w.take p bytes.size).Aligned p (buffer ++ bytes) done todo := by
  obtain ⟨later, next⟩ := offered
  have taken : (w.take p bytes.size).taken p = w.taken p + bytes.size := Function.update_self _ _ _
  have size : bytes.size = bytes.data.toList.length := rfl
  refine ⟨aligned.written, ?_, ?_⟩
  · have length := congrArg List.length next
    rw [List.length_append, List.length_drop, ← size] at length
    have bounded := aligned.bounded
    rw [taken]
    change _ ≤ (Dispatch.bytes (w.written p.other)).length
    omega
  · rw [taken]
    change (Dispatch.bytes (w.written p.other)).take _ = _
    rw [List.take_add, aligned.bytes, ← next, List.take_left' size.symm, ByteArray.data_append,
      Array.toList_append, List.append_assoc]

/-- A reader that takes what is offered stands where it stood, with the bytes behind its buffer. -/
theorem Follows.take (follows : w.Follows p received buffer) (bytes : ByteArray)
    (offered : w.Offers p bytes) : (w.take p bytes.size).Follows p received (buffer ++ bytes) := by
  obtain ⟨done, todo, aligned, known⟩ := follows
  exact ⟨done, todo, aligned.take bytes offered, known⟩

/-- What is read is the next message written. -/
theorem Aligned.read (aligned : w.Aligned p buffer done todo)
    (formed : ∀ d ∈ w.written p.other, d.Formed) (e : Envelope) (rest : ByteArray)
    (complete : Frame.next? buffer = .ok (some (e, rest))) :
    ∃ d more, todo = d :: more ∧ d.Reads e ∧ w.Aligned p rest (done ++ [d]) more := by
  have parts : ∀ d ∈ todo, d.Formed := fun d listed => formed d (by
    rw [aligned.written]
    exact List.mem_append_right _ listed)
  obtain ⟨d, more, rfl, front, reads⟩ :=
    Dispatch.next?_stream todo parts buffer _ aligned.rest e rest complete
  refine ⟨d, more, rfl, reads, ?_, aligned.bounded, ?_⟩
  · rw [aligned.written, List.append_assoc]
    rfl
  · rw [aligned.bytes, front, Dispatch.bytes_append, List.append_assoc]
    congr 1
    simp [Dispatch.bytes]

/-- What a reader finds in front is the next message that was written, and everything before it is
known. Behind it the reader is aligned with one message more. -/
theorem Follows.read (follows : w.Follows p received buffer)
    (formed : ∀ d ∈ w.written p.other, d.Formed) (e : Envelope) (rest : ByteArray)
    (complete : Frame.next? buffer = .ok (some (e, rest))) :
    ∃ done d todo, w.written p.other = done ++ d :: todo ∧ d.Reads e ∧
      (∀ d ∈ done, p.Known received d) ∧ w.Aligned p rest (done ++ [d]) todo := by
  obtain ⟨done, todo, aligned, known⟩ := follows
  obtain ⟨d, more, rfl, reads, onward⟩ := aligned.read formed e rest complete
  exact ⟨done, d, more, aligned.written, reads, known, onward⟩

/-- A greeting that is taken from the front of a stream is the first message written. The bytes
begin with the frame of this message, and reading the frame gives the greeting back. -/
theorem Offers.greeted {arrived : ByteArray} (offered : w.Offers p arrived)
    (untouched : w.taken p = 0) (formed : ∀ d ∈ w.written p.other, d.Formed) (theirs : Hello)
    (surplus : ByteArray) (greeted : Handshake.take? arrived = .ok (some (theirs, surplus))) :
    ∃ d todo, w.written p.other = d :: todo ∧ d.body.method = (Body.hello theirs).method ∧
      (d.body.Fits → d.body = .hello theirs) ∧
      (w.join p arrived.size).Aligned p surplus [d] todo := by
  obtain ⟨later, next⟩ := offered
  rw [untouched, List.drop_zero] at next
  unfold Handshake.take? at greeted
  split at greeted
  · cases greeted
  · cases greeted
  · next e rest complete =>
    split at greeted
    · cases greeted
    · next hello body =>
      cases greeted
      obtain ⟨d, todo, written, front, reads⟩ :=
        Dispatch.next?_stream (w.written p.other) formed arrived later next e surplus complete
      have size : arrived.size = arrived.data.toList.length := rfl
      have taken : (w.join p arrived.size).taken p = arrived.size := by
        change Function.update w.taken p _ p = _
        rw [Function.update_self, untouched, Nat.zero_add]
      refine ⟨d, todo, written, ?_, ?_, written, ?_, ?_⟩
      · rw [← reads.method]
        exact e.body_method _ body
      · intro fits
        have same := (reads.body fits).symm.trans body
        exact Option.some.inj (Except.ok.inj same)
      · rw [taken]
        change _ ≤ (Dispatch.bytes (w.written p.other)).length
        rw [← next, List.length_append, size]
        omega
      · rw [taken]
        change (Dispatch.bytes (w.written p.other)).take _ = _
        rw [← next, List.take_left' size.symm, front]
        simp [Dispatch.bytes]
    · cases greeted

end Passage

/-- The connections that a session holds or has waiting. -/
def Session.ends (s : Session) : List Nat :=
  s.commands.filterMap (fun command =>
    match command with
    | .attach greeted => some greeted.endpoint.connection
    | _ => none) ++ s.link.toList.map fun link => link.endpoint.connection

namespace Session

/-- A session that lets go of connections has fewer. -/
theorem ends_fewer (s t : Session) (link : t.link = none ∨ t.link = s.link)
    (commands : List.Sublist t.commands s.commands) : List.Sublist t.ends s.ends := by
  unfold ends
  refine List.Sublist.append (commands.filterMap _) ?_
  rcases link with gone | same
  · rw [gone]
    exact List.nil_sublist _
  · exact same.symm ▸ List.Sublist.refl _

/-- Reading changes what is in the buffer. -/
theorem ends_reads (s t : Session) (link : Link) (held : s.link = some link) (buffer : ByteArray)
    (live : t.link = some { link with buffer }) (commands : List.Sublist t.commands s.commands) :
    List.Sublist t.ends s.ends := by
  unfold ends
  refine List.Sublist.append (commands.filterMap _) ?_
  rw [live, held]
  exact List.Sublist.refl _

/-- One more connection may wait. -/
theorem ends_waits (s t : Session) (greeted : Greeted) (link : t.link = s.link)
    (commands : t.commands.Perm (.attach greeted :: s.commands)) :
    t.ends.Perm (greeted.endpoint.connection :: s.ends) := by
  unfold ends
  rw [link, ← List.cons_append]
  exact (commands.filterMap _).append_right _

/-- Other commands bring no connection. -/
theorem ends_pushed (s : Session) (commands : List Command)
    (other : ∀ greeted, .attach greeted ∉ commands) :
    ({ s with commands := s.commands ++ commands } : Session).ends = s.ends := by
  unfold ends
  rw [List.filterMap_append]
  refine congrArg (· ++ _) ((congrArg _ (List.filterMap_eq_nil_iff.mpr ?_)).trans
    (List.append_nil _))
  intro command listed
  cases command with
  | attach greeted => exact absurd listed (other greeted)
  | _ => rfl

/-- The connection that waits first may become the live one, in place of another. -/
theorem ends_joins (s t : Session) (greeted : Greeted) (live : Link)
    (first : s.commands = .attach greeted :: t.commands) (link : t.link = some live)
    (endpoint : live.endpoint = greeted.endpoint) (once : s.ends.Nodup) :
    t.ends.Nodup ∧ t.ends ⊆ s.ends := by
  have before : s.ends =
      greeted.endpoint.connection :: ({ s with commands := t.commands } : Session).ends := by
    unfold ends
    rw [first]
    rfl
  have part : List.Sublist t.ends (({ s with commands := t.commands } : Session).ends ++
      [greeted.endpoint.connection]) := by
    unfold ends
    rw [link, List.append_assoc, Option.toList_some, List.map_singleton, endpoint]
    exact List.Sublist.append (List.Sublist.refl _) (List.sublist_append_right _ _)
  have moved := List.perm_append_singleton greeted.endpoint.connection
    ({ s with commands := t.commands } : Session).ends
  rw [before] at once ⊢
  exact ⟨part.nodup (moved.nodup_iff.mpr once), fun c listed =>
    moved.mem_iff.mp (part.subset listed)⟩

/-- What waits is not what is held. -/
theorem ends_apart (s : Session) (once : s.ends.Nodup) (link : Link) (held : s.link = some link)
    (greeted : Greeted) (waits : .attach greeted ∈ s.commands) :
    greeted.endpoint.connection ≠ link.endpoint.connection := by
  intro same
  unfold ends at once
  rw [List.nodup_append] at once
  refine once.2.2 _ (List.mem_filterMap.mpr ⟨_, waits, rfl⟩) _ ?_ same
  rw [held]
  exact List.mem_singleton_self _

end Session

/-- What a session holds: each connection once, with the greetings done, where the reader
stands in it, and what the greeting of a waiting one says. -/
structure Holds (a : Account) (p : Party) (s : Session) (passage : Nat → Passage) : Prop where
  once : s.ends.Nodup
  joined : ∀ c ∈ s.ends, (passage c).joined p = true
  link : ∀ link, s.link = some link →
    (passage link.endpoint.connection).Follows p s.ledger.window.received link.buffer
  waiting : ∀ greeted, .attach greeted ∈ s.commands →
    (passage greeted.endpoint.connection).Follows p s.ledger.window.received greeted.surplus ∧
      a.Greets p.other greeted.hello

namespace Holds

variable {a b : Account} {p : Party} {s t : Session} {passage : Nat → Passage}

/-- The connection held is one of those that a session has. -/
theorem link_ends (s : Session) (link : Link) (held : s.link = some link) :
    link.endpoint.connection ∈ s.ends := by
  unfold Session.ends
  rw [held]
  exact List.mem_append_right _ (List.mem_singleton_self _)

/-- A connection that waits to be attached is one of those that a session has. -/
theorem waiting_ends (s : Session) (greeted : Greeted) (waits : .attach greeted ∈ s.commands) :
    greeted.endpoint.connection ∈ s.ends :=
  List.mem_append_left _ (List.mem_filterMap.mpr ⟨_, waits, rfl⟩)

/-- A session that holds nothing and has nothing waiting has no connections. -/
theorem ends_none (link : s.link = none) (commands : s.commands = []) : s.ends = [] := by
  unfold Session.ends
  rw [link, commands]
  rfl

/-- A session that holds nothing, with nothing waiting. -/
theorem none (link : s.link = none) (commands : s.commands = []) : Holds a p s passage := by
  have ends := ends_none link commands
  refine ⟨by rw [ends]; exact .nil, by simp [ends], by simp [link], by simp [commands]⟩

/-- A session may let go of connections, and count more as received. -/
theorem fewer (holds : Holds a p s passage) (link : t.link = Option.none ∨ t.link = s.link)
    (commands : t.commands <:+ s.commands)
    (grown : p = .there → s.ledger.window.received ≤ t.ledger.window.received) :
    Holds a p t passage := by
  have part := s.ends_fewer t link commands.sublist
  refine ⟨holds.once.sublist part, fun c listed => holds.joined c (part.subset listed), ?_, ?_⟩
  · intro live held
    rcases link with gone | same
    · rw [gone] at held
      cases held
    · exact (holds.link live (same ▸ held)).mono grown
  · intro greeted waits
    obtain ⟨follows, greets⟩ := holds.waiting greeted (commands.subset waits)
    exact ⟨follows.mono grown, greets⟩

/-- What a session holds it holds in a later account too. -/
theorem grown (holds : Holds a p s passage) (later : a.Extends b) : Holds b p s passage := by
  refine ⟨holds.once, holds.joined, holds.link, ?_⟩
  intro greeted waits
  obtain ⟨follows, greets⟩ := holds.waiting greeted waits
  exact ⟨follows, greets.extends later⟩

/-- Connections may go on elsewhere. -/
theorem longer (holds : Holds a p s passage) (after : Nat → Passage)
    (joined : ∀ c, (passage c).joined p = true → (after c).joined p = true ∧
      (after c).taken p = (passage c).taken p ∧
      (passage c).written p.other <+: (after c).written p.other) : Holds a p s after := by
  refine ⟨holds.once, fun c listed => (joined c (holds.joined c listed)).1, ?_, ?_⟩
  · intro link held
    obtain ⟨_, taken, written⟩ := joined _ (holds.joined _ (link_ends s link held))
    exact (holds.link link held).longer taken written
  · intro greeted waits
    obtain ⟨_, taken, written⟩ := joined _ (holds.joined _ (waiting_ends s greeted waits))
    obtain ⟨follows, greets⟩ := holds.waiting greeted waits
    exact ⟨follows.longer taken written, greets⟩

/-- A connection that is not held yet may wait to be attached. -/
theorem waits (holds : Holds a p s passage) (greeted : Greeted)
    (apart : greeted.endpoint.connection ∉ s.ends)
    (joined : (passage greeted.endpoint.connection).joined p = true)
    (follows : (passage greeted.endpoint.connection).Follows p s.ledger.window.received
      greeted.surplus) (greets : a.Greets p.other greeted.hello) (link : t.link = s.link)
    (received : t.ledger.window.received = s.ledger.window.received)
    (commands : t.commands.Perm (.attach greeted :: s.commands)) : Holds a p t passage := by
  have ends := s.ends_waits t greeted link commands
  refine ⟨ends.nodup_iff.mpr (List.nodup_cons.mpr ⟨apart, holds.once⟩), ?_, ?_, ?_⟩
  · intro c listed
    rcases List.mem_cons.mp (ends.mem_iff.mp listed) with rfl | before
    · exact joined
    · exact holds.joined c before
  · intro live held
    rw [received]
    exact holds.link live (link ▸ held)
  · intro other waits
    rw [received]
    rcases List.mem_cons.mp (commands.mem_iff.mp waits) with same | before
    · cases same
      exact ⟨follows, greets⟩
    · exact holds.waiting other before

/-- Other commands may wait too. -/
theorem pushed (holds : Holds a p s passage) (command : Command)
    (other : ∀ greeted, command ≠ .attach greeted) : Holds a p (s.push command) passage := by
  obtain ⟨commands, same, listed⟩ := s.push_eq command
  have attached (greeted : Greeted) (waits : .attach greeted ∈ commands) :
      .attach greeted ∈ s.commands := by
    rcases listed with rfl | rfl
    · exact waits
    · rcases List.mem_append.mp waits with before | last
      · exact before
      · exact absurd (List.mem_singleton.mp last).symm (other greeted)
  have ends : (s.push command).ends = s.ends := by
    rw [same]
    rcases listed with rfl | rfl
    · rfl
    · exact s.ends_pushed [command] fun greeted only =>
        other greeted (List.mem_singleton.mp only).symm
  refine ⟨ends.symm ▸ holds.once, ?_, ?_, ?_⟩
  · rw [ends]
    exact holds.joined
  · rw [same]
    exact holds.link
  · rw [same]
    exact fun greeted waits => holds.waiting greeted (attached greeted waits)

/-- The connection that waits first becomes the live one. -/
theorem joins (holds : Holds a p s passage) (greeted : Greeted) (live : Link)
    (first : s.commands = .attach greeted :: t.commands) (link : t.link = some live)
    (endpoint : live.endpoint = greeted.endpoint) (buffer : live.buffer = greeted.surplus)
    (grown : p = .there → s.ledger.window.received ≤ t.ledger.window.received) :
    Holds a p t passage := by
  have waits : Command.attach greeted ∈ s.commands := first ▸ List.mem_cons_self
  obtain ⟨once, part⟩ := s.ends_joins t greeted live first link endpoint holds.once
  refine ⟨once, fun c listed => holds.joined c (part listed), ?_, ?_⟩
  · intro other held
    rw [link] at held
    cases held
    rw [endpoint, buffer]
    exact (holds.waiting greeted waits).1.mono grown
  · intro other listed
    have still : Command.attach other ∈ s.commands := by
      rw [first]
      exact List.mem_cons_of_mem _ listed
    obtain ⟨follows, greets⟩ := holds.waiting other still
    exact ⟨follows.mono grown, greets⟩

/-- The buffer of the live connection may change with what is known of it. -/
theorem reads (holds : Holds a p s passage) (after : Nat → Passage) (link : Link)
    (held : s.link = some link) (buffer : ByteArray)
    (live : t.link = some { link with buffer })
    (commands : t.commands <:+ s.commands)
    (grown : p = .there → s.ledger.window.received ≤ t.ledger.window.received)
    (follows : (after link.endpoint.connection).Follows p t.ledger.window.received buffer)
    (joined : (after link.endpoint.connection).joined p = true)
    (others : ∀ c, c ≠ link.endpoint.connection → after c = passage c) : Holds a p t after := by
  have part := s.ends_reads t link held buffer live commands.sublist
  refine ⟨holds.once.sublist part, ?_, ?_, ?_⟩
  · intro c listed
    by_cases same : c = link.endpoint.connection
    · rw [same]
      exact joined
    · rw [others c same]
      exact holds.joined c (part.subset listed)
  · intro other reading
    rw [live] at reading
    cases reading
    exact follows
  · intro greeted waits
    have still := commands.subset waits
    have apart := s.ends_apart holds.once link held greeted still
    obtain ⟨follows, greets⟩ := holds.waiting greeted still
    rw [others _ apart]
    exact ⟨follows.mono grown, greets⟩

end Holds

end Courier
