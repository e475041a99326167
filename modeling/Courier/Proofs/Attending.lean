import Courier.Proofs.Hearing
import Courier.Proofs.Vouching

/-!
# Connections between runs

A run reads a connection from behind the greeting of the other end, and so it reads only
what is true for itself: what one run writes behind its greeting is meant for the run that
greeted back. Whatever a session holds or has waiting is a connection on which its own run
greeted, so that nothing another run does there concerns it. The live connection comes from
the incarnation that the ledger names.
-/

namespace Courier

/-- A reader that is past the greeting on a connection. -/
def Passage.Past (w : Passage) (p : Party) (buffer : ByteArray) : Prop :=
  ∃ first done todo, w.Aligned p buffer (first :: done) todo

/-- A connection that goes on for a reader: who greeted stays, what was taken stays, and more
may be written. -/
structure Passage.Lasts (w after : Passage) (p : Party) : Prop where
  joined : after.joined p = true
  run : ∀ q run, w.run q = some run → after.run q = some run
  taken : after.taken p = w.taken p
  written : w.written p.other <+: after.written p.other

namespace Passage

variable {w after : Passage} {p : Party} {buffer : ByteArray} {log : List Note}

/-- A connection that a party joined lasts as it is. -/
theorem Lasts.refl (joined : w.joined p = true) : w.Lasts w p :=
  ⟨joined, fun _ _ => id, rfl, List.prefix_refl _⟩

/-- A reader that is past the greeting stays so while the connection lasts. -/
theorem Past.lasts (past : w.Past p buffer) (lasts : w.Lasts after p) : after.Past p buffer := by
  obtain ⟨first, done, todo, aligned⟩ := past
  obtain ⟨more, longer⟩ := lasts.written
  exact ⟨first, done, todo ++ more, aligned.longer lasts.taken more longer⟩

/-- A reader that takes what has arrived stays past the greeting, with the bytes behind its
buffer. -/
theorem Past.take (past : w.Past p buffer) (bytes : ByteArray) (offered : w.Offers p bytes) :
    (w.take p bytes.size).Past p (buffer ++ bytes) := by
  obtain ⟨first, done, todo, aligned⟩ := past
  exact ⟨first, done, todo, aligned.take bytes offered⟩

/-- What is read past the greeting was written for the reader. -/
theorem Past.read (past : w.Past p buffer) (spoken : w.Spoken log p.other) (own : Incarnation)
    (ours : w.run p = some own) (e : Envelope) (rest : ByteArray)
    (complete : Frame.next? buffer = .ok (some (e, rest))) :
    w.Past p rest ∧ ∃ k d, w.run p.other = some k ∧ d.Reads e ∧
      Traffic.Utters log ⟨p.other, k⟩ own d := by
  obtain ⟨first, done, todo, aligned⟩ := past
  obtain ⟨d, more, rfl, reads, onward⟩ := aligned.read spoken.formed e rest complete
  refine ⟨⟨first, done ++ [d], more, onward⟩, ?_⟩
  have written := aligned.written
  cases greeted : w.run p.other with
  | none =>
    rw [spoken.mute greeted] at written
    cases written
  | some k =>
    obtain ⟨_, behind, _, begins, _, _, _, utters⟩ := spoken.begun k greeted
    -- What was read stands behind the greeting, so that it was meant for the run here.
    rw [written] at begins
    obtain ⟨_, same⟩ := List.cons.inj begins
    have listed : d ∈ behind := same ▸ List.mem_append_right _ List.mem_cons_self
    obtain ⟨other, heard, truly⟩ := utters d listed
    rw [Party.other_other, ours] at heard
    cases heard
    exact ⟨k, d, rfl, reads, truly⟩

/-- A greeting that is taken is the true greeting of the run that greeted. -/
theorem Spoken.greeted (spoken : w.Spoken log p.other) (untouched : w.taken p = 0)
    (arrived : ByteArray) (offered : w.Offers p arrived) (theirs : Hello) (surplus : ByteArray)
    (taken : Handshake.take? arrived = .ok (some (theirs, surplus))) :
    (w.join p arrived.size).Past p surplus ∧ w.run p.other = some theirs.incarnation ∧
      Traffic.Vouches log ⟨p.other, theirs.incarnation⟩ theirs := by
  obtain ⟨d, todo, written, _, body, aligned⟩ :=
    offered.greeted untouched spoken.formed theirs surplus taken
  refine ⟨⟨d, [], todo, aligned⟩, ?_⟩
  cases greeted : w.run p.other with
  | none =>
    rw [spoken.mute greeted] at written
    cases written
  | some k =>
    obtain ⟨first, _, hello, begins, _, greets, vouches, _⟩ := spoken.begun k greeted
    rw [written] at begins
    obtain ⟨rfl, _⟩ := List.cons.inj begins
    have same := body (by
      rw [greets]
      exact vouches.small)
    rw [greets] at same
    cases same
    have own : theirs.incarnation = k := vouches.incarnation
    subst own
    exact ⟨rfl, vouches⟩

end Passage

namespace Traffic

/-- What a run has of its connections: each once, with its own greeting on it and the
greetings done. The live one comes from the incarnation that the ledger names, and the
greeting of a waiting one is true. -/
structure Attends (log : List Note) (passage : Nat → Passage) (a : Actor) (s : Session) :
    Prop where
  once : s.ends.Nodup
  ours : ∀ c ∈ s.ends, (passage c).joined a.party = true ∧ (passage c).run a.party = some a.run
  link : ∀ link, s.link = some link →
    (passage link.endpoint.connection).Past a.party link.buffer ∧
      ∃ k, s.ledger.incarnation = some k ∧
        (passage link.endpoint.connection).run a.party.other = some k
  waiting : ∀ greeted, .attach greeted ∈ s.commands →
    (passage greeted.endpoint.connection).Past a.party greeted.surplus ∧
      (passage greeted.endpoint.connection).run a.party.other =
        some greeted.hello.incarnation ∧
      Vouches log (a.across greeted.hello.incarnation) greeted.hello

namespace Attends

variable {log later : List Note} {passage after : Nat → Passage} {a : Actor} {s t : Session}

/-- A session without a connection, and with none waiting, attends to nothing. -/
theorem none (link : s.link = none) (commands : s.commands = []) :
    Attends log passage a s := by
  have ends := Holds.ends_none link commands
  refine ⟨by rw [ends]; exact .nil, by simp [ends], by simp [link], by simp [commands]⟩

/-- Connections may go on, and more be noted. -/
theorem lasts (attends : Attends log passage a s) (grown : log ⊆ later)
    (lasts : ∀ c, (passage c).joined a.party = true → (passage c).run a.party = some a.run →
      (passage c).Lasts (after c) a.party) : Attends later after a s := by
  have onward (c : Nat) (listed : c ∈ s.ends) : (passage c).Lasts (after c) a.party := by
    obtain ⟨joined, ours⟩ := attends.ours c listed
    exact lasts c joined ours
  refine ⟨attends.once, ?_, ?_, ?_⟩
  · intro c listed
    exact ⟨(onward c listed).joined, (onward c listed).run _ _ (attends.ours c listed).2⟩
  · intro link held
    have goes := onward _ (Holds.link_ends s link held)
    obtain ⟨past, k, known, greeted⟩ := attends.link link held
    exact ⟨past.lasts goes, k, known, goes.run _ _ greeted⟩
  · intro greeted waits
    have goes := onward _ (Holds.waiting_ends s greeted waits)
    obtain ⟨past, theirs, vouches⟩ := attends.waiting greeted waits
    exact ⟨past.lasts goes, goes.run _ _ theirs, vouches.grow grown⟩

/-- A session may let go of connections. -/
theorem fewer (attends : Attends log passage a s) (ends : List.Sublist t.ends s.ends)
    (link : t.link = Option.none ∨
      t.link = s.link ∧ t.ledger.incarnation = s.ledger.incarnation)
    (commands : ∀ greeted, .attach greeted ∈ t.commands → .attach greeted ∈ s.commands) :
    Attends log passage a t := by
  refine ⟨attends.once.sublist ends, fun c listed => attends.ours c (ends.subset listed), ?_,
    fun greeted waits => attends.waiting greeted (commands greeted waits)⟩
  intro live held
  rcases link with gone | ⟨same, known⟩
  · rw [gone] at held
    cases held
  · rw [known]
    exact attends.link live (same ▸ held)

/-- A turn that adopts nothing and reads nothing lets go at most. -/
theorem steady (attends : Attends log passage a s) (link : t.link = Option.none ∨ t.link = s.link)
    (commands : t.commands <:+ s.commands)
    (incarnation : t.ledger.incarnation = s.ledger.incarnation) : Attends log passage a t :=
  attends.fewer (s.ends_fewer t link commands.sublist) (link.imp_right (⟨·, incarnation⟩))
    fun _ waits => commands.subset waits

/-- A connection on which the greetings are done may wait to be attached. -/
theorem waits (attends : Attends log passage a s) (greeted : Greeted)
    (apart : greeted.endpoint.connection ∉ s.ends)
    (joined : (passage greeted.endpoint.connection).joined a.party = true)
    (ours : (passage greeted.endpoint.connection).run a.party = some a.run)
    (past : (passage greeted.endpoint.connection).Past a.party greeted.surplus)
    (theirs : (passage greeted.endpoint.connection).run a.party.other =
      some greeted.hello.incarnation)
    (vouches : Vouches log (a.across greeted.hello.incarnation) greeted.hello)
    (ledger : t.ledger = s.ledger) (link : t.link = s.link)
    (commands : t.commands.Perm (.attach greeted :: s.commands)) : Attends log passage a t := by
  have ends := s.ends_waits t greeted link commands
  refine ⟨ends.nodup_iff.mpr (List.nodup_cons.mpr ⟨apart, attends.once⟩), ?_, ?_, ?_⟩
  · intro c listed
    rcases List.mem_cons.mp (ends.mem_iff.mp listed) with rfl | before
    · exact ⟨joined, ours⟩
    · exact attends.ours c before
  · rw [ledger, link]
    exact attends.link
  · intro other waits
    rcases List.mem_cons.mp (commands.mem_iff.mp waits) with same | before
    · cases same
      exact ⟨past, theirs, vouches⟩
    · exact attends.waiting other before

/-- The connection that waits first becomes the live one, and the ledger names whom it comes
from. -/
theorem joins (attends : Attends log passage a s) (greeted : Greeted) (live : Link)
    (first : s.commands = .attach greeted :: t.commands) (link : t.link = some live)
    (endpoint : live.endpoint = greeted.endpoint) (buffer : live.buffer = greeted.surplus)
    (known : t.ledger.incarnation = some greeted.hello.incarnation) : Attends log passage a t := by
  obtain ⟨once, part⟩ := s.ends_joins t greeted live first link endpoint attends.once
  have waits : Command.attach greeted ∈ s.commands := first ▸ List.mem_cons_self
  refine ⟨once, fun c listed => attends.ours c (part listed), ?_, ?_⟩
  · intro other held
    rw [link] at held
    cases held
    obtain ⟨past, theirs, _⟩ := attends.waiting greeted waits
    rw [endpoint, buffer]
    exact ⟨past, _, known, theirs⟩
  · intro other listed
    refine attends.waiting other ?_
    rw [first]
    exact List.mem_cons_of_mem _ listed

/-- The buffer of the live connection may change with where its reader stands. -/
theorem reads (attends : Attends log passage a s) (link : Link) (held : s.link = some link)
    (buffer : ByteArray) (live : t.link = some { link with buffer })
    (commands : t.commands <:+ s.commands)
    (incarnation : t.ledger.incarnation = s.ledger.incarnation)
    (past : (after link.endpoint.connection).Past a.party buffer)
    (same : (after link.endpoint.connection).joined = (passage link.endpoint.connection).joined ∧
      (after link.endpoint.connection).run = (passage link.endpoint.connection).run)
    (others : ∀ c, c ≠ link.endpoint.connection → after c = passage c) :
    Attends log after a t := by
  have part := s.ends_reads t link held buffer live commands.sublist
  obtain ⟨_, k, known, theirs⟩ := attends.link link held
  refine ⟨attends.once.sublist part, ?_, ?_, ?_⟩
  · intro c listed
    have ours := attends.ours c (part.subset listed)
    by_cases here : c = link.endpoint.connection
    · subst here
      rw [same.1, same.2]
      exact ours
    · rw [others c here]
      exact ours
  · intro other reading
    rw [live] at reading
    cases reading
    refine ⟨past, k, incarnation.trans known, ?_⟩
    rw [same.2]
    exact theirs
  · intro greeted waits
    have still := commands.subset waits
    rw [others _ (s.ends_apart attends.once link held greeted still)]
    exact attends.waiting greeted still

end Attends

end Traffic

end Courier
