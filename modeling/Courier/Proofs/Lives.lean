import Courier.Kernel
import Courier.Proofs.Turns

/-!
# Lives of sessions and kernels

A session lives through calls of the application, events, and what its kernel does with
it; a kernel lives through calls and through what happens to its sessions. A life is any
sequence of these, in any order and at any times. Whatever a kernel lives through, each
of its sessions lives through its own part of it, under the identity of the kernel.

What a deed may do is read off the kernel here alone: `undergo_tended` for what it leaves of a
kernel, `start_cases` for a start, and `occurrences_cases` for what it is for one session.
-/

namespace Courier

/-- Two peers for runs on fixed inputs, the smaller one first. -/
def alice : PeerId := ⟨String.ofList (List.replicate 64 'a'), by decide⟩

@[inherit_doc alice]
def bob : PeerId := ⟨String.ofList (List.replicate 64 'b'), by decide⟩

/-- A stream of words that no run on fixed inputs draws from. -/
def quiet : Random.Stream := { key := Vector.replicate 8 0 }

/-- A kernel for runs on fixed inputs, with nothing but its defaults. -/
def aliceService : Service := ⟨⟨alice, ⟨0, 1⟩, {}⟩, [], []⟩

/-- What may happen to a session. The delays that a turn draws come from the stream left
at that time. -/
inductive Occurrence where
  | post (letter : Letter) (now : Duration)
  | addHints (hints : List String)
  | reconnect (hints : List String)
  | close
  | resetBackoff
  | attach (greeted : Greeted)
  | shutdown
  | wrote (bytes : Nat)
  | turn (now : Nat) (random : Random.Stream) (event : Event)
  | abort (random : Random.Stream)

namespace Ledger

/-- Taking in hints changes nothing else. -/
theorem addHints_eq (l : Ledger) (hints : List String) : ∃ kept,
    (l.addHints hints).2 = { l with hints := kept } := by
  have onto (taken : Nat × Ledger) : ∃ kept,
      (hints.foldl addHint taken).2 = { taken.2 with hints := kept } := by
    induction hints generalizing taken with
    | nil => exact ⟨taken.2.hints, rfl⟩
    | cons hint rest inductionHypothesis =>
      obtain ⟨kept, same⟩ := inductionHypothesis (addHint taken hint)
      refine ⟨kept, ?_⟩
      rw [List.foldl_cons, same]
      unfold addHint
      split <;> rfl
  exact onto (0, l)


end Ledger

namespace Session

/-- The session after an occurrence. A letter that is refused changes nothing. -/
def undergo (host : Host) (s : Session) : Occurrence → Session
  | .post letter now =>
    match s.post letter now with
    | .ok posted => posted
    | .error _ => s
  | .addHints hints => (s.addHints hints).2
  | .reconnect hints => s.reconnect hints
  | .close => s.close
  | .resetBackoff => s.resetBackoff
  | .attach greeted => s.push (.attach greeted)
  | .shutdown => s.push .shutdown
  | .wrote bytes => { s with ledger := s.ledger.count fun tally => tally.wrote bytes }
  | .turn now random event => (Turn.handle host now ⟨s, random, []⟩ event).session
  | .abort random => (Turn.release ⟨s, random, []⟩).session

/-- The session after a life. -/
def live (host : Host) (s : Session) (life : List Occurrence) : Session :=
  life.foldl (undergo host) s

/-- A turn is of one of the kinds. -/
theorem undergo_turn (host : Host) (s : Session) (now : Nat) (random : Random.Stream)
    (event : Event) : ∃ effects,
      Turned host now s event (s.undergo host (.turn now random event)) effects := by
  obtain ⟨effects, _, turned⟩ := Turn.handle_goes host now ⟨s, random, []⟩ event
  exact ⟨effects, turned⟩

/-- A session that is ended at once lets go of its connection, its attempt and its timers, and has
nothing left to take up. -/
theorem undergo_abort (host : Host) (s : Session) (random : Random.Stream) :
    s.undergo host (.abort random) =
      { s.vacated with commands := [], woken := false, stage := .ended } := by
  obtain ⟨_, _, _, released⟩ := Turn.release_goes ⟨s, random, []⟩
  exact released

/-- Nothing changes in an empty life. -/
@[simp]
theorem live_nil (host : Host) (s : Session) : s.live host [] = s := rfl

/-- A life of one occurrence is that occurrence. -/
@[simp]
theorem live_one (host : Host) (s : Session) (occurrence : Occurrence) :
    s.live host [occurrence] = s.undergo host occurrence := rfl

/-- A life goes on from what its first occurrence makes of the session. -/
theorem live_cons (host : Host) (s : Session) (occurrence : Occurrence)
    (life : List Occurrence) :
    s.live host (occurrence :: life) = (s.undergo host occurrence).live host life := rfl

/-- A life may be cut in two; the second part goes on where the first one ends. -/
theorem live_append (host : Host) (s : Session) (life more : List Occurrence) :
    s.live host (life ++ more) = (s.live host life).live host more := List.foldl_append

/-- A command is queued behind the others, unless the session is over; nothing else changes. -/
theorem push_eq (s : Session) (command : Command) : ∃ commands,
    s.push command = { s with commands := commands } ∧
      (commands = s.commands ∨ commands = s.commands ++ [command]) := by
  unfold push
  split
  · exact ⟨s.commands, rfl, .inl rfl⟩
  · exact ⟨s.commands ++ [command], rfl, .inr rfl⟩

/-- A call for a new connection takes in the hints, starts the count of attempts afresh, moves to
connecting where the phases permit, and leaves a command for the session. -/
theorem reconnect_eq (s : Session) (hints : List String) : ∃ kept,
    s.reconnect hints = ({ s with ledger := { s.ledger with
      hints := kept, attempt := 0, phase := .connecting } } : Session).push .reconnect := by
  obtain ⟨kept, same⟩ := s.ledger.addHints_eq hints
  refine ⟨kept, ?_⟩
  simp only [reconnect, same, Ledger.moveIfAllowed, Ledger.move?, Phase.move_connecting,
    Option.map_some, Option.getD_some]

/-- A call that closes the connection moves to the closed phase where the phases permit, and leaves
a command for the session. -/
theorem close_eq (s : Session) : s.close = ({ s with ledger := { s.ledger with
    phase := .intentionallyClosed } } : Session).push .close := by
  simp only [close, Ledger.moveIfAllowed, Ledger.move?, Phase.move_closed, Option.map_some,
    Option.getD_some]

/-- A letter that is accepted is queued, and the session woken up. -/
theorem post_eq (s : Session) (letter : Letter) (now : Duration) (posted : Session)
    (accepted : s.post letter now = .ok posted) : ∃ queued,
      s.ledger.enqueueLetter letter now = .ok queued ∧
        posted = { s with ledger := queued, woken := true } := by
  unfold post at accepted
  split at accepted
  · cases accepted
  · split at accepted
    · cases accepted
    · next queued given =>
      cases accepted
      exact ⟨queued, given, rfl⟩

/-- A letter is queued, or nothing changes. -/
theorem undergo_post (host : Host) (s : Session) (letter : Letter) (now : Duration) :
    s.undergo host (.post letter now) = s ∨
      ∃ queued, s.ledger.phase ≠ .intentionallyClosed ∧
        s.ledger.enqueueLetter letter now = .ok queued ∧
        s.undergo host (.post letter now) = { s with ledger := queued, woken := true } := by
  unfold undergo post
  by_cases closed : s.ledger.phase = .intentionallyClosed
  · simp [closed]
  · cases accepted : s.ledger.enqueueLetter letter now with
    | error full => simp [closed, accepted]
    | ok queued =>
      right
      refine ⟨queued, closed, rfl, ?_⟩
      simp [closed, accepted, wake]

/-- A session is about one peer for ever. -/
theorem undergo_peer (host : Host) (s : Session) (occurrence : Occurrence) :
    (s.undergo host occurrence).ledger.peer = s.ledger.peer := by
  have pushed (t : Session) (command : Command) :
      (t.push command).ledger.peer = t.ledger.peer := by
    obtain ⟨commands, same, _⟩ := t.push_eq command
    rw [same]
  cases occurrence with
  | post letter now =>
    rcases s.undergo_post host letter now with same | ⟨queued, _, accepted, same⟩
    · rw [same]
    · obtain ⟨_, _, _, _, _, rfl⟩ := s.ledger.enqueueLetter_eq queued letter now accepted
      rw [same]
  | addHints hints =>
    obtain ⟨kept, same⟩ := s.ledger.addHints_eq hints
    simp only [undergo, addHints, same]
  | reconnect hints =>
    obtain ⟨kept, same⟩ := s.reconnect_eq hints
    rw [undergo, same, pushed]
  | close => rw [undergo, close_eq, pushed]
  | resetBackoff => exact pushed _ _
  | attach greeted => exact pushed _ _
  | shutdown => exact pushed _ _
  | wrote bytes => rfl
  | turn now random event =>
    obtain ⟨_, turned⟩ := s.undergo_turn host now random event
    exact turned.peer
  | abort random =>
    rw [undergo_abort]
    rfl

/-- A session is about the same peer all its life. -/
theorem live_peer (host : Host) (s : Session) (life : List Occurrence) :
    (s.live host life).ledger.peer = s.ledger.peer := by
  induction life generalizing s with
  | nil => rfl
  | cons occurrence rest inductionHypothesis =>
    rw [live_cons, inductionHypothesis, undergo_peer]

end Session

/-- What may happen to a kernel. -/
inductive Deed where
  | start (network : Network) (seed : List UInt8) (options : Options)
  | beginStop (network : Network)
  | finishStop
  | send (peer : PeerId) (letter : Letter) (now : Nat)
  | addHints (peer : PeerId) (hints : List String)
  | reconnect (peer : PeerId) (hints : List String)
  | close (peer : PeerId)
  | resetBackoffs
  | meet (peer : PeerId)
  | attach (greeted : Greeted)
  | shutdown (peer : PeerId)
  | turn (peer : PeerId) (now : Nat) (event : Event)
  | abort (peer : PeerId)
  | wrote (peer : PeerId) (bytes : Nat)

/-- Whether a deed is about the sessions of a kernel, not about its start or its end. -/
def Deed.isOrdinary : Deed → Bool
  | .start _ _ _ | .beginStop _ | .finishStop => false
  | _ => true

/-- The peer that a deed is about. -/
def Deed.peer? : Deed → Option PeerId
  | .send p _ _ | .addHints p _ | .reconnect p _ | .close p | .meet p | .shutdown p
  | .turn p _ _ | .abort p | .wrote p _ => some p
  | .attach greeted => some greeted.hello.peer
  | .start _ _ _ | .beginStop _ | .finishStop | .resetBackoffs => none

/-- Whether a deed takes a kernel out of service. -/
def Deed.isStop : Deed → Bool
  | .beginStop _ => true
  | _ => false

namespace Kernel

/-- The kernel after a deed. -/
def undergo (k : Kernel) : Deed → Kernel
  | .start network seed options => (k.start network seed options).2.1
  | .beginStop network => (k.beginStop network).1
  | .finishStop => k.finishStop
  | .send peer letter now => (k.send peer letter now).2
  | .addHints peer hints => (k.addHints peer hints).2
  | .reconnect peer hints => (k.reconnect peer hints).2
  | .close peer => (k.close peer).2
  | .resetBackoffs => k.resetBackoffs.2
  | .meet peer => (k.admitPeer peer).2
  | .attach greeted => (k.attach? greeted).getD k
  | .shutdown peer => k.command peer .shutdown
  | .turn peer now event => (k.turn peer now event).1
  | .abort peer => (k.abort peer).1
  | .wrote peer bytes => k.noteWritten peer bytes

/-- The kernel after a life. -/
def live (k : Kernel) (life : List Deed) : Kernel := life.foldl undergo k

/-- What a deed of a kernel is for the session of a peer. The calls of the application
reach it only while the kernel is active. -/
def occurrences (k : Kernel) (peer : PeerId) : Deed → List Occurrence
  | .send p letter now =>
    if p = peer ∧ letter.payload.length ≤ Frame.maxPayload ∧ k.service?.isSome then
      [.post letter (.ofMillis now)]
    else []
  | .addHints p hints => if p = peer ∧ k.service?.isSome then [.addHints hints] else []
  | .reconnect p hints => if p = peer ∧ k.service?.isSome then [.reconnect hints] else []
  | .close p => if p = peer ∧ k.service?.isSome then [.close] else []
  | .resetBackoffs => if k.service?.isSome then [.resetBackoff] else []
  | .attach greeted =>
    if greeted.hello.peer = peer ∧ k.service?.isSome then [.attach greeted] else []
  | .shutdown p => if p = peer then [.shutdown] else []
  | .turn p now event => if p = peer then [.turn now k.random event] else []
  | .abort p => if p = peer then [.abort k.random] else []
  | .wrote p bytes => if p = peer then [.wrote bytes] else []
  | .start _ _ _ | .beginStop _ | .finishStop | .meet _ => []

/-- How a deed of a kernel comes to be something that happens to the session of a peer. -/
inductive Occurs (k : Kernel) (peer : PeerId) : Deed → Occurrence → Prop where
  | post (letter : Letter) (now : Nat) (fits : letter.payload.length ≤ Frame.maxPayload)
      (active : k.service?.isSome) :
      Occurs k peer (.send peer letter now) (.post letter (.ofMillis now))
  | addHints (hints : List String) (active : k.service?.isSome) :
      Occurs k peer (.addHints peer hints) (.addHints hints)
  | reconnect (hints : List String) (active : k.service?.isSome) :
      Occurs k peer (.reconnect peer hints) (.reconnect hints)
  | close (active : k.service?.isSome) : Occurs k peer (.close peer) .close
  | resetBackoff (active : k.service?.isSome) : Occurs k peer .resetBackoffs .resetBackoff
  | attach (greeted : Greeted) (named : greeted.hello.peer = peer)
      (active : k.service?.isSome) : Occurs k peer (.attach greeted) (.attach greeted)
  | shutdown : Occurs k peer (.shutdown peer) .shutdown
  | turn (now : Nat) (event : Event) :
      Occurs k peer (.turn peer now event) (.turn now k.random event)
  | abort : Occurs k peer (.abort peer) (.abort k.random)
  | wrote (bytes : Nat) : Occurs k peer (.wrote peer bytes) (.wrote bytes)

/-- A deed is at most one occurrence for the session of a peer. -/
theorem occurrences_cases (k : Kernel) (peer : PeerId) (deed : Deed) :
    k.occurrences peer deed = [] ∨
      ∃ occurrence, k.occurrences peer deed = [occurrence] ∧ k.Occurs peer deed occurrence := by
  cases deed with
  | start | beginStop | finishStop | meet => exact .inl rfl
  | send p letter now =>
    simp only [occurrences]
    split
    · next reached =>
      obtain ⟨rfl, fits, active⟩ := reached
      exact .inr ⟨_, rfl, .post letter now fits active⟩
    · exact .inl rfl
  | addHints | reconnect | close | attach =>
    simp only [occurrences]
    split
    · next reached =>
      obtain ⟨rfl, active⟩ := reached
      refine .inr ⟨_, rfl, ?_⟩
      constructor <;> first | exact active | rfl
    · exact .inl rfl
  | resetBackoffs =>
    simp only [occurrences]
    split
    · next active => exact .inr ⟨_, rfl, .resetBackoff active⟩
    · exact .inl rfl
  | shutdown | turn | abort | wrote =>
    simp only [occurrences]
    split
    · next same =>
      subst same
      refine .inr ⟨_, rfl, ?_⟩
      constructor
    · exact .inl rfl

/-- What happens to the session of a peer comes of no deed that is about another peer. -/
theorem Occurs.about {k : Kernel} {peer p : PeerId} {deed : Deed} {occurrence : Occurrence}
    (occurs : k.Occurs peer deed occurrence) (about : deed.peer? = some p) : p = peer := by
  cases occurs with
  | resetBackoff => cases about
  | attach _ named => exact (Option.some.inj about).symm.trans named
  | _ => exact (Option.some.inj about).symm

/-- What a deed is for the session of a peer is one of the few things that a deed may be for it. -/
theorem occurs_of_mem {k : Kernel} {peer : PeerId} {deed : Deed} {occurrence : Occurrence}
    (among : occurrence ∈ k.occurrences peer deed) : k.Occurs peer deed occurrence := by
  rcases k.occurrences_cases peer deed with nothing | ⟨other, one, occurs⟩
  · simp [nothing] at among
  · rw [one, List.mem_singleton] at among
    exact among ▸ occurs

/-- The session of a peer, a fresh one if there is none yet. -/
def session (k : Kernel) (host : Host) (peer : PeerId) : Session :=
  (k.session? peer).getD (.fresh peer host.options)

/-- A session that was put is found, and the others are left as they were. -/
theorem session?_put (k : Kernel) (peer other : PeerId) (s : Session) :
    (k.put peer s).session? other = if other = peer then some s else k.session? other := by
  have mapped (sessions : List (PeerId × Session)) :
      ((sessions.map fun entry => if entry.1 = peer then (peer, s) else entry).find?
        fun entry => entry.1 = other).map (·.2) =
        (sessions.find? fun entry => entry.1 = other).map fun entry =>
          if other = peer then s else entry.2 := by
    induction sessions with
    | nil => rfl
    | cons entry rest inductionHypothesis =>
      rw [List.map_cons, List.find?_cons, List.find?_cons]
      by_cases same : entry.1 = peer
      · by_cases asked : peer = other
        · simp [same, asked]
        · simpa [same, asked] using inductionHypothesis
      · by_cases asked : entry.1 = other
        · have apart : other ≠ peer := asked ▸ same
          simp [asked, apart]
        · simpa [same, asked] using inductionHypothesis
  unfold put
  split
  · next known =>
    have found := mapped k.sessions
    by_cases same : other = peer
    · subst same
      obtain ⟨old, held⟩ := Option.isSome_iff_exists.mp known
      obtain ⟨entry, listed, _⟩ := Option.map_eq_some_iff.mp held
      simpa [session?, listed] using found
    · simpa [session?, same] using found
  · next unknown =>
    have absent := Option.not_isSome_iff_eq_none.mp unknown
    unfold session? at absent ⊢
    rw [List.find?_append]
    by_cases same : other = peer
    · subst same
      rw [Option.map_eq_none_iff] at absent
      simp [absent]
    · have apart : peer ≠ other := fun h => same h.symm
      simp [same, apart]

/-- Keeping a session leaves the status of the kernel alone. -/
theorem put_status (k : Kernel) (peer : PeerId) (s : Session) :
    (k.put peer s).status = k.status := by
  unfold put
  split <;> rfl

/-- A session that is looked up is there afterwards, new or as it was, and no other session
changes. -/
theorem session?_ensure (k : Kernel) (host : Host) (peer other : PeerId) :
    (k.ensure host peer).1 = k.session host peer ∧
      (k.ensure host peer).2.status = k.status ∧
      (k.ensure host peer).2.session? other =
        if other = peer then some (k.session host peer) else k.session? other := by
  cases known : k.session? peer with
  | some s =>
    simp only [ensure, session, known, Option.getD_some, true_and]
    split
    · next same => exact same ▸ known
    · rfl
  | none =>
    simp only [ensure, session, known, Option.getD_none, put_status, session?_put, true_and]

/-- A call that works on the session of a peer. -/
theorem session?_withSession {α : Type} (k : Kernel) (service : Service)
    (active : k.service? = some service) (peer other : PeerId)
    (act : Session → Except CommsError α × Session) :
    (k.withSession peer act).1 = (act (k.session service.host peer)).1 ∧
      (k.withSession peer act).2.status = k.status ∧
      (k.withSession peer act).2.session? other =
        if other = peer then some (act (k.session service.host peer)).2
        else k.session? other := by
  obtain ⟨same, status, found⟩ := k.session?_ensure service.host peer other
  unfold withSession
  simp only [active, put_status, session?_put, same, found, status, true_and]
  split <;> rfl

/-- An active kernel has the host of its service. -/
theorem host?_of_service? (k : Kernel) (service : Service) (active : k.service? = some service) :
    k.host? = some service.host := by
  obtain ⟨status, sessions, random⟩ := k
  cases status with
  | active other =>
    cases active
    rfl
  | uninitialized | stopping | stopped => cases active

section Session

variable (k : Kernel) (host : Host) (peer : PeerId) {s : Session}

/-- The session of a peer is the one that is held for it, if one is. -/
theorem session_of_held (held : k.session? peer = some s) : s = k.session host peer := by
  simp [session, held]

/-- A call reaches the session that it is for while the kernel is active. -/
theorem session_withSession (running : k.host? = some host) {α : Type}
    (act : Session → Except CommsError α × Session)
    (found : (k.withSession peer act).2.session? peer = some s) :
    s = if k.service?.isSome then (act (k.session host peer)).2 else k.session host peer := by
  cases active : k.service? with
  | none =>
    simp only [withSession, active] at found
    simpa using k.session_of_held host peer found
  | some service =>
    obtain rfl : service.host = host :=
      Option.some.inj ((k.host?_of_service? service active).symm.trans running)
    rw [(k.session?_withSession service active peer peer act).2.2, if_pos rfl] at found
    exact (Option.some.inj found).symm

/-- Something happens to a session, if there is such a session. -/
theorem session_occurs (occurrence : Occurrence) (after : Kernel)
    (unknown : k.session? peer = none → after = k)
    (known : ∀ before, k.session? peer = some before →
      after.session? peer = some (before.undergo host occurrence))
    (found : after.session? peer = some s) :
    s = (k.session host peer).live host [occurrence] := by
  cases held : k.session? peer with
  | none =>
    rw [unknown held, held] at found
    cases found
  | some before =>
    rw [known before held] at found
    simpa [session, held] using found.symm

end Session

/-- What a deed about a peer leaves of a kernel: the kernel as it was, or with a session of the
peer that was met, called or put back. -/
inductive Tended (k : Kernel) (peer : PeerId) : Kernel → Prop where
  | same : Tended k peer k
  | met (host : Host) : Tended k peer (k.ensure host peer).2
  | called {α : Type} (act : Session → Except CommsError α × Session) :
      Tended k peer (k.withSession peer act).2
  | put (random : Random.Stream) (s : Session) : Tended k peer ({ k with random }.put peer s)

/-- A deed about a peer tends to the session of this peer: no other session changes, and this one
goes through what the deed is for it. There is one case for each way in which a kernel gets hold of
a session. -/
theorem undergo_tended (k : Kernel) (deed : Deed) (peer : PeerId)
    (about : deed.peer? = some peer) : k.Tended peer (k.undergo deed) := by
  cases deed with
  | start | beginStop | finishStop | resetBackoffs => cases about
  | send =>
    cases about
    simp only [undergo, send]
    split
    · exact .same
    · exact .called _
  | addHints | reconnect | close =>
    cases about
    exact .called _
  | meet =>
    cases about
    simp only [undergo, admitPeer]
    split
    · exact .same
    split
    · exact .same
    · split <;> exact .met _
  | attach greeted =>
    cases about
    simp only [undergo, attach?]
    split
    · exact .same
    · cases k.session? greeted.hello.peer with
      | none => exact .same
      | some => exact .put k.random _
  | shutdown =>
    cases about
    simp only [undergo, command]
    split
    · exact .same
    · exact .put k.random _
  | turn =>
    cases about
    simp only [undergo, turn]
    split
    · exact .put _ _
    · exact .same
  | abort =>
    cases about
    simp only [undergo, abort]
    split
    · exact .same
    · exact .put k.random _
  | wrote =>
    cases about
    simp only [undergo, noteWritten]
    split
    · exact .same
    · exact .put k.random _

/-- The sessions of the other peers are left alone. -/
theorem Tended.others {k after : Kernel} {peer other : PeerId} (tended : k.Tended peer after)
    (apart : other ≠ peer) : after.session? other = k.session? other := by
  cases tended with
  | same => rfl
  | met host => rw [(k.session?_ensure host peer other).2.2, if_neg apart]
  | called act =>
    cases active : k.service? with
    | none => simp only [withSession, active]
    | some service =>
      rw [(k.session?_withSession service active peer other act).2.2, if_neg apart]
  | put random s =>
    rw [session?_put, if_neg apart]
    rfl

/-- While a kernel is active or stopping, a deed about a peer leaves the session of the peer as what
the deed is said to be. There is one case for each deed, and it depends on how the deed gets hold of
the session: it may have to be there, or come about. -/
theorem session_undergo_own (k : Kernel) (host : Host) (running : k.host? = some host)
    (peer : PeerId) (deed : Deed) (about : deed.peer? = some peer) (s : Session)
    (left : (k.undergo deed).session? peer = some s) :
    s = (k.session host peer).live host (k.occurrences peer deed) := by
  have kept (same : k.session? peer = some s) : s = k.session host peer :=
    k.session_of_held host peer same
  have called {α : Type} (act : Session → Except CommsError α × Session) :=
    k.session_withSession host peer (s := s) running act
  cases deed with
  | start | beginStop | finishStop | resetBackoffs => cases about
  | send _ letter now =>
    cases about
    simp only [undergo, send] at left
    split at left
    · next large => simpa [occurrences, Nat.not_le.mpr large] using kept left
    · next small =>
      rw [called _ left]
      by_cases active : k.service?.isSome
      · simp only [occurrences, active, Nat.le_of_not_lt small, and_self, if_true,
          Session.live_one, Session.undergo]
        split <;> simp_all
      · simp [occurrences, active]
  | addHints | reconnect | close =>
    cases about
    rw [called _ left]
    by_cases active : k.service?.isSome <;> simp [occurrences, active, Session.undergo]
  | meet =>
    cases about
    simp only [undergo, admitPeer] at left
    simp only [occurrences, Session.live_nil]
    split at left
    · exact kept left
    · next service active =>
      obtain rfl : service.host = host :=
        Option.some.inj ((k.host?_of_service? service active).symm.trans running)
      have ensured (found : (k.ensure service.host peer).2.session? peer = some s) :
          s = k.session service.host peer := by
        rw [(k.session?_ensure service.host peer peer).2.2, if_pos rfl] at found
        exact (Option.some.inj found).symm
      split at left
      · exact kept left
      · split at left <;> exact ensured left
  | attach greeted =>
    cases about
    simp only [undergo, attach?] at left
    split at left
    · next idle => simpa [occurrences, idle] using kept left
    · next service active =>
      simp only [occurrences, active, Option.isSome_some, and_self, if_true]
      refine k.session_occurs host _ _ _ ?_ ?_ left
      · intro absent
        simp [absent]
      · intro before held
        simp [held, session?_put, Session.undergo]
  | shutdown | turn | abort | wrote =>
    cases about
    rw [occurrences, if_pos rfl]
    refine k.session_occurs host peer _ _ ?_ ?_ left
    · intro absent
      simp [undergo, command, turn, abort, noteWritten, absent]
    · intro before held
      simp [undergo, command, turn, abort, noteWritten, running, held, session?_put,
        Session.undergo]

/-- All sessions start their counts of attempts afresh while the kernel is active. -/
theorem session?_resetBackoffs (k : Kernel) (peer : PeerId) :
    k.resetBackoffs.2.session? peer =
      if k.service?.isSome then (k.session? peer).map Session.resetBackoff
      else k.session? peer := by
  unfold resetBackoffs
  split
  · next idle => simp [idle]
  · next service active =>
    simp only [session?, active, List.find?_map, Option.map_map]
    rfl

/-- A kernel that has just become active. -/
def started (service : Service) (random : Random.Stream) : Kernel :=
  { status := .active service, random }

/-- A start that fails leaves a kernel as it was but for what it drew, and one that succeeds leaves
a kernel that has just become active. -/
theorem start_cases (k : Kernel) (network : Network) (seed : List UInt8) (options : Options) :
    (∃ error random rest,
      k.start network seed options = (.error error, { k with random }, rest)) ∨
      ∃ service random rest,
        k.start network seed options = (.ok (), started service random, rest) ∧
          options.validate = .ok () ∧ service.host.options = options := by
  unfold start
  split
  · exact .inl ⟨_, k.random, _, rfl⟩
  split
  · exact .inl ⟨_, k.random, _, rfl⟩
  · next valid =>
    split
    · exact .inl ⟨_, k.random, _, rfl⟩
    · dsimp only
      split
      · exact .inl ⟨_, _, _, rfl⟩
      · exact .inr ⟨_, _, _, rfl, valid, rfl⟩

/-- While a kernel is active or stopping, a deed is for each session it leaves what it is said to
be. A deed is about one peer, about all sessions, or about none. -/
theorem session_undergo (k : Kernel) (host : Host) (running : k.host? = some host)
    (peer : PeerId) (deed : Deed) (s : Session)
    (left : (k.undergo deed).session? peer = some s) :
    s = (k.session host peer).live host (k.occurrences peer deed) := by
  have kept (same : k.session? peer = some s) : s = k.session host peer :=
    k.session_of_held host peer same
  cases about : deed.peer? with
  | some p =>
    by_cases same : p = peer
    · exact k.session_undergo_own host running peer deed (same ▸ about) s left
    · rcases k.occurrences_cases peer deed with nothing | ⟨occurrence, _, occurs⟩
      · rw [(k.undergo_tended deed p about).others (Ne.symm same)] at left
        rw [nothing]
        exact kept left
      · exact absurd (occurs.about about) same
  | none =>
    cases deed with
    | start network seed options =>
      rw [undergo] at left
      rcases k.start_cases network seed options with
        ⟨_, _, _, failed⟩ | ⟨_, _, _, succeeded, _⟩
      · rw [failed] at left
        exact kept left
      · simp [succeeded, started, session?] at left
    | beginStop network =>
      simp only [undergo, beginStop] at left
      split at left <;> exact kept left
    | finishStop =>
      simp only [undergo, finishStop] at left
      split at left
      · simp [session?] at left
      · exact kept left
    | resetBackoffs =>
      rw [undergo, session?_resetBackoffs] at left
      by_cases active : k.service?.isSome
      · rw [if_pos active] at left
        obtain ⟨before, held, rfl⟩ := Option.map_eq_some_iff.mp left
        simp [occurrences, active, session, held, Session.undergo]
      · rw [if_neg active] at left
        simpa [occurrences, active] using kept left
    | _ => cases about

/-- Nothing that a kernel had is gone. -/
structure Keeps (k after : Kernel) : Prop where
  status : after.status = k.status
  sessions (peer : PeerId) : (k.session? peer).isSome → (after.session? peer).isSome

/-- A kernel keeps what it has if nothing changes. -/
theorem Keeps.refl (k : Kernel) : k.Keeps k := ⟨rfl, fun _ => id⟩

/-- What is kept twice over is kept. -/
theorem Keeps.trans {k middle after : Kernel} (first : k.Keeps middle)
    (second : middle.Keeps after) : k.Keeps after :=
  ⟨second.status.trans first.status, fun peer known => second.sessions peer
    (first.sessions peer known)⟩

/-- Putting a session in its place forgets no other. -/
theorem keeps_put (k : Kernel) (peer : PeerId) (s : Session) : k.Keeps (k.put peer s) := by
  refine ⟨put_status k peer s, fun other known => ?_⟩
  rw [session?_put]
  split
  · rfl
  · exact known

/-- Looking up a session, or making a new one, forgets none. -/
theorem keeps_ensure (k : Kernel) (host : Host) (peer : PeerId) :
    k.Keeps (k.ensure host peer).2 := by
  unfold ensure
  split
  · exact .refl k
  · exact keeps_put k peer _

/-- An action on a session forgets no other session. -/
theorem keeps_withSession {α : Type} (k : Kernel) (peer : PeerId)
    (act : Session → Except CommsError α × Session) : k.Keeps (k.withSession peer act).2 := by
  unfold withSession
  split
  · exact .refl k
  · exact (keeps_ensure k _ peer).trans (keeps_put _ peer _)

/-- Tending to a session forgets none. -/
theorem Tended.keeps {k after : Kernel} {peer : PeerId} (tended : k.Tended peer after) :
    k.Keeps after := by
  cases tended with
  | same => exact .refl k
  | met host => exact keeps_ensure k host peer
  | called act => exact keeps_withSession k peer act
  | put random s =>
    have same : k.Keeps { k with random } := ⟨rfl, fun _ => id⟩
    exact same.trans (keeps_put _ peer s)

/-- A kernel keeps what it has until it starts anew or stops. -/
theorem undergo_keeps (k : Kernel) (deed : Deed) (ordinary : deed.isOrdinary) :
    k.Keeps (k.undergo deed) := by
  cases about : deed.peer? with
  | some peer => exact (k.undergo_tended deed peer about).keeps
  | none =>
    cases deed with
    | start | beginStop | finishStop => cases ordinary
    | resetBackoffs =>
      refine ⟨?_, fun peer known => ?_⟩
      · simp only [undergo, resetBackoffs]
        split <;> rfl
      · rw [undergo, session?_resetBackoffs]
        split
        · simpa using known
        · exact known
    | _ => cases about

/-- Both the host and the service of a kernel are read off its status. -/
theorem host?_of_status {k after : Kernel} (same : after.status = k.status) :
    after.host? = k.host? ∧ after.service? = k.service? := by
  unfold host? service?
  rw [same]
  exact ⟨rfl, rfl⟩

/-- An active kernel keeps what it has until it stops. -/
theorem undergo_keeps_active (k : Kernel) (service : Service)
    (active : k.service? = some service) (deed : Deed) (lasting : deed.isStop = false) :
    k.Keeps (k.undergo deed) := by
  by_cases ordinary : deed.isOrdinary
  · exact k.undergo_keeps deed ordinary
  · cases deed with
    | start network seed options =>
      have same : k.undergo (.start network seed options) = k := by simp [undergo, start, active]
      rw [same]
      exact .refl k
    | beginStop => cases lasting
    | finishStop =>
      obtain ⟨status, sessions, random⟩ := k
      cases status with
      | active => exact .refl _
      | uninitialized | stopping | stopped => cases active
    | _ => exact absurd rfl ordinary

/-- A session that a kernel has goes through what a deed is for it. -/
theorem session?_undergo (k : Kernel) (host : Host) (running : k.host? = some host)
    (peer : PeerId) (s : Session) (held : k.session? peer = some s) (deed : Deed)
    (keeps : k.Keeps (k.undergo deed)) :
    (k.undergo deed).session? peer = some (s.live host (k.occurrences peer deed)) := by
  have known : (k.session? peer).isSome := by simp [held]
  obtain ⟨after, left⟩ := Option.isSome_iff_exists.mp (keeps.sessions peer known)
  rw [left, k.session_undergo host running peer deed after left]
  simp [session, held]

/-- The identity under which a kernel runs changes only along with all of its sessions. -/
theorem host?_undergo (k : Kernel) (deed : Deed) (host : Host)
    (running : (k.undergo deed).host? = some host) :
    k.host? = some host ∨ (k.undergo deed).sessions = [] := by
  by_cases ordinary : deed.isOrdinary
  · left
    rw [← running]
    exact (host?_of_status (k.undergo_keeps deed ordinary).status).1.symm
  · cases deed with
    | start network seed options =>
      rw [undergo] at running ⊢
      rcases k.start_cases network seed options with
        ⟨_, _, _, failed⟩ | ⟨_, _, _, succeeded, _⟩
      · rw [failed] at running
        exact .inl running
      · rw [succeeded]
        exact .inr rfl
    | beginStop network =>
      left
      rw [← running]
      obtain ⟨status, sessions, random⟩ := k
      cases status <;> rfl
    | finishStop =>
      simp only [undergo, finishStop] at running ⊢
      split at running
      · exact .inr rfl
      · exact .inl running
    | _ => exact absurd rfl ordinary

/-- Each session of a kernel that is active or stopping came about by a life of its own,
under the identity of the kernel. -/
def Stems (k : Kernel) : Prop :=
  ∀ host, k.host? = some host → ∀ peer s, k.session? peer = some s →
    ∃ life, s = (Session.fresh peer host.options).live host life

/-- Every session still stems from a fresh one through a life of its own, once a deed made it live
on. -/
theorem stems_undergo (k : Kernel) (stems : k.Stems) (deed : Deed) : (k.undergo deed).Stems := by
  rintro host running peer s left
  rcases k.host?_undergo deed host running with before | gone
  · rw [k.session_undergo host before peer deed s left]
    cases held : k.session? peer with
    | none => exact ⟨k.occurrences peer deed, by simp [session, held]⟩
    | some old =>
      obtain ⟨life, rfl⟩ := stems host before peer old held
      refine ⟨life ++ k.occurrences peer deed, ?_⟩
      simp [session, held, Session.live_append]
  · simp [session?, gone] at left

/-- Whatever a kernel lives through, its sessions live through lives of their own. -/
theorem live_stems (service : Service) (random : Random.Stream) (life : List Deed) :
    ((started service random).live life).Stems := by
  have grown (k : Kernel) (stems : k.Stems) : (k.live life).Stems := by
    induction life generalizing k with
    | nil => exact stems
    | cons deed rest inductionHypothesis => exact inductionHypothesis _ (k.stems_undergo stems deed)
  refine grown _ ?_
  rintro host running peer s held
  cases held

/-- The session of a peer is about that peer. -/
theorem session?_peer (k : Kernel) (stems : k.Stems) (host : Host) (running : k.host? = some host)
    (peer : PeerId) (s : Session) (held : k.session? peer = some s) : s.ledger.peer = peer := by
  obtain ⟨life, rfl⟩ := stems host running peer s held
  exact Session.live_peer host _ life

end Kernel

end Courier
