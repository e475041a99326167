import Courier.Proofs.Lives
import Mathlib.Data.List.Induction

/-!
# Crossing connections

Two kernels that connect to each other at the same time have two connections between
them, and each adopts what it meets first: its own attempt when that completes, or the
connection of the other. The kernel with the larger id ends up with the connection of
the smaller one in any order. The kernel with the smaller id keeps its own connection if
its attempt completes first; when it meets the connection of the other first, it adopts
that one and cancels its own attempt, although the other kernel has answered it and
prefers it. The two kernels agree exactly if the attempt of the smaller one completes.
-/

namespace Courier

/-- Two connections that cross, as one of the kernels sees them: its own attempt, and the
connection that the other one opened. No restart lies between the two greetings. -/
structure Crossing where
  mine : Greeted
  theirs : Greeted
  dialed : mine.endpoint.side = .dialer
  accepted : theirs.endpoint.side = .acceptor
  sameRun : theirs.hello.incarnation = mine.hello.incarnation

/-- What may happen to a session while connections cross. The connections are not lost, and
the application asks for nothing that would end them. -/
def Occurrence.Crosses (crossing : Crossing) : Occurrence → Prop
  | .post _ _ | .addHints _ | .wrote _ => True
  | .attach greeted => greeted = crossing.theirs
  | .turn _ _ (.dialed outcome) => outcome = .ok crossing.mine
  | .turn _ _ .lost => False
  | .turn _ _ _ => True
  | .reconnect _ | .close | .resetBackoff | .shutdown | .abort _ => False

namespace Session

/-- A session with an attempt to connect under way and nothing else. -/
structure Reaching (host : Host) (s : Session) : Prop where
  apart : s.ledger.peer ≠ host.id
  idle : s.stage = .idle
  phase : s.ledger.phase = .connecting
  dialing : s.dial.isSome
  unlinked : s.link = none
  unwaited : s.backoffDue = none
  untold : s.commands = []

/-- Whether the own attempt of a session completes in a life. -/
def Completes (host : Host) (s : Session) (crossing : Crossing) (life : List Occurrence) : Prop :=
  ∃ past now random rest, life = past ++ .turn now random (.dialed (.ok crossing.mine)) :: rest ∧
    (s.live host past).stage = .idle ∧ (s.live host past).dial.isSome

/-- Whether the frames that a session reads in a life are sound. -/
def ReadsSoundly (host : Host) (s : Session) (life : List Occurrence) : Prop :=
  ∀ past, past <+: life → ∀ link error, (s.live host past).stage = .reading →
    (s.live host past).link = some link → Frame.next? link.buffer ≠ .error error

/-- Whether the live connection is a given one, greeted by the same run of the peer. -/
def Holds (s : Session) (greeted : Greeted) : Prop :=
  ∃ link, s.link = some link ∧ link.endpoint = greeted.endpoint ∧
    link.incarnation = greeted.hello.incarnation

/-- What holds of a session while connections cross, given whether its own attempt
completed and whether the connection of the other was handed to it. -/
structure Crossed (host : Host) (crossing : Crossing) (s : Session) (completed handed : Prop) :
    Prop where
  apart : s.ledger.peer ≠ host.id
  unwaited : s.backoffDue = none
  only (command : Command) : command ∈ s.commands → command = .attach crossing.theirs
  /-- The session still waits for its attempt, or holds one of the two connections. -/
  state : (s.stage = .idle ∧ s.ledger.phase = .connecting ∧ s.dial.isSome ∧ s.link = none ∧
      ¬ completed ∧ (handed → s.commands ≠ [])) ∨
    (s.ledger.phase = .connected ∧ s.dial = none ∧
      ((s.Holds crossing.mine ∧ completed ∧
          (handed → s.commands ≠ [] ∨ host.id.smaller s.ledger.peer = host.id)) ∨
        (s.Holds crossing.theirs ∧
          (completed → host.id.smaller s.ledger.peer = s.ledger.peer))))

/-- A session that reaches for its peer is in a crossing in which its own attempt did not complete
yet and the connection of the other was not handed to it. -/
theorem reaching_crossed (host : Host) (crossing : Crossing) (s : Session)
    (reaching : s.Reaching host) : s.Crossed host crossing False False where
  apart := reaching.apart
  unwaited := reaching.unwaited
  only command listed := by simp [reaching.untold] at listed
  state := .inl ⟨reaching.idle, reaching.phase, reaching.dialing, reaching.unlinked, id,
    False.elim⟩

section Kinds

variable {host : Host} {crossing : Crossing} {s after : Session} {completed handed : Prop}

/-- An end that is still connecting is in the middle of nothing, so that it takes up what comes
next. -/
theorem Crossed.resting (crossed : s.Crossed host crossing completed handed)
    (connecting : s.ledger.phase = .connecting) : s.stage = .idle := by
  rcases crossed.state with ⟨idle, _⟩ | ⟨connected, _⟩
  · exact idle
  · cases connecting.symm.trans connected

/-- Nothing changes for a session whose activities stay as they are. -/
theorem Crossed.steady (crossed : s.Crossed host crossing completed handed)
    (idle : s.ledger.phase = .connecting → after.stage = .idle)
    (unlinked : s.link = none → after.link = none)
    (holds : ∀ greeted, s.Holds greeted → after.Holds greeted)
    (peer : after.ledger.peer = s.ledger.peer := by rfl)
    (phase : after.ledger.phase = s.ledger.phase := by rfl) (dial : after.dial = s.dial := by rfl)
    (backoffDue : after.backoffDue = s.backoffDue := by rfl)
    (commands : after.commands = s.commands := by rfl) :
    after.Crossed host crossing completed handed where
  apart := by
    rw [peer]
    exact crossed.apart
  unwaited := backoffDue.trans crossed.unwaited
  only command listed := crossed.only command (commands ▸ listed)
  state := by
    rw [phase, dial, commands, peer]
    rcases crossed.state with ⟨_, waiting, dialing, none, incomplete, pending⟩ |
      ⟨connected, undialed, ⟨held, completed, settled⟩ | ⟨held, settled⟩⟩
    · exact .inl ⟨idle waiting, waiting, dialing, unlinked none, incomplete, pending⟩
    · exact .inr ⟨connected, undialed, .inl ⟨holds _ held, completed, settled⟩⟩
    · exact .inr ⟨connected, undialed, .inr ⟨holds _ held, settled⟩⟩

/-- What leaves the peer, the connection, the attempt and the commands of an end alone keeps it in
its place in the crossing, as long as it rests while it connects. -/
theorem Crossed.kept (crossed : s.Crossed host crossing completed handed)
    (idle : s.ledger.phase = .connecting → after.stage = .idle)
    (peer : after.ledger.peer = s.ledger.peer := by rfl)
    (phase : after.ledger.phase = s.ledger.phase := by rfl) (link : after.link = s.link := by rfl)
    (dial : after.dial = s.dial := by rfl) (backoffDue : after.backoffDue = s.backoffDue := by rfl)
    (commands : after.commands = s.commands := by rfl) :
    after.Crossed host crossing completed handed := by
  refine crossed.steady idle link.trans ?_ peer phase dial backoffDue commands
  rintro greeted ⟨held, linked, same⟩
  exact ⟨held, link.trans linked, same⟩

end Kinds

/-- The smaller of two ids is one of the two. -/
theorem smaller_cases (id other : PeerId) : id.smaller other = id ∨ id.smaller other = other := by
  unfold PeerId.smaller
  split
  · exact .inr rfl
  · exact .inl rfl

/-- Against the own connection, that of the other wins if the other is smaller. -/
theorem replaces_mine (host : Host) (crossing : Crossing) (s : Session) (link : Link)
    (apart : s.ledger.peer ≠ host.id) (endpoint : link.endpoint = crossing.mine.endpoint)
    (incarnation : link.incarnation = crossing.mine.hello.incarnation) :
    (crossing.theirs.origin host s.ledger.peer).replaces (link.origin host s.ledger.peer)
      host.id s.ledger.peer = true ↔ host.id.smaller s.ledger.peer = s.ledger.peer := by
  simp only [Origin.replaces, Greeted.origin, Link.origin, endpoint, incarnation,
    crossing.dialed, crossing.accepted, crossing.sameRun, Side.initiator, ne_eq, not_true_eq_false,
    decide_false, Bool.false_or, apart, decide_eq_true_eq]
  exact eq_comm

section Adoption

variable {host : Host} {now : Nat} {crossing : Crossing} {s after : Session}
  {effects : List Effect} {completed handed : Prop}

/-- A session that joined a connection holds it. -/
theorem joined_holds (host : Host) (now : Nat) (greeted : Greeted) (s : Session) :
    (s.joined host now greeted).Holds greeted := ⟨_, rfl, rfl, rfl⟩

/-- The own attempt completes while the session waits for it: its connection is adopted. -/
theorem Crossed.dialed (crossed : s.Crossed host crossing completed handed)
    (dialing : s.dial.isSome)
    (adopted : Adopted host now crossing.mine { s with dial := none } after effects) :
    after.Crossed host crossing True handed := by
  rcases crossed.state with ⟨_, waiting, _, unlinked, _, pending⟩ | ⟨_, undialed, _⟩
  · cases adopted with
    | refused unfit =>
      refine absurd ⟨?_, ?_⟩ unfit
      · simp [waiting]
      · simp [unlinked]
    | joined fit =>
      have about := Session.joined_peer host now crossing.mine { s with dial := none }
      refine ⟨about ▸ crossed.apart, rfl, crossed.only, .inr ⟨joined_phase _ _ _ _, rfl, .inl ?_⟩⟩
      exact ⟨joined_holds _ _ _ _, trivial, fun given => .inl (pending given)⟩
  · simp [undialed] at dialing

/-- The connection of the other is handed over and taken up: it is adopted, unless the
session holds its own connection and has the smaller id. -/
theorem Crossed.attached (crossed : s.Crossed host crossing completed handed)
    (rest : List Command) (next : s.commands = .attach crossing.theirs :: rest)
    (adopted : Adopted host now crossing.theirs { s with commands := rest } after effects) :
    after.Crossed host crossing completed handed := by
  have only (command : Command) (listed : command ∈ rest) : command = .attach crossing.theirs :=
    crossed.only command (next ▸ List.mem_cons_of_mem _ listed)
  have about := Session.joined_peer host now crossing.theirs { s with commands := rest }
  have join (settled : completed → host.id.smaller s.ledger.peer = s.ledger.peer) :
      (Session.joined host now crossing.theirs { s with commands := rest }).Crossed host crossing
        completed handed := by
    refine ⟨about ▸ crossed.apart, rfl, only, .inr ⟨joined_phase _ _ _ _, rfl, .inr ?_⟩⟩
    exact ⟨joined_holds _ _ _ _, fun done => about.symm ▸ settled done⟩
  rcases crossed.state with ⟨_, waiting, _, unlinked, incomplete, _⟩ |
    ⟨connected, undialed, ⟨held, done, settled⟩ | ⟨held, settled⟩⟩
  · cases adopted with
    | refused unfit =>
      refine absurd ⟨?_, ?_⟩ unfit
      · simp [waiting]
      · simp [unlinked]
    | joined fit => exact join fun done => absurd done incomplete
  · obtain ⟨link, linked, endpoint, incarnation⟩ := held
    have wins := replaces_mine host crossing s link crossed.apart endpoint incarnation
    cases adopted with
    | refused unfit =>
      refine ⟨crossed.apart, crossed.unwaited, only, .inr ⟨connected, undialed, .inl ?_⟩⟩
      refine ⟨⟨link, linked, endpoint, incarnation⟩, done, fun _ => .inr ?_⟩
      refine (smaller_cases host.id s.ledger.peer).resolve_right fun smaller => unfit ⟨?_, ?_⟩
      · simp [connected]
      · rintro other held
        cases linked.symm.trans held
        exact wins.mpr smaller
    | joined fit => exact join fun _ => wins.mp (fit.2 link linked)
  · cases adopted with
    | refused unfit =>
      exact ⟨crossed.apart, crossed.unwaited, only, .inr ⟨connected, undialed, .inr
        ⟨held, settled⟩⟩⟩
    | joined fit => exact join settled

end Adoption

/-- A turn in which the own attempt does not complete. There is one case for each kind of turn. Most
of them cannot be taken, because nothing but the connection of the other is left to take up. -/
theorem Crossed.turned {host : Host} {now : Nat} {random : Random.Stream} {event : Event}
    {crossing : Crossing} {s after : Session} {effects : List Effect} {completed handed : Prop}
    (crossed : s.Crossed host crossing completed handed)
    (fits : (Occurrence.turn now random event).Crosses crossing)
    (sound : ∀ link error, s.stage = .reading → s.link = some link →
      Frame.next? link.buffer ≠ .error error)
    (incomplete : ¬ (event = .dialed (.ok crossing.mine) ∧ s.stage = .idle ∧ s.dial.isSome))
    (turned : Turned host now s event after effects) :
    after.Crossed host crossing completed handed := by
  have resting := crossed.resting
  have phases : s.ledger.phase = .connecting ∨ s.ledger.phase = .connected :=
    crossed.state.imp (fun waiting => waiting.2.1) And.left
  have pending (command : Command) (rest : List Command) (next : s.commands = command :: rest) :
      command = .attach crossing.theirs :=
    crossed.only command (next ▸ List.mem_cons_self)
  cases turned with
  | still => exact crossed
  | attach greeted rest after effects idle next adopted =>
    cases pending _ rest next
    exact crossed.attached rest next adopted
  | reconnect rest idle next => cases pending _ rest next
  | close rest idle next => cases pending _ rest next
  | resetDial rest idle next waiting phase => cases pending _ rest next
  | resetNothing rest idle next awake => cases pending _ rest next
  | shutdown rest effects idle next => cases pending _ rest next
  | wakeFlush after effects idle woken phase flushed =>
    have alike := flushed.alike
    refine crossed.kept ?_ alike.peer alike.phase alike.link alike.dial alike.backoffDue
      alike.commands
    simp [phase]
  | wakeDial idle woken phase queued => simp [phase] at phases
  | wakeNothing idle woken phase empty => exact crossed.kept resting
  | dialed greeted after effects idle dialing adopted =>
    cases fits
    exact absurd ⟨rfl, idle, dialing⟩ incomplete
  | dialStale error idle dialing stale => cases fits
  | dialRetry error due idle dialing unlinked phase more => cases fits
  | dialGiveUp error idle dialing unlinked phase limited spent => cases fits
  | elapsedDial idle waiting phase => simp [crossed.unwaited] at waiting
  | elapsedNothing idle waiting phase => simp [crossed.unwaited] at waiting
  | ackWritten link idle due held owed => exact crossed.kept resting
  | ackNothing idle due settled => exact crossed.kept resting
  | received bytes link idle held =>
    refine crossed.steady ?_ ?_ ?_
    · intro connecting
      rcases crossed.state with ⟨_, _, _, unlinked, _⟩ | ⟨connected, _⟩
      · cases held.symm.trans unlinked
      · cases connecting.symm.trans connected
    · exact fun unlinked => nomatch held.symm.trans unlinked
    · rintro greeted ⟨other, linked, same⟩
      cases held.symm.trans linked
      exact ⟨_, rfl, same⟩
  | lost link due idle held => cases fits
  | lostNothing idle unlinked => cases fits
  | greeted after effects stage flushed =>
    have alike := flushed.alike
    refine crossed.kept ?_ alike.peer alike.phase alike.link alike.dial alike.backoffDue
      alike.commands
    exact fun connecting => nomatch stage.symm.trans (resting connecting)
  | readNothing stage unlinked => exact crossed.kept fun _ => rfl
  | readBroken link error due stage held broken => exact absurd broken (sound link error stage held)
  | readAll link stage held incomplete => exact crossed.kept fun _ => rfl
  | read link e rest after effects stage held complete took =>
    have alike := took.alike
    refine crossed.steady ?_ ?_ ?_ alike.peer alike.phase alike.dial alike.backoffDue alike.commands
    · exact fun connecting => nomatch stage.symm.trans (resting connecting)
    · exact fun unlinked => nomatch held.symm.trans unlinked
    · rintro greeted ⟨other, linked, same⟩
      cases held.symm.trans linked
      exact ⟨_, alike.link, same⟩
  | replied replyTo payload ledger after effects stage queued flushed =>
    have alike := flushed.alike
    obtain ⟨phase, peer⟩ := Ledger.enqueueReply_phase _ _ _ _ _ queued
    refine crossed.kept ?_ (alike.peer.trans peer) (alike.phase.trans phase) alike.link alike.dial
      alike.backoffDue alike.commands
    exact fun connecting => nomatch stage.symm.trans (resting connecting)
  | silent replyTo reply stage unqueued =>
    exact crossed.kept fun connecting => nomatch stage.symm.trans (resting connecting)

/-- The completion of an attempt that an idle session waits for. -/
theorem undergo_dialed (host : Host) (s : Session) (now : Nat) (random : Random.Stream)
    (greeted : Greeted) (idle : s.stage = .idle) (dialing : s.dial.isSome) :
    ∃ effects, Adopted host now greeted { s with dial := none }
      (s.undergo host (.turn now random (.dialed (.ok greeted)))) effects := by
  obtain ⟨effects, _, adopted⟩ := Turn.adopt_goes host now greeted
    ((⟨s, random, []⟩ : Turn).amend ({ · with dial := none }))
  have taken : s.undergo host (.turn now random (.dialed (.ok greeted))) =
      (((⟨s, random, []⟩ : Turn).amend ({ · with dial := none })).adopt host now
        greeted).session := by
    simp only [undergo, Turn.handle, idle, Turn.take, dialing, if_true]
  exact ⟨effects, taken ▸ adopted⟩

/-- Whether the own attempt completes in one occurrence. -/
def CompletesIn (s : Session) (crossing : Crossing) (occurrence : Occurrence) : Prop :=
  s.stage = .idle ∧ s.dial.isSome ∧
    ∃ now random, occurrence = .turn now random (.dialed (.ok crossing.mine))

/-- An end completes a connection in a longer life if it did so before or does so in the last
occurrence. -/
theorem completes_append_one (host : Host) (s : Session) (crossing : Crossing)
    (life : List Occurrence) (occurrence : Occurrence) :
    s.Completes host crossing (life ++ [occurrence]) ↔
      s.Completes host crossing life ∨ (s.live host life).CompletesIn crossing occurrence := by
  constructor
  · rintro ⟨past, now, random, rest, split, idle, dialing⟩
    rcases List.eq_nil_or_concat rest with rfl | ⟨before, last, rfl⟩
    · obtain ⟨rfl, same⟩ := List.append_inj' split rfl
      cases same
      exact .inr ⟨idle, dialing, now, random, rfl⟩
    · rw [List.concat_eq_append, ← List.cons_append, ← List.append_assoc] at split
      obtain ⟨rfl, _⟩ := List.append_inj' split rfl
      exact .inl ⟨past, now, random, before, rfl, idle, dialing⟩
  · rintro (⟨past, now, random, rest, rfl, idle, dialing⟩ | ⟨idle, dialing, now, random, rfl⟩)
    · exact ⟨past, now, random, rest ++ [occurrence], by simp, idle, dialing⟩
    · exact ⟨life, now, random, [], rfl, idle, dialing⟩

/-- Whatever happens while connections cross. The own attempt completes, the connection of the other
is handed over, or nothing happens that matters. -/
theorem Crossed.undergo {host : Host} {crossing : Crossing} {s : Session} {completed handed : Prop}
    (crossed : s.Crossed host crossing completed handed) (going : s.stage ≠ .ended)
    (occurrence : Occurrence) (fits : occurrence.Crosses crossing)
    (sound : ∀ link error, s.stage = .reading → s.link = some link →
      Frame.next? link.buffer ≠ .error error) :
    (s.undergo host occurrence).Crossed host crossing
      (completed ∨ s.CompletesIn crossing occurrence)
      (handed ∨ occurrence = .attach crossing.theirs) := by
  by_cases completes : s.CompletesIn crossing occurrence
  · obtain ⟨idle, dialing, now, random, rfl⟩ := completes
    obtain ⟨effects, adopted⟩ := s.undergo_dialed host now random crossing.mine idle dialing
    have done : s.CompletesIn crossing (.turn now random (.dialed (.ok crossing.mine))) :=
      ⟨idle, dialing, now, random, rfl⟩
    simpa [done] using crossed.dialed dialing adopted
  simp only [completes, or_false]
  have calm (t : Session) (other : occurrence ≠ .attach crossing.theirs)
      (held : t.Crossed host crossing completed handed) : t.Crossed host crossing completed
        (handed ∨ occurrence = .attach crossing.theirs) := by simpa [other] using held
  cases occurrence with
  | post letter now =>
    rcases s.undergo_post host letter now with same | ⟨queued, _, accepted, same⟩
    · rw [same]
      exact calm _ Occurrence.noConfusion crossed
    · obtain ⟨_, _, _, _, _, rfl⟩ := s.ledger.enqueueLetter_eq queued letter now accepted
      rw [same]
      refine calm _ Occurrence.noConfusion (crossed.kept crossed.resting)
  | addHints hints =>
    obtain ⟨kept, same⟩ := s.ledger.addHints_eq hints
    simp only [Session.undergo, addHints, same]
    exact calm _ Occurrence.noConfusion (crossed.kept crossed.resting)
  | attach greeted =>
    cases fits
    have pushed : s.undergo host (.attach crossing.theirs) =
        { s with commands := s.commands ++ [.attach crossing.theirs] } := if_neg going
    rw [pushed]
    refine ⟨crossed.apart, crossed.unwaited, ?_, ?_⟩
    · intro command listed
      rcases List.mem_append.mp listed with before | last
      · exact crossed.only command before
      · exact List.mem_singleton.mp last
    · have told : s.commands ++ [.attach crossing.theirs] ≠ [] := by simp
      rcases crossed.state with ⟨idle, waiting, dialing, unlinked, incomplete, _⟩ |
        ⟨connected, undialed, ⟨held, done, _⟩ | ⟨held, settled⟩⟩
      · exact .inl ⟨idle, waiting, dialing, unlinked, incomplete, fun _ => told⟩
      · exact .inr ⟨connected, undialed, .inl ⟨held, done, fun _ => .inl told⟩⟩
      · exact .inr ⟨connected, undialed, .inr ⟨held, settled⟩⟩
  | wrote bytes =>
    exact calm _ Occurrence.noConfusion (crossed.kept crossed.resting)
  | turn now random event =>
    obtain ⟨_, turned⟩ := s.undergo_turn host now random event
    refine calm _ Occurrence.noConfusion (crossed.turned fits sound ?_ turned)
    rintro ⟨rfl, idle, dialing⟩
    exact completes ⟨idle, dialing, now, random, rfl⟩
  | reconnect hints => cases fits
  | close => cases fits
  | resetBackoff => cases fits
  | shutdown => cases fits
  | abort random => cases fits

/-- No session ends while connections cross. -/
theorem Crossed.undergo_going {host : Host} {crossing : Crossing} {s : Session}
    {completed handed : Prop} (crossed : s.Crossed host crossing completed handed)
    (going : s.stage ≠ .ended) (occurrence : Occurrence) (fits : occurrence.Crosses crossing) :
    (s.undergo host occurrence).stage ≠ .ended := by
  cases occurrence with
  | post letter now =>
    rcases s.undergo_post host letter now with same | ⟨queued, _, _, same⟩ <;> rw [same] <;>
      exact going
  | addHints hints => exact going
  | attach greeted =>
    obtain ⟨commands, same, _⟩ := s.push_eq (.attach greeted)
    rw [Session.undergo, same]
    exact going
  | wrote bytes => exact going
  | turn now random event =>
    obtain ⟨_, turned⟩ := s.undergo_turn host now random event
    intro ended
    rcases turned.ended ended with before | next
    · exact going before
    · cases crossed.only .shutdown (List.mem_of_mem_head? next)
  | reconnect hints => cases fits
  | close => cases fits
  | resetBackoff => cases fits
  | shutdown => cases fits
  | abort random => cases fits

/-- A life in which connections cross. -/
theorem live_crossed (host : Host) (crossing : Crossing) (s : Session)
    (reaching : s.Reaching host) (life : List Occurrence)
    (fits : ∀ occurrence ∈ life, occurrence.Crosses crossing)
    (sound : s.ReadsSoundly host life) :
    (s.live host life).stage ≠ .ended ∧ (s.live host life).Crossed host crossing
      (s.Completes host crossing life) (.attach crossing.theirs ∈ life) := by
  induction life using List.reverseRecOn with
  | nil =>
    have none : ¬ s.Completes host crossing [] := by
      rintro ⟨past, now, random, rest, split, _⟩
      simp at split
    have start := reaching_crossed host crossing s reaching
    refine ⟨?_, by simpa [none] using start⟩
    simp [reaching.idle]
  | append_singleton life occurrence inductionHypothesis =>
    obtain ⟨going, crossed⟩ := inductionHypothesis
      (fun occurrence listed => fits occurrence (List.mem_append_left _ listed))
      (fun past early => sound past (early.trans (List.prefix_append life _)))
    have fit := fits occurrence (List.mem_append_right _ List.mem_cons_self)
    have reads := sound life (List.prefix_append life _)
    rw [live_append, live_one]
    refine ⟨crossed.undergo_going going occurrence fit, ?_⟩
    have now := crossed.undergo going occurrence fit reads
    simpa only [completes_append_one, List.mem_append, List.mem_singleton, eq_comm] using now

/-- A life in which connections cross, and at whose end everything about them is taken up. -/
structure CrossesIn (host : Host) (crossing : Crossing) (s : Session) (life : List Occurrence) :
    Prop where
  reaching : s.Reaching host
  fits (occurrence : Occurrence) : occurrence ∈ life → occurrence.Crosses crossing
  sound : s.ReadsSoundly host life
  handed : .attach crossing.theirs ∈ life
  taken : (s.live host life).commands = []
  undialed : (s.live host life).dial = none

/-- At the end a session holds its own connection exactly if its attempt completed and its id
is the smaller one, and that of the other if not. -/
theorem live_holds (host : Host) (crossing : Crossing) (s : Session) (life : List Occurrence)
    (crosses : s.CrossesIn host crossing life) :
    (s.Completes host crossing life ∧ host.id.smaller s.ledger.peer = host.id ∧
        (s.live host life).Holds crossing.mine) ∨
      (¬ (s.Completes host crossing life ∧ host.id.smaller s.ledger.peer = host.id) ∧
        (s.live host life).Holds crossing.theirs) := by
  obtain ⟨_, crossed⟩ :=
    live_crossed host crossing s crosses.reaching life crosses.fits crosses.sound
  have about := live_peer host s life
  rcases crossed.state with ⟨_, _, dialing, _⟩ | ⟨_, _, ⟨held, done, settled⟩ | ⟨held, settled⟩⟩
  · simp [crosses.undialed] at dialing
  · left
    have smaller := (settled crosses.handed).resolve_left fun told => told crosses.taken
    exact ⟨done, about ▸ smaller, held⟩
  · right
    refine ⟨?_, held⟩
    rintro ⟨done, smaller⟩
    exact crosses.reaching.apart ((about ▸ settled done).symm.trans smaller)

/-- Whether the live connections of two sessions are the two ends of one. -/
def Shares (s t : Session) : Prop :=
  ∃ link other, s.link = some link ∧ t.link = some other ∧ other.endpoint = link.endpoint.other

end Session

/-- Two connections between two kernels, as each of them sees them. -/
structure Encounter where
  here : Crossing
  there : Crossing
  first : there.theirs.endpoint = here.mine.endpoint.other
  second : here.theirs.endpoint = there.mine.endpoint.other
  distinct : here.mine.endpoint.connection ≠ there.mine.endpoint.connection

namespace Encounter

open Session

/-- When each of two sessions holds the connection that the first one opened, they share it. -/
theorem shares_first (encounter : Encounter) (s t : Session) (held : s.Holds encounter.here.mine)
    (met : t.Holds encounter.there.theirs) : s.Shares t := by
  obtain ⟨link, linked, endpoint, _⟩ := held
  obtain ⟨other, met, end', _⟩ := met
  exact ⟨link, other, linked, met, by rw [end', endpoint, encounter.first]⟩

/-- When each holds the connection of the other, they share none. -/
theorem shares_neither (encounter : Encounter) (s t : Session)
    (held : s.Holds encounter.here.theirs) (met : t.Holds encounter.there.theirs) :
    ¬ s.Shares t := by
  rintro ⟨link, other, linked, met', same⟩
  obtain ⟨_, found, endpoint, _⟩ := held
  obtain ⟨_, found', end', _⟩ := met
  cases linked.symm.trans found
  cases met'.symm.trans found'
  rw [endpoint, end', encounter.first, encounter.second] at same
  have connection := congrArg Endpoint.connection same
  exact encounter.distinct connection

/-- The same encounter, seen from the other side. -/
def flip (encounter : Encounter) : Encounter :=
  ⟨encounter.there, encounter.here, encounter.second, encounter.first, encounter.distinct.symm⟩

/-- Two ends that share a connection share it both ways. -/
theorem shares_comm (s t : Session) (shares : s.Shares t) : t.Shares s := by
  obtain ⟨link, other, linked, met, same⟩ := shares
  refine ⟨other, link, met, linked, ?_⟩
  rw [same]
  cases link.endpoint with
  | mk connection side => cases side <;> rfl

/-- With the smaller id on this side, the kernels share a connection exactly if the attempt
of this side completes. -/
theorem shares_iff_of_smaller (encounter : Encounter) (a b : Host) (s t : Session)
    (apart : a.id ≠ b.id) (smaller : a.id.smaller b.id = a.id) (about : s.ledger.peer = b.id)
    (about' : t.ledger.peer = a.id) (life other : List Occurrence)
    (crosses : s.CrossesIn a encounter.here life)
    (crosses' : t.CrossesIn b encounter.there other) :
    (s.live a life).Shares (t.live b other) ↔ s.Completes a encounter.here life := by
  have met : (t.live b other).Holds encounter.there.theirs := by
    rcases live_holds b encounter.there t other crosses' with ⟨_, larger, _⟩ | ⟨_, held⟩
    · rw [about', PeerId.smaller_comm, smaller] at larger
      exact absurd larger apart
    · exact held
  rcases live_holds a encounter.here s life crosses with ⟨done, _, held⟩ | ⟨lost, held⟩
  · exact iff_of_true (encounter.shares_first _ _ held met) done
  · rw [about] at lost
    refine iff_of_false (encounter.shares_neither _ _ held met) fun done => lost ⟨done, smaller⟩

/-- Two kernels whose connections cross share one in the end, whatever each takes up first,
exactly if the attempt of the kernel with the smaller id completes. -/
theorem shares_iff (encounter : Encounter) (a b : Host) (s t : Session) (apart : a.id ≠ b.id)
    (about : s.ledger.peer = b.id) (about' : t.ledger.peer = a.id) (life other : List Occurrence)
    (crosses : s.CrossesIn a encounter.here life)
    (crosses' : t.CrossesIn b encounter.there other) :
    (s.live a life).Shares (t.live b other) ↔
      if a.id.smaller b.id = a.id then s.Completes a encounter.here life
      else t.Completes b encounter.there other := by
  split
  · next smaller =>
    exact encounter.shares_iff_of_smaller a b s t apart smaller about about' life other crosses
      crosses'
  · next larger =>
    have smaller : b.id.smaller a.id = b.id := by
      rw [PeerId.smaller_comm]
      exact (smaller_cases a.id b.id).resolve_left larger
    have flipped := encounter.flip.shares_iff_of_smaller b a t s apart.symm smaller about' about
      other life crosses' crosses
    exact ⟨fun shares => flipped.mp (shares_comm _ _ shares),
      fun done => shares_comm _ _ (flipped.mpr done)⟩

/-- The other kernel of the runs on fixed inputs. -/
def bobHost : Host := ⟨bob, ⟨0, 2⟩, {}⟩

/-- The session of each of two kernels with an attempt to reach the other under way. -/
def aliceReaching : Session := (Session.fresh bob {}).attempting aliceService.host

@[inherit_doc aliceReaching]
def bobReaching : Session := (Session.fresh alice {}).attempting bobHost

/-- The two connections that result. -/
def both : Encounter where
  here := ⟨⟨⟨0, .dialer⟩, bobReaching.nextDial bobHost |>.hello, .empty⟩,
    ⟨⟨1, .acceptor⟩, bobReaching.nextDial bobHost |>.hello, .empty⟩, rfl, rfl, rfl⟩
  there := ⟨⟨⟨1, .dialer⟩, aliceReaching.nextDial aliceService.host |>.hello, .empty⟩,
    ⟨⟨0, .acceptor⟩, aliceReaching.nextDial aliceService.host |>.hello, .empty⟩, rfl, rfl, rfl⟩
  first := rfl
  second := rfl
  distinct := by decide

/-- The kernel with the larger id may take up the connection of the other at once. -/
theorem bob_at_once : bobReaching.CrossesIn bobHost both.there
    [.attach both.there.theirs, .turn 0 quiet .command] where
  reaching := ⟨by decide, rfl, rfl, rfl, rfl, rfl, rfl⟩
  fits := by simp [Occurrence.Crosses]
  sound := by
    intro past early link error reading
    simp only [List.prefix_cons_iff, List.prefix_nil] at early
    obtain rfl | ⟨_, rfl, rfl | ⟨_, rfl, rfl⟩⟩ := early <;> cases reading
  handed := List.mem_cons_self
  taken := rfl
  undialed := rfl

/-- So may the one with the smaller id. -/
theorem alice_at_once : aliceReaching.CrossesIn aliceService.host both.here
    [.attach both.here.theirs, .turn 0 quiet .command] where
  reaching := ⟨by decide, rfl, rfl, rfl, rfl, rfl, rfl⟩
  fits := by simp [Occurrence.Crosses]
  sound := by
    intro past early link error reading
    simp only [List.prefix_cons_iff, List.prefix_nil] at early
    obtain rfl | ⟨_, rfl, rfl | ⟨_, rfl, rfl⟩⟩ := early <;> cases reading
  handed := List.mem_cons_self
  taken := rfl
  undialed := rfl

/-- The smaller one may also see its own attempt complete first. -/
theorem alice_completes : aliceReaching.CrossesIn aliceService.host both.here
    [.turn 0 quiet (.dialed (.ok both.here.mine)), .turn 0 quiet .proceed,
      .turn 0 quiet .proceed, .attach both.here.theirs, .turn 0 quiet .command] where
  reaching := ⟨by decide, rfl, rfl, rfl, rfl, rfl, rfl⟩
  fits := by simp [Occurrence.Crosses]
  sound := by
    intro past early link error reading held
    simp only [List.prefix_cons_iff, List.prefix_nil] at early
    obtain rfl | ⟨_, rfl, rfl | ⟨_, rfl, rfl | ⟨_, rfl, rfl | ⟨_, rfl, rfl | ⟨_, rfl, rfl⟩⟩⟩⟩⟩ :=
      early <;> cases reading
    cases held
    have incomplete : Frame.next? ByteArray.empty = .ok none := rfl
    exact fun broken => nomatch incomplete.symm.trans broken
  handed := by simp
  taken := rfl
  undialed := rfl

/-- Two kernels share the connection of the smaller one when its attempt completes. -/
theorem shares_completed :
    (aliceReaching.live aliceService.host
      [.turn 0 quiet (.dialed (.ok both.here.mine)), .turn 0 quiet .proceed,
        .turn 0 quiet .proceed, .attach both.here.theirs, .turn 0 quiet .command]).Shares
      (bobReaching.live bobHost [.attach both.there.theirs, .turn 0 quiet .command]) := by
  refine (both.shares_iff aliceService.host bobHost aliceReaching bobReaching (by decide) rfl rfl
    _ _ alice_completes bob_at_once).mpr ?_
  rw [if_pos (by decide)]
  exact ⟨[], 0, quiet, _, rfl, rfl, rfl⟩

/-- They share none when the smaller one takes up the connection of the other at once. -/
theorem crossing_may_disagree : ¬ ∀ (encounter : Encounter) (a b : Host) (s t : Session),
    a.id ≠ b.id → s.ledger.peer = b.id → t.ledger.peer = a.id →
    ∀ life other : List Occurrence, s.CrossesIn a encounter.here life →
    t.CrossesIn b encounter.there other → (s.live a life).Shares (t.live b other) := by
  intro agree
  obtain ⟨link, other, linked, met, same⟩ := agree both aliceService.host bobHost aliceReaching
    bobReaching (by decide) rfl rfl _ _ alice_at_once bob_at_once
  cases linked
  cases met
  cases same

end Encounter

end Courier
