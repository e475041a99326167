import Courier.Proofs.Receiving

/-!
# What a session hears

A turn of a session hears from its peer in two ways. It may take up a greeting of another
incarnation than the one last seen, and then it forgets what it received; or it may read the
envelope in front of its buffer. Every other turn leaves what was received alone and tells the
application nothing that comes from the peer. The bindings are left alone as well, apart from
those that are released.
-/

namespace Courier

/-- The envelope that a session is to read next, with the bytes behind it. -/
def Session.front? (s : Session) : Option (Envelope × ByteArray) :=
  if s.stage = .reading then
    s.link.bind fun link =>
      match Frame.next? link.buffer with
      | .ok front => front
      | .error _ => none
  else none

/-- Whether an effect tells the application something that came from the peer: a message, a
reply, or a restart. -/
def Effect.isNews : Effect → Bool
  | .tell (.message _) | .tell (.settled _ (.ok _)) | .tell (.restarted _) => true
  | _ => false

/-- What a turn hears from the peer. The application is at work on a message afterwards only
if that was read, or if nothing happened at all. -/
inductive Heard (s : Session) : Event → Session → List Effect → Prop where
  | nothing (event : Event) (after : Session) (effects : List Effect)
      (received : after.ledger.window.received = s.ledger.window.received)
      (passed : after.ledger.tally.messagesReceived = s.ledger.tally.messagesReceived)
      (untold : ∀ effect ∈ effects, effect.isNews = false)
      (still : after = s ∨ ∀ replyTo, after.stage ≠ .handling replyTo) :
      Heard s event after effects
  | renewed (event : Event) (after : Session) (effects : List Effect) (endpoint : Endpoint)
      (known incarnation : Incarnation) (was : s.ledger.incarnation = some known)
      (changed : known ≠ incarnation) (seen : after.ledger.incarnation = some incarnation)
      (received : after.ledger.window.received = 0)
      (passed : after.ledger.tally.messagesReceived = s.ledger.tally.messagesReceived)
      (untold : ∀ effect ∈ effects, effect.isNews = false)
      (stage : after.stage = .greeting) :
      Heard s event after (effects ++ [.opened endpoint, .tell (.restarted incarnation)])
  | read (link : Link) (e : Envelope) (rest : ByteArray) (after : Session)
      (effects : List Effect) (held : s.link = some link) (front : s.front? = some (e, rest))
      (took : Took e { s with link := some { link with buffer := rest } } after effects) :
      Heard s .proceed after effects

/-- An envelope is in front only while the session reads, and it is the first in the buffer of the
connection held. -/
theorem Session.front?_reading (s : Session) (e : Envelope) (rest : ByteArray)
    (front : s.front? = some (e, rest)) : s.stage = .reading ∧
      ∃ link, s.link = some link ∧ Frame.next? link.buffer = .ok (some (e, rest)) := by
  unfold front? at front
  split at front
  · next reading =>
    obtain ⟨link, held, complete⟩ := Option.bind_eq_some_iff.mp front
    refine ⟨reading, link, held, ?_⟩
    split at complete
    · next front next => rw [next, complete]
    · cases complete
  · cases front

/-- A complete envelope in the buffer of a session that reads is in front. -/
theorem Session.front?_of_complete (s : Session) (link : Link) (e : Envelope)
    (rest : ByteArray) (reading : s.stage = .reading) (held : s.link = some link)
    (complete : Frame.next? link.buffer = .ok (some (e, rest))) :
    s.front? = some (e, rest) := by
  simp [front?, reading, held, complete]

/-- Two ledgers between which nothing was heard. -/
structure Ledger.Deaf (l after : Ledger) : Prop where
  received : after.window.received = l.window.received := by rfl
  passed : after.tally.messagesReceived = l.tally.messagesReceived := by rfl
  bindings : after.bindings = l.bindings := by rfl

/-- Hearing nothing twice is hearing nothing. -/
theorem Ledger.Deaf.trans {l middle after : Ledger} (first : l.Deaf middle)
    (second : middle.Deaf after) : l.Deaf after :=
  ⟨second.received.trans first.received, second.passed.trans first.passed,
    second.bindings.trans first.bindings⟩

/-- Queueing a reply is hearing nothing. -/
theorem Ledger.enqueueReply_deaf (l queued : Ledger) (replyTo : Nat) (payload : List UInt8)
    (now : Duration) (accepted : l.enqueueReply replyTo payload now = .ok queued) :
    l.Deaf queued := by
  obtain ⟨_, evicted, _, _, rfl, rfl⟩ := l.enqueueReply_eq queued replyTo payload now accepted
  refine { passed := ?_ }
  cases evicted <;> rfl

/-- Heeding the acknowledgement of an envelope is hearing nothing: no message is counted and no
binding is touched. -/
theorem Ledger.heeding_deaf (l : Ledger) (e : Envelope) : l.Deaf (l.heeding e) := by
  obtain ⟨_, _, same⟩ := l.heeding_eq e
  rw [same]
  exact ⟨rfl, rfl, rfl⟩

/-- Losing the connection is hearing nothing. -/
theorem Session.bereft_deaf (s : Session) (due : Nat) : s.ledger.Deaf (s.bereft due).ledger := by
  obtain ⟨_, _, same⟩ := s.bereft_eq due
  rw [same]
  exact ⟨rfl, rfl, rfl⟩

/-- Leaving the connected phase is hearing nothing. -/
theorem Session.vacated_deaf (s : Session) : s.ledger.Deaf s.vacated.ledger := by
  refine { passed := ?_ }
  unfold vacated
  cases s.link <;> rfl

/-- A flush hears nothing. -/
theorem Flushed.deaf {s after : Session} {effects : List Effect}
    (flushed : Flushed s after effects) : s.ledger.Deaf after.ledger := by
  cases flushed <;> exact ⟨rfl, rfl, rfl⟩

/-- A new connection leaves alone what the application was told, and the bindings. -/
theorem Ledger.onConnected_told (l : Ledger) (own : Incarnation) (hello : Hello) (now : Duration) :
    (l.onConnected own hello now).tally.messagesReceived = l.tally.messagesReceived ∧
      (l.onConnected own hello now).bindings = l.bindings := by
  obtain ⟨_, _, _, _, same⟩ := l.onConnected_eq own hello now
  rw [same]
  exact ⟨rfl, rfl⟩

/-- Adopting a connection counts no message and touches no binding. It may forget what was received,
if the peer restarted. -/
theorem Session.joined_told (host : Host) (now : Nat) (greeted : Greeted) (s : Session) :
    (s.joined host now greeted).ledger.tally.messagesReceived =
        s.ledger.tally.messagesReceived ∧
      (s.joined host now greeted).ledger.bindings = s.ledger.bindings := by
  obtain ⟨told, bindings⟩ := ({ s.ledger with phase := .connected }.count
    (if s.link.isSome then Tally.duplicate else id)).onConnected_told host.incarnation
    greeted.hello (.ofMillis now)
  refine ⟨told.trans ?_, bindings⟩
  cases s.link <;> rfl

/-- A flush brings no news of the peer. -/
theorem Flushed.untold {s after : Session} {effects : List Effect}
    (flushed : Flushed s after effects) : ∀ effect ∈ effects, effect.isNews = false := by
  cases flushed with
  | nothing => exact nofun
  | written link => exact Session.forall_writings _ _ rfl

/-- What a session asks for as it parts brings no news of the peer. -/
theorem untold_of_parting {effects : List Effect}
    (parting : ∀ effect ∈ effects, effect.isParting = true) :
    ∀ effect ∈ effects, effect.isNews = false :=
  Effect.forall_of_parting parting (fun _ => rfl) rfl

/-- A greeted connection is heard when the peer turns out to have restarted. Otherwise the number
received stays, whether the connection is adopted or hung up. -/
theorem Adopted.heard {host : Host} {now : Nat} {greeted : Greeted} {event : Event}
    {s t after : Session} {effects : List Effect}
    (adopted : Adopted host now greeted t after effects) (same : t.ledger = s.ledger)
    (idle : t.stage = .idle) : Heard s event after effects := by
  cases adopted with
  | refused =>
    refine .nothing event _ _ (by rw [← same]; rfl) ?_ (List.forall_mem_singleton.mpr rfl) ?_
    · rw [← same]
      cases t.link <;> rfl
    · refine .inr fun replyTo => ?_
      change t.stage ≠ _
      rw [idle]
      exact nofun
  | joined =>
    obtain ⟨seen, received⟩ := t.joined_seen host now greeted
    have passed := (t.joined_told host now greeted).1
    have silent : ∀ effect ∈ (if t.dial.isSome then [Effect.cancelDial] else []) ++
        t.link.toList.map (fun link => Effect.hangUp link.endpoint), effect.isNews = false := by
      refine List.forall_mem_append.mpr ⟨?_, ?_⟩
      · split
        · exact List.forall_mem_singleton.mpr rfl
        · exact nofun
      · intro effect listed
        obtain ⟨_, _, rfl⟩ := List.mem_map.mp listed
        rfl
    rw [same] at passed
    unfold Session.joinings
    by_cases restarted : Incarnation.restarted t.ledger.incarnation greeted.hello.incarnation
    · rw [if_pos restarted] at received ⊢
      rw [List.append_assoc]
      cases known : t.ledger.incarnation with
      | none =>
        rw [known] at restarted
        cases restarted
      | some previous =>
        rw [known] at restarted
        exact .renewed event _ _ greeted.endpoint previous _ (same ▸ known)
          (of_decide_eq_true restarted) seen received passed silent rfl
    · rw [if_neg restarted] at received ⊢
      rw [List.append_nil]
      refine .nothing event _ _ (same ▸ received) passed ?_ (.inr nofun)
      exact List.forall_mem_append.mpr ⟨silent, List.forall_mem_singleton.mpr rfl⟩

/-- Adopting a connection touches no binding. -/
theorem Adopted.bindings {host : Host} {now : Nat} {greeted : Greeted} {s after : Session}
    {effects : List Effect} (adopted : Adopted host now greeted s after effects) :
    after.ledger.bindings = s.ledger.bindings := by
  cases adopted with
  | refused => rfl
  | joined => exact (s.joined_told host now greeted).2

/-- Every turn hears one of these things. There is one case for each kind of turn: only reading
takes up an envelope, and only adopting a connection takes up a greeting. -/
theorem Turned.heard {host : Host} {now : Nat} {event : Event} {s after : Session}
    {effects : List Effect} (turned : Turned host now s event after effects) :
    Heard s event after effects := by
  have deaf (after : Session) (effects : List Effect) (stage : Stage)
      (deaf : s.ledger.Deaf after.ledger) (enters : after.stage = stage)
      (free : ∀ replyTo, stage ≠ .handling replyTo)
      (untold : ∀ effect ∈ effects, effect.isNews = false) : Heard s event after effects :=
    .nothing event after effects deaf.received deaf.passed untold (.inr (enters ▸ free))
  have one (effect : Effect) (silent : effect.isNews = false) :
      ∀ e ∈ [effect], e.isNews = false := List.forall_mem_singleton.mpr silent
  have parting := untold_of_parting s.partings_part
  cases turned with
  | still => exact .nothing _ _ _ rfl rfl nofun (.inl rfl)
  | attach greeted rest after effects idle next adopted => exact adopted.heard rfl idle
  | dialed greeted after effects idle dialing adopted => exact adopted.heard rfl idle
  | reconnect rest idle next =>
    refine deaf _ _ .idle ?_ idle nofun (List.forall_mem_append.mpr ⟨parting, one _ rfl⟩)
    exact ({ s with commands := rest } : Session).vacated_deaf.trans ⟨rfl, rfl, rfl⟩
  | close rest idle next =>
    exact deaf _ _ .idle { s with commands := rest }.vacated_deaf idle nofun parting
  | shutdown rest effects idle next parts =>
    exact deaf _ _ .ended (s.vacated_deaf.trans ⟨rfl, rfl, rfl⟩) rfl nofun (untold_of_parting parts)
  | wakeFlush after effects idle woken phase flushed =>
    exact deaf _ _ .idle flushed.deaf (flushed.stage.trans idle) nofun flushed.untold
  | greeted after effects stage flushed =>
    exact deaf _ _ .reading flushed.deaf rfl nofun flushed.untold
  | replied replyTo payload ledger after effects stage queued flushed =>
    exact deaf _ _ .reading ((s.ledger.enqueueReply_deaf _ _ _ _ queued).trans flushed.deaf)
      flushed.stage nofun flushed.untold
  | ackWritten link idle due held owed =>
    exact deaf _ _ .idle ⟨rfl, rfl, rfl⟩ idle nofun (Session.forall_writings _ _ rfl)
  | lost link due idle held =>
    exact deaf _ _ .idle (s.bereft_deaf due) ((s.bereft_stage due).trans idle) nofun (one _ rfl)
  | readBroken link error due stage held broken =>
    exact deaf _ _ .idle (s.bereft_deaf due) rfl nofun (one _ rfl)
  | read link e rest after effects stage held complete took =>
    exact .read link e rest after effects held
      (s.front?_of_complete link e rest stage held complete) took
  | dialGiveUp error idle =>
    have untold := s.forall_rejections (P := fun effect => effect.isNews = false) (fun _ => rfl) rfl
    exact .nothing _ _ _ rfl rfl untold (.inr (idle ▸ nofun))
  | received => exact deaf _ _ .reading ⟨rfl, rfl, rfl⟩ rfl nofun nofun
  | silent => exact deaf _ _ .reading ⟨rfl, rfl, rfl⟩ rfl nofun nofun
  | readNothing => exact deaf _ _ .idle ⟨rfl, rfl, rfl⟩ rfl nofun nofun
  | readAll => exact deaf _ _ .idle ⟨rfl, rfl, rfl⟩ rfl nofun nofun
  | resetDial _ idle | wakeDial idle | elapsedDial idle =>
    exact deaf _ _ .idle ⟨rfl, rfl, rfl⟩ idle nofun (one _ rfl)
  | resetNothing _ idle | wakeNothing idle | dialStale _ idle | dialRetry _ _ idle
  | elapsedNothing idle | ackNothing idle | lostNothing idle =>
    exact deaf _ _ .idle ⟨rfl, rfl, rfl⟩ idle nofun nofun

/-- The envelope in front is what the next turn reads. -/
theorem Turn.handle_front (host : Host) (now : Nat) (t : Turn) (link : Link) (e : Envelope)
    (rest : ByteArray) (held : t.session.link = some link)
    (front : t.session.front? = some (e, rest)) :
    t.Goes (t.handle host now .proceed)
      (Took e { t.session with link := some { link with buffer := rest } }) := by
  obtain ⟨stage, live, holds, complete⟩ := t.session.front?_reading e rest front
  cases held.symm.trans holds
  have taken : t.handle host now .proceed =
      (t.amend ({ · with link := some { link with buffer := rest } })).receiveEnvelope e := by
    simp only [handle, stage, proceed, readFrame, held, complete]
  rw [taken]
  exact receiveEnvelope_goes e _

/-- A binding is released, never made, by a turn. -/
theorem Turned.bindings {host : Host} {now : Nat} {event : Event} {s after : Session}
    {effects : List Effect} (turned : Turned host now s event after effects) :
    ∀ binding ∈ after.ledger.bindings, binding ∈ s.ledger.bindings := by
  have same (others : List (Nat × PromiseId)) (equal : others = s.ledger.bindings) :
      ∀ binding ∈ others, binding ∈ s.ledger.bindings := fun _ => equal ▸ id
  cases turned with
  | attach greeted rest after effects idle next adopted =>
    exact same _ adopted.bindings
  | dialed greeted after effects idle dialing adopted =>
    exact same _ adopted.bindings
  | reconnect rest idle next => exact same _ { s with commands := rest }.vacated_deaf.bindings
  | close rest idle next => exact same _ { s with commands := rest }.vacated_deaf.bindings
  | shutdown => exact same _ s.vacated_deaf.bindings
  | wakeFlush after effects idle woken phase flushed => exact same _ flushed.deaf.bindings
  | greeted after effects stage flushed => exact same _ flushed.deaf.bindings
  | replied replyTo payload ledger after effects stage queued flushed =>
    exact same _ ((s.ledger.enqueueReply_deaf _ _ _ _ queued).trans flushed.deaf).bindings
  | lost link due => exact same _ (s.bereft_deaf due).bindings
  | readBroken link error due => exact same _ (s.bereft_deaf due).bindings
  | dialGiveUp => exact nofun
  | read link e rest after effects stage held complete took =>
    have heeded : (s.ledger.heeding e).bindings = s.ledger.bindings :=
      (s.ledger.heeding_deaf e).bindings
    cases took with
    | settled payload replyTo promise taken body new bound =>
      obtain ⟨found, _, released⟩ := Option.map_eq_some_iff.mp bound
      cases released
      exact fun binding listed => (List.mem_filter.mp listed).1
    | _ => exact same _ heeded
  | _ => exact same _ rfl

/-- The command that an occurrence leaves for a session. -/
def Occurrence.commands : Occurrence → List Command
  | .reconnect _ => [.reconnect]
  | .close => [.close]
  | .resetBackoff => [.resetBackoff]
  | .attach greeted => [.attach greeted]
  | .shutdown => [.shutdown]
  | _ => []

/-- A session that hears nothing and queues nothing, and begins nothing either. -/
structure Session.Spared (s : Session) (commands : List Command) (after : Session) : Prop where
  outbox : after.ledger.outbox = s.ledger.outbox := by rfl
  window : after.ledger.window = s.ledger.window := by rfl
  incarnation : after.ledger.incarnation = s.ledger.incarnation := by rfl
  bindings : after.ledger.bindings = s.ledger.bindings := by rfl
  nextBinding : after.ledger.nextBinding = s.ledger.nextBinding := by rfl
  passed : after.ledger.tally.messagesReceived = s.ledger.tally.messagesReceived := by rfl
  link : after.link = none ∨ after.link = s.link := by exact .inr rfl
  dial : after.dial = none ∨ after.dial = s.dial := by exact .inr rfl
  stage : after.stage = s.stage ∨ after.stage = .ended := by exact .inl rfl
  ackDue : after.ackDue = s.ackDue ∨ after.stage = .ended := by exact .inl rfl
  commands : List.Sublist after.commands (s.commands ++ commands)

/-- What an occurrence is for the messages: it spares them, or a letter is queued, or it is a
turn. A letter that spares them was refused. -/
inductive Undergone (host : Host) (s : Session) : Occurrence → Session → Prop where
  | spared (occurrence : Occurrence) (after : Session)
      (spared : s.Spared occurrence.commands after)
      (refused : ∀ letter now, occurrence = .post letter now →
        ∃ error, s.post letter now = .error error)
      (called : ∀ now random event, occurrence ≠ .turn now random event) :
      Undergone host s occurrence after
  | posted (letter : Letter) (now : Duration) (queued : Ledger)
      (accepted : s.ledger.enqueueLetter letter now = .ok queued)
      (posted : s.post letter now = .ok { s with ledger := queued, woken := true }) :
      Undergone host s (.post letter now) { s with ledger := queued, woken := true }
  | turned (now : Nat) (random : Random.Stream) (event : Event) :
      Undergone host s (.turn now random event) (s.undergo host (.turn now random event))

/-- Whether an occurrence neither queues a letter nor is a turn. -/
def Occurrence.isAside : Occurrence → Bool
  | .post _ _ | .turn _ _ _ => false
  | _ => true

/-- What spares a session and is neither a letter nor a turn is one of the things that an occurrence
may be for the messages. -/
theorem Undergone.aside {host : Host} {s after : Session} {occurrence : Occurrence}
    (spared : s.Spared occurrence.commands after) (aside : occurrence.isAside = true) :
    Undergone host s occurrence after := by
  refine .spared occurrence after spared ?_ ?_
  · rintro letter now rfl
    cases aside
  · rintro now random event rfl
    cases aside

/-- A session is spared still when a command is queued for it. -/
theorem Session.Spared.pushed {s t : Session} (spared : s.Spared [] t) (command : Command) :
    s.Spared [command] (t.push command) := by
  have listed := spared.commands
  rw [List.append_nil] at listed
  obtain ⟨commands, same, kept | added⟩ := t.push_eq command
  · rw [same, kept]
    exact { spared with commands := listed.trans (List.sublist_append_left _ _) }
  · rw [same, added]
    exact { spared with commands := listed.append_right _ }

/-- What an occurrence is for the messages. There is one case for each kind of occurrence: a call
leaves a command and spares the messages, a letter is queued or refused, and a turn hears what it
hears. -/
theorem Session.undergone (host : Host) (s : Session) (occurrence : Occurrence) :
    Undergone host s occurrence (s.undergo host occurrence) := by
  have kept : List.Sublist s.commands (s.commands ++ []) := List.sublist_append_left _ _
  cases occurrence with
  | post letter now =>
    cases posted : s.post letter now with
    | error refusal =>
      have same : s.undergo host (.post letter now) = s := by simp [undergo, posted]
      rw [same]
      refine .spared _ _ { commands := kept } ?_ ?_
      · rintro _ _ ⟨⟩
        exact ⟨refusal, posted⟩
      · rintro _ _ _ ⟨⟩
    | ok after =>
      obtain ⟨queued, accepted, rfl⟩ := s.post_eq letter now after posted
      have same : s.undergo host (.post letter now) =
          { s with ledger := queued, woken := true } := by simp [undergo, posted]
      rw [same]
      exact .posted letter now queued accepted posted
  | addHints hints =>
    obtain ⟨hinted, same⟩ := s.ledger.addHints_eq hints
    simp only [undergo, addHints, same]
    exact .aside { commands := kept } rfl
  | reconnect hints =>
    obtain ⟨hinted, same⟩ := s.reconnect_eq hints
    rw [undergo, same]
    refine .aside (Spared.pushed ?_ .reconnect) rfl
    exact { commands := kept }
  | close =>
    rw [undergo, close_eq]
    refine .aside (Spared.pushed ?_ .close) rfl
    exact { commands := kept }
  | resetBackoff =>
    refine .aside (Spared.pushed ?_ .resetBackoff) rfl
    exact { commands := kept }
  | attach greeted => exact .aside (Spared.pushed { commands := kept } _) rfl
  | shutdown => exact .aside (Spared.pushed { commands := kept } .shutdown) rfl
  | wrote bytes => exact .aside { commands := kept } rfl
  | turn now random event => exact .turned now random event
  | abort random =>
    rw [undergo_abort]
    refine .aside ?_ rfl
    exact {
      passed := s.vacated_deaf.passed
      link := .inl rfl
      dial := .inl rfl
      stage := .inr rfl
      ackDue := .inr rfl
      commands := List.nil_sublist _ }

/-- Only a turn hears anything. -/
theorem Session.undergo_called (host : Host) (s : Session) (occurrence : Occurrence)
    (called : ∀ now random event, occurrence ≠ .turn now random event) :
    (s.undergo host occurrence).ledger.window.received = s.ledger.window.received ∧
      (s.undergo host occurrence).ledger.incarnation = s.ledger.incarnation := by
  have undergone := s.undergone host occurrence
  generalize s.undergo host occurrence = after at undergone ⊢
  cases undergone with
  | spared _ _ spared => exact ⟨by rw [spared.window], spared.incarnation⟩
  | posted letter now queued accepted =>
    obtain ⟨_, _, _, _, _, rfl⟩ := s.ledger.enqueueLetter_eq queued letter now accepted
    exact ⟨rfl, rfl⟩
  | turned now random event => exact absurd rfl (called now random event)

end Courier
