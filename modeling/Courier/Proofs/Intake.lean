import Courier.Proofs.Delivery
import Courier.Proofs.Hearing

/-!
# Every message is taken in at most once

What a session takes in since its peer last restarted is followed through a life in which the
peer may write anything: envelopes again, out of order, with numbers left out, with methods
that are not known and with parameters that do not fit, on any number of connections. The
numbers of the parcels that are let through to the application or to the bindings increase,
and the number counted as received is the largest of those that count. A parcel that comes
again is dropped, apart from the acknowledgement that its envelope carries, which is heeded
like that of every envelope.
-/

namespace Courier

open Ledger

/-- The number that an envelope counts as received under: that of a well-formed parcel, or of
an envelope whose method is not known. -/
def Envelope.counted? (e : Envelope) : Option Nat :=
  match e.body with
  | .ok none | .ok (some (.parcel _)) => some e.seq
  | _ => none

/-- An envelope that was taken in, and whether its body was counted as a new message, which is
when a message reaches the application and a reply reaches the bindings. -/
structure Intake where
  envelope : Envelope
  passed : Bool

/-- Whether an effect hands the application a message, or the reply to one of its own. -/
def Effect.isHanding : Effect → Bool
  | .tell (.message _) | .tell (.settled _ (.ok _)) => true
  | _ => false

/-- Whether an effect reports that the peer restarted. -/
def Effect.isRestart : Effect → Bool
  | .tell (.restarted _) => true
  | _ => false

/-- What becomes of a parcel that is new: a message is for the application, and a reply settles
the promise that it names, if that waits. -/
def Ledger.passes (l : Ledger) : Parcel → List Effect
  | .message payload _ => [.tell (.message payload)]
  | .reply replyTo payload =>
    ((l.takeBinding replyTo).map fun taken =>
      Effect.tell (.settled taken.1 (.ok payload))).toList

/-- An acknowledgement that is heeded leaves the tally alone. -/
theorem Ledger.heeding_tally (l : Ledger) (e : Envelope) : (l.heeding e).tally = l.tally := by
  obtain ⟨_, _, same⟩ := l.heeding_eq e
  rw [same]

/-- The envelope of a message carries the numbers of the message. -/
theorem Dispatch.envelope_numbers (d : Dispatch) :
    d.envelope.seq = d.seq ∧ d.envelope.ack = d.ack := ⟨rfl, rfl⟩

namespace Session

/-- What an occurrence makes a session ask of its surroundings. -/
def asked (host : Host) (s : Session) : Occurrence → List Effect
  | .turn now random event => (Turn.handle host now ⟨s, random, []⟩ event).effects
  | .abort random => (Turn.release ⟨s, random, []⟩).effects
  | _ => []

/-- What an occurrence makes a session take in. -/
def intake? (host : Host) (s : Session) (occurrence : Occurrence) : Option Intake :=
  match occurrence with
  | .turn _ _ .proceed =>
    s.front?.map fun front => ⟨front.1, s.ledger.tally.messagesReceived <
      (s.undergo host occurrence).ledger.tally.messagesReceived⟩
  | _ => none

/-- What a session takes in during a life since its peer last restarted, behind what it had
taken in before. -/
def recent (host : Host) (s : Session) (seen : List Intake) : List Occurrence → List Intake
  | [] => seen
  | occurrence :: rest =>
    (s.undergo host occurrence).recent host
      (if (s.asked host occurrence).any Effect.isRestart then []
        else seen ++ (s.intake? host occurrence).toList) rest

end Session

/-- What was taken in since the peer last restarted agrees with the number received. -/
structure Accords (seen : List Intake) (received : Nat) : Prop where
  ordered : ((seen.filter (·.passed)).map (·.envelope.seq)).Pairwise (· < ·)
  counted : received = (seen.filterMap (·.envelope.counted?)).foldl max 0
  below : ∀ intake ∈ seen, intake.passed = true → intake.envelope.seq ≤ received

/-- At the beginning nothing was taken in, and nothing counts as received. -/
theorem Accords.none : Accords [] 0 := ⟨.nil, rfl, nofun⟩

/-- One more envelope is taken in. A parcel passes only with a number above all before it. -/
theorem Accords.take {seen : List Intake} {received after : Nat} (accords : Accords seen received)
    (e : Envelope) (passed : Bool)
    (counted : after = (e.counted?.elim received (max received)))
    (new : passed = true → received < e.seq ∧ after = e.seq) :
    Accords (seen ++ [⟨e, passed⟩]) after := by
  have grown : received ≤ after := by
    rw [counted]
    cases e.counted? with
    | none => exact Nat.le_refl _
    | some n => exact Nat.le_max_left _ _
  refine ⟨?_, ?_, ?_⟩
  · cases passed with
    | false => simpa using accords.ordered
    | true =>
      -- A parcel passes only above the number received, and all that passed are below it.
      rw [List.filter_append, List.map_append, List.pairwise_append]
      refine ⟨accords.ordered, List.pairwise_singleton _ _, ?_⟩
      intro m before n last
      rw [List.mem_singleton.mp last]
      obtain ⟨intake, listed, rfl⟩ := List.mem_map.mp before
      obtain ⟨old, through⟩ := List.mem_filter.mp listed
      exact Nat.lt_of_le_of_lt (accords.below intake old through) (new rfl).1
  · rw [counted, List.filterMap_append, List.foldl_append, ← accords.counted]
    cases number : e.counted? <;> simp [number]
  · intro intake listed through
    rcases List.mem_append.mp listed with old | last
    · exact Nat.le_trans (accords.below intake old through) grown
    · rw [List.mem_singleton.mp last] at through ⊢
      exact Nat.le_of_eq (new through).2.symm

/-- What taking in an envelope makes of the numbers, and what it asks for. -/
structure Tells (e : Envelope) (l after : Ledger) (effects : List Effect) : Prop where
  counted : after.window.received = e.counted?.elim l.window.received (max l.window.received)
  passed : (∃ parcel, e.body = .ok (some (.parcel parcel)) ∧ l.window.received < e.seq ∧
      after.tally.messagesReceived = l.tally.messagesReceived + 1 ∧
      effects = l.passes parcel) ∨
    after.tally.messagesReceived = l.tally.messagesReceived ∧ effects = []

/-- What taking in an envelope makes of the numbers is what the number of the envelope and its body
call for. There is one case for each way in which a body is read: not at all, as an unknown method,
as a greeting, as a bare acknowledgement, as a parcel that is new, and as one that comes again. -/
theorem Took.tells {e : Envelope} {s after : Session} {effects : List Effect}
    (took : Took e s after effects) : Tells e s.ledger after.ledger effects := by
  obtain ⟨received, passed, bindings⟩ := s.ledger.heeding_deaf e
  have counts : ((s.ledger.heeding e).window.receive e.seq).2.received =
      max s.ledger.window.received e.seq := by
    rw [Window.receive_received, received]
  have nothing (after : Ledger) (known : e.counted? = none)
      (same : after.window.received = s.ledger.window.received)
      (tally : after.tally = (s.ledger.heeding e).tally) : Tells e s.ledger after [] :=
    ⟨by rw [known]; exact same, .inr ⟨by rw [tally, passed], rfl⟩⟩
  have again : (s.ledger.heeding e).tally.receivedAgain.messagesReceived =
      s.ledger.tally.messagesReceived := passed
  have once : (s.ledger.heeding e).tally.received.messagesReceived =
      s.ledger.tally.messagesReceived + 1 := congrArg (· + 1) passed
  cases took with
  | malformed error body => exact nothing _ (by simp [Envelope.counted?, body]) received rfl
  | greeting hello body => exact nothing _ (by simp [Envelope.counted?, body]) received rfl
  | ack body => exact nothing _ (by simp [Envelope.counted?, body]) received rfl
  | unnumbered body zero =>
    refine ⟨?_, .inr ⟨passed, rfl⟩⟩
    simpa [Envelope.counted?, body, zero] using received
  | unknown body numbered =>
    refine ⟨?_, .inr ⟨passed, rfl⟩⟩
    simpa [Envelope.counted?, body] using counts
  | again parcel body old =>
    refine ⟨?_, .inr ⟨again, rfl⟩⟩
    simpa [Envelope.counted?, body] using counts
  | message payload replyTo body new =>
    refine ⟨?_, .inl ⟨_, body, new, once, rfl⟩⟩
    simpa [Envelope.counted?, body] using counts
  | reply payload replyTo body new unbound =>
    refine ⟨?_, .inl ⟨_, body, new, once, by simp [passes, unbound]⟩⟩
    simpa [Envelope.counted?, body] using counts
  | settled payload replyTo promise taken body new bound =>
    refine ⟨?_, .inl ⟨_, body, new, once, by simp [passes, bound]⟩⟩
    simpa [Envelope.counted?, body] using counts

/-- What an occurrence takes in, and what it makes of the number received. -/
inductive Absorbed (l : Ledger) : Option Intake → Ledger → List Effect → Prop where
  | nothing (after : Ledger) (effects : List Effect)
      (received : after.window.received = l.window.received)
      (untold : ∀ effect ∈ effects, effect.isNews = false) : Absorbed l none after effects
  | renewed (after : Ledger) (effects : List Effect) (received : after.window.received = 0)
      (restarts : effects.any Effect.isRestart = true)
      (unhanded : ∀ effect ∈ effects, effect.isHanding = false) : Absorbed l none after effects
  | taken (e : Envelope) (after : Ledger) (effects : List Effect)
      (tells : Tells e l after effects) :
      Absorbed l (some ⟨e, l.tally.messagesReceived < after.tally.messagesReceived⟩) after effects

/-- An effect that brings no news of the peer hands nothing out and reports no restart. -/
theorem Effect.isHanding_of_isNews (effect : Effect) (untold : effect.isNews = false) :
    effect.isHanding = false ∧ effect.isRestart = false := by
  unfold isNews at untold
  unfold isHanding isRestart
  split at untold
  · cases untold
  · cases untold
  · cases untold
  · next none => constructor <;> split <;> simp_all

/-- What a turn takes in is the envelope in front. -/
theorem Session.intake?_front (host : Host) (s : Session) (now : Nat) (random : Random.Stream)
    (e : Envelope) (rest : ByteArray) (front : s.front? = some (e, rest)) :
    s.intake? host (.turn now random .proceed) = some ⟨e, s.ledger.tally.messagesReceived <
      (s.undergo host (.turn now random .proceed)).ledger.tally.messagesReceived⟩ := by
  simp [intake?, front]

/-- A turn that has nothing to read takes in nothing. -/
theorem Session.intake?_unread (host : Host) (s : Session) (now : Nat) (random : Random.Stream)
    (event : Event) (unread : event = .proceed → s.front? = none) :
    s.intake? host (.turn now random event) = none := by
  cases event with
  | proceed => simp [intake?, unread rfl]
  | _ => rfl

/-- What a turn takes in: the envelope in front, or nothing. -/
inductive Session.Takes (host : Host) (s : Session) (now : Nat) (random : Random.Stream) :
    Event → Prop where
  | nothing (event : Event) (unread : event = .proceed → s.front? = none)
    (silent : s.intake? host (.turn now random event) = none)
    (turned : Turned host now s event (s.undergo host (.turn now random event))
      (s.asked host (.turn now random event))) : Takes host s now random event
  | front (e : Envelope) (rest : ByteArray) (link : Link) (front : s.front? = some (e, rest))
    (reading : s.stage = .reading) (held : s.link = some link)
    (complete : Frame.next? link.buffer = .ok (some (e, rest)))
    (taken : s.intake? host (.turn now random .proceed) =
      some ⟨e, s.ledger.tally.messagesReceived <
        (s.undergo host (.turn now random .proceed)).ledger.tally.messagesReceived⟩)
    (took : Took e { s with link := some { link with buffer := rest } }
      (s.undergo host (.turn now random .proceed)) (s.asked host (.turn now random .proceed))) :
    Takes host s now random .proceed

/-- A turn takes in the envelope in front, if there is one and the turn goes on reading, or it takes
in nothing. -/
theorem Session.takes (host : Host) (s : Session) (now : Nat) (random : Random.Stream)
    (event : Event) : s.Takes host now random event := by
  by_cases unread : event = .proceed → s.front? = none
  · obtain ⟨effects, asked, turned⟩ := Turn.handle_goes host now ⟨s, random, []⟩ event
    have asked : s.asked host (.turn now random event) = effects := asked
    exact .nothing event unread (s.intake?_unread host now random event unread)
      (asked ▸ turned)
  · obtain ⟨rfl, full⟩ := Classical.not_imp.mp unread
    obtain ⟨⟨e, rest⟩, front⟩ := Option.ne_none_iff_exists'.mp full
    obtain ⟨reading, link, held, complete⟩ := s.front?_reading e rest front
    obtain ⟨effects, asked, took⟩ :=
      Turn.handle_front host now ⟨s, random, []⟩ link e rest held front
    have asked : s.asked host (.turn now random .proceed) = effects := asked
    exact .front e rest link front reading held complete
      (s.intake?_front host now random e rest front) (asked ▸ took)

/-- A turn that does not read the envelope in front takes in nothing: it hears nothing, or it
forgets what it received. -/
theorem Heard.unread {s after : Session} {event : Event} {effects : List Effect}
    (heard : Heard s event after effects) (unread : event = .proceed → s.front? = none) :
    Absorbed s.ledger none after.ledger effects := by
  cases heard with
  | nothing _ _ _ received passed untold => exact .nothing _ _ received untold
  | renewed _ _ before endpoint known incarnation was changed seen received passed untold =>
    refine .renewed _ _ received ?_ ?_
    · simp [Effect.isRestart]
    · refine List.forall_mem_append.mpr ⟨?_, ?_⟩
      · exact fun effect listed => (effect.isHanding_of_isNews (untold effect listed)).1
      · exact List.forall_mem_cons.mpr ⟨rfl, List.forall_mem_singleton.mpr rfl⟩
  | read link e rest _ _ held front => cases (unread rfl).symm.trans front

/-- Each occurrence takes in what it reads, and the number received follows from that. -/
theorem Session.absorbed (host : Host) (s : Session) (occurrence : Occurrence) :
    Absorbed s.ledger (s.intake? host occurrence) (s.undergo host occurrence).ledger
      (s.asked host occurrence) := by
  cases occurrence with
  | turn now random event =>
    cases s.takes host now random event with
    | nothing _ unread silent turned => exact silent ▸ turned.heard.unread unread
    | front e rest link front reading held complete taken took =>
      rw [taken]
      exact .taken e _ _ took.tells
  | abort random =>
    obtain ⟨effects, asked, parting, _⟩ := Turn.release_goes ⟨s, random, []⟩
    have asked : s.asked host (.abort random) = effects := asked
    rw [asked]
    exact .nothing _ _ (s.undergo_called host (.abort random) nofun).1 (untold_of_parting parting)
  | post letter now => exact .nothing _ _ (s.undergo_called host (.post letter now) nofun).1 nofun
  | addHints hints => exact .nothing _ _ (s.undergo_called host (.addHints hints) nofun).1 nofun
  | reconnect hints => exact .nothing _ _ (s.undergo_called host (.reconnect hints) nofun).1 nofun
  | close => exact .nothing _ _ (s.undergo_called host .close nofun).1 nofun
  | resetBackoff => exact .nothing _ _ (s.undergo_called host .resetBackoff nofun).1 nofun
  | attach greeted => exact .nothing _ _ (s.undergo_called host (.attach greeted) nofun).1 nofun
  | shutdown => exact .nothing _ _ (s.undergo_called host .shutdown nofun).1 nofun
  | wrote bytes => exact .nothing _ _ (s.undergo_called host (.wrote bytes) nofun).1 nofun

/-- Only a parcel that passes is handed on, and then nothing else is asked for. -/
theorem Absorbed.hands {l after : Ledger} {intake? : Option Intake} {effects : List Effect}
    (absorbed : Absorbed l intake? after effects) :
    (∀ effect ∈ effects, effect.isHanding = true →
      ∃ intake, intake? = some intake ∧ intake.passed = true) ∧
    ∀ intake, intake? = some intake → intake.passed = true →
      ∃ parcel, intake.envelope.body = .ok (some (.parcel parcel)) ∧ effects = l.passes parcel := by
  cases absorbed with
  | nothing _ _ received untold =>
    refine ⟨fun effect listed hands => ?_, nofun⟩
    cases (effect.isHanding_of_isNews (untold effect listed)).1.symm.trans hands
  | renewed _ _ received restarts unhanded =>
    refine ⟨fun effect listed hands => ?_, nofun⟩
    cases (unhanded effect listed).symm.trans hands
  | taken e _ _ tells =>
    rcases tells.passed with ⟨parcel, body, new, counted, asked⟩ | ⟨same, none⟩
    · refine ⟨fun _ _ _ => ⟨_, rfl, ?_⟩, ?_⟩
      · simp [counted]
      · rintro intake ⟨⟩ _
        exact ⟨parcel, body, asked⟩
    · subst none
      refine ⟨nofun, ?_⟩
      rintro intake ⟨⟩ passed
      simp [same] at passed

/-- One occurrence keeps what was taken in and the number received in accord. -/
theorem Absorbed.accords {l after : Ledger} {intake? : Option Intake} {effects : List Effect}
    (absorbed : Absorbed l intake? after effects) {seen : List Intake}
    (accords : Accords seen l.window.received) :
    Accords (if effects.any Effect.isRestart then [] else seen ++ intake?.toList)
      after.window.received := by
  cases absorbed with
  | nothing _ _ received untold =>
    have still : effects.any Effect.isRestart = false := by
      simpa using fun effect listed => (effect.isHanding_of_isNews (untold effect listed)).2
    simpa [still, received] using accords
  | renewed _ _ received restarts unhanded =>
    rw [if_pos restarts, received]
    exact .none
  | taken e _ _ tells =>
    rcases tells.passed with ⟨parcel, body, new, counted, asked⟩ | ⟨same, none⟩
    · have still : effects.any Effect.isRestart = false := by
        rw [asked]
        cases parcel with
        | message => rfl
        | reply replyTo payload =>
          cases bound : l.takeBinding replyTo <;> simp [passes, bound, Effect.isRestart]
      rw [still, counted]
      refine accords.take e _ tells.counted fun _ => ⟨new, ?_⟩
      rw [tells.counted]
      simp [Envelope.counted?, body, Nat.max_eq_right (Nat.le_of_lt new)]
    · rw [none, same]
      exact accords.take e _ tells.counted (by simp)

namespace Session

/-- All through a life, what was taken in agrees with the number received, by induction on the
occurrences: what is let through has a number above all those before. -/
theorem recent_accords (host : Host) (s : Session) (seen : List Intake)
    (accords : Accords seen s.ledger.window.received) (life : List Occurrence) :
    Accords (s.recent host seen life) (s.live host life).ledger.window.received := by
  induction life generalizing s seen with
  | nil => exact accords
  | cons occurrence rest inductionHypothesis =>
    exact inductionHypothesis _ _ ((s.absorbed host occurrence).accords accords)

/-- A session that drops a parcel because it came again. -/
def dropping (s : Session) (link : Link) (e : Envelope) (rest : ByteArray) : Session :=
  { s with
    link := some { link with buffer := rest }
    ledger := { s.ledger.heeding e with
      window := { (s.ledger.heeding e).window with ackPending := true }
      tally := s.ledger.tally.receivedAgain } }

/-- What reading a parcel comes down to: its acknowledgement is heeded, and it is received. -/
theorem handle_parcel (host : Host) (s : Session) (link : Link) (e : Envelope) (rest : ByteArray)
    (parcel : Parcel) (held : s.link = some link) (front : s.front? = some (e, rest))
    (body : e.body = .ok (some (.parcel parcel))) (now : Nat) (random : Random.Stream) :
    Turn.handle host now ⟨s, random, []⟩ .proceed = Turn.receiveParcel e.seq parcel
      ⟨{ s with link := some { link with buffer := rest }, ledger := s.ledger.heeding e },
        random, []⟩ := by
  obtain ⟨reading, live, holds, complete⟩ := s.front?_reading e rest front
  cases held.symm.trans holds
  have received : (⟨{ s with link := some { link with buffer := rest } }, random, []⟩ :
      Turn).receiveEnvelope e = Turn.receiveParcel e.seq parcel
        ⟨{ s with link := some { link with buffer := rest }, ledger := s.ledger.heeding e },
          random, []⟩ := by
    simp only [Turn.receiveEnvelope, body, Turn.record_heeding]
  have taken : Turn.handle host now ⟨s, random, []⟩ .proceed =
      (⟨{ s with link := some { link with buffer := rest } }, random, []⟩ :
        Turn).receiveEnvelope e := by
    simp only [Turn.handle, reading, Turn.proceed, Turn.readFrame, held, complete, Turn.amend]
  rw [taken, received]

/-- A parcel that was received before is dropped without a word. -/
theorem handle_again (host : Host) (s : Session) (link : Link) (e : Envelope) (rest : ByteArray)
    (parcel : Parcel) (held : s.link = some link) (front : s.front? = some (e, rest))
    (body : e.body = .ok (some (.parcel parcel))) (old : e.seq ≤ s.ledger.window.received)
    (now : Nat) (random : Random.Stream) :
    Turn.handle host now ⟨s, random, []⟩ .proceed = ⟨s.dropping link e rest, random, []⟩ := by
  have heard := (s.ledger.heeding_deaf e).received
  have again : (s.ledger.heeding e).window.receive e.seq =
      (true, { (s.ledger.heeding e).window with ackPending := true }) := by
    rw [Window.receive, if_pos (heard.symm ▸ old)]
  rw [handle_parcel host s link e rest parcel held front body now random]
  unfold Turn.receiveParcel
  rw [again, dropping, ← s.ledger.heeding_tally e]
  rfl

/-- A session takes in every message at most once. What it took in since its peer last
restarted let parcels through with increasing numbers only, and accounts for the number
received. Nothing is handed to the application that was not let through, and a parcel that was
received before is dropped. -/
structure TakesOnce (host : Host) (intakes : List Intake) (s : Session) : Prop where
  increasing : ((intakes.filter (·.passed)).map (·.envelope.seq)).Pairwise (· < ·)
  received : s.ledger.window.received = (intakes.filterMap (·.envelope.counted?)).foldl max 0
  handed : ∀ occurrence, ∀ effect ∈ s.asked host occurrence, effect.isHanding = true →
    ∃ intake, s.intake? host occurrence = some intake ∧ intake.passed = true
  passes : ∀ occurrence intake, s.intake? host occurrence = some intake →
    intake.passed = true → ∃ parcel, intake.envelope.body = .ok (some (.parcel parcel)) ∧
      s.asked host occurrence = s.ledger.passes parcel
  again : ∀ link e rest parcel, s.link = some link → s.front? = some (e, rest) →
    e.body = .ok (some (.parcel parcel)) → e.seq ≤ s.ledger.window.received →
      ∀ now random, Turn.handle host now ⟨s, random, []⟩ .proceed =
        ⟨s.dropping link e rest, random, []⟩

/-- Every session takes in every message at most once, whatever its peer writes and however
connections come and go. -/
theorem live_takesOnce (host : Host) (peer : PeerId) (life : List Occurrence) :
    ((fresh peer host.options).live host life).TakesOnce host
      ((fresh peer host.options).recent host [] life) := by
  have accords := (fresh peer host.options).recent_accords host [] .none life
  refine ⟨accords.ordered, accords.counted, ?_, ?_, ?_⟩
  · exact fun occurrence => (absorbed host _ occurrence).hands.1
  · exact fun occurrence => (absorbed host _ occurrence).hands.2
  · exact fun link e rest parcel held front body old now random =>
      handle_again host _ link e rest parcel held front body old now random

/-- When the application is done and has nothing to say, the session goes on reading. -/
theorem undergo_unanswered (host : Host) (now : Nat) (s : Session) (random : Random.Stream)
    (replyTo : Option Nat) (handling : s.stage = .handling replyTo) :
    s.undergo host (.turn now random (.replied none)) = { s with stage := .reading } := by
  simp only [undergo, Turn.handle, handling, Turn.reply, Turn.enter, Turn.amend]

section Repetition

open Correspondence (made made_eq)

/-- A message of a peer, and the same message again with an acknowledgement. -/
def original : Dispatch := made (.parcel (.message [7] none)) 1 0

@[inherit_doc original]
def repetition : Dispatch := made (.parcel (.message [7] none)) 1 1

/-- The message fits in a frame. -/
theorem original_framed :
    Dispatch.of? (.parcel (.message [7] none)) 1 0 = some original :=
  made_eq (Dispatch.of?_parcel (.message [7] none) nofun 1 0 (by decide) (by decide) (by decide))

/-- The repetition fits in a frame. -/
theorem repetition_framed :
    Dispatch.of? (.parcel (.message [7] none)) 1 1 = some repetition :=
  made_eq (Dispatch.of?_parcel (.message [7] none) nofun 1 1 (by decide) (by decide) (by decide))

/-- The connection on which the message arrives twice. -/
def repeating : Greeted :=
  ⟨⟨0, .dialer⟩, ⟨bob, ⟨0, 2⟩, 0, none⟩, ⟨(original.frame ++ repetition.frame).toArray⟩⟩

/-- Both messages have arrived, one behind the other. -/
theorem repeating_bytes :
    repeating.surplus.data.toList = original.frame ++ repetition.frame :=
  List.toList_toArray

/-- A letter is queued, and the connection is adopted. -/
def adopting : List Occurrence :=
  [.post ⟨[1], none⟩ (.ofMillis 0), .turn 0 quiet .wake, .turn 0 quiet (.dialed (.ok repeating))]

/-- The letter is written, the message is handed out, and the application is done with it. -/
def repeated : List Occurrence :=
  adopting ++ [.turn 0 quiet .proceed, .turn 0 quiet .proceed, .turn 0 quiet (.replied none)]

/-- The session that adopted the connection. -/
def adopted : Session := (fresh bob aliceService.host.options).live aliceService.host adopting

/-- The session once the letter was written. -/
def reached : Session :=
  { adopted with ledger := adopted.ledger.drain.2.2, ackDue := none, stage := .reading }

/-- The session once the message was handed out, with what arrived behind it. -/
def handing (rest : ByteArray) : Session :=
  { reached with
    link := some ⟨⟨0, .dialer⟩, ⟨0, 2⟩, rest⟩
    ledger := { reached.ledger with
      window := (reached.ledger.window.receive 1).2
      tally := reached.ledger.tally.received }
    stage := .handling none }

/-- The session once the application is done with the message. -/
def served (rest : ByteArray) : Session := { handing rest with stage := .reading }

/-- The next turn writes the letter, and the session begins to read. -/
theorem undergo_reached :
    ((fresh bob aliceService.host.options).live aliceService.host adopting).undergo
      aliceService.host (.turn 0 quiet .proceed) = reached :=
  congrArg (·.session) (adopted.handle_greeting aliceService.host 0 quiet
    ⟨⟨0, .dialer⟩, ⟨0, 2⟩, repeating.surplus⟩ rfl ⟨rfl, rfl, by decide⟩)

/-- The session reads. -/
theorem reached_reading : reached.stage = .reading := rfl

/-- The session holds the connection with both messages in its buffer. -/
theorem reached_link :
    reached.link = some ⟨⟨0, .dialer⟩, ⟨0, 2⟩, repeating.surplus⟩ := rfl

/-- The next turn hands the message out and leaves the repetition in the buffer. -/
theorem undergo_handing : ∃ rest : ByteArray, rest.data.toList = repetition.frame ∧
    reached.undergo aliceService.host (.turn 0 quiet .proceed) = handing rest := by
  have fits := Dispatch.of?_fits _ _ _ original original_framed nofun (by decide) (by decide)
  obtain ⟨body, seq, ack, _⟩ := Dispatch.of?_eq _ _ _ original original_framed
  have new : reached.ledger.window.received < original.seq := by
    rw [seq]
    exact Nat.one_pos
  obtain ⟨rest, left, handed, _⟩ := reached.takes_message aliceService.host 0 quiet
    ⟨⟨0, .dialer⟩, ⟨0, 2⟩, repeating.surplus⟩ original repetition.frame reached_reading
    reached_link (Dispatch.of?_formed _ _ _ original original_framed) fits repeating_bytes [7] none
    body new
  have unheeded : reached.ledger.heeding original.envelope = reached.ledger :=
    if_neg (Nat.not_lt_of_le (Nat.le_of_eq ack))
  refine ⟨rest, left, ?_⟩
  rw [undergo, handed, unheeded, seq, handing]

/-- The application is done with the message and has nothing to say. -/
theorem undergo_served (rest : ByteArray) :
    (handing rest).undergo aliceService.host (.turn 0 quiet (.replied none)) = served rest :=
  undergo_unanswered _ 0 (handing rest) quiet none rfl

/-- The life ends where the session is to read the repetition. -/
theorem live_repeated : ∃ rest : ByteArray, rest.data.toList = repetition.frame ∧
    (fresh bob aliceService.host.options).live aliceService.host repeated = served rest := by
  obtain ⟨rest, left, handed⟩ := undergo_handing
  refine ⟨rest, left, ?_⟩
  rw [repeated, live_append, live_cons, live_cons, live_one, undergo_reached, handed]
  exact undergo_served rest

/-- The message comes again, and its envelope acknowledges the letter. -/
theorem repeated_front : ∃ s link e rest,
    (fresh bob aliceService.host.options).live aliceService.host repeated = s ∧
      s.link = some link ∧ s.front? = some (e, rest) ∧
      e.body = .ok (some (.parcel (.message [7] none))) ∧ e.seq = 1 ∧ e.ack = 1 ∧
      s.ledger.window = { sent := 1, received := 1, ackPending := true } ∧
      s.ledger.outbox.size = 1 := by
  have fits := Dispatch.of?_fits _ _ _ repetition repetition_framed nofun (by decide) (by decide)
  obtain ⟨body, seq, ack, _⟩ := Dispatch.of?_eq _ _ _ repetition repetition_framed
  obtain ⟨number, acknowledged⟩ := repetition.envelope_numbers
  obtain ⟨buffer, whole, lived⟩ := live_repeated
  obtain ⟨rest, complete, _⟩ := repetition.next?_front
    (Dispatch.of?_formed _ _ _ repetition repetition_framed) fits buffer [] (by simp [whole])
  refine ⟨served buffer, ⟨⟨0, .dialer⟩, ⟨0, 2⟩, buffer⟩, repetition.envelope, rest, lived, rfl, ?_,
    ?_, number.trans seq, acknowledged.trans ack, rfl, rfl⟩
  · exact (served buffer).front?_of_complete _ _ rest rfl rfl complete
  · rw [repetition.envelope_body fits, body]

/-- The letter leaves the outbox when the message comes again, so that not only the message
is counted as dropped and an acknowledgement owed. -/
theorem repetition_acknowledges : ¬ ∀ (host : Host) (peer : PeerId) (life : List Occurrence)
    (link : Link) (e : Envelope) (rest : ByteArray) (parcel : Parcel),
    ((fresh peer host.options).live host life).link = some link →
    ((fresh peer host.options).live host life).front? = some (e, rest) →
    e.body = .ok (some (.parcel parcel)) →
    e.seq ≤ ((fresh peer host.options).live host life).ledger.window.received →
    ∀ now random,
      Turn.handle host now ⟨(fresh peer host.options).live host life, random, []⟩ .proceed =
        ⟨{ (fresh peer host.options).live host life with
          link := some { link with buffer := rest }
          ledger := { ((fresh peer host.options).live host life).ledger with
            window := { ((fresh peer host.options).live host life).ledger.window with
              ackPending := true }
            tally := ((fresh peer host.options).live host life).ledger.tally.receivedAgain } },
          random, []⟩ := by
  intro only
  obtain ⟨s, link, e, rest, lived, held, front, body, seq, ack, window, _⟩ := repeated_front
  have old : e.seq ≤ s.ledger.window.received := by
    rw [window, seq]
  have plainly := only aliceService.host bob repeated link e rest (.message [7] none)
  rw [lived] at plainly
  have untouched := (handle_again aliceService.host s link e rest _ held front body old 0
    quiet).symm.trans (plainly held front body old 0 quiet)
  have acked : (s.dropping link e rest).ledger.window.acked = s.ledger.window.acked :=
    congrArg (·.session.ledger.window.acked) untouched
  simp [dropping, heeding, ack, applyAck, Window.acknowledge, window] at acked

end Repetition

end Session

end Courier
