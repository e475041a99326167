import Courier.Proofs.Books
import Courier.Proofs.Greetings

/-!
# The stream of a connection

A session that holds a connection has read some pieces from it: what arrived behind the greeting
when the connection was adopted, and the bytes that it received since. From these it took some
envelopes, and some bytes are left in the buffer. Together that is always what comes of the whole
stream. When the session is idle it took every frame that is complete; when a read breaks, the
error is that of the stream, behind the same envelopes. How the stream was cut, and what else
happened between two pieces, does not show.
-/

namespace Courier

open Courier.Frame

namespace Session

/-- The bytes that an occurrence adds to the buffer of the connection held. -/
def piece? (s : Session) : Occurrence → Option ByteArray
  | .turn _ _ (.received bytes) =>
    if s.stage = .idle ∧ s.link.isSome = true then some bytes else none
  | _ => none

/-- What was read from the connection held: the pieces since it was adopted, and the envelopes
that were taken in. -/
structure Reception where
  pieces : List ByteArray := []
  taken : List Envelope := []

/-- What was read from the connection held, after one more occurrence. -/
def receive (host : Host) (s : Session) (r : Reception) (occurrence : Occurrence) : Reception :=
  match s.adopts? host occurrence with
  | some greeted => { pieces := [greeted.surplus] }
  | none =>
    { pieces := r.pieces ++ (s.piece? occurrence).toList
      taken := r.taken ++ ((s.intake? host occurrence).map (·.envelope)).toList }

/-- What was read from the connection held, after a life that began with something read. -/
def reception (host : Host) (s : Session) (r : Reception) : List Occurrence → Reception
  | [] => r
  | occurrence :: rest =>
    (s.undergo host occurrence).reception host (s.receive host r occurrence) rest

/-- What an occurrence does to the buffer of the connection held. -/
inductive Carried (host : Host) (s : Session) (occurrence : Occurrence) (after : Session) :
    Prop where
  | kept (unopened : s.adopts? host occurrence = none) (unheard : s.piece? occurrence = none)
      (unread : s.intake? host occurrence = none) (link : after.link = s.link)
      (rests : after.stage = .idle → s.stage = .idle ∨
        ∀ link, s.link = some link → next? link.buffer = .ok none)
  | dropped (unopened : s.adopts? host occurrence = none) (link : after.link = none)
  | received (bytes : ByteArray) (link : Link) (unopened : s.adopts? host occurrence = none)
      (heard : s.piece? occurrence = some bytes) (unread : s.intake? host occurrence = none)
      (held : s.link = some link)
      (longer : after.link = some { link with buffer := link.buffer ++ bytes })
      (stage : after.stage = .reading)
  | read (intake : Intake) (rest : ByteArray) (link : Link)
      (unopened : s.adopts? host occurrence = none) (unheard : s.piece? occurrence = none)
      (read : s.intake? host occurrence = some intake) (held : s.link = some link)
      (complete : next? link.buffer = .ok (some (intake.envelope, rest)))
      (shorter : after.link = some { link with buffer := rest })
      (working : after.stage ≠ .idle)
  | joined (greeted : Greeted) (opened : s.adopts? host occurrence = some greeted)
      (link : after.link =
        some ⟨greeted.endpoint, greeted.hello.incarnation, greeted.surplus⟩)
      (stage : after.stage = .greeting)

/-- What an offer does to the buffer. -/
theorem carried_offered (host : Host) (s t after : Session) (now : Nat) (random : Random.Stream)
    (event : Event) (greeted : Greeted)
    (offered : s.offered? (.turn now random event) = some greeted)
    (link : t.link = s.link) (idle : s.stage = .idle)
    (unheard : s.piece? (.turn now random event) = none)
    (unread : s.intake? host (.turn now random event) = none)
    (adopted : Adopted host now greeted t after (s.asked host (.turn now random event))) :
    Carried host s (.turn now random event) after := by
  rcases adopts?_adopted host _ greeted offered now adopted with ⟨unopened, rfl⟩ | ⟨opened, rfl⟩
  · exact .kept unopened unheard unread link fun _ => .inl idle
  · exact .joined greeted opened rfl rfl

end Session

open Session

/-- A session that takes in an envelope goes on reading, or waits for the application. -/
theorem Took.stage {e : Envelope} {s after : Session} {effects : List Effect}
    (took : Took e s after effects) :
    after.stage = s.stage ∨ ∃ replyTo, after.stage = .handling replyTo := by
  cases took with
  | message payload replyTo body new => exact .inr ⟨replyTo, rfl⟩
  | _ => exact .inl rfl

/-- What a turn does to the buffer that neither adds to it nor reads it. There is one case for each
kind of turn: the connection is kept as it is, or it is gone. -/
theorem Turned.carried {host : Host} {now : Nat} {event : Event} {s after : Session}
    {effects : List Effect} (turned : Turned host now s event after effects)
    (random : Random.Stream) (asked : s.asked host (.turn now random event) = effects)
    (unheard : s.piece? (.turn now random event) = none)
    (unread : event = .proceed → s.front? = none) :
    Carried host s (.turn now random event) after := by
  have silent := s.intake?_unread host now random event unread
  have steady (after : Session) (unoffered : s.offered? (.turn now random event) = none)
      (link : after.link = s.link) (idle : s.stage = .idle) :
      Carried host s (.turn now random event) after :=
    .kept (s.adopts?_unoffered host _ unoffered) unheard silent link fun _ => .inl idle
  have working (after : Session) (unoffered : s.offered? (.turn now random event) = none)
      (link : after.link = s.link) (stage : after.stage = .reading) :
      Carried host s (.turn now random event) after := by
    refine .kept (s.adopts?_unoffered host _ unoffered) unheard silent link ?_
    simp [stage]
  cases turned with
  | still =>
    exact .kept (s.adopts?_unasked host _ asked) unheard silent rfl .inl
  | attach greeted rest _ _ idle next adopted =>
    exact s.carried_offered host { s with commands := rest } after now random .command greeted
      (by simp [offered?, next]) rfl idle unheard silent (asked ▸ adopted)
  | dialed greeted _ _ idle dialing adopted =>
    exact s.carried_offered host { s with dial := none } after now random _ greeted rfl rfl idle
      unheard silent (asked ▸ adopted)
  | reconnect rest idle next | close rest idle next | shutdown rest _ idle next =>
    exact .dropped (s.adopts?_unoffered host _ (by simp [offered?, next])) rfl
  | resetDial rest idle next | resetNothing rest idle next =>
    exact steady _ (by simp [offered?, next]) rfl idle
  | wakeFlush after effects idle woken phase flushed =>
    exact steady _ rfl flushed.alike.link idle
  | received bytes link idle held => simp [piece?, idle, held] at unheard
  | lost link due => exact .dropped rfl (s.bereft_link due)
  | readBroken link error due => exact .dropped rfl (s.bereft_link due)
  | readNothing stage unlinked => exact .dropped rfl unlinked
  | greeted after effects stage flushed => exact working _ rfl flushed.alike.link rfl
  | readAll link stage held incomplete =>
    refine .kept rfl unheard silent rfl fun _ => .inr fun other same => ?_
    cases held.symm.trans same
    exact incomplete
  | read link e rest after effects stage held complete took =>
    have front := s.front?_of_complete link e rest stage held complete
    cases (unread rfl).symm.trans front
  | replied replyTo payload ledger after effects stage accepted flushed =>
    exact working _ rfl flushed.alike.link flushed.stage
  | silent => exact working _ rfl rfl rfl
  | wakeDial idle | wakeNothing idle | dialStale _ idle | dialRetry _ _ idle | dialGiveUp _ idle
  | elapsedDial idle | elapsedNothing idle | ackWritten _ idle | ackNothing idle
  | lostNothing idle =>
    exact steady _ rfl rfl idle

namespace Session

/-- Bytes are added to the buffer of a session that is idle and holds a connection. -/
theorem handle_piece (host : Host) (s : Session) (now : Nat) (random : Random.Stream)
    (event : Event) (bytes : ByteArray)
    (heard : s.piece? (.turn now random event) = some bytes) : event = .received bytes ∧
      ∃ link, s.link = some link ∧ s.undergo host (.turn now random event) =
        { s with
          link := some { link with buffer := link.buffer ++ bytes }
          ledger := s.ledger.count fun t => t.read bytes.size
          stage := .reading } := by
  cases event with
  | received read =>
    simp only [piece?] at heard
    split at heard
    · next ready =>
      cases heard
      obtain ⟨link, held⟩ := Option.isSome_iff_exists.mp ready.2
      refine ⟨rfl, link, held, ?_⟩
      simp only [undergo, Turn.handle, ready.1, Turn.take, held]
      rfl
    · cases heard
  | _ => cases heard

/-- What happens between two turns leaves the buffer alone, unless the connection is dropped. -/
theorem carried_called (host : Host) (s : Session) (occurrence : Occurrence)
    (called : ∀ now random event, occurrence ≠ .turn now random event) :
    Carried host s occurrence (s.undergo host occurrence) := by
  have deaf : s.offered? occurrence = none ∧ s.piece? occurrence = none ∧
      s.intake? host occurrence = none := by
    cases occurrence with
    | turn now random event => exact absurd rfl (called now random event)
    | _ => exact ⟨rfl, rfl, rfl⟩
  have unopened := s.adopts?_unoffered host occurrence deaf.1
  have undergone := s.undergone host occurrence
  generalize s.undergo host occurrence = after at undergone ⊢
  cases undergone with
  | spared _ _ spared =>
    rcases spared.link with gone | link
    · exact .dropped unopened gone
    · rcases spared.stage with stage | ended
      · exact .kept unopened deaf.2.1 deaf.2.2 link fun rests => .inl (stage.symm.trans rests)
      · exact .kept unopened deaf.2.1 deaf.2.2 link (by simp [ended])
  | posted letter now queued accepted posted =>
    exact .kept unopened deaf.2.1 deaf.2.2 rfl .inl
  | turned now random event => exact absurd rfl (called now random event)

/-- Every occurrence does one of these things to the buffer. -/
theorem carried (host : Host) (s : Session) (occurrence : Occurrence) :
    Carried host s occurrence (s.undergo host occurrence) := by
  cases occurrence with
  | turn now random event =>
    cases heard : s.piece? (.turn now random event) with
    | some bytes =>
      obtain ⟨rfl, link, held, same⟩ := s.handle_piece host now random event bytes heard
      rw [same]
      exact .received bytes link rfl heard rfl held rfl rfl
    | none =>
      cases s.takes host now random event with
      | nothing _ unread silent turned => exact turned.carried random rfl heard unread
      | front e rest link front stage held complete taken took =>
        have working (stage : (s.undergo host (.turn now random .proceed)).stage = .reading ∨
            ∃ replyTo, (s.undergo host (.turn now random .proceed)).stage = .handling replyTo) :
            Carried host s (.turn now random .proceed)
              (s.undergo host (.turn now random .proceed)) := by
          refine .read _ rest link rfl rfl taken held complete took.alike.link ?_
          rcases stage with stage | ⟨replyTo, stage⟩ <;> simp [stage]
        rcases took.stage with same | handling
        · exact working (.inl (same.trans stage))
        · exact working (.inr handling)
  | _ => exact s.carried_called host _ nofun

/-- A session that agrees with what was read from the connection it holds. -/
structure Agrees (s : Session) (r : Reception) : Prop where
  stream : ∀ link, s.link = some link →
    takeAll (together r.pieces) = (takeAll link.buffer).behind r.taken
  rests : s.stage = .idle → ∀ link, s.link = some link → next? link.buffer = .ok none

/-- An occurrence that carries the buffer on keeps a session in agreement with what was read. There
is one case for each thing that may become of the buffer. -/
theorem Carried.agrees {host : Host} {s after : Session} {occurrence : Occurrence}
    (carried : Carried host s occurrence after) {r : Reception} (agrees : s.Agrees r) :
    after.Agrees (s.receive host r occurrence) := by
  unfold receive
  cases carried with
  | kept unopened unheard unread link rests =>
    rw [unopened, unheard, unread]
    simp only [Option.toList_none, Option.map_none, List.append_nil]
    constructor
    case stream => exact link ▸ agrees.stream
    case rests =>
      intro idle other held
      rw [link] at held
      rcases rests idle with rested | incomplete
      · exact agrees.rests rested other held
      · exact incomplete other held
  | dropped unopened gone => exact ⟨by simp [gone], by simp [gone]⟩
  | received bytes link unopened heard unread held longer stage =>
    rw [unopened, heard, unread]
    simp only [Option.toList_some, Option.toList_none, Option.map_none, List.append_nil]
    refine ⟨?_, by simp [stage]⟩
    intro other same
    cases longer.symm.trans same
    rw [together_append_one, takeAll_append, agrees.stream link held, Taken.feed_behind,
      ← takeAll_append]
  | read intake rest link unopened unheard read held complete shorter working =>
    rw [unopened, unheard, read]
    simp only [Option.toList_some, Option.toList_none, Option.map_some, List.append_nil]
    refine ⟨?_, fun idle => absurd idle working⟩
    intro other same
    cases shorter.symm.trans same
    rw [agrees.stream link held, takeAll_some link.buffer _ rest complete, Taken.behind_behind]
  | joined greeted opened link stage =>
    rw [opened]
    refine ⟨?_, by simp [stage]⟩
    intro other same
    cases link.symm.trans same
    rw [together_cons, together_nil, ByteArray.append_empty, Taken.behind_nil]

/-- Whatever happens, a session agrees with what was read from the connection it holds. -/
theorem reception_agrees (host : Host) (s : Session) (r : Reception) (agrees : s.Agrees r)
    (life : List Occurrence) : (s.live host life).Agrees (s.reception host r life) := by
  induction life generalizing s r with
  | nil => exact agrees
  | cons occurrence rest inductionHypothesis =>
    exact inductionHypothesis _ _ ((s.carried host occurrence).agrees agrees)

/-- At the beginning nothing was read. -/
theorem fresh_agrees (peer : PeerId) (options : Options) : (fresh peer options).Agrees {} :=
  ⟨nofun, nofun⟩

/-- A session that reads has come to the end of what is complete, or takes one more envelope. -/
theorem undergo_reading (host : Host) (s : Session) (now : Nat) (random : Random.Stream)
    (reading : s.stage = .reading) :
    (s.undergo host (.turn now random .proceed)).stage = .idle ∨ ∃ link e rest,
      s.link = some link ∧ next? link.buffer = .ok (some (e, rest)) ∧
        (s.undergo host (.turn now random .proceed)).link = some { link with buffer := rest } ∧
          ((s.undergo host (.turn now random .proceed)).stage = .reading ∨
            ∃ replyTo, (s.undergo host (.turn now random .proceed)).stage = .handling replyTo) := by
  cases front : s.front? with
  | some taken =>
    right
    obtain ⟨e, rest⟩ := taken
    obtain ⟨_, link, held, complete⟩ := s.front?_reading e rest front
    obtain ⟨effects, _, took⟩ := Turn.handle_front host now ⟨s, random, []⟩ link e rest held front
    refine ⟨link, e, rest, held, complete, took.alike.link, ?_⟩
    rcases took.stage with same | handling
    · exact .inl (same.trans reading)
    · exact .inr handling
  | none =>
    left
    simp only [undergo, Turn.handle, reading, Turn.proceed, Turn.readFrame]
    split
    · rfl
    · next link held =>
      split
      · rfl
      · rfl
      · next e rest complete =>
        cases front.symm.trans (s.front?_of_complete link e rest reading held complete)

/-- Once the application is done with a message, the session goes on reading. -/
theorem undergo_replied (host : Host) (s : Session) (now : Nat) (random : Random.Stream)
    (replyTo : Option Nat) (handling : s.stage = .handling replyTo)
    (answer : Option (List UInt8)) :
    (s.undergo host (.turn now random (.replied answer))).stage = .reading ∧
      (s.undergo host (.turn now random (.replied answer))).link = s.link := by
  have flushed (ledger : Ledger) :
      (Turn.flush ⟨{ s with ledger, stage := .reading }, random, []⟩).session.stage = .reading ∧
        (Turn.flush ⟨{ s with ledger, stage := .reading }, random, []⟩).session.link =
          s.link := by
    obtain ⟨effects, _, flushed⟩ :=
      Turn.flush_goes ⟨{ s with ledger, stage := .reading }, random, []⟩
    exact ⟨flushed.stage, flushed.alike.link⟩
  simp only [undergo, Turn.handle, handling, Turn.reply]
  split
  · split
    · next ledger queued => exact flushed ledger
    · exact ⟨rfl, rfl⟩
  · exact ⟨rfl, rfl⟩

/-- A session that reads takes every envelope that is complete and comes to the end of them,
whatever the application answers. -/
theorem reads_through (host : Host) (s : Session) (now : Nat) (random : Random.Stream)
    (answer : Option (List UInt8)) (reading : s.stage = .reading) : ∃ turns : List Occurrence,
      (∀ turn ∈ turns, turn = .turn now random .proceed ∨
        turn = .turn now random (.replied answer)) ∧ (s.live host turns).stage = .idle := by
  -- The buffer gets shorter with every envelope.
  induction size : (s.link.map (·.buffer.size)).getD 0 using Nat.strongRecOn generalizing s with
  | ind size' inductionHypothesis =>
    rcases s.undergo_reading host now random reading with
      rests | ⟨link, e, rest, held, complete, shorter, stage⟩
    · exact ⟨[.turn now random .proceed], by simp, rests⟩
    · have fewer : rest.size < size' := by
        have less := next?_shorter link.buffer e rest complete
        rw [← size, held]
        exact less
      rcases stage with onward | ⟨replyTo, handling⟩
      · obtain ⟨turns, kinds, rests⟩ :=
          inductionHypothesis rest.size fewer _ onward (by rw [shorter]; rfl)
        refine ⟨.turn now random .proceed :: turns, ?_, rests⟩
        exact List.forall_mem_cons.mpr ⟨.inl rfl, kinds⟩
      · obtain ⟨onward, same⟩ := undergo_replied host _ now random replyTo handling answer
        obtain ⟨turns, kinds, rests⟩ :=
          inductionHypothesis rest.size fewer _ onward (by rw [same, shorter]; rfl)
        refine ⟨.turn now random .proceed :: .turn now random (.replied answer) :: turns, ?_,
          rests⟩
        exact List.forall_mem_cons.mpr
          ⟨.inl rfl, List.forall_mem_cons.mpr ⟨.inr rfl, kinds⟩⟩

/-- Bytes that are no frame cost the connection. -/
theorem undergo_broken (host : Host) (s : Session) (now : Nat) (random : Random.Stream)
    (link : Link) (error : WireError) (reading : s.stage = .reading)
    (held : s.link = some link) (broken : next? link.buffer = .error error) :
    (s.undergo host (.turn now random .proceed)).link = none := by
  obtain ⟨due, _, _, bereft, _⟩ := Turn.loseLink_goes host now ⟨s, random, []⟩ link held
  simp only [undergo, Turn.handle, reading, Turn.proceed, Turn.readFrame, held, broken,
    Turn.enter, Turn.amend, bereft]
  exact s.bereft_link due

/-- What a session took from the connection it holds is what the stream gives. -/
structure Unravels (host : Host) (s : Session) (r : Reception) : Prop where
  /-- What was taken, and what comes of the buffer, is what comes of the stream. -/
  stream : ∀ link, s.link = some link →
    takePieces r.pieces = (takeAll link.buffer).behind r.taken
  /-- A session that is idle took all, up to the bytes that are no complete frame. -/
  rests : s.stage = .idle → ∀ link, s.link = some link →
    takePieces r.pieces = ⟨r.taken, .ok link.buffer⟩
  /-- A session that finds an error took all before it, and drops the connection. -/
  breaks : s.stage = .reading → ∀ link error, s.link = some link →
    next? link.buffer = .error error → takePieces r.pieces = ⟨r.taken, .error error⟩ ∧
      ∀ now random, (s.undergo host (.turn now random .proceed)).link = none
  /-- A session that reads comes to the end of what is there. -/
  ends : s.stage = .reading → ∀ now random answer, ∃ turns : List Occurrence,
    (∀ turn ∈ turns, turn = .turn now random .proceed ∨
      turn = .turn now random (.replied answer)) ∧ (s.live host turns).stage = .idle

/-- A session that agrees with what was read took from the connection what the stream gives. -/
theorem Agrees.unravels {s : Session} {r : Reception} (agrees : s.Agrees r) (host : Host) :
    s.Unravels host r where
  stream link held := by rw [takePieces_together, agrees.stream link held]
  rests idle link held := by
    rw [takePieces_together, agrees.stream link held,
      takeAll_none link.buffer (agrees.rests idle link held), Taken.behind, List.append_nil]
  breaks reading link error held broken := by
    constructor
    · rw [takePieces_together, agrees.stream link held, takeAll_error link.buffer error broken,
        Taken.behind, List.append_nil]
    · intro now random
      exact s.undergo_broken host now random link error reading held broken
  ends reading now random answer := s.reads_through host now random answer reading

end Session

open Handshake

/-- What comes of a stream of bytes does not depend on how it is cut. -/
structure Seamless (host : Host) (peer : PeerId) : Prop where
  /-- Taking frames after every piece gives the same envelopes, and the same bytes left or the same
  error. -/
  cuts : ∀ pieces others, together pieces = together others →
    takePieces pieces = takePieces others
  /-- Reading a greeting finds the same, with the same bytes behind it, kept or not yet read. -/
  greetings : ∀ pieces others, together pieces = together others →
    leaving (together (await .empty pieces).2) (await .empty pieces).1 =
      leaving (together (await .empty others).2) (await .empty others).1
  /-- A node reads the greeting on an accepted connection that way. -/
  accepted : ∀ endpoint n pieces, Node.Welcoming endpoint n pieces →
    ∀ a, n.arrival? endpoint = some a → a.welcome.Keeps pieces
  /-- It hands the connection to a session with the greeting found and the bytes kept. -/
  handed : ∀ endpoint n pieces, Node.Welcoming endpoint n pieces →
    ∀ now network after rest, n.welcome? now endpoint network = some (after, rest) → ∃ deeds,
      after.kernel = n.kernel.live deeds ∧ ∀ greeted, .attach greeted ∈ deeds →
        greeted.endpoint = endpoint ∧ Finds pieces greeted.hello greeted.surplus
  /-- A node reads the greeting on a connection that it dialed that way. -/
  dialed : ∀ dialed endpoint n pieces, Node.Reaching dialed endpoint n pieces →
    ∀ d, n.attempt? dialed = some d → d.Keeps endpoint pieces
  /-- The greeting is the first envelope of the stream. The bytes kept and the pieces that follow
  give the others. -/
  onward : ∀ pieces hello surplus, Finds pieces hello surplus → ∀ later, ∃ e,
    e.body = .ok (some (.hello hello)) ∧
      takePieces (pieces ++ later) = (takePieces (surplus :: later)).behind [e]
  /-- A session takes what the bytes kept and the pieces that follow give. -/
  followed : ∀ life, ((Session.fresh peer host.options).live host life).Unravels host
    ((Session.fresh peer host.options).reception host {} life)

/-- How a stream is cut makes no difference, neither to taking frames, nor to reading a greeting,
nor to the session that goes on where the greeting ends. -/
theorem stream_is_seamless (host : Host) (peer : PeerId) : Seamless host peer := by
  constructor
  case cuts =>
    intro pieces others same
    rw [takePieces_together, takePieces_together, same]
  case greetings =>
    intro pieces others same
    rw [await_together, await_together, same]
  case accepted =>
    intro endpoint n pieces welcoming
    exact welcoming.keeps
  case handed =>
    intro endpoint n pieces welcoming now network after rest
    exact welcoming.hands
  case dialed =>
    intro dialed endpoint n pieces reaching
    exact reaching.keeps
  case onward =>
    intro pieces hello surplus finds later
    exact await_onward _ later hello surplus (finds later)
  case followed =>
    intro life
    have agrees := Session.reception_agrees host _ {} (Session.fresh_agrees peer host.options) life
    exact agrees.unravels host

open Correspondence in
/-- A greeting is read in two pieces, the first of which is not even a header. What arrives with
the second is kept, and is read as if it had come alone. -/
theorem greeting_in_two_pieces : ∃ first second : ByteArray, first.size = 4 ∧
    Finds [first, second] (greeting .here) (arriving thanks) ∧ ∃ e,
      e.body = .ok (some (.hello (greeting .here))) ∧
        takePieces [first, second] = (takePieces [arriving thanks]).behind [e] := by
  obtain ⟨d, framed⟩ : ∃ d, Dispatch.of? (.hello (greeting .here)) 0 (greeting .here).ack =
      some d := ⟨greets .here, greets_framed .here⟩
  have long : 4 < d.frame.length := by
    obtain ⟨_, _, _, encoded⟩ := Dispatch.of?_eq _ _ _ d framed
    rw [(encode_eq _ _ encoded).1, List.length_append, headerBytes_length]
    exact Nat.lt_of_lt_of_le (by decide) (Nat.le_add_right headerSize _)
  have finds := finds_cut _ (Nat.zero_le _) d framed 4 long (arriving thanks)
  refine ⟨_, _, ?_, finds, ?_⟩
  · rw [size_bytes]
    exact List.length_take_of_le (Nat.le_of_lt long)
  · exact (stream_is_seamless (acquaintances .here) alice).onward _ _ _ finds []

end Courier
