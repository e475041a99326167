import Courier.Proofs.Buffering
import Courier.Proofs.Faring

/-!
# How much a peer can make a node hold

What arrives on a connection is held until a frame is complete: for a greeting by the node, later
by the session of the peer. The node never asks for more than one read at a time, and it does not
read again before it went through what it has. So whatever comes over a connection, what is held of
it is less than the largest frame and one more read, and what arrived behind a greeting is less
than one read. This is kept by every step of a node, on any network, and so it holds in every
scene.
-/

namespace Courier

open Courier.Frame Courier.Handshake

/-- Whether what a deed brings from a connection is no more than is read at a time. -/
def Deed.Short : Deed → Prop
  | .attach greeted => greeted.Short
  | .turn _ _ event => event.Short
  | _ => True

/-- What comes from outside comes over no connection. -/
theorem Deed.short_of_outside (deed : Deed) (outside : deed.isOutside = true) : deed.Short := by
  cases deed with
  | attach | turn => cases outside
  | _ => trivial

/-- The letters that the application asks for come over no connection. -/
theorem sends_short (now : Nat) (sendings : List Sending) :
    ∀ deed ∈ sendings.map (·.deed now), deed.Short := by
  intro deed listed
  obtain ⟨sending, _, rfl⟩ := List.mem_map.mp listed
  trivial

namespace Kernel

variable {k : Kernel}

/-- Each session of a kernel has a bounded buffer. -/
def Contained (k : Kernel) : Prop := ∀ peer s, k.session? peer = some s → s.Contained

/-- What a deed is for a session brings no more than the deed. -/
theorem occurrences_short (k : Kernel) (peer : PeerId) {deed : Deed} (short : deed.Short) :
    ∀ occurrence ∈ k.occurrences peer deed, occurrence.Short := by
  intro occurrence among
  cases occurs_of_mem among with
  | attach | turn => exact short
  | _ => trivial

/-- A deed keeps the buffers of all sessions bounded. -/
theorem Contained.undergo (contained : k.Contained) (vacant : k.host? = none → k.sessions = [])
    (deed : Deed) (short : deed.Short) : (k.undergo deed).Contained := by
  apply each_undergo vacant deed contained
  · exact fun host peer => Session.fresh_contained peer host.options
  · intro host _ peer began
    exact began.live host _ (k.occurrences_short peer short)

/-- All through the life of a kernel the buffers of its sessions are bounded. -/
theorem Contained.live (contained : k.Contained) (vacant : k.host? = none → k.sessions = [])
    (life : List Deed) (short : ∀ deed ∈ life, deed.Short) : (k.live life).Contained := by
  induction life generalizing k with
  | nil => exact contained
  | cons deed life inductionHypothesis =>
    obtain ⟨first, later⟩ := List.forall_mem_cons.mp short
    exact inductionHypothesis (contained.undergo vacant deed first) (k.undergo_vacant vacant deed)
      later

/-- A kernel without sessions holds nothing. -/
theorem contained_of_vacant (empty : k.sessions = []) : k.Contained := by
  intro peer s held
  simp [session?, empty] at held

/-- Sessions that are told to end hold what they held. -/
theorem Contained.told (contained : k.Contained) : ({ k with
    sessions := k.sessions.map fun entry => (entry.1, entry.2.push .shutdown) } :
      Kernel).Contained := by
  intro peer s found
  rw [k.session?_told] at found
  obtain ⟨old, held, rfl⟩ := Option.map_eq_some_iff.mp found
  -- To be told to end is an occurrence like any other, and the host plays no part in it.
  have host : Host := ⟨peer, ⟨0, 0⟩, {}⟩
  exact (contained peer old held).undergo host .shutdown trivial

end Kernel

/-- A read gives no more than it asks for. -/
theorem Network.read_short (n : Network) (e : Endpoint) (limit : Nat) (bytes : ByteArray)
    (read : (n.read e limit).1 = .bytes bytes) : bytes.size ≤ limit := by
  unfold Network.read at read
  split at read
  · cases read
  · next c _ =>
    dsimp only at read
    unfold Pipe.read at read
    split at read
    · cases read
      rw [ByteArray.size_extract]
      omega
    · split at read <;> cases read

namespace Handshake

/-- A piece that is read for a greeting is no more than one read. -/
theorem piece_short (network : Network) (endpoint : Endpoint) (buffer : ByteArray) :
    ∀ bytes ∈ piece network endpoint buffer, bytes.size ≤ chunk := by
  intro bytes listed
  unfold piece at listed
  split at listed
  · next read _ seen =>
    rw [List.mem_singleton.mp listed]
    exact network.read_short endpoint chunk _ seen
  · cases listed

/-- As long as a greeting is awaited no frame is complete. -/
theorem take?_waits (buffer : ByteArray) (incomplete : take? buffer = .ok none) :
    next? buffer = .ok none := by
  unfold take? at incomplete
  split at incomplete
  · cases incomplete
  · next found => exact found
  · split at incomplete <;> cases incomplete

/-- What was gathered for a greeting: nothing was complete before the last piece, which is no more
than one read. -/
def Gathered (buffer : ByteArray) : Prop :=
  ∃ held piece, buffer = held ++ piece ∧ take? held = .ok none ∧ piece.size ≤ chunk

/-- Nothing was gathered at the beginning. -/
theorem gathered_empty : Gathered .empty := ⟨.empty, .empty, rfl, rfl, by decide⟩

/-- What was gathered for a greeting is less than the largest frame and one more read. -/
theorem Gathered.size {buffer : ByteArray} (gathered : Gathered buffer) :
    buffer.size < largest + chunk := by
  obtain ⟨held, piece, rfl, incomplete, short⟩ := gathered
  have few := next?_waits held (take?_waits held incomplete)
  rw [ByteArray.size_append]
  omega

/-- What is left behind a greeting is less than one read. -/
theorem Gathered.surplus {buffer surplus : ByteArray} {hello : Hello}
    (gathered : Gathered buffer) (taken : take? buffer = .ok (some (hello, surplus))) :
    surplus.size < chunk := by
  obtain ⟨held, piece, rfl, incomplete, short⟩ := gathered
  obtain ⟨e, complete, _⟩ := take?_takes _ hello surplus taken
  have part := next?_leaves_last held piece e surplus (take?_waits held incomplete) complete
  omega

/-- What is read until a greeting is found or something is wrong is less than the largest frame and
one more read, and as long as nothing is found it is less than the largest frame. -/
theorem await_reads (buffer : ByteArray) (held : buffer.size < largest + chunk)
    (pieces : List ByteArray) (short : ∀ piece ∈ pieces, piece.size ≤ chunk) : ∃ read,
      pieces = read ++ (await buffer pieces).2 ∧
        (buffer ++ together read).size < largest + chunk ∧
        ((await buffer pieces).1 = .ok none → (buffer ++ together read).size < largest) := by
  have nothing : buffer ++ together [] = buffer := by
    rw [together_nil, ByteArray.append_empty]
  -- Another piece is read only as long as nothing is complete, on top of less than a frame.
  induction pieces generalizing buffer with
  | nil =>
    refine ⟨[], rfl, by rwa [nothing], fun awaited => ?_⟩
    rw [nothing]
    exact next?_waits buffer (take?_waits buffer awaited)
  | cons piece later inductionHypothesis =>
    obtain ⟨first, others⟩ := List.forall_mem_cons.mp short
    by_cases incomplete : take? buffer = .ok none
    · have few := next?_waits buffer (take?_waits buffer incomplete)
      have longer : (buffer ++ piece).size < largest + chunk := by
        rw [ByteArray.size_append]
        omega
      obtain ⟨read, split, within, waits⟩ := inductionHypothesis (buffer ++ piece) longer others
        (by rw [together_nil, ByteArray.append_empty])
      rw [ByteArray.append_assoc, ← together_cons] at within waits
      rw [await_more buffer piece later incomplete]
      exact ⟨piece :: read, congrArg (piece :: ·) split, within, waits⟩
    · rw [await_settled buffer _ incomplete]
      exact ⟨[], rfl, by rwa [nothing], fun awaited => absurd awaited incomplete⟩

end Handshake

/-- What is held for the greetings on an accepted connection is bounded. -/
def Welcome.Contained : Welcome → Prop
  | .reading buffer => Gathered buffer
  | .answering _ surplus _ _ => surplus.size < chunk

/-- What is held for an attempt to connect is bounded. -/
structure Dialing.Contained (d : Dialing) : Prop where
  gathered : ∀ endpoint due buffer, d.approach = some ⟨endpoint, due, .reading buffer⟩ →
    Gathered buffer
  surplus : ∀ greeted, d.outcome = some (.ok greeted) → greeted.surplus.size < chunk

/-- The piece that is read next for an accepted connection is no more than one read. -/
theorem Welcome.hears_short (endpoint : Endpoint) (network : Network) (welcome : Welcome) :
    ∀ bytes ∈ welcome.hears endpoint network, bytes.size ≤ chunk := by
  cases welcome with
  | reading buffer => exact piece_short network endpoint buffer
  | answering => exact nofun

/-- The piece that is read next for an attempt to connect is no more than one read. -/
theorem Dialing.hears_short (d : Dialing) (network : Network) :
    ∀ bytes ∈ d.hears network, bytes.size ≤ chunk := by
  unfold Dialing.hears
  split
  · next endpoint _ buffer _ => exact piece_short network endpoint buffer
  · exact nofun

/-- A writer hands no bytes to the kernel. -/
theorem Writer.deeds_short (w : Writer) : ∀ deed ∈ w.deeds, deed.Short := by
  intro deed listed
  unfold Writer.deeds at listed
  split at listed
  · cases listed
  · split at listed
    · rw [List.mem_singleton.mp listed]
      trivial
    · cases listed

/-- A step of the greetings on an accepted connection keeps what is held for them bounded: a piece
is read only while no greeting is complete, and the rest behind a greeting is part of the last
piece. -/
theorem Welcomed.contained {endpoint : Endpoint} {welcome later : Welcome}
    {pieces : List ByteArray} {deeds : List Deed} (contained : welcome.Contained)
    (short : ∀ bytes ∈ pieces, bytes.size ≤ chunk)
    (welcomed : Welcomed endpoint welcome pieces (some later) deeds) : later.Contained := by
  cases welcomed with
  | heard buffer bytes incomplete =>
    exact ⟨buffer, bytes, rfl, incomplete, short bytes List.mem_cons_self⟩
  | greeted buffer hello surplus frame taken => exact Gathered.surplus contained taken
  | wrote => exact contained

/-- A step of an attempt to connect keeps what is held for it bounded. -/
theorem Dialing.Moves.contained {peer : PeerId} {network rest : Network} {d later : Dialing}
    {pieces : List ByteArray} (moves : d.Moves peer network pieces later rest)
    (contained : d.Contained) (short : ∀ bytes ∈ pieces, bytes.size ≤ chunk) :
    later.Contained := by
  cases moves with
  | exhausted => exact ⟨contained.gathered, nofun⟩
  | missed => exact ⟨contained.gathered, contained.surplus⟩
  | reached | passed | wrote => exact ⟨nofun, contained.surplus⟩
  | greeted =>
    refine ⟨?_, contained.surplus⟩
    rintro _ _ _ ⟨⟩
    exact gathered_empty
  | heard endpoint due buffer bytes rest reading pending incomplete =>
    refine ⟨?_, contained.surplus⟩
    rintro _ _ _ ⟨⟩
    exact ⟨buffer, bytes, rfl, incomplete, short bytes List.mem_cons_self⟩
  | met endpoint due buffer hello surplus reading pending taken =>
    refine ⟨nofun, ?_⟩
    rintro _ ⟨⟩
    exact (contained.gathered endpoint due buffer reading).surplus taken

namespace Node

/-- All that a node holds of what came over connections is bounded. -/
structure Contained (n : Node) : Prop where
  arrivals : ∀ a ∈ n.arrivals, a.welcome.Contained
  dialings : ∀ d ∈ n.dialings, d.Contained
  sessions : n.kernel.Contained
  vacant : n.kernel.host? = none → n.kernel.sessions = []

section Steps

variable {now : Nat} {n after : Node} {network rest : Network}

/-- What a session takes up brings no more than one read. -/
theorem Contained.upcoming?_short (contained : n.Contained) {peer : PeerId} {occasion : Occasion}
    {sendings : List Sending} {event : Event}
    (upcoming : n.upcoming? now peer occasion network = some (sendings, event)) : event.Short := by
  obtain ⟨s, _, brings⟩ := upcoming?_brings upcoming
  cases brings with
  | dialed d outcome listed _ ended =>
    cases outcome with
    | error => trivial
    | ok greeted => exact Nat.le_of_lt ((contained.dialings d listed).surplus greeted ended)
  | received link _ bytes read => exact network.read_short _ chunk bytes read
  | _ => trivial

/-- What an activity is for the kernel brings no more than is read at a time. -/
theorem Contained.deeds_short (contained : n.Contained) (activity : Activity) :
    ∀ deed ∈ n.deeds now network activity, deed.Short := by
  intro deed listed
  cases activity with
  | accept | dialing => cases listed
  | welcome endpoint =>
    cases found : n.arrival? endpoint with
    | none => simp [deeds, found] at listed
    | some a =>
      simp only [deeds, found, Option.map_some, Option.getD_some] at listed
      rcases Welcome.mem_deeds listed with
        ⟨hello, rfl, _⟩ | ⟨hello, surplus, frame, written, rfl, answering⟩
      · trivial
      · have few := contained.arrivals a (List.mem_of_find?_eq_some found)
        rw [answering] at few
        exact Nat.le_of_lt few
  | session peer occasion =>
    simp only [deeds] at listed
    split at listed
    · cases listed
    · next sendings event upcoming =>
      rcases List.mem_append.mp listed with before | here
      · exact sends_short now sendings deed before
      · rcases List.mem_cons.mp here with rfl | behind
        · exact contained.upcoming?_short upcoming
        · exact sends_short now _ deed behind
  | writer endpoint =>
    cases found : n.writers.find? fun w => w.endpoint = endpoint with
    | none => simp [deeds, found] at listed
    | some w =>
      simp only [deeds, found, Option.map_some, Option.getD_some] at listed
      exact w.deeds_short deed listed

/-- A step keeps what is held for accepted connections bounded. -/
theorem Contained.step?_arrivals (contained : n.Contained) {activity : Activity}
    (stepped : n.step? now network activity = some (after, rest)) :
    ∀ a ∈ after.arrivals, a.welcome.Contained := by
  have unchanged (same : after.arrivals = n.arrivals) :
      ∀ a ∈ after.arrivals, a.welcome.Contained := same ▸ contained.arrivals
  cases activity with
  | accept listener =>
    obtain ⟨⟨arrival, left⟩, _, same⟩ := Option.map_eq_some_iff.mp stepped
    cases same
    apply List.forall_mem_append.mpr ⟨contained.arrivals, ?_⟩
    intro a new
    rw [List.mem_singleton.mp new]
    exact gathered_empty
  | welcome endpoint =>
    obtain ⟨⟨there, due, welcome⟩, found, greets⟩ := welcome?_greets stepped
    have named := arrival?_endpoint found
    subst named
    have before : welcome.Contained := contained.arrivals _ (List.mem_of_find?_eq_some found)
    obtain ⟨deeds, _, welcomed⟩ := welcome?_goes found stepped
    intro a listed
    rcases greets.arrivals a listed with ⟨old, _⟩ | onward
    · exact contained.arrivals a old
    · rw [onward] at welcomed
      exact welcomed.contained before (welcome.hears_short there network)
  | dialing peer =>
    simp only [step?] at stepped
    obtain ⟨_, _, _, same, _⟩ := dialing?_moves stepped
    exact unchanged (by rw [same]; rfl)
  | session peer occasion =>
    obtain ⟨sendings, event, _, performed⟩ := session?_turns stepped
    obtain ⟨_, _, ready⟩ := ready_eq now peer n sendings event
    exact unchanged (by rw [performed.same, ready, cleared_eq])
  | writer endpoint =>
    obtain ⟨_, _, _, same, _⟩ := writer?_writes stepped
    exact unchanged (by rw [same]; rfl)

/-- What is over before a session takes up an event is no longer under way. -/
theorem cleared_dialings (peer : PeerId) (n : Node) (event : Event) :
    (n.cleared peer event).dialings ⊆ n.dialings := by
  cases event with
  | dialed outcome => exact List.filter_subset_self _
  | _ => exact List.Subset.refl _

/-- A step keeps what is held for attempts to connect bounded. -/
theorem Contained.step?_dialings (contained : n.Contained) {activity : Activity}
    (stepped : n.step? now network activity = some (after, rest)) :
    ∀ d ∈ after.dialings, d.Contained := by
  have unchanged (same : after.dialings = n.dialings) :
      ∀ d ∈ after.dialings, d.Contained := same ▸ contained.dialings
  cases activity with
  | accept listener =>
    obtain ⟨_, _, same⟩ := Option.map_eq_some_iff.mp stepped
    cases same
    exact contained.dialings
  | welcome endpoint =>
    obtain ⟨_, _, greets⟩ := welcome?_greets stepped
    exact unchanged (by rw [greets.same])
  | dialing peer =>
    simp only [step?] at stepped
    obtain ⟨d, found, later, same, _, moves⟩ := dialing?_moves stepped
    have before := contained.dialings d (List.mem_of_find?_eq_some found)
    rw [same]
    intro e listed
    obtain ⟨old, there, rfl⟩ := List.mem_map.mp listed
    split
    · exact moves.contained before (d.hears_short network)
    · exact contained.dialings old there
  | session peer occasion =>
    obtain ⟨sendings, event, _, performed⟩ := session?_turns stepped
    obtain ⟨_, _, ready⟩ := ready_eq now peer n sendings event
    intro d listed
    rcases performed.begun d listed with old | ⟨_, unreached, pending⟩
    · rw [ready] at old
      exact contained.dialings d (n.cleared_dialings peer event old)
    · exact ⟨by simp [unreached], by simp [pending]⟩
  | writer endpoint =>
    obtain ⟨_, _, _, same, _⟩ := writer?_writes stepped
    exact unchanged (by rw [same]; rfl)

/-- A step of a node keeps all that it holds bounded. -/
theorem Contained.step? (contained : n.Contained) {activity : Activity}
    (stepped : n.step? now network activity = some (after, rest)) : after.Contained where
  arrivals := contained.step?_arrivals stepped
  dialings := contained.step?_dialings stepped
  sessions := by
    rw [step?_lives stepped]
    exact contained.sessions.live contained.vacant _ (contained.deeds_short activity)
  vacant := by
    rw [step?_lives stepped]
    exact Kernel.live_vacant contained.vacant _

/-- A node that was just set up holds nothing. -/
theorem contained_new (n : Node) (arrivals : n.arrivals = []) (dialings : n.dialings = [])
    (sessions : n.kernel.sessions = []) : n.Contained where
  arrivals := by simp [arrivals]
  dialings := by simp [dialings]
  sessions := Kernel.contained_of_vacant sessions
  vacant _ := sessions

/-- A node keeps what it has within bounds if its kernel does. -/
theorem Contained.undergo (contained : n.Contained) (deed : Deed) (short : deed.Short) :
    ({ n with kernel := n.kernel.undergo deed } : Node).Contained where
  arrivals := contained.arrivals
  dialings := contained.dialings
  sessions := contained.sessions.undergo contained.vacant deed short
  vacant := n.kernel.undergo_vacant contained.vacant deed

/-- A session that is ended at once holds nothing more. -/
theorem Contained.abort (contained : n.Contained) (now : Nat) (peer : PeerId)
    (network : Network) : (n.abort now peer network).1.Contained := by
  have performed := abort_performed now peer n network
  have before := contained.undergo (.abort peer) trivial
  constructor
  case arrivals =>
    rw [performed.same]
    exact contained.arrivals
  case dialings =>
    intro d listed
    rcases performed.begun d listed with old | ⟨_, unreached, pending⟩
    · exact contained.dialings d old
    · exact ⟨by simp [unreached], by simp [pending]⟩
  case sessions =>
    rw [performed.kernel]
    exact before.sessions.live before.vacant _ (sends_short now _)
  case vacant =>
    rw [performed.kernel]
    exact Kernel.live_vacant before.vacant _

/-- Whatever becomes of a node, what it holds stays bounded. -/
theorem Contained.fares (contained : n.Contained) (fares : n.Fares after) : after.Contained := by
  cases fares with
  | acted now network rest activity after stepped => exact contained.step? stepped
  | called deed outside => exact contained.undergo deed (deed.short_of_outside outside)
  | aborted now peer network => exact contained.abort now peer network
  | withdrew network =>
    constructor
    case arrivals => exact nofun
    case dialings => exact contained.dialings
    case sessions => exact contained.sessions.undergo contained.vacant (.beginStop network) trivial
    case vacant => exact n.kernel.undergo_vacant contained.vacant (.beginStop network)
  | dropped =>
    constructor
    case arrivals => exact contained.arrivals
    case dialings => exact contained.dialings
    case sessions => exact contained.sessions.told
    case vacant => exact fun stopped => List.map_eq_nil_iff.mpr (contained.vacant stopped)
  | forgot => exact { contained with }

end Steps

/-- A node that comes about holds no more than that of what came over connections. -/
theorem ComesAbout.contained {n : Node} (comesAbout : n.ComesAbout) : n.Contained := by
  induction comesAbout with
  | new => exact contained_new _ rfl rfl rfl
  | fared n after _ fares inductionHypothesis => exact inductionHypothesis.fares fares

/-- The sizes of what a node holds of what came over connections. -/
structure Restrained (n : Node) : Prop where
  /-- What was read so far of the greeting on an accepted connection. -/
  accepted : ∀ a ∈ n.arrivals, ∀ buffer, a.welcome = .reading buffer →
    buffer.size < headerSize + maxBody + chunk
  /-- What was read so far of the greeting on a dialed connection. -/
  dialed : ∀ d ∈ n.dialings, ∀ endpoint due buffer,
    d.approach = some ⟨endpoint, due, .reading buffer⟩ → buffer.size < headerSize + maxBody + chunk
  /-- What arrived behind a greeting and is kept for the session. -/
  behind : (∀ a ∈ n.arrivals, ∀ hello surplus frame written,
      a.welcome = .answering hello surplus frame written → surplus.size < chunk) ∧
    ∀ d ∈ n.dialings, ∀ greeted, d.outcome = some (.ok greeted) → greeted.surplus.size < chunk
  /-- What was read so far of the frames on the connection of a session. -/
  linked : ∀ peer s link, n.kernel.session? peer = some s → s.link = some link →
    link.buffer.size < headerSize + maxBody + chunk ∧
      (s.stage = .idle → link.buffer.size < headerSize + maxBody)

/-- Bounds for what each part of a node holds. -/
theorem Contained.restrained {n : Node} (contained : n.Contained) : n.Restrained where
  accepted a listed buffer reading := by
    have gathered := contained.arrivals a listed
    rw [reading] at gathered
    exact Gathered.size gathered
  dialed d listed endpoint due buffer reading :=
    ((contained.dialings d listed).gathered endpoint due buffer reading).size
  behind := by
    refine ⟨fun a listed hello surplus frame written answering => ?_,
      fun d listed => (contained.dialings d listed).surplus⟩
    have few := contained.arrivals a listed
    rw [answering] at few
    exact few
  linked peer s link held linked :=
    have session := contained.sessions peer s held
    ⟨session.buffer link linked, fun idle => session.rests idle link linked⟩

end Node

/-- How much is held of what is read from connections, and when going through it ends. Nothing is
known of the bytes but how many are read at a time. -/
structure BoundedReading : Prop where
  /-- A frame that is taken uses up more than a header, no more than the largest frame has, and
  no more than is there. -/
  takes : ∀ buffer e rest, next? buffer = .ok (some (e, rest)) → ∃ length,
    headerSize < length ∧ length ≤ headerSize + maxBody ∧ length ≤ buffer.size ∧
      rest = buffer.extract length buffer.size
  /-- Bytes that are no complete frame yet are fewer than the largest frame has. -/
  waits : ∀ buffer, next? buffer = .ok none → buffer.size < headerSize + maxBody
  /-- A session that goes through its buffer by itself comes to the end of the frames after two
  turns for each that there is room for, and two more at most. -/
  rounds : ∀ host (s : Session) life, s.GoesThrough host life →
    life.length ≤ 2 * (s.buffered / (headerSize + 1)) + 2
  /-- A session that looks for a frame more often than its buffer has room for frames has come to
  the end of them in between, whatever else happens meanwhile. -/
  ends : ∀ host (s : Session) life, s.buffered < s.lookings host life * (headerSize + 1) →
    ∃ before, before <+: life ∧ ¬ (s.live host before).Reads
  /-- A session that reads comes to the end of the frames by itself. -/
  through : ∀ host (s : Session) now random answer, s.stage = .reading →
    ∃ turns : List Occurrence, (∀ turn ∈ turns, turn = .turn now random .proceed ∨
      turn = .turn now random (.replied answer)) ∧ (s.live host turns).stage = .idle
  /-- A session that comes to the end of the frames without an error still has what it had when
  it looked last, which is no complete frame. -/
  leaves : ∀ host (s : Session) now random link, s.stage = .reading →
    (s.undergo host (.turn now random .proceed)).stage = .idle →
    (s.undergo host (.turn now random .proceed)).link = some link →
      s.link = some link ∧ next? link.buffer = .ok none ∧
        link.buffer.size < headerSize + maxBody
  /-- Whatever happens to a session that is handed no more than one read at a time, its buffer
  holds less than the largest frame and one more read, and less than the largest frame when the
  session is idle. -/
  links : ∀ host peer life, (∀ occurrence ∈ life, Occurrence.Short occurrence) → ∀ link,
    ((Session.fresh peer host.options).live host life).link = some link →
      link.buffer.size < headerSize + maxBody + chunk ∧
        (((Session.fresh peer host.options).live host life).stage = .idle →
          link.buffer.size < headerSize + maxBody)
  /-- What is read for a greeting is less than the largest frame and one more read, and less than
  the largest frame as long as no greeting is found and nothing is wrong. -/
  greetings : ∀ pieces : List ByteArray, (∀ piece ∈ pieces, piece.size ≤ chunk) → ∃ read,
    pieces = read ++ (await .empty pieces).2 ∧
      (together read).size < headerSize + maxBody + chunk ∧
      ((await .empty pieces).1 = .ok none → (together read).size < headerSize + maxBody)
  /-- Whatever becomes of a node and of its network. -/
  nodes : ∀ n : Node, n.ComesAbout → n.Restrained
  /-- Whatever nodes and visitors do together. -/
  scenes : ∀ s : Scene, s.Reachable → ∀ n ∈ s.world.nodes, n.Restrained

/-- Reading is bounded and comes to its end. -/
theorem reading_bounded : BoundedReading where
  takes := next?_takes
  waits := next?_waits
  rounds host s life goes :=
    have within := s.goesThrough_rounds host life goes
    Nat.le_trans (Nat.le_trans (Nat.le_add_right _ _) within) s.rounds_le
  ends := Session.lookings_end
  through := Session.reads_through
  leaves host s now random link reading ended held := by
    obtain ⟨same, incomplete⟩ := s.left_waits host now random reading link ended held
    exact ⟨same, incomplete, next?_waits link.buffer incomplete⟩
  links host peer life short link held :=
    have contained := (Session.fresh_contained peer host.options).live host life short
    ⟨contained.buffer link held, fun idle => contained.rests idle link held⟩
  greetings pieces short := by
    have read := await_reads .empty (by decide) pieces short
    simp only [ByteArray.empty_append] at read
    exact read
  nodes _ comesAbout := comesAbout.contained.restrained
  scenes _ reachable n listed := (reachable.comesAbout n listed).contained.restrained

/-- A connection is adopted, and half a header arrives on it. -/
def trickle : List Occurrence :=
  [.attach ⟨⟨0, .acceptor⟩, ⟨bob, ⟨0, 2⟩, 0, none⟩, .empty⟩, .turn 0 quiet .command,
    .turn 0 quiet .proceed, .turn 0 quiet .proceed, .turn 0 quiet (.received ⟨#[1, 0, 0, 1]⟩),
    .turn 0 quiet .proceed]

/-- It is kept, and the session waits for more. -/
theorem trickle_waits : (∀ occurrence ∈ trickle, occurrence.Short) ∧ ∃ link,
    ((Session.fresh bob aliceService.host.options).live aliceService.host trickle).link =
        some link ∧ link.buffer = ⟨#[1, 0, 0, 1]⟩ ∧
      link.buffer.size < headerSize + maxBody := by
  have short : ∀ occurrence ∈ trickle, occurrence.Short := by
    have four : 4 ≤ chunk := by decide
    simp only [trickle, List.forall_mem_cons]
    exact ⟨Nat.zero_le chunk, trivial, trivial, trivial, four, trivial, nofun⟩
  have idle : ((Session.fresh bob aliceService.host.options).live aliceService.host
    trickle).stage = .idle := rfl
  refine ⟨short, _, rfl, rfl, ?_⟩
  exact (reading_bounded.links aliceService.host bob trickle short _ rfl).2 idle

end Courier
