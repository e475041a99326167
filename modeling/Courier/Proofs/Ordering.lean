import Courier.Proofs.Transcripts

/-!
# Order on a connection

The parcels that are handed over on one connection have increasing numbers, so that none of them
is written twice. What a ledger counts as written was drained on the connection held and not on an
earlier one, because a connection is adopted with the mark at the front. What is drained first is
therefore the whole queue as it then stands, and every later time it is what was queued since.
-/

namespace Courier

open Ledger

/-- The number of a parcel that is handed over. -/
def Line.number? : Line → Option Nat
  | .handed d => if d.body.isParcel then some d.seq else none
  | _ => none

/-- The messages that are drained. -/
def Line.entries : Line → List (Entry Parcel)
  | .drained entries => entries
  | _ => []

/-- The numbers of the parcels handed over are those of the dispatches. -/
theorem Line.handed_numbers (dispatches : List Dispatch)
    (parcels : ∀ d ∈ dispatches, d.body.isParcel = true) :
    (dispatches.map Line.handed).filterMap Line.number? = dispatches.map (·.seq) := by
  induction dispatches with
  | nil => rfl
  | cons d rest inductionHypothesis =>
    obtain ⟨parcel, others⟩ := List.forall_mem_cons.mp parcels
    have first : Line.number? (.handed d) = some d.seq := if_pos parcel
    rw [List.map_cons, List.filterMap_cons_some first, inductionHypothesis others, List.map_cons]

/-- Handing over drains nothing. -/
theorem Line.handed_entries (dispatches : List Dispatch) :
    (dispatches.map Line.handed).flatMap Line.entries = [] :=
  List.flatMap_eq_nil_iff.mpr (by simp [Line.entries])

/-- What is written of messages has their numbers, in their order. -/
theorem Entry.dispatches_numbers (ack : Nat) (entries : List (Entry Parcel)) :
    List.Sublist ((Entry.dispatches ack entries).map (·.seq)) (entries.map (·.seq)) := by
  induction entries with
  | nil => exact .slnil
  | cons e rest inductionHypothesis =>
    cases framed : Dispatch.of? (.parcel e.body) e.seq ack with
    | none =>
      rw [show Entry.dispatches ack (e :: rest) = _ from List.filterMap_cons_none framed]
      exact inductionHypothesis.cons _
    | some d =>
      obtain ⟨_, seq, _⟩ := Dispatch.of?_eq _ _ _ d framed
      rw [show Entry.dispatches ack (e :: rest) = _ from List.filterMap_cons_some framed,
        List.map_cons, List.map_cons, seq]
      exact inductionHypothesis.cons_cons _

/-- A transcript that is in order, with the ledger of the session that holds the connection. -/
structure Ledger.Ordered (l : Ledger) (transcript : List Line) : Prop where
  increasing : (transcript.filterMap Line.number?).Pairwise (· < ·)
  /-- What is still to be written comes behind all that was handed over. -/
  behind : ∀ n ∈ transcript.filterMap Line.number?,
    n ≤ l.window.sent ∧ ∀ e ∈ l.outbox.unwritten, n < e.seq
  drained : ∀ e ∈ l.outbox.written, e ∈ transcript.flatMap Line.entries

section Ordered

variable {limit : Nat} {l after : Ledger} {transcript : List Line}

/-- What is still to be written has a higher number than all that was handed over. -/
theorem Ledger.Ordered.below (ordered : l.Ordered transcript) (n : Nat)
    (handed : n ∈ transcript.filterMap Line.number?) (e : Entry Parcel) (awaits : l.Awaits e) :
    n < e.seq := by
  obtain ⟨sent, unwritten⟩ := ordered.behind n handed
  rcases awaits with waits | later
  · exact unwritten e waits
  · exact Nat.lt_of_le_of_lt sent later

/-- Lines that neither drain anything nor hand over a parcel leave a transcript in order. -/
theorem Ledger.Ordered.withheld (ordered : l.Ordered transcript) (withheld : l.Withheld after)
    (sent : l.window.sent ≤ after.window.sent) (lines : List Line)
    (unnumbered : lines.filterMap Line.number? = []) (undrained : lines.flatMap Line.entries = []) :
    after.Ordered (transcript ++ lines) := by
  constructor
  · rw [List.filterMap_append, unnumbered, List.append_nil]
    exact ordered.increasing
  · rw [List.filterMap_append, unnumbered, List.append_nil]
    intro n handed
    refine ⟨(ordered.behind n handed).1.trans sent, fun e unwritten => ?_⟩
    exact ordered.below n handed e (withheld.unwritten e unwritten)
  · rw [List.flatMap_append, undrained, List.append_nil]
    exact fun e written => ordered.drained e (withheld.written e written)

/-- Whatever an occurrence adds to a transcript, it stays in order. What is drained had still its
turn to be written, so its numbers are above those handed over before, and they increase along the
queue. -/
theorem Ledger.Conveyed.ordered {lines : List Line} (conveyed : l.Conveyed lines after)
    (ordered : l.Ordered transcript) (advances : l.Advances limit after) :
    after.Ordered (transcript ++ lines) := by
  cases conveyed with
  | aside _ withheld => exact ordered.withheld withheld advances.sent [] rfl rfl
  | read e _ withheld => exact ordered.withheld withheld advances.sent _ rfl rfl
  | acknowledged _ withheld =>
    refine ordered.withheld withheld advances.sent _ ?_ (Line.handed_entries _)
    refine List.filterMap_eq_nil_iff.mpr fun line listed => ?_
    obtain ⟨d, acknowledges, rfl⟩ := List.mem_map.mp listed
    obtain ⟨body, _⟩ := Dispatch.of?_eq _ _ _ d (Option.mem_toList.mp acknowledges)
    simp [Line.number?, body, Body.isParcel]
  | drained entries _ nonempty awaited behind all written =>
    obtain ⟨before, whole⟩ := behind
    have numbers : ((.drained entries :: (Entry.dispatches l.window.received entries).map
        .handed : List Line)).filterMap Line.number? =
          (Entry.dispatches l.window.received entries).map (·.seq) := by
      rw [List.filterMap_cons_none rfl]
      exact Line.handed_numbers _ fun d listed => (Entry.dispatches_body _ _ d listed).2.2
    have drains : ((.drained entries :: (Entry.dispatches l.window.received entries).map
        .handed : List Line)).flatMap Line.entries = entries := by
      rw [List.flatMap_cons, Line.handed_entries, List.append_nil]
      rfl
    have listed : List.Sublist ((Entry.dispatches l.window.received entries).map (·.seq))
        (entries.map (·.seq)) := Entry.dispatches_numbers _ entries
    have later (n : Nat) (handed : n ∈ (Entry.dispatches l.window.received entries).map (·.seq)) :
        ∃ e ∈ entries, e.seq = n := List.mem_map.mp (listed.subset handed)
    have held (e : Entry Parcel) (drained : e ∈ entries) : e ∈ after.outbox.entries := by
      rw [← whole]
      exact List.mem_append_right _ drained
    constructor
    · rw [List.filterMap_append, numbers, List.pairwise_append]
      refine ⟨ordered.increasing, ?_, ?_⟩
      · have sorted := advances.orderly.ordered
        rw [← whole] at sorted
        refine List.Pairwise.sublist listed ?_
        exact List.pairwise_map.mpr (List.pairwise_append.mp sorted).2.1
      · intro n handed m drained
        obtain ⟨e, among, rfl⟩ := later m drained
        exact ordered.below n handed e (awaited e among)
    · rw [List.filterMap_append, numbers, all]
      intro n handed
      refine ⟨?_, nofun⟩
      rcases List.mem_append.mp handed with old | new
      · exact (ordered.behind n old).1.trans advances.sent
      · obtain ⟨e, among, rfl⟩ := later n new
        exact (advances.orderly.between e (held e among)).2
    · rw [List.flatMap_append, drains]
      intro e listed
      rcases written e listed with old | new
      · exact List.mem_append_left _ (ordered.drained e old)
      · exact List.mem_append_right _ new

end Ordered

namespace Session

/-- A connection is adopted with nothing written, and with the queue in its order. -/
theorem joined_queue (host : Host) (now : Nat) (greeted : Greeted) (s : Session) :
    (s.joined host now greeted).ledger.outbox.written = [] ∧
      List.Sublist (s.joined host now greeted).ledger.outbox.entries s.ledger.outbox.entries := by
  refine ⟨rfl, ?_⟩
  have opened : s.ledger.Sheds ({ s.ledger with phase := .connected }.count
      (if s.link.isSome then Tally.duplicate else id)) := .same rfl rfl rfl
  exact (opened.trans (onConnected_sheds _ host.incarnation greeted.hello (.ofMillis now))).part

/-- An occurrence keeps a transcript in order: what it hands over was still to be written. -/
theorem transcribe_ordered {limit : Nat} (host : Host) (s : Session) (positive : 0 < limit)
    (regular : s.ledger.Regular limit) (transcript : List Line)
    (ordered : s.ledger.Ordered transcript) (occurrence : Occurrence) :
    (s.undergo host occurrence).ledger.Ordered (s.transcribe host transcript occurrence) := by
  have advances := (s.undergo_regular host positive regular occurrence).1
  unfold transcribe
  cases opened : s.adopts? host occurrence with
  | none =>
    have conveyed := s.conveyed host regular.toOrderly occurrence opened
    exact conveyed.ordered ordered advances
  | some greeted =>
    obtain ⟨now, t, ledger, same, _⟩ := s.undergo_adopts host occurrence greeted opened
    rw [same]
    refine ⟨.nil, nofun, ?_⟩
    rw [(t.joined_queue host now greeted).1]
    exact nofun

/-- All through a life the transcript of the connection held is in order. -/
theorem transcript_ordered {limit : Nat} (host : Host) (s : Session) (positive : 0 < limit)
    (regular : s.ledger.Regular limit) (transcript : List Line)
    (ordered : s.ledger.Ordered transcript) (life : List Occurrence) :
    (s.live host life).ledger.Ordered (s.transcript host transcript life) := by
  induction life generalizing s transcript with
  | nil => exact ordered
  | cons occurrence rest inductionHypothesis =>
    have regular' := (s.undergo_regular host positive regular occurrence).2
    exact inductionHypothesis _ regular' _
      (s.transcribe_ordered host positive regular transcript ordered occurrence)

/-- Every session writes to the connection that it holds. There is one case for each kind of turn,
and only flushes and acknowledgements write. -/
theorem asked_addressed (host : Host) (s : Session) (occurrence : Occurrence)
    (endpoint : Endpoint) (dispatches : List Dispatch)
    (writes : .write endpoint dispatches ∈ s.asked host occurrence) :
    ∃ link, s.link = some link ∧ link.endpoint = endpoint := by
  have unheard (effects : List Effect) (silent : ∀ effect ∈ effects, effect.isSilent = true)
      (writes : .write endpoint dispatches ∈ effects) :
      ∃ link, s.link = some link ∧ link.endpoint = endpoint := by
    cases silent _ writes
  have given (link : Link) (others : List Dispatch)
      (writes : .write endpoint dispatches ∈ writings link.endpoint others) :
      link.endpoint = endpoint := by
    have wrote := forall_writings (P := (· = .write link.endpoint others)) link.endpoint others rfl _
      writes
    cases wrote
    rfl
  cases occurrence with
  | turn now random event =>
    obtain ⟨effects, asked, turned⟩ := Turn.handle_goes host now ⟨s, random, []⟩ event
    have asked : s.asked host (.turn now random event) = effects := asked
    rw [asked] at writes
    have moved := turned.moved
    generalize (Turn.handle host now ⟨s, random, []⟩ event).session = after at moved
    cases moved with
    | quiet _ _ _ _ silent | joined _ _ _ _ _ _ _ silent => exact unheard _ silent writes
    | flushed _ t middle _ _ before flush =>
      cases flush with
      | nothing => cases writes
      | written link held =>
        rcases before.link with gone | same
        · cases gone.symm.trans held.1
        · exact ⟨link, same.symm.trans held.1, given link _ writes⟩
    | replied _ _ _ _ _ _ _ flush =>
      cases flush with
      | nothing => cases writes
      | written link held => exact ⟨link, held.1, given link _ writes⟩
    | acknowledged _ link _ held => exact ⟨link, held, given link _ writes⟩
    | read link e rest _ _ held complete took => cases took <;> simp at writes
    | received => cases writes
    | gaveUp => cases s.rejections_silent _ writes
  | abort random =>
    obtain ⟨effects, asked, parting, _⟩ := Turn.release_goes ⟨s, random, []⟩
    have asked : s.asked host (.abort random) = effects := asked
    exact unheard effects (silent_of_parting parting) (asked ▸ writes)
  | _ => cases writes

/-- What an occurrence drains, and what it adds to the transcript then. -/
structure Drains (host : Host) (s : Session) (occurrence : Occurrence)
    (entries : List (Entry Parcel)) : Prop where
  lines : s.lines host occurrence =
    .drained entries :: (Entry.dispatches s.ledger.window.received entries).map .handed
  behind : entries <:+ (s.undergo host occurrence).ledger.outbox.entries
  all : (s.undergo host occurrence).ledger.outbox.unwritten = []
  written : ∀ e ∈ (s.undergo host occurrence).ledger.outbox.written,
    e ∈ s.ledger.outbox.written ∨ e ∈ entries

/-- What an occurrence drains, it drains whole, and hands over what of it has a frame. -/
theorem lines_drained {limit : Nat} (host : Host) (s : Session) (orderly : s.ledger.Orderly limit)
    (occurrence : Occurrence) (entries : List (Entry Parcel))
    (drains : .drained entries ∈ s.lines host occurrence) : s.Drains host occurrence entries := by
  cases opened : s.adopts? host occurrence with
  | none =>
    have conveyed := s.conveyed host orderly occurrence opened
    generalize listed : s.lines host occurrence = lines at drains conveyed
    cases conveyed with
    | drained others _ _ _ behind all written =>
      rcases List.mem_cons.mp drains with same | handed
      · cases same
        exact ⟨listed, behind, all, written⟩
      · simp at handed
    | _ => simp at drains
  | some greeted =>
    rw [s.lines_adopting host occurrence greeted opened] at drains
    cases drains

/-- Where nothing was written before, all that is held is drained. -/
theorem Drains.whole {limit : Nat} {host : Host} {s : Session} {occurrence : Occurrence}
    {entries : List (Entry Parcel)} (drains : s.Drains host occurrence entries)
    (unwritten : s.ledger.outbox.written = [])
    (orderly : (s.undergo host occurrence).ledger.Orderly limit) :
    entries = (s.undergo host occurrence).ledger.outbox.entries := by
  obtain ⟨before, split⟩ := drains.behind
  have distinct : (before ++ entries).Nodup := by
    rw [split]
    exact orderly.ordered.imp fun less same =>
      absurd (congrArg Entry.seq same) (Nat.ne_of_lt less)
  have nothing : before = [] := by
    refine List.eq_nil_iff_forall_not_mem.mpr fun e listed => ?_
    have written : e ∈ (s.undergo host occurrence).ledger.outbox.written := by
      have held : e ∈ (s.undergo host occurrence).ledger.outbox.entries :=
        split ▸ List.mem_append_left _ listed
      rwa [← Outbox.written_append_unwritten, drains.all, List.append_nil] at held
    rcases drains.written e written with old | drained
    · rw [unwritten] at old
      cases old
    · exact List.disjoint_of_nodup_append distinct listed drained
  rw [← split, nothing, List.nil_append]

/-- Order on the connection held, as its transcript shows it. -/
structure InOrder (host : Host) (s : Session) (transcript : List Line) : Prop where
  /-- The numbers of the parcels that were handed over increase. -/
  increasing : (transcript.filterMap Line.number?).Pairwise (· < ·)
  /-- What counts as written was drained on this connection. -/
  drained : ∀ e ∈ s.ledger.outbox.written, e ∈ transcript.flatMap Line.entries
  /-- What is drained is the last part of the queue, nothing is left to be written, and all that
  has a frame is handed over in the order of the queue. -/
  drains : ∀ occurrence entries, .drained entries ∈ s.lines host occurrence →
    entries <:+ (s.undergo host occurrence).ledger.outbox.entries ∧
      (s.undergo host occurrence).ledger.outbox.unwritten = [] ∧
      s.lines host occurrence =
        .drained entries :: (Entry.dispatches s.ledger.window.received entries).map .handed
  /-- What is drained first is the whole queue as it then stands. -/
  whole : (∀ earlier, .drained earlier ∉ transcript) →
    ∀ occurrence entries, .drained entries ∈ s.lines host occurrence →
      entries = (s.undergo host occurrence).ledger.outbox.entries
  /-- A session that has just adopted a connection drains it in its next turn, unless there is
  nothing to write or the phase forbids it. -/
  greets : ∀ link, s.stage = .greeting → s.Writes link → ∀ now random,
    .drained s.ledger.outbox.unwritten ∈ s.lines host (.turn now random .proceed)
  /-- A connection is adopted with nothing written, before anything is written to it, and what
  stays in the queue keeps its order. -/
  adopts : ∀ occurrence greeted, s.adopts? host occurrence = some greeted →
    (s.undergo host occurrence).ledger.outbox.written = [] ∧
      List.Sublist (s.undergo host occurrence).ledger.outbox.entries s.ledger.outbox.entries ∧
      (s.asked host occurrence).flatMap Effect.dispatches = []
  /-- Until the next one is adopted, the connection held is the same. -/
  holds : ∀ occurrence, s.adopts? host occurrence = none → ∀ link,
    (s.undergo host occurrence).link = some link →
      ∃ before, s.link = some before ∧ before.endpoint = link.endpoint
  /-- Everything is written to the connection held. -/
  addressed : ∀ occurrence endpoint dispatches,
    .write endpoint dispatches ∈ s.asked host occurrence →
      ∃ link, s.link = some link ∧ link.endpoint = endpoint

/-- A session drains its whole queue behind the greetings. -/
theorem lines_greeting {limit : Nat} (host : Host) (s : Session) (orderly : s.ledger.Orderly limit)
    (link : Link) (greeting : s.stage = .greeting) (writes : s.Writes link) (now : Nat)
    (random : Random.Stream) :
    .drained s.ledger.outbox.unwritten ∈ s.lines host (.turn now random .proceed) := by
  have greets := s.handle_greeting host now random link greeting writes
  have unread : s.intake? host (.turn now random .proceed) = none := by
    simp [intake?, front?, greeting]
  have marks : s.marks (s.undergo host (.turn now random .proceed)) =
      s.ledger.outbox.unwritten := by
    rw [undergo, greets]
    refine marks_drained s.ledger.outbox rfl (fun _ => id) ?_
    exact fun e listed => Awaits.unwritten (.inl listed) orderly
  have some : s.ledger.outbox.unwritten ≠ [] := by
    intro none
    have length := s.ledger.outbox.length_unwritten
    rw [none] at length
    exact writes.2.2 length.symm
  rw [s.lines_unread host _ unread _ marks _ rfl, Line.draining, if_neg (by simpa using some)]
  exact List.mem_append_left _ List.mem_cons_self

/-- A session that adopts no connection holds the one that it held, if any. -/
theorem undergo_holds (host : Host) (s : Session) (occurrence : Occurrence)
    (unopened : s.adopts? host occurrence = none) (link : Link)
    (held : (s.undergo host occurrence).link = some link) :
    ∃ before, s.link = some before ∧ before.endpoint = link.endpoint := by
  cases s.carried host occurrence with
  | kept _ _ _ same => exact ⟨link, same.symm.trans held, rfl⟩
  | dropped _ gone => cases gone.symm.trans held
  | received bytes before _ _ _ holds longer =>
    cases longer.symm.trans held
    exact ⟨before, holds, rfl⟩
  | read intake rest before _ _ _ holds _ shorter =>
    cases shorter.symm.trans held
    exact ⟨before, holds, rfl⟩
  | joined greeted opened => cases unopened.symm.trans opened

/-- Along every life of a session, what it writes on a connection is in order. The transcript is in
order all through the life, and what an occurrence drains is read off from it. -/
theorem live_inOrder (host : Host) (peer : PeerId) (life : List Occurrence) :
    InOrder host ((fresh peer host.options).live host life)
      ((fresh peer host.options).transcript host [] life) := by
  have begun : (fresh peer host.options).ledger.Ordered [] := ⟨.nil, nofun, nofun⟩
  have regular := Ledger.fresh_regular_max peer host.options
  have ordered := transcript_ordered host _ host.options.room_pos regular [] begun life
  have orderly := (live_regular_max host peer life).toOrderly
  constructor
  case increasing => exact ordered.increasing
  case drained => exact ordered.drained
  case drains =>
    intro occurrence entries drains
    have drained := lines_drained host _ orderly occurrence entries drains
    exact ⟨drained.behind, drained.all, drained.lines⟩
  case whole =>
    intro undrained occurrence entries drains
    have drained := lines_drained host _ orderly occurrence entries drains
    have unwritten : ((fresh peer host.options).live host life).ledger.outbox.written = [] := by
      refine List.eq_nil_iff_forall_not_mem.mpr fun e listed => ?_
      obtain ⟨line, among, drains⟩ := List.mem_flatMap.mp (ordered.drained e listed)
      cases line with
      | drained earlier => exact undrained earlier among
      | read | handed => cases drains
    have orderly := (undergo_regular host _ host.options.room_pos
      (live_regular_max host peer life) occurrence).2.toOrderly
    exact drained.whole unwritten orderly
  case greets => exact fun link => lines_greeting host _ orderly link
  case adopts =>
    intro occurrence greeted opened
    obtain ⟨now, t, ledger, same, silent⟩ := undergo_adopts host _ occurrence greeted opened
    obtain ⟨written, queue⟩ := t.joined_queue host now greeted
    rw [same, ← ledger]
    exact ⟨written, queue, dispatches_silent silent⟩
  case holds => exact fun occurrence => undergo_holds host _ occurrence
  case addressed =>
    exact fun occurrence endpoint dispatches =>
      asked_addressed host _ occurrence endpoint dispatches

end Session

end Courier
