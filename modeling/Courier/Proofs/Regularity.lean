import Courier.Proofs.Closing
import Courier.Proofs.Hearing
import Courier.Proofs.Sending

/-!
# Every ledger is regular

Whatever the applications and the peers do, the numbers of a ledger stay in their order: no
more is acknowledged than was sent, the outbox holds numbers strictly between what is
acknowledged and what was given out, in increasing order and within its capacity, and
bindings are told apart by numbers that were given out once. The counters of a ledger never
go back, except for the number received, which starts over with a peer that restarted.

The acknowledgements, greetings and envelopes may say anything. What keeps the numbers in
order is that an acknowledgement is cut down to what was sent and that the outbox is ordered,
so that the front which an acknowledgement covers is all that it covers.
-/

namespace Courier

/-- The binding that a queued message names for its reply. -/
def Parcel.binding? : Parcel → Option Nat
  | .message _ replyTo => replyTo
  | .reply _ _ => none

/-- An outbox in order, along with the numbers given out and acknowledged. -/
structure Ledger.Orderly (limit : Nat) (l : Ledger) : Prop where
  capacity : l.outbox.capacity = limit
  acked : l.window.acked ≤ l.window.sent
  ordered : l.outbox.entries.Pairwise fun e f => e.seq < f.seq
  between : ∀ e ∈ l.outbox.entries, l.window.acked < e.seq ∧ e.seq ≤ l.window.sent
  within : l.outbox.size ≤ limit
  marked : l.outbox.marked ≤ l.outbox.size
  named : ∀ e ∈ l.outbox.entries, ∀ n, e.body.binding? = some n → n < l.nextBinding
  distinct : l.outbox.entries.Pairwise fun e f =>
    ∀ n, e.body.binding? = some n → f.body.binding? ≠ some n

/-- What holds of every ledger: its outbox is in order, and the bindings that wait for a reply
have numbers that were given out. -/
structure Ledger.Regular (limit : Nat) (l : Ledger) : Prop extends l.Orderly limit where
  bound : ∀ binding ∈ l.bindings, binding.1 < l.nextBinding

/-- A ledger goes on to another one in order, and none of its counters goes back. -/
structure Ledger.Advances (limit : Nat) (l after : Ledger) : Prop where
  orderly : after.Orderly limit
  sent : l.window.sent ≤ after.window.sent
  acked : l.window.acked ≤ after.window.acked
  nextBinding : l.nextBinding ≤ after.nextBinding

namespace Ledger

variable {limit : Nat} {l after : Ledger}

/-- Going on in order twice is going on in order. -/
theorem Advances.trans {middle : Ledger} (first : l.Advances limit middle)
    (second : middle.Advances limit after) : l.Advances limit after :=
  ⟨second.orderly, first.sent.trans second.sent, first.acked.trans second.acked,
    first.nextBinding.trans second.nextBinding⟩

/-- The ledger of a session of a peer not heard of before is regular. -/
theorem fresh_regular (peer : PeerId) (options : Options) (positive : 0 < options.maxQueue) :
    (fresh peer options).Regular options.maxQueue where
  capacity := Nat.max_eq_left positive
  acked := Nat.le_refl 0
  ordered := .nil
  between := nofun
  within := Nat.zero_le _
  marked := Nat.le_refl 0
  named := nofun
  distinct := .nil
  bound := nofun

namespace Orderly

/-- Messages may leave an orderly outbox, and more may be acknowledged. -/
theorem fewer (orderly : l.Orderly limit) (capacity : after.outbox.capacity = l.outbox.capacity)
    (part : List.Sublist after.outbox.entries l.outbox.entries) (marked : after.outbox.Sound)
    (sent : after.window.sent = l.window.sent) (grown : l.window.acked ≤ after.window.acked)
    (acked : after.window.acked ≤ l.window.sent)
    (above : ∀ e ∈ after.outbox.entries, after.window.acked < e.seq)
    (binding : after.nextBinding = l.nextBinding) : l.Advances limit after := by
  refine ⟨?_, Nat.le_of_eq sent.symm, grown, Nat.le_of_eq binding.symm⟩
  exact {
    capacity := capacity.trans orderly.capacity
    acked := sent ▸ acked
    ordered := orderly.ordered.sublist part
    between := fun e listed => ⟨above e listed, sent ▸ (orderly.between e (part.subset listed)).2⟩
    within := part.length_le.trans orderly.within
    marked
    named := fun e listed => binding ▸ orderly.named e (part.subset listed)
    distinct := orderly.distinct.sublist part }

/-- Only the outbox and three numbers matter. -/
theorem same (orderly : l.Orderly limit) (outbox : after.outbox = l.outbox := by rfl)
    (sent : after.window.sent = l.window.sent := by rfl)
    (acked : after.window.acked = l.window.acked := by rfl)
    (binding : after.nextBinding = l.nextBinding := by rfl) : l.Advances limit after := by
  refine orderly.fewer (by rw [outbox]) (outbox ▸ .refl _) (outbox ▸ orderly.marked) sent
    (Nat.le_of_eq acked.symm) (acked ▸ orderly.acked) ?_ binding
  intro e listed
  rw [acked]
  exact (orderly.between e (outbox ▸ listed)).1

/-- Draining moves the mark of the outbox, and the numbers go on in order. -/
theorem drained (orderly : l.Orderly limit) : l.Advances limit l.drain.2.2 :=
  orderly.fewer rfl (.refl _) (Outbox.drain_sound _) rfl (Nat.le_refl _) orderly.acked
    (fun e listed => (orderly.between e listed).1) rfl

/-- An acknowledgement may claim anything. -/
theorem heeded (orderly : l.Orderly limit) (seq : Nat) : l.Advances limit (l.applyAck seq) := by
  exact orderly.fewer rfl (l.applyAck_sublist seq) (Outbox.ack_sound _ orderly.marked _) rfl
    (l.window.acked_le_acknowledge seq) (l.window.acknowledge_le_sent seq orderly.acked)
    (l.outbox.ack_above orderly.ordered _) rfl

/-- A restart of the peer forgets what was received, and the numbers go on in order. -/
theorem restarted (orderly : l.Orderly limit) : l.Advances limit l.onRestart :=
  orderly.fewer rfl List.filter_sublist
    (l.outbox.retain_sound orderly.marked fun parcel => !parcel.isReply) rfl (Nat.le_refl _)
    orderly.acked (fun e listed => (orderly.between e (List.mem_filter.mp listed).1).1) rfl

/-- An emptied outbox is in order. -/
theorem cleared (orderly : l.Orderly limit) :
    l.Advances limit { l with outbox := l.outbox.clear } :=
  orderly.fewer rfl (List.nil_sublist _) (Nat.le_refl 0) rfl (Nat.le_refl _) orderly.acked nofun
    rfl

/-- A greeting may say anything. -/
theorem connected (orderly : l.Orderly limit) (own : Incarnation) (hello : Hello)
    (now : Duration) : l.Advances limit (l.onConnected own hello now) := by
  refine l.onConnected_keeps own hello now ?_ ?_ ?_
  · exact l.observe_keeps hello.incarnation (orderly.same rfl rfl rfl rfl) fun named =>
      named.trans (restarted named.orderly)
  · exact fun _ m advances => advances.trans (advances.orderly.heeded hello.ack)
  · intro m tally advances
    refine advances.trans ?_
    exact advances.orderly.fewer rfl (.refl _) (Outbox.rewind_sound _) rfl (Nat.le_refl _)
      advances.orderly.acked (fun e listed => (advances.orderly.between e listed).1) rfl

/-- A parcel goes behind all others with a number of its own, and names no binding that another one
names. Its number is the next one, and the binding that it names was not given out before. -/
theorem queued (orderly : l.Orderly limit) (positive : 0 < limit) (made : Outbox Parcel)
    (evicted : Option (Entry Parcel)) (room : l.outbox.makeRoom = .ok (made, evicted))
    (parcel : Parcel) (now : Duration)
    (outbox : after.outbox = made.enqueue (l.window.sent + 1) parcel now)
    (sent : after.window.sent = l.window.sent + 1) (acked : after.window.acked = l.window.acked)
    (grown : l.nextBinding ≤ after.nextBinding)
    (named : ∀ n, parcel.binding? = some n → l.nextBinding ≤ n ∧ n < after.nextBinding) :
    l.Advances limit after := by
  have part := (l.outbox.makeRoom_fewer made evicted room).1
  obtain ⟨capacity, below⟩ := l.outbox.makeRoom_below made evicted room
    (orderly.capacity ▸ positive) (orderly.capacity ▸ orderly.within)
  have entries : after.outbox.entries = made.entries ++ [⟨l.window.sent + 1, parcel, now⟩] := by
    rw [outbox]
    rfl
  have size : after.outbox.size = made.size + 1 := by simp [Outbox.size, entries]
  have listed (e : Entry Parcel) (among : e ∈ after.outbox.entries) :
      e ∈ l.outbox.entries ∨ e = ⟨l.window.sent + 1, parcel, now⟩ := by
    rw [entries] at among
    exact (List.mem_append.mp among).imp (fun old => part.subset old) List.mem_singleton.mp
  refine ⟨?_, sent ▸ Nat.le_succ _, Nat.le_of_eq acked.symm, grown⟩
  refine ⟨?_, ?_, ?_, ?_, ?_, ?_, ?_, ?_⟩
  · rw [outbox]
    exact capacity.trans orderly.capacity
  · rw [sent, acked]
    exact Nat.le_succ_of_le orderly.acked
  · rw [entries, List.pairwise_append]
    refine ⟨orderly.ordered.sublist part, List.pairwise_singleton _ _, ?_⟩
    intro e old f last
    rw [List.mem_singleton.mp last]
    exact Nat.lt_succ_of_le (orderly.between e (part.subset old)).2
  · rw [sent, acked]
    intro e among
    rcases listed e among with old | rfl
    · exact (orderly.between e old).imp_right Nat.le_succ_of_le
    · exact ⟨Nat.lt_succ_of_le orderly.acked, Nat.le_refl _⟩
  · rw [size]
    exact orderly.capacity ▸ below
  · rw [outbox]
    exact made.enqueue_sound (l.outbox.makeRoom_sound made orderly.marked evicted room) _ _ _
  · intro e among n names
    rcases listed e among with old | rfl
    · exact (orderly.named e old n names).trans_le grown
    · exact (named n names).2
  -- A binding that is named now was not given out before.
  · rw [entries, List.pairwise_append]
    refine ⟨orderly.distinct.sublist part, List.pairwise_singleton _ _, ?_⟩
    intro e old f last n first second
    rw [List.mem_singleton.mp last] at second
    exact absurd (orderly.named e (part.subset old) n first) (Nat.not_lt.mpr (named n second).1)

end Orderly

end Ledger

open Ledger

/-- A turn that is quiet keeps the numbers in order. -/
theorem Session.Quiet.advances {limit : Nat} {host : Host} {s after : Session}
    (quiet : s.Quiet host after) (orderly : s.ledger.Orderly limit) :
    s.ledger.Advances limit after.ledger :=
  orderly.same quiet.outbox quiet.sent quiet.acked quiet.nextBinding

/-- A flush keeps the numbers in order. -/
theorem Flushed.advances {limit : Nat} {s after : Session} {effects : List Effect}
    (flushed : Flushed s after effects) (orderly : s.ledger.Orderly limit) :
    s.ledger.Advances limit after.ledger := by
  cases flushed with
  | nothing => exact orderly.same rfl rfl rfl rfl
  | written => exact orderly.drained

/-- Taking in an envelope keeps the numbers in order, whatever it acknowledges. -/
theorem Took.advances {limit : Nat} {e : Envelope} {s after : Session} {effects : List Effect}
    (took : Took e s after effects) (orderly : s.ledger.Orderly limit) :
    s.ledger.Advances limit after.ledger := by
  have heeded : s.ledger.Advances limit (s.ledger.heeding e) :=
    s.ledger.heeding_keeps e (orderly.same rfl rfl rfl rfl) (orderly.heeded e.ack)
  have leaves := took.leaves
  exact heeded.trans
    (heeded.orderly.same leaves.outbox leaves.sent leaves.acked leaves.nextBinding)

/-- Every turn keeps the outbox in order. There is one case for each thing that a turn may mean for
the messages. -/
theorem Moved.advances {limit : Nat} {host : Host} {now : Nat} {event : Event}
    {s after : Session} {effects : List Effect} (moved : Moved host now s event after effects)
    (positive : 0 < limit) (orderly : s.ledger.Orderly limit) :
    s.ledger.Advances limit after.ledger := by
  cases moved with
  | quiet event after effects quiet silent => exact quiet.advances orderly
  | joined event greeted t effects quiet origin link silent =>
    have before := quiet.advances orderly
    have began : t.ledger.Advances limit ({ t.ledger with phase := .connected }.count
        (if t.link.isSome then Tally.duplicate else id)) :=
      before.orderly.same rfl rfl rfl rfl
    exact (before.trans began).trans (began.orderly.connected _ _ _)
  | flushed event t flushed after effects before flush behind =>
    have began := before.advances orderly
    have wrote := began.trans (flush.advances began.orderly)
    exact wrote.trans (behind.advances wrote.orderly)
  | replied replyTo payload ledger after effects stage queued flush =>
    obtain ⟨made, evicted, tally, room, _, rfl⟩ := s.ledger.enqueueReply_eq _ _ _ _ queued
    have replied : s.ledger.Advances limit { s.ledger with
        window := { s.ledger.window with sent := s.ledger.window.sent + 1 }
        outbox := made.enqueue (s.ledger.window.sent + 1) (.reply replyTo payload) (.ofMillis now)
        tally } :=
      orderly.queued positive made evicted room _ (.ofMillis now) rfl rfl rfl (Nat.le_refl _) nofun
    exact replied.trans (flush.advances replied.orderly)
  | acknowledged event link after held quiet => exact quiet.advances orderly
  | received bytes link held => exact orderly.same rfl rfl rfl rfl
  | read link e rest after effects held complete took => exact took.advances orderly
  | gaveUp error after t quiet cleared =>
    subst cleared
    have before := quiet.advances orderly
    have gone : t.ledger.Advances limit { t.ledger with outbox := t.ledger.outbox.clear } :=
      before.orderly.cleared
    rw [quiet.outbox] at gone
    exact before.trans gone

namespace Session

variable {limit : Nat}

/-- A letter takes a new binding for its promise, if it has one. -/
theorem post_regular {l queued : Ledger} (letter : Letter) (now : Duration)
    (accepted : l.enqueueLetter letter now = .ok queued) (positive : 0 < limit)
    (regular : l.Regular limit) : l.Advances limit queued ∧ queued.Regular limit := by
  obtain ⟨made, evicted, tally, room, _, rfl⟩ := l.enqueueLetter_eq queued letter now accepted
  cases promised : letter.promise with
  | none =>
    have advances : l.Advances limit { l with
        window := { l.window with sent := l.window.sent + 1 }
        outbox := made.enqueue (l.window.sent + 1) (.message letter.payload none) now
        tally } := regular.queued positive made evicted room _ now rfl rfl rfl (Nat.le_refl _) nofun
    exact ⟨advances, advances.orderly, regular.bound⟩
  | some promise =>
    have advances : l.Advances limit { l with
        window := { l.window with sent := l.window.sent + 1 }
        outbox := made.enqueue (l.window.sent + 1)
          (.message letter.payload (some l.nextBinding)) now
        bindings := l.bindings ++ [(l.nextBinding, promise)]
        nextBinding := l.nextBinding + 1
        tally } := by
      refine regular.queued positive made evicted room _ now rfl rfl rfl (Nat.le_succ _) ?_
      rintro n ⟨⟩
      exact ⟨Nat.le_refl _, Nat.lt_succ_self _⟩
    refine ⟨advances, advances.orderly, ?_⟩
    intro binding listed
    rcases List.mem_append.mp listed with old | last
    · exact Nat.lt_succ_of_lt (regular.bound binding old)
    · rw [List.mem_singleton.mp last]
      exact Nat.lt_succ_self _

/-- Whatever happens to a session, its ledger stays regular and no counter goes back. -/
theorem undergo_regular (host : Host) (s : Session) (positive : 0 < limit)
    (regular : s.ledger.Regular limit) (occurrence : Occurrence) :
    s.ledger.Advances limit (s.undergo host occurrence).ledger ∧
      (s.undergo host occurrence).ledger.Regular limit := by
  have undergone := s.undergone host occurrence
  generalize s.undergo host occurrence = after at undergone ⊢
  cases undergone with
  | spared _ _ spared =>
    have advances : s.ledger.Advances limit after.ledger := regular.same spared.outbox
      (by rw [spared.window]) (by rw [spared.window]) spared.nextBinding
    refine ⟨advances, advances.orderly, ?_⟩
    rw [spared.bindings, spared.nextBinding]
    exact regular.bound
  | posted letter now queued accepted posted =>
    exact post_regular letter now accepted positive regular
  | turned now random event =>
    obtain ⟨effects, turned⟩ := s.undergo_turn host now random event
    have advances := turned.moved.advances positive regular.toOrderly
    refine ⟨advances, advances.orderly, ?_⟩
    exact fun binding listed =>
      (regular.bound binding (turned.bindings binding listed)).trans_le advances.nextBinding

/-- A regular ledger stays regular all through a life, by induction on its occurrences. -/
theorem regular_live (host : Host) (s : Session) (positive : 0 < limit)
    (regular : s.ledger.Regular limit) (life : List Occurrence) :
    (s.live host life).ledger.Regular limit := by
  induction life generalizing s with
  | nil => exact regular
  | cons occurrence rest inductionHypothesis =>
    exact inductionHypothesis _ (s.undergo_regular host positive regular occurrence).2

/-- The number received goes back only in a turn that adopts a connection of a peer that
restarted. -/
theorem undergo_received (host : Host) (s : Session) (occurrence : Occurrence) :
    s.ledger.window.received ≤ (s.undergo host occurrence).ledger.window.received ∨
      ∃ now random event, occurrence = .turn now random event ∧ ∃ endpoint known incarnation,
        .opened endpoint ∈ (Turn.handle host now ⟨s, random, []⟩ event).effects ∧
        .tell (.restarted incarnation) ∈ (Turn.handle host now ⟨s, random, []⟩ event).effects ∧
        s.ledger.incarnation = some known ∧ known ≠ incarnation ∧
        (s.undergo host occurrence).ledger.incarnation = some incarnation := by
  have undergone := s.undergone host occurrence
  generalize s.undergo host occurrence = after at undergone ⊢
  cases undergone with
  | spared _ _ spared => exact .inl (Nat.le_of_eq (by rw [spared.window]))
  | posted letter now queued accepted posted =>
    obtain ⟨_, _, _, _, _, rfl⟩ := s.ledger.enqueueLetter_eq queued letter now accepted
    exact .inl (Nat.le_refl _)
  | turned now random event =>
    obtain ⟨effects, asked, turned⟩ := Turn.handle_goes host now ⟨s, random, []⟩ event
    have asked : (Turn.handle host now ⟨s, random, []⟩ event).effects = effects := asked
    have heard : Heard s event (s.undergo host (.turn now random event)) effects := turned.heard
    cases heard with
    | nothing _ _ _ received => exact .inl (Nat.le_of_eq received.symm)
    | renewed _ _ before endpoint known incarnation was changed seen =>
      refine .inr ⟨now, random, event, rfl, endpoint, known, incarnation, ?_, ?_, was, changed,
        seen⟩
      · simp [asked]
      · simp [asked]
    | read link e rest _ _ held front took =>
      left
      rcases took.leaves.received with kept | raised
      · exact Nat.le_of_eq kept.symm
      · rw [raised]
        exact Nat.le_max_left _ _

end Session

/-- Counters that do not go back, whatever is received. -/
structure Ledger.Continues (l after : Ledger) : Prop where
  sent : l.window.sent ≤ after.window.sent
  acked : l.window.acked ≤ after.window.acked
  nextBinding : l.nextBinding ≤ after.nextBinding

namespace Kernel

/-- A kernel runs with options that leave room in an outbox, and has sessions only while it
runs. -/
structure Founded (k : Kernel) : Prop where
  room : ∀ host, k.host? = some host → 0 < host.options.maxQueue
  idle : k.host? = none → k.sessions = []

/-- Whether a deed makes a session adopt a connection of a peer that restarted: the session
before it knew another incarnation than the one that it knows afterwards. -/
def Renews (k : Kernel) (peer : PeerId) (s after : Session) (deed : Deed) : Prop :=
  ∃ now event, deed = .turn peer now event ∧ ∃ endpoint known incarnation,
    .opened endpoint ∈ (k.turn peer now event).2 ∧
    .tell (.restarted incarnation) ∈ (k.turn peer now event).2 ∧
    s.ledger.incarnation = some known ∧ known ≠ incarnation ∧
    after.ledger.incarnation = some incarnation

/-- Options without room in an outbox are refused. -/
theorem maxQueue_of_validate (o : Options) (valid : o.validate = .ok ()) : 0 < o.maxQueue := by
  unfold Options.validate at valid
  split at valid
  · cases valid
  · next some' => exact Nat.pos_of_ne_zero some'

/-- A start that changes anything begins with options that were found good. -/
theorem start_room (k : Kernel) (room : ∀ host, k.host? = some host → 0 < host.options.maxQueue)
    (network : Network) (seed : List UInt8) (options : Options) (host : Host)
    (running : (k.start network seed options).2.1.host? = some host) :
    0 < host.options.maxQueue := by
  rcases k.start_cases network seed options with
    ⟨_, _, _, failed⟩ | ⟨_, _, _, succeeded, valid, rfl⟩
  · rw [failed] at running
    exact room host running
  · rw [succeeded] at running
    cases running
    exact maxQueue_of_validate _ valid

/-- A start that fails leaves the sessions as they are. -/
theorem start_vacant (k : Kernel) (vacant : k.host? = none → k.sessions = [])
    (network : Network) (seed : List UInt8) (options : Options) :
    (k.start network seed options).2.1.host? = none →
      (k.start network seed options).2.1.sessions = [] := by
  rcases k.start_cases network seed options with ⟨_, _, _, failed⟩ | ⟨_, _, _, succeeded, _⟩
  · rw [failed]
    exact vacant
  · rw [succeeded]
    exact nofun

/-- Nothing comes about in a kernel that does not run. -/
theorem undergo_idle (k : Kernel) (stopped : k.host? = none) (empty : k.sessions = [])
    (deed : Deed) (ordinary : deed.isOrdinary) : (k.undergo deed).sessions = [] := by
  have inactive : k.service? = none := by
    cases active : k.service? with
    | none => rfl
    | some service => cases stopped.symm.trans (k.host?_of_service? service active)
  have unknown (peer : PeerId) : k.session? peer = none := by simp [session?, empty]
  cases deed with
  | start | beginStop | finishStop => cases ordinary
  | send peer letter now =>
    simp only [undergo, send, withSession, inactive]
    split <;> exact empty
  | addHints | reconnect | close =>
    simpa [undergo, addHints, reconnect, close, withSession, inactive]
  | resetBackoffs => simpa [undergo, resetBackoffs, inactive]
  | meet peer => simpa [undergo, admitPeer, inactive]
  | attach greeted => simpa [undergo, attach?, inactive]
  | shutdown peer => simpa [undergo, command, unknown]
  | turn peer now event => simpa [undergo, turn, stopped]
  | abort peer => simpa [undergo, abort, unknown]
  | wrote peer bytes => simpa [undergo, noteWritten, unknown]

/-- A kernel that does not run has no sessions. -/
theorem undergo_vacant (k : Kernel) (vacant : k.host? = none → k.sessions = []) (deed : Deed)
    (stopped : (k.undergo deed).host? = none) : (k.undergo deed).sessions = [] := by
  by_cases ordinary : deed.isOrdinary
  · rw [(host?_of_status (k.undergo_keeps deed ordinary).status).1] at stopped
    exact k.undergo_idle stopped (vacant stopped) deed ordinary
  · cases deed with
    | start network seed options => exact k.start_vacant vacant network seed options stopped
    | beginStop network =>
      obtain ⟨status, sessions, random⟩ := k
      cases status with
      | active service => cases stopped
      | uninitialized | stopping | stopped => exact vacant stopped
    | finishStop =>
      obtain ⟨status, sessions, random⟩ := k
      cases status with
      | stopping host => rfl
      | uninitialized | active | stopped => exact vacant stopped
    | _ => exact absurd rfl ordinary

/-- No deed empties the room of an outbox, or gives a session to a kernel that does not run. -/
theorem undergo_founded (k : Kernel) (founded : k.Founded) (deed : Deed) :
    (k.undergo deed).Founded := by
  refine ⟨?_, k.undergo_vacant founded.idle deed⟩
  by_cases ordinary : deed.isOrdinary
  · rw [(host?_of_status (k.undergo_keeps deed ordinary).status).1]
    exact founded.room
  · cases deed with
    | start network seed options => exact k.start_room founded.room network seed options
    | beginStop network =>
      obtain ⟨status, sessions, random⟩ := k
      cases status <;> exact founded.room
    | finishStop =>
      obtain ⟨status, sessions, random⟩ := k
      cases status with
      | stopping host => exact nofun
      | uninitialized | active | stopped => exact founded.room
    | _ => exact absurd rfl ordinary

/-- A kernel stays founded all through a life. -/
theorem live_founded (k : Kernel) (founded : k.Founded) (life : List Deed) :
    (k.live life).Founded := by
  induction life generalizing k with
  | nil => exact founded
  | cons deed rest inductionHypothesis =>
    exact inductionHypothesis _ (k.undergo_founded founded deed)

/-- What holds of every session at its beginning and is kept by whatever a deed is for it holds
of all sessions of a kernel that begins without any. -/
theorem live_holds (k : Kernel) (empty : k.sessions = []) (P : Host → PeerId → Session → Prop)
    (begins : ∀ host peer, P host peer (.fresh peer host.options))
    (keeps : ∀ (k : Kernel) host peer deed s, P host peer s →
      P host peer (s.live host (k.occurrences peer deed)))
    (life : List Deed) (peer : PeerId) (s : Session)
    (held : (k.live life).session? peer = some s) :
    ∃ host, (k.live life).host? = some host ∧ P host peer s := by
  have lived (life : List Deed) (k : Kernel) (vacant : k.host? = none → k.sessions = [])
      (holds : ∀ host, k.host? = some host → ∀ peer s, k.session? peer = some s → P host peer s)
      (held : (k.live life).session? peer = some s) :
      ∃ host, (k.live life).host? = some host ∧ P host peer s := by
    induction life generalizing k with
    | nil =>
      change k.session? peer = some s at held
      cases running : k.host? with
      | none => simp [session?, vacant running] at held
      | some host => exact ⟨host, running, holds host running peer s held⟩
    | cons deed rest inductionHypothesis =>
      refine inductionHypothesis _ (k.undergo_vacant vacant deed) ?_ held
      intro host running other t left
      rcases k.host?_undergo deed host running with before | gone
      · rw [k.session_undergo host before other deed t left]
        refine keeps k host other deed _ ?_
        cases known : k.session? other with
        | none => simpa [session, known] using begins host other
        | some old => simpa [session, known] using holds host before other old known
      · simp [session?, gone] at left
  refine lived life k (fun _ => empty) ?_ held
  intro host running other t listed
  simp [session?, empty] at listed

/-- All through the life of a kernel, its sessions stem from fresh ones. -/
theorem stems_live (k : Kernel) (stems : k.Stems) (life : List Deed) : (k.live life).Stems := by
  induction life generalizing k with
  | nil => exact stems
  | cons deed rest inductionHypothesis => exact inductionHypothesis _ (k.stems_undergo stems deed)

/-- What a deed makes of the session of a peer continues it. -/
theorem undergo_continues (k : Kernel) (host : Host) (running : k.host? = some host)
    (room : 0 < host.options.maxQueue) (peer : PeerId) (s after : Session)
    (held : k.session? peer = some s) (regular : s.ledger.Regular host.options.maxQueue)
    (deed : Deed) (left : (k.undergo deed).session? peer = some after) :
    s.ledger.Continues after.ledger ∧
      (s.ledger.window.received ≤ after.ledger.window.received ∨ k.Renews peer s after deed) := by
  have lived := k.session_undergo host running peer deed after left
  have known : k.session host peer = s := by simp [session, held]
  rw [known] at lived
  rcases k.occurrences_cases peer deed with none | ⟨occurrence, one, occurs⟩
  · rw [none] at lived
    subst lived
    exact ⟨⟨Nat.le_refl _, Nat.le_refl _, Nat.le_refl _⟩, .inl (Nat.le_refl _)⟩
  · rw [one, Session.live_one] at lived
    subst lived
    have advances := (s.undergo_regular host room regular occurrence).1
    refine ⟨⟨advances.sent, advances.acked, advances.nextBinding⟩, ?_⟩
    refine (s.undergo_received host occurrence).imp_right ?_
    rintro ⟨now, random, event, rfl, endpoint, previous, incarnation, opened, told, was⟩
    cases occurs with
    | turn =>
      refine ⟨now, event, rfl, endpoint, previous, incarnation, ?_, ?_, was⟩
      · simpa [turn, running, held] using opened
      · simpa [turn, running, held] using told

/-- Along every life of a kernel that begins without sessions, the ledger of every peer is
regular within the limit that the kernel runs with, and no counter of it goes back. What was
received goes back only when a connection of a restarted peer is adopted. -/
theorem live_regular (k : Kernel) (empty : k.sessions = [])
    (room : ∀ host, k.host? = some host → 0 < host.options.maxQueue) (life : List Deed)
    (peer : PeerId) (s : Session) (held : (k.live life).session? peer = some s) :
    ∃ host, (k.live life).host? = some host ∧ s.ledger.Regular host.options.maxQueue ∧
      ∀ deed after, ((k.live life).undergo deed).session? peer = some after →
        s.ledger.Continues after.ledger ∧
          (s.ledger.window.received ≤ after.ledger.window.received ∨
            (k.live life).Renews peer s after deed) := by
  have founded := k.live_founded ⟨room, fun _ => empty⟩ life
  have stems : (k.live life).Stems := by
    refine k.stems_live ?_ life
    intro host running other t listed
    simp [session?, empty] at listed
  cases running : (k.live life).host? with
  | none => simp [session?, founded.idle running] at held
  | some host =>
    have positive := founded.room host running
    obtain ⟨lived, same⟩ := stems host running peer s held
    have regular : s.ledger.Regular host.options.maxQueue := by
      rw [same]
      exact Session.regular_live host _ positive (Ledger.fresh_regular peer _ positive) lived
    refine ⟨host, rfl, regular, fun deed after left => ?_⟩
    exact undergo_continues _ host running positive peer s after held regular deed left

/-- Two messages were queued, the second with a promise, and then a connection was made to a
peer whose greeting acknowledged the first. -/
def greetedLife : List Deed :=
  [.send bob ⟨[1], none⟩ 0, .send bob ⟨[2], some ⟨"answer"⟩⟩ 0, .turn bob 0 .wake,
    .turn bob 0 (.dialed (.ok ⟨⟨0, .dialer⟩, ⟨bob, ⟨0, 2⟩, 1, some ⟨0, 1⟩⟩, .empty⟩))]

/-- The second message is left, and its promise waits. -/
theorem greeted_is_regular : ∃ s,
    ((started aliceService quiet).live greetedLife).session? bob = some s ∧
      s.ledger.outbox.entries.map (·.seq) = [2] ∧ s.ledger.window.acked = 1 ∧
      s.ledger.bindings = [(1, ⟨"answer"⟩)] ∧
      s.ledger.Regular aliceService.host.options.maxQueue := by
  have room : ∀ host, (started aliceService quiet).host? = some host →
      0 < host.options.maxQueue := by
    rintro host ⟨⟩
    decide
  obtain ⟨host, running, regular, _⟩ :=
    live_regular (started aliceService quiet) rfl room greetedLife bob _ rfl
  cases running.symm.trans (rfl : _ = some aliceService.host)
  exact ⟨_, rfl, rfl, rfl, rfl, regular⟩

end Kernel

end Courier
