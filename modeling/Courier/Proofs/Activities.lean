import Courier.Proofs.Hearing
import Courier.Proofs.Stranding

/-!
# One activity at a time

The application writes the phase of a peer at once, and the session ends or begins its
activities when it takes up the commands that were left for it. Between the two the phase
and the activities are out of step. At all times a session has one activity at most, and
whenever an activity does not belong to the phase, the command that will end it waits.
-/

namespace Courier

/-- Queueing a letter does not part from the peer. -/
theorem Ledger.enqueueLetter_mark (l queued : Ledger) (letter : Letter) (now : Duration)
    (accepted : l.enqueueLetter letter now = .ok queued) :
    queued.tally.isConnected = l.tally.isConnected := by
  obtain ⟨_, evicted, _, _, rfl, rfl⟩ := l.enqueueLetter_eq queued letter now accepted
  cases evicted <;> rfl

/-- Queueing a reply does not touch the mark for a connection. -/
theorem Ledger.enqueueReply_mark (l queued : Ledger) (replyTo : Nat) (payload : List UInt8)
    (now : Duration) (accepted : l.enqueueReply replyTo payload now = .ok queued) :
    queued.tally.isConnected = l.tally.isConnected := by
  obtain ⟨_, evicted, _, _, rfl, rfl⟩ := l.enqueueReply_eq queued replyTo payload now accepted
  cases evicted <;> rfl

namespace Session

/-- The number of activities under way: a connection, an attempt to connect, a wait. -/
def activities (s : Session) : Nat :=
  s.link.isSome.toNat + s.dial.isSome.toNat + s.backoffDue.isSome.toNat

/-- What a session is busy with, and why. -/
structure OneActivity (s : Session) : Prop where
  alone : s.activities ≤ 1
  /-- An acknowledgement is owed only on a connection. -/
  owing : s.ackDue.isSome → s.link.isSome
  /-- The tally tells whether there is a connection. -/
  marked : s.ledger.tally.isConnected = true ↔ s.link.isSome
  linked : s.link.isSome → s.ledger.phase = .connected ∨
    s.ledger.phase = .connecting ∧ .reconnect ∈ s.commands ∨
    s.ledger.phase = .intentionallyClosed ∧ .close ∈ s.commands
  dialing : s.dial.isSome → s.ledger.phase = .connecting ∨
    s.ledger.phase = .intentionallyClosed ∧ .close ∈ s.commands
  waiting : s.backoffDue.isSome → s.ledger.phase = .backingOff ∨
    s.ledger.phase = .connecting ∧ .reconnect ∈ s.commands ∨
    s.ledger.phase = .intentionallyClosed ∧ .close ∈ s.commands
  disconnected : s.ledger.phase = .disconnected → s.Unattended

/-- What explains the activities of a session, next to its mooring. -/
structure Explained (s : Session) : Prop where
  owing : s.ackDue.isSome → s.link.isSome
  marked : s.ledger.tally.isConnected = s.link.isSome
  /-- What is left over from before a new attempt ends with the command for it. -/
  reopening : s.ledger.phase = .connecting →
    s.link = none ∧ s.backoffDue = none ∨ .reconnect ∈ s.commands
  closing : s.ledger.phase = .intentionallyClosed → s.Unattended ∨ .close ∈ s.commands
  finished : s.stage = .ended → s.Unattended

/-- Two sessions in the same phase with the same activities, but for those that ended. The commands
that explain an activity are still there. -/
structure Steady (s after : Session) : Prop where
  marked : after.ledger.tally.isConnected = s.ledger.tally.isConnected := by rfl
  commands : ∀ command, command = .reconnect ∨ command = .close →
    command ∈ s.commands → command ∈ after.commands := by exact fun _ _ => id
  finished : after.stage = .ended → s.stage = .ended := by exact id
  owing : after.ackDue.isSome → s.ackDue.isSome ∨ s.link.isSome := by exact .inl
  phase : after.ledger.phase = s.ledger.phase := by rfl
  link : after.link.isSome = s.link.isSome := by rfl
  dial : after.dial = none ∨ after.dial = s.dial := by exact .inr rfl
  backoffDue : after.backoffDue = none ∨ after.backoffDue = s.backoffDue := by exact .inr rfl

/-- A session of a peer not heard of before does nothing that needs to be explained. -/
theorem fresh_explained (peer : PeerId) (options : Options) : (fresh peer options).Explained := by
  constructor <;> simp [fresh, Ledger.fresh]

/-- A session that is moored and explained has one activity at most. That they are alone is part of
the mooring; the phase and the commands that wait explain the one there is. -/
theorem Explained.oneActivity {s : Session} {adrift : Prop} (explained : s.Explained)
    (moored : s.Moored adrift) : s.OneActivity where
  alone := by
    unfold activities
    by_cases linked : s.link.isSome
    · obtain ⟨undialed, unwaited⟩ := moored.linkAlone linked
      simp [linked, undialed, unwaited]
    · by_cases dialing : s.dial.isSome
      · simp [linked, dialing, moored.dialAlone dialing]
      · simp only [linked, dialing, Bool.toNat_false, Nat.zero_add]
        exact Bool.toNat_le _
  owing := explained.owing
  marked := by rw [explained.marked]
  linked linked := by
    obtain ⟨started, still⟩ := moored.linkPhase linked
    cases phase : s.ledger.phase with
    | connected => exact .inl rfl
    | connecting =>
      have reopening := explained.reopening phase
      have held : s.link ≠ none := Option.isSome_iff_ne_none.mp linked
      exact .inr (.inl ⟨rfl, reopening.resolve_left fun ended => held ended.1⟩)
    | intentionallyClosed =>
      have closing := explained.closing phase
      have held : s.link ≠ none := Option.isSome_iff_ne_none.mp linked
      exact .inr (.inr ⟨rfl, closing.resolve_left fun ended => held ended.1⟩)
    | disconnected => exact absurd phase started
    | backingOff => exact absurd phase still
  dialing dialing := by
    have held : s.dial ≠ none := Option.isSome_iff_ne_none.mp dialing
    refine (moored.dialPhase dialing).imp_right fun phase => ⟨phase, ?_⟩
    exact (explained.closing phase).resolve_left fun ended => held ended.2.1
  waiting waiting := by
    have held : s.backoffDue ≠ none := Option.isSome_iff_ne_none.mp waiting
    obtain ⟨started, unconnected⟩ := moored.waitPhase waiting
    cases phase : s.ledger.phase with
    | backingOff => exact .inl rfl
    | connecting =>
      have reopening := explained.reopening phase
      exact .inr (.inl ⟨rfl, reopening.resolve_left fun ended => held ended.2⟩)
    | intentionallyClosed =>
      have closing := explained.closing phase
      exact .inr (.inr ⟨rfl, closing.resolve_left fun ended => held ended.2.2⟩)
    | disconnected => exact absurd phase started
    | connected => exact absurd phase unconnected
  disconnected := moored.vacant

section Kinds

variable {s : Session}

/-- An explained session stays so while the phase and the activities do, but for those that
end. -/
theorem Explained.steady {after : Session} (explained : s.Explained) (steady : s.Steady after) :
    after.Explained := by
  obtain ⟨marked, commands, finished, owing, phase, link, dial, backoffDue⟩ := steady
  have unlinked (without : s.link = none) : after.link = none := by simpa [without] using link
  have undialed (without : s.dial = none) : after.dial = none := by simpa [without] using dial
  have unwaited (without : s.backoffDue = none) : after.backoffDue = none := by
    simpa [without] using backoffDue
  have vacant (vacant : s.Unattended) : after.Unattended :=
    ⟨unlinked vacant.1, undialed vacant.2.1, unwaited vacant.2.2⟩
  constructor
  case owing =>
    intro due
    rw [link]
    exact (owing due).elim explained.owing id
  case marked => rw [marked, link, explained.marked]
  case reopening =>
    rw [phase]
    exact fun connecting => (explained.reopening connecting).imp
      (fun ended => ⟨unlinked ended.1, unwaited ended.2⟩) (commands _ (.inl rfl))
  case closing =>
    rw [phase]
    exact fun closed => (explained.closing closed).imp vacant (commands _ (.inr rfl))
  case finished => exact fun ended => vacant (explained.finished (finished ended))

/-- Without a connection no acknowledgement is owed. -/
theorem Explained.unowed (explained : s.Explained) (unlinked : s.link = none) :
    s.ackDue = none := by
  refine Option.not_isSome_iff_eq_none.mp fun due => ?_
  have linked := explained.owing due
  simp [unlinked] at linked

/-- A session without any activity needs no explanation. -/
theorem Explained.vacant (vacant : s.Unattended) (owing : s.ackDue = none)
    (marked : s.ledger.tally.isConnected = false) : s.Explained := by
  obtain ⟨unlinked, undialed, unwaited⟩ := vacant
  constructor <;> simp [owing, marked, Unattended, unlinked, undialed, unwaited]

/-- A session that leaves the connected phase stays explained. -/
theorem Explained.vacated (explained : s.Explained) : s.vacated.Explained := by
  refine .vacant ⟨rfl, rfl, rfl⟩ rfl ?_
  have marked := explained.marked
  cases held : s.link with
  | none => simpa [Session.vacated, held, Ledger.count] using marked
  | some link => simp [Session.vacated, held, Ledger.count, Tally.parted]

/-- An attempt that begins without a connection or a wait is explained by its phase. -/
theorem Explained.attempting (host : Host) (explained : s.Explained) (unlinked : s.link = none)
    (unwaited : s.backoffDue = none) (idle : s.stage = .idle) :
    (s.attempting host).Explained := by
  have marked := explained.marked
  rw [unlinked] at marked
  constructor <;> simp [Session.attempting, Ledger.count, Tally.attempted, unlinked, unwaited,
    explained.unowed unlinked, marked, idle]

/-- A session that adopts a connection is in the connected phase, and explained by that. -/
theorem Explained.joined (host : Host) (now : Nat) (greeted : Greeted) :
    (s.joined host now greeted).Explained := by
  have marked : (s.joined host now greeted).ledger.tally.isConnected = true := rfl
  have owing : (s.joined host now greeted).ackDue = none := rfl
  constructor <;> simp [marked, owing]

/-- Adopting a connection keeps a session explained, also where writing on it fails at once. -/
theorem Explained.adopted {host : Host} {now : Nat} {greeted : Greeted} {after : Session}
    {effects : List Effect} (adopted : Adopted host now greeted s after effects)
    (explained : s.Explained) : after.Explained := by
  cases adopted with
  | joined => exact Explained.joined host now greeted
  | refused =>
    refine explained.steady { marked := ?_ }
    cases s.link <;> rfl

/-- A session that lost its only activity waits, or is closed and has none. -/
theorem Explained.bereft {adrift : Prop} (moored : s.Moored adrift) (linked : s.link.isSome)
    (due : Nat) (running : s.stage ≠ .ended) : (s.bereft due).Explained := by
  obtain ⟨undialed, unwaited⟩ := moored.linkAlone linked
  unfold Session.bereft
  by_cases waits : s.ledger.phase.mayWait
  · rw [if_pos waits]
    constructor <;> simp [Ledger.count, Tally.parted, Tally.lostOne, running]
  · rw [if_neg waits]
    exact .vacant ⟨rfl, undialed, unwaited⟩ rfl rfl

/-- A flush keeps a session explained. -/
theorem Explained.flushed {after : Session} {effects : List Effect} (explained : s.Explained)
    (flushed : Flushed s after effects) : after.Explained := by
  cases flushed with
  | nothing => exact explained
  | written => exact explained.steady { owing := nofun }

/-- Taking in an envelope keeps a session explained. -/
theorem Explained.took {e : Envelope} {after : Session} {effects : List Effect}
    (explained : s.Explained) (running : s.stage ≠ .ended) (took : Took e s after effects) :
    after.Explained := by
  have heeded : (s.ledger.heeding e).tally.isConnected = s.ledger.tally.isConnected := by
    obtain ⟨_, _, same⟩ := s.ledger.heeding_eq e
    rw [same]
  obtain ⟨phase, _⟩ := s.ledger.heeding_phase e
  cases took <;>
    exact explained.steady { marked := heeded, finished := by simp [running], phase := phase }

end Kinds

/-- Every turn leaves a session explained. There is one case for each kind of turn. What a turn
begins it explains by the phase, and what it leaves alone is explained as before. -/
theorem Explained.turned {host : Host} {now : Nat} {event : Event} {s after : Session}
    {effects : List Effect} {adrift : Prop} (explained : s.Explained) (moored : s.Moored adrift)
    (turned : Turned host now s event after effects) : after.Explained := by
  have next {command : Command} {rest : List Command} (next : s.commands = command :: rest)
      (other : ∀ c, c = .reconnect ∨ c = .close → c ≠ command) :
      ({ s with commands := rest } : Session).Explained := by
    refine explained.steady { commands := ?_ }
    intro c kind listed
    rw [next] at listed
    exact (List.mem_cons.mp listed).resolve_left (other c kind)
  cases turned with
  | still => exact explained
  | attach greeted rest after effects idle first adopted =>
    exact Explained.adopted adopted (next first (by simp))
  | reconnect rest idle first =>
    have dropped : ({ s with commands := rest } : Session).vacated.Explained := by
      refine .vacant ⟨rfl, rfl, rfl⟩ rfl explained.vacated.marked
    exact dropped.attempting host rfl rfl idle
  | close rest idle first => exact .vacant ⟨rfl, rfl, rfl⟩ rfl explained.vacated.marked
  | resetDial rest idle first waiting phase =>
    have reset : ({ s with commands := rest, backoffDue := none } : Session).Explained :=
      (next first (by simp)).steady { backoffDue := .inl rfl }
    exact reset.attempting host (moored.unlinked_of_wait waiting) rfl idle
  | resetNothing rest idle first awake =>
    exact (next first (by simp)).steady { backoffDue := .inl rfl }
  | shutdown rest effects idle first parting =>
    exact .vacant ⟨rfl, rfl, rfl⟩ rfl explained.vacated.marked
  | wakeFlush after effects idle woken phase flushed =>
    have rested : ({ s with woken := false } : Session).Explained :=
      explained.steady {}
    exact rested.flushed flushed
  | wakeDial idle woken phase queued =>
    obtain ⟨unlinked, _, unwaited⟩ := moored.vacant phase
    have rested : ({ s with woken := false } : Session).Explained :=
      explained.steady {}
    exact rested.attempting host unlinked unwaited idle
  | wakeNothing => exact explained.steady {}
  | dialed greeted after effects idle dialing adopted =>
    have landed : ({ s with dial := none } : Session).Explained :=
      explained.steady { dial := .inl rfl }
    exact landed.adopted adopted
  | dialStale error idle dialing stale =>
    exact explained.steady { dial := .inl rfl }
  | dialRetry error due idle dialing unlinked phase more =>
    have marked := explained.marked
    rw [unlinked] at marked
    constructor <;> simp [failing, Ledger.count, Tally.failed, unlinked,
      explained.unowed unlinked, marked, idle]
  | dialGiveUp error idle dialing unlinked phase limited spent =>
    have marked := explained.marked
    rw [unlinked] at marked
    exact .vacant ⟨unlinked, rfl, moored.dialAlone dialing⟩ (explained.unowed unlinked) marked
  | elapsedDial idle waiting phase =>
    have elapsed : ({ s with backoffDue := none } : Session).Explained :=
      explained.steady { backoffDue := .inl rfl }
    exact elapsed.attempting host (moored.unlinked_of_wait waiting) rfl idle
  | elapsedNothing =>
    exact explained.steady { backoffDue := .inl rfl }
  | ackWritten | ackNothing | lostNothing =>
    exact explained.steady { owing := by simp }
  | received bytes link idle held =>
    exact explained.steady { finished := by simp, link := by simp [held] }
  | lost link due idle held =>
    exact Explained.bereft moored (by simp [held]) due (by simp [idle])
  | readBroken link error due stage held broken =>
    have bereft := Explained.bereft moored (by simp [held]) due (by simp [stage])
    exact bereft.steady { finished := by simp }
  | greeted after effects stage flushed =>
    exact (explained.flushed flushed).steady { finished := by simp }
  | readAll link stage held incomplete =>
    refine explained.steady { finished := by simp, owing := ?_ }
    exact fun _ => .inr (by simp [held])
  | read link e rest after effects stage held complete took =>
    have front : ({ s with link := some { link with buffer := rest } } : Session).Explained :=
      explained.steady { link := by simp [held] }
    exact front.took (by simp [stage]) took
  | replied replyTo payload ledger after effects stage queued flushed =>
    have handled : ({ s with ledger, stage := .reading } : Session).Explained :=
      explained.steady {
        marked := s.ledger.enqueueReply_mark _ _ _ _ queued
        finished := by simp
        phase := (s.ledger.enqueueReply_phase _ _ _ _ queued).1 }
    exact handled.flushed flushed
  | readNothing | silent =>
    exact explained.steady { finished := by simp }

/-- A command that is left for a session explains no less. -/
theorem Explained.pushed {s : Session} (explained : s.Explained) (command : Command) :
    (s.push command).Explained := by
  obtain ⟨commands, same, before | behind⟩ := s.push_eq command
  · rw [same, before]
    exact explained.steady {}
  · rw [same, behind]
    exact explained.steady { commands := fun _ _ => List.mem_append_left _ }

/-- A phase that is written from outside is explained by the command that goes with it: for a
session that is over there is nothing to explain. -/
theorem Explained.ordered {s : Session} (explained : s.Explained) (command : Command)
    (ledger : Ledger) (marked : ledger.tally = s.ledger.tally)
    (reopened : ledger.phase = .connecting → command = .reconnect)
    (closed : ledger.phase = .intentionallyClosed → command = .close) :
    (({ s with ledger } : Session).push command).Explained := by
  have mark : ledger.tally.isConnected = s.link.isSome := by rw [marked, explained.marked]
  unfold push
  by_cases ended : s.stage = .ended
  · rw [if_pos ended]
    have vacant := explained.finished ended
    rw [vacant.1] at mark
    exact .vacant vacant (explained.unowed vacant.1) mark
  · rw [if_neg ended]
    constructor
    case owing => exact explained.owing
    case marked => exact mark
    case reopening => exact fun phase => .inr (by simp [reopened phase])
    case closing => exact fun phase => .inr (by simp [closed phase])
    case finished => exact fun finished => absurd finished ended

/-- Whatever happens to a session leaves it explained. A call writes the phase and leaves the
command that explains what is under way; a turn was treated before. -/
theorem Explained.undergo {s : Session} {adrift : Prop} (explained : s.Explained)
    (moored : s.Moored adrift) (host : Host) (occurrence : Occurrence) :
    (s.undergo host occurrence).Explained := by
  cases occurrence with
  | post letter now =>
    rcases s.undergo_post host letter now with same | ⟨queued, _, accepted, same⟩
    · rw [same]
      exact explained
    · have mark := s.ledger.enqueueLetter_mark queued letter now accepted
      have phase : queued.phase = s.ledger.phase := by
        obtain ⟨_, _, _, _, _, rfl⟩ := s.ledger.enqueueLetter_eq queued letter now accepted
        rfl
      rw [same]
      exact explained.steady { marked := mark, phase := phase }
  | addHints hints =>
    obtain ⟨kept, same⟩ := s.ledger.addHints_eq hints
    simp only [Session.undergo, addHints, same]
    exact explained.steady {}
  | reconnect hints =>
    obtain ⟨kept, same⟩ := s.reconnect_eq hints
    rw [Session.undergo, same]
    exact explained.ordered .reconnect _ rfl (fun _ => rfl) (by simp)
  | close =>
    rw [Session.undergo, close_eq]
    exact explained.ordered .close _ rfl (by simp) fun _ => rfl
  | resetBackoff =>
    have reset : ({ s with ledger := { s.ledger with attempt := 0 } } : Session).Explained :=
      explained.steady {}
    exact reset.pushed .resetBackoff
  | attach greeted => exact explained.pushed _
  | shutdown => exact explained.pushed _
  | wrote bytes => exact explained.steady {}
  | turn now random event =>
    obtain ⟨_, turned⟩ := s.undergo_turn host now random event
    exact explained.turned moored turned
  | abort random =>
    rw [undergo_abort]
    exact .vacant ⟨rfl, rfl, rfl⟩ rfl explained.vacated.marked

/-- Whatever a session lives through, it has one activity at most, its tally tells of a
connection exactly while there is one, and an activity that does not belong to the phase
waits for the command that ends it. -/
theorem live_oneActivity (host : Host) (peer : PeerId) (life : List Occurrence) :
    ((fresh peer host.options).live host life).OneActivity := by
  have explained : ((fresh peer host.options).live host life).Explained := by
    induction life using List.reverseRecOn with
    | nil => exact fresh_explained peer host.options
    | append_singleton life occurrence inductionHypothesis =>
      rw [live_append]
      exact inductionHypothesis.undergo (live_moored host peer life) host occurrence
  exact explained.oneActivity (live_moored host peer life)

end Session

end Courier
