import Courier.Proofs.Lives
import Mathlib.Data.List.Induction

/-!
# Letters are not left lying

While letters wait for a peer, something is under way that will get them written: a
connection on which everything was written, an attempt to connect, or a wait for the
next attempt. One schedule breaks this. A command to close that is taken up after the
connection was opened again, by a command to reconnect that was waiting in front of it,
ends every activity and leaves the phase as it is. The session is adrift from then on
until a connection, an attempt or a wait begins; adrift it has none of them, and nothing
tells the application.

The proof keeps an invariant along a life that says, for each phase, what is under way
in it, and that at most one activity is.
-/

namespace Courier

namespace Session

/-- What a session needs so that its letters are not left lying. -/
def Secured (s : Session) : Prop :=
  (s.ledger.phase = .connected ∧ s.link.isSome ∧ s.ledger.outbox.unsent = 0) ∨
    (s.ledger.phase = .connecting ∧ s.dial.isSome) ∨
    (s.ledger.phase = .backingOff ∧ s.backoffDue.isSome)

/-- No activity is under way. -/
def Unattended (s : Session) : Prop := s.link = none ∧ s.dial = none ∧ s.backoffDue = none

/-- Whether a turn takes up a command to close in another phase than the closed one. -/
def Strays (s : Session) (occurrence : Occurrence) : Prop :=
  s.ledger.phase ≠ .intentionallyClosed ∧ s.stage = .idle ∧
    s.commands.head? = some .close ∧ ∃ now random, occurrence = .turn now random .command

/-- Whether a session went adrift in a life and no activity began since. -/
def Adrift (host : Host) (s : Session) (life : List Occurrence) : Prop :=
  ∃ past occurrence rest, life = past ++ occurrence :: rest ∧
    (s.live host past).Strays occurrence ∧
    ∀ later, later <+: rest → (s.live host (past ++ occurrence :: later)).Unattended

/-- What holds of a session at all times, given whether it is adrift. -/
structure Moored (s : Session) (adrift : Prop) : Prop where
  /-- At most one activity is under way, and none when adrift. -/
  linkAlone : s.link.isSome → s.dial = none ∧ s.backoffDue = none
  dialAlone : s.dial.isSome → s.backoffDue = none
  unattended : adrift → s.Unattended
  /-- Each activity belongs to some phases. -/
  linkPhase : s.link.isSome → s.ledger.phase ≠ .disconnected ∧ s.ledger.phase ≠ .backingOff
  dialPhase : s.dial.isSome → s.ledger.phase = .connecting ∨
    s.ledger.phase = .intentionallyClosed
  waitPhase : s.backoffDue.isSome → s.ledger.phase ≠ .disconnected ∧ s.ledger.phase ≠ .connected
  /-- Each phase has its activity until the session ends. -/
  connected : s.ledger.phase = .connected → s.link.isSome ∨ s.stage = .ended ∨ adrift
  connecting : s.ledger.phase = .connecting →
    s.dial.isSome ∨ .reconnect ∈ s.commands ∨ s.stage = .ended ∨ adrift
  backingOff : s.ledger.phase = .backingOff → s.backoffDue.isSome ∨ s.stage = .ended ∨ adrift
  /-- On a connection everything is written, or will be. -/
  written : s.ledger.phase = .connected → s.link.isSome →
    s.ledger.outbox.unsent = 0 ∨ s.woken ∨ s.stage = .greeting
  /-- Nothing waits for a peer that nobody tries to reach. -/
  empty : s.ledger.phase = .disconnected → s.ledger.outbox.size = 0 ∨ s.woken ∨ s.stage = .ended
  /-- Only a message of a live connection is handled. -/
  handling (replyTo : Option Nat) : s.stage = .handling replyTo → s.link.isSome

/-- A session that is moored and has nothing left to take up is secured unless it is adrift. -/
theorem secured_iff_of_moored (s : Session) (adrift : Prop) (moored : s.Moored adrift)
    (idle : s.stage = .idle) (taken : s.commands = []) (rested : s.woken = false)
    (waiting : s.ledger.outbox.size ≠ 0) (opened : s.ledger.phase ≠ .intentionallyClosed) :
    s.Secured ↔ ¬ adrift := by
  constructor
  · rintro secured strayed
    obtain ⟨link, dial, backoffDue⟩ := moored.unattended strayed
    simp [Secured, link, dial, backoffDue] at secured
  · intro held
    cases phase : s.ledger.phase with
    | disconnected => simpa [rested, waiting, idle] using moored.empty phase
    | connecting =>
      have dialing := moored.connecting phase
      simp only [taken, List.not_mem_nil, idle, held, or_false, reduceCtorEq] at dialing
      exact .inr (.inl ⟨phase, dialing⟩)
    | connected =>
      have linked := moored.connected phase
      simp only [idle, held, or_false, reduceCtorEq] at linked
      have written := moored.written phase linked
      simp only [rested, idle, reduceCtorEq, Bool.false_eq_true, or_false] at written
      exact .inl ⟨phase, linked, written⟩
    | backingOff =>
      have due := moored.backingOff phase
      simp only [idle, held, or_false, reduceCtorEq] at due
      exact .inr (.inr ⟨phase, due⟩)
    | intentionallyClosed => exact absurd phase opened

/-- A session of a peer not heard of before is moored: nothing is under way, and nothing is said to
be. -/
theorem fresh_moored (peer : PeerId) (options : Options) :
    (fresh peer options).Moored False := by
  constructor <;> simp [fresh, Ledger.fresh, Outbox.empty, Outbox.size]

section Kinds

variable {s : Session} {adrift : Prop}

/-- An attempt moors a session. -/
theorem Moored.attempting (host : Host) (unlinked : s.link = none) (still : s.backoffDue = none)
    (idle : s.stage = .idle) : (s.attempting host).Moored False := by
  constructor <;> simp [Session.attempting, Ledger.count, unlinked, still, idle]

/-- So does a live connection. -/
theorem Moored.joined (host : Host) (now : Nat) (greeted : Greeted) :
    (s.joined host now greeted).Moored False := by
  constructor <;> simp

/-- A session that lost its connection waits for the next attempt, unless it is closed. -/
theorem Moored.bereft (moored : s.Moored adrift) (linked : s.link.isSome) (due : Nat)
    (stage : s.stage = .idle ∨ s.stage = .reading) : (s.bereft due).Moored False := by
  obtain ⟨undialed, still⟩ := moored.linkAlone linked
  have phase := moored.linkPhase linked
  unfold Session.bereft
  by_cases waits : s.ledger.phase.mayWait
  · rw [if_pos waits]
    constructor <;> rcases stage with stage | stage <;> simp [Ledger.count, undialed, stage]
  · rw [if_neg waits]
    have closed : s.ledger.phase = .intentionallyClosed := by
      simpa [Phase.mayWait, phase] using waits
    constructor <;> rcases stage with stage | stage <;>
      simp [Ledger.count, undialed, still, closed, stage]

/-- A connection is hung up or moors a session. A session that holds none adopts one in
every phase but the closed one. -/
theorem Moored.adopted {host : Host} {now : Nat} {greeted : Greeted} {after : Session}
    {effects : List Effect} (adopted : Adopted host now greeted s after effects) :
    after.Moored False ∨
      (s.link.isSome ∨ s.ledger.phase = .intentionallyClosed) ∧ ∃ ledger,
        after = { s with ledger } ∧ ledger.phase = s.ledger.phase ∧
          ledger.outbox = s.ledger.outbox := by
  cases adopted with
  | joined => exact .inl (Moored.joined host now greeted)
  | refused unfit =>
    right
    refine ⟨?_, _, rfl, rfl, rfl⟩
    by_cases linked : s.link.isSome
    · exact .inl linked
    · refine .inr (Decidable.byContradiction fun opened => unfit ⟨opened, ?_⟩)
      simp only [Option.not_isSome_iff_eq_none] at linked
      simp [linked]

/-- A session may be adrift in more cases, as long as it is unattended in them. -/
theorem Moored.mono {more : Prop} (moored : s.Moored adrift) (wider : adrift → more)
    (unattended : more → s.Unattended) : s.Moored more where
  linkAlone := moored.linkAlone
  dialAlone := moored.dialAlone
  unattended := unattended
  linkPhase := moored.linkPhase
  dialPhase := moored.dialPhase
  waitPhase := moored.waitPhase
  connected phase := (moored.connected phase).imp_right (Or.imp_right wider)
  connecting phase := (moored.connecting phase).imp_right (Or.imp_right (Or.imp_right wider))
  backingOff phase := (moored.backingOff phase).imp_right (Or.imp_right wider)
  written := moored.written
  empty := moored.empty
  handling := moored.handling

/-- A session stays moored when phase and activities are left as they are. -/
theorem Moored.steady {after : Session} (moored : s.Moored adrift)
    (commands : .reconnect ∈ s.commands → .reconnect ∈ after.commands)
    (ended : s.stage = .ended → after.stage = .ended)
    (handling : ∀ replyTo, after.stage = .handling replyTo → s.link.isSome)
    (written : s.ledger.phase = .connected → s.link.isSome →
      after.ledger.outbox.unsent = 0 ∨ after.woken ∨ after.stage = .greeting)
    (empty : s.ledger.phase = .disconnected →
      after.ledger.outbox.size = 0 ∨ after.woken ∨ after.stage = .ended)
    (phase : after.ledger.phase = s.ledger.phase := by rfl)
    (link : after.link.isSome = s.link.isSome := by rfl) (dial : after.dial = s.dial := by rfl)
    (backoffDue : after.backoffDue = s.backoffDue := by rfl) : after.Moored adrift where
  linkAlone := by
    rw [link, dial, backoffDue]
    exact moored.linkAlone
  dialAlone := by
    rw [dial, backoffDue]
    exact moored.dialAlone
  unattended strayed := by
    obtain ⟨unlinked, undialed, still⟩ := moored.unattended strayed
    refine ⟨?_, dial.trans undialed, backoffDue.trans still⟩
    simpa [unlinked] using link
  linkPhase := by
    rw [link, phase]
    exact moored.linkPhase
  dialPhase := by
    rw [dial, phase]
    exact moored.dialPhase
  waitPhase := by
    rw [backoffDue, phase]
    exact moored.waitPhase
  connected := by
    rw [phase, link]
    exact fun now => (moored.connected now).imp_right (Or.imp_left ended)
  connecting := by
    rw [phase, dial]
    exact fun now => (moored.connecting now).imp_right (Or.imp commands (Or.imp_left ended))
  backingOff := by
    rw [phase, backoffDue]
    exact fun now => (moored.backingOff now).imp_right (Or.imp_left ended)
  written := by
    rw [phase, link]
    exact written
  empty := by
    rw [phase]
    exact empty
  handling := by
    rw [link]
    exact handling

/-- A session stays moored when it is done with a stage that only bides its time. -/
theorem Moored.onward {after : Session} (moored : s.Moored adrift)
    (biding : s.stage ≠ .ended ∧ s.stage ≠ .greeting)
    (unhandled : ∀ replyTo, after.stage ≠ .handling replyTo)
    (ledger : after.ledger = s.ledger := by rfl) (link : after.link = s.link := by rfl)
    (dial : after.dial = s.dial := by rfl) (backoffDue : after.backoffDue = s.backoffDue := by rfl)
    (commands : after.commands = s.commands := by rfl) (woken : after.woken = s.woken := by rfl) :
    after.Moored adrift := by
  refine moored.steady ?_ ?_ ?_ ?_ ?_ (by rw [ledger]) (by rw [link]) dial backoffDue
  · rw [commands]
    exact id
  · exact fun ended => absurd ended biding.1
  · exact fun replyTo handling => absurd handling (unhandled replyTo)
  · rw [ledger, woken]
    exact fun now linked => (moored.written now linked).imp_right
      (Or.imp_right fun greeting => absurd greeting biding.2)
  · rw [ledger, woken]
    exact fun now => (moored.empty now).imp_right
      (Or.imp_right fun ended => absurd ended biding.1)

/-- The application may write that the session is to connect, as long as it leaves the command to,
or that it is closed. -/
theorem Moored.rephased {after : Session} (moored : s.Moored adrift)
    (phase : after.ledger.phase = .connecting ∨ after.ledger.phase = .intentionallyClosed)
    (connects : after.ledger.phase = .connecting →
      .reconnect ∈ after.commands ∨ after.stage = .ended)
    (link : after.link = s.link := by rfl) (dial : after.dial = s.dial := by rfl)
    (backoffDue : after.backoffDue = s.backoffDue := by rfl)
    (stage : after.stage = s.stage := by rfl) : after.Moored adrift := by
  constructor
  case linkAlone => simpa only [link, dial, backoffDue] using moored.linkAlone
  case dialAlone => simpa only [dial, backoffDue] using moored.dialAlone
  case unattended => simpa only [Unattended, link, dial, backoffDue] using moored.unattended
  case handling => simpa only [stage, link] using moored.handling
  case connecting =>
    exact fun connecting => .inr ((connects connecting).imp_right .inl)
  all_goals rcases phase with phase | phase <;> simp [phase]

/-- No two activities are under way. -/
theorem Moored.unlinked_of_dial (moored : s.Moored adrift) (dialing : s.dial.isSome) :
    s.link = none := by
  refine Option.not_isSome_iff_eq_none.mp fun linked => ?_
  simp [(moored.linkAlone linked).1] at dialing

/-- While a moored session waits for its next attempt it has no connection. -/
theorem Moored.unlinked_of_wait (moored : s.Moored adrift) (waiting : s.backoffDue.isSome) :
    s.link = none := by
  refine Option.not_isSome_iff_eq_none.mp fun linked => ?_
  simp [(moored.linkAlone linked).2] at waiting

/-- A session that is not to connect has no activity. -/
theorem Moored.vacant (moored : s.Moored adrift) (phase : s.ledger.phase = .disconnected) :
    s.Unattended := by
  refine ⟨?_, ?_, ?_⟩
  · exact Option.not_isSome_iff_eq_none.mp fun linked => (moored.linkPhase linked).1 phase
  · refine Option.not_isSome_iff_eq_none.mp fun dialing => ?_
    simpa [phase] using moored.dialPhase dialing
  · exact Option.not_isSome_iff_eq_none.mp fun waiting => (moored.waitPhase waiting).1 phase

/-- A session without any activity is moored in the closed phase. -/
theorem Moored.shut (closed : s.ledger.phase = .intentionallyClosed) (vacant : s.Unattended)
    (stage : ∀ replyTo, s.stage ≠ .handling replyTo) : s.Moored False := by
  obtain ⟨unlinked, undialed, still⟩ := vacant
  constructor <;> simp [closed, unlinked, undialed, still, stage]

/-- The end of a wait that is for nothing leaves a session moored. -/
theorem Moored.waited (moored : s.Moored adrift) (waiting : s.backoffDue.isSome)
    (phase : s.ledger.phase ≠ .backingOff) (idle : s.stage = .idle) :
    ({ s with backoffDue := none } : Session).Moored False := by
  have unlinked := moored.unlinked_of_wait waiting
  have undialed : s.dial = none := by
    refine Option.not_isSome_iff_eq_none.mp fun dialing => ?_
    simp [moored.dialAlone dialing] at waiting
  have held : ¬ adrift := by
    intro strayed
    simp [(moored.unattended strayed).2.2] at waiting
  have phases := moored.waitPhase waiting
  constructor
  case connecting =>
    intro connecting
    have pending := moored.connecting connecting
    simpa [undialed, idle, held] using pending
  all_goals simp [unlinked, undialed, phases, phase, idle]

end Kinds

/-- Whatever is written on a connection, nothing is left unwritten. -/
theorem flushed_unsent {s after : Session} {effects : List Effect}
    (flushed : Flushed s after effects) (phase : s.ledger.phase = .connected)
    (linked : s.link.isSome) : after.ledger.outbox.unsent = 0 := by
  obtain ⟨link, held⟩ := Option.isSome_iff_exists.mp linked
  cases flushed with
  | nothing idle => exact Decidable.byContradiction fun unsent => idle link ⟨held, phase, unsent⟩
  | written => exact Nat.sub_self _

/-- Without a connected phase nothing is written, and the session stays as it is. -/
theorem flushed_idle {s after : Session} {effects : List Effect}
    (flushed : Flushed s after effects) (phase : s.ledger.phase ≠ .connected) : after = s := by
  cases flushed with
  | nothing => rfl
  | written link writes => exact absurd writes.2.1 phase

/-- Acknowledgements leave nothing unwritten that was written. -/
theorem heeding_unsent (l : Ledger) (e : Envelope) (written : l.outbox.unsent = 0) :
    (l.heeding e).outbox.unsent = 0 := by
  refine l.heeding_keeps (P := fun m => m.outbox.unsent = 0) e written ?_
  unfold Outbox.unsent Outbox.size at *
  simp only [Ledger.applyAck, Outbox.ack, List.length_drop]
  omega

/-- What is taken in from an envelope touches the outbox with its acknowledgement only. -/
theorem took_outbox {e : Envelope} {s after : Session} {effects : List Effect}
    (took : Took e s after effects) :
    after.ledger.outbox = (s.ledger.heeding e).outbox := by
  cases took <;> rfl

/-- Every turn leaves a session moored, adrift only if it strays in this turn or was adrift. There
is one case for each kind of turn. A turn that begins, adopts or ends something leaves the session
moored anew; any other leaves the phase and the activities as they were. -/
theorem Moored.turned {host : Host} {now : Nat} {random : Random.Stream} {event : Event}
    {s after : Session} {effects : List Effect} {adrift : Prop} (moored : s.Moored adrift)
    (turned : Turned host now s event after effects) :
    after.Moored ((s.Strays (.turn now random event) ∨ adrift) ∧ after.Unattended) := by
  have anew (t : Session) (fresh : t.Moored False) :
      t.Moored ((s.Strays (.turn now random event) ∨ adrift) ∧ t.Unattended) :=
    fresh.mono False.elim And.right
  have still (t : Session) (same : t.Moored adrift) :
      t.Moored ((s.Strays (.turn now random event) ∨ adrift) ∧ t.Unattended) :=
    same.mono (fun strayed => ⟨.inr strayed, same.unattended strayed⟩) And.right
  cases turned with
  | still => exact still _ moored
  | attach greeted rest after effects idle next adopted =>
    rcases Moored.adopted adopted with joined | ⟨_, ledger, rfl, phase, outbox⟩
    · exact anew _ joined
    · refine still _ (moored.steady ?_ id moored.handling ?_ ?_ phase)
      · simp [next]
      · rw [outbox]
        exact moored.written
      · rw [outbox]
        exact moored.empty
  | reconnect rest idle next => exact anew _ (Moored.attempting host rfl rfl idle)
  | close rest idle next =>
    have vacant : ({ s with commands := rest } : Session).vacated.Unattended := ⟨rfl, rfl, rfl⟩
    by_cases closed : s.ledger.phase = .intentionallyClosed
    · exact anew _ (Moored.shut closed vacant (by simp [Session.vacated, idle]))
    · have strays : s.Strays (.turn now random .command) :=
        ⟨closed, idle, by simp [next], now, random, rfl⟩
      constructor
      case empty => simpa [Session.vacated, Ledger.count, idle] using moored.empty
      all_goals simp [Session.vacated, Session.Unattended, Ledger.count, idle, strays]
  | resetDial rest idle next waiting phase =>
    exact anew _ (Moored.attempting host (moored.unlinked_of_wait waiting) rfl idle)
  | resetNothing rest idle next awake =>
    by_cases waiting : s.backoffDue.isSome
    · refine anew _ ((moored.waited waiting (awake waiting) idle).steady ?_ id
        moored.handling moored.written moored.empty)
      simp [next]
    · have same : s.backoffDue = none := Option.not_isSome_iff_eq_none.mp waiting
      refine still _ (moored.steady ?_ id moored.handling moored.written moored.empty
        rfl rfl rfl same.symm)
      simp [next]
  | shutdown rest effects idle next =>
    refine anew _ ?_
    constructor <;> simp [Session.vacated]
  | wakeFlush after effects idle woken phase flushed =>
    have alike := flushed.alike
    refine still _ (moored.steady (fun pending => alike.commands ▸ pending) ?_ ?_ ?_ ?_ alike.phase
      (by rw [alike.link]) alike.dial alike.backoffDue)
    · simp [idle]
    · simp [flushed.stage, idle]
    · exact fun connected linked => .inl (flushed_unsent flushed connected linked)
    · simp [phase]
  | wakeDial idle woken phase queued =>
    obtain ⟨unlinked, _, unwaited⟩ := moored.vacant phase
    exact anew _ (Moored.attempting host unlinked unwaited idle)
  | wakeNothing idle woken phase empty =>
    refine still _ (moored.steady id id moored.handling ?_ ?_)
    · exact fun connected => absurd connected phase
    · exact fun disconnected => .inl (empty disconnected)
  | dialed greeted after effects idle dialing adopted =>
    have unlinked := moored.unlinked_of_dial dialing
    rcases Moored.adopted adopted with joined | ⟨unfit, ledger, rfl, phase, _⟩
    · exact anew _ joined
    · have closed : s.ledger.phase = .intentionallyClosed := by simpa [unlinked] using unfit
      refine anew _ (Moored.shut (phase.trans closed) ⟨unlinked, rfl, moored.dialAlone dialing⟩ ?_)
      simp [idle]
  | dialStale error idle dialing stale =>
    have unlinked := moored.unlinked_of_dial dialing
    have closed : s.ledger.phase = .intentionallyClosed := by
      simp only [unlinked, Option.isSome_none, Bool.false_eq_true, false_or] at stale
      exact (moored.dialPhase dialing).resolve_left stale
    refine anew _ (Moored.shut closed ⟨unlinked, rfl, moored.dialAlone dialing⟩ ?_)
    simp [idle]
  | dialRetry error due idle dialing unlinked phase more =>
    refine anew _ ?_
    constructor <;> simp [unlinked, idle]
  | dialGiveUp error idle dialing unlinked phase limited spent =>
    have unwaited := moored.dialAlone dialing
    refine anew _ ?_
    constructor <;> simp [unlinked, unwaited, idle, Outbox.clear, Outbox.size]
  | elapsedDial idle waiting phase =>
    exact anew _ (Moored.attempting host (moored.unlinked_of_wait waiting) rfl idle)
  | elapsedNothing idle waiting phase => exact anew _ (moored.waited waiting phase idle)
  | ackWritten link idle due held owed =>
    exact still _ (moored.steady id id moored.handling moored.written moored.empty)
  | ackNothing idle due settled =>
    exact still _ (moored.steady id id moored.handling moored.written moored.empty)
  | received bytes link idle held =>
    refine still _ (moored.steady id ?_ ?_ ?_ ?_ rfl (by simp [held]))
    · simp [idle]
    · simp
    · simpa [idle, Ledger.count] using moored.written
    · simpa [idle, Ledger.count] using moored.empty
  | lost link due idle held => exact anew _ (moored.bereft (by simp [held]) due (.inl idle))
  | lostNothing idle unlinked =>
    exact still _ (moored.steady id id moored.handling moored.written moored.empty)
  | greeted after effects stage flushed =>
    have alike := flushed.alike
    refine still _ (moored.steady (fun pending => alike.commands ▸ pending) ?_ ?_ ?_ ?_ alike.phase
      (by rw [alike.link]) alike.dial alike.backoffDue)
    · simp [stage]
    · simp
    · intro connected linked
      have written := flushed_unsent flushed connected linked
      exact .inl written
    · intro disconnected
      have same := flushed_idle flushed (by simp [disconnected])
      simpa [same, stage] using moored.empty disconnected
  | readNothing stage unlinked =>
    exact still _ (moored.onward (by simp [stage]) (by simp))
  | readBroken link error due stage held broken =>
    have bereft := moored.bereft (by simp [held]) due (.inr stage)
    exact anew _ (bereft.onward (by simp [stage]) (by simp))
  | readAll link stage held incomplete =>
    exact still _ (moored.onward (by simp [stage]) (by simp))
  | read link e rest after effects stage held complete took =>
    have alike := took.alike
    refine still _ (moored.steady (fun pending => alike.commands ▸ pending) ?_ ?_ ?_ ?_ alike.phase
      (by simp [alike.link, held]) alike.dial alike.backoffDue)
    · simp [stage]
    · simp [held]
    · intro connected linked
      have before := moored.written connected linked
      rw [alike.woken, took_outbox took]
      simp only [stage, reduceCtorEq, or_false] at before
      exact before.imp (heeding_unsent s.ledger e) .inl
    · intro disconnected
      exact absurd disconnected (moored.linkPhase (by simp [held])).1
  | replied replyTo payload ledger after effects stage queued flushed =>
    have alike := flushed.alike
    have linked := moored.handling _ stage
    have phase := (Ledger.enqueueReply_phase _ _ _ _ _ queued).1
    refine still _ (moored.steady (fun pending => alike.commands ▸ pending) ?_ ?_ ?_ ?_
      (alike.phase.trans phase) (by rw [alike.link]) alike.dial alike.backoffDue)
    · simp [stage]
    · simp [linked]
    · exact fun connected held =>
        .inl (flushed_unsent flushed (phase.trans connected) held)
    · exact fun disconnected => absurd disconnected (moored.linkPhase linked).1
  | silent replyTo reply stage unqueued =>
    exact still _ (moored.onward (by simp [stage]) (by simp))

/-- A command that is left for a session leaves it moored. -/
theorem Moored.pushed {s : Session} {adrift : Prop} (moored : s.Moored adrift)
    (command : Command) : (s.push command).Moored adrift := by
  obtain ⟨commands, same, before | behind⟩ := s.push_eq command
  · rw [same]
    exact moored.steady (by rw [before]; exact id) id moored.handling
      moored.written moored.empty
  · rw [same]
    refine moored.steady ?_ id moored.handling moored.written moored.empty
    rw [behind]
    exact List.mem_append_left _

/-- A call to reconnect moors a session by the command that it leaves. -/
theorem Moored.reconnect {s : Session} {adrift : Prop} (moored : s.Moored adrift)
    (hints : List String) : (s.reconnect hints).Moored adrift := by
  obtain ⟨kept, same⟩ := s.reconnect_eq hints
  rw [same, push]
  split
  · next ended => exact moored.rephased (.inl rfl) fun _ => .inr ended
  · exact moored.rephased (.inl rfl) fun _ => .inl (by simp)

/-- A call that closes the peer keeps a session moored, since the command that it leaves will let go
of whatever is under way. -/
theorem Moored.closed {s : Session} {adrift : Prop} (moored : s.Moored adrift) :
    s.close.Moored adrift := by
  rw [close_eq]
  refine Moored.pushed (moored.rephased (.inr rfl) ?_) .close
  simp

/-- Whatever happens to a session leaves it moored. A call either keeps the phase and the
activities, or leaves the command that will sort them out. -/
theorem Moored.undergo {s : Session} {adrift : Prop} (moored : s.Moored adrift) (host : Host)
    (occurrence : Occurrence) : (s.undergo host occurrence).Moored
      ((s.Strays occurrence ∨ adrift) ∧ (s.undergo host occurrence).Unattended) := by
  have still (t : Session) (same : t.Moored adrift) :
      t.Moored ((s.Strays occurrence ∨ adrift) ∧ t.Unattended) :=
    same.mono (fun strayed => ⟨.inr strayed, same.unattended strayed⟩) And.right
  cases occurrence with
  | post letter now =>
    rcases s.undergo_post host letter now with same | ⟨queued, _, accepted, same⟩
    · rw [same]
      exact still _ moored
    · obtain ⟨_, _, _, _, _, rfl⟩ := s.ledger.enqueueLetter_eq queued letter now accepted
      rw [same]
      exact still _ (moored.steady id id moored.handling
        (fun _ _ => .inr (.inl rfl)) fun _ => .inr (.inl rfl))
  | addHints hints =>
    obtain ⟨kept, same⟩ := s.ledger.addHints_eq hints
    simp only [Session.undergo, addHints, same]
    exact still _ (moored.steady id id moored.handling moored.written moored.empty)
  | reconnect hints => exact still _ (moored.reconnect hints)
  | close => exact still _ moored.closed
  | resetBackoff =>
    have reset : ({ s with ledger := { s.ledger with attempt := 0 } } : Session).Moored adrift :=
      moored.steady id id moored.handling moored.written moored.empty
    exact still _ (reset.pushed .resetBackoff)
  | attach greeted => exact still _ (moored.pushed _)
  | shutdown => exact still _ (moored.pushed _)
  | wrote bytes =>
    exact still _ (moored.steady id id moored.handling moored.written moored.empty)
  | turn now random event =>
    obtain ⟨_, turned⟩ := s.undergo_turn host now random event
    exact moored.turned turned
  | abort random =>
    rw [undergo_abort]
    refine Moored.mono ?_ False.elim And.right
    constructor <;> simp [vacated]

/-- One more occurrence leaves a session adrift if it strays in it or was adrift, and no
activity began. -/
theorem adrift_append_one (host : Host) (s : Session) (life : List Occurrence)
    (occurrence : Occurrence) : s.Adrift host (life ++ [occurrence]) ↔
      ((s.live host life).Strays occurrence ∨ s.Adrift host life) ∧
        (s.live host (life ++ [occurrence])).Unattended := by
  constructor
  · rintro ⟨past, straying, rest, split, strays, unattended⟩
    rcases List.eq_nil_or_concat rest with rfl | ⟨before, last, rfl⟩
    · obtain ⟨rfl, same⟩ := List.append_inj' split rfl
      cases same
      exact ⟨.inl strays, unattended [] (List.prefix_refl [])⟩
    · rw [List.concat_eq_append] at split unattended
      rw [← List.cons_append, ← List.append_assoc] at split
      obtain ⟨rfl, same⟩ := List.append_inj' split rfl
      cases same
      refine ⟨.inr ⟨past, straying, before, rfl, strays, fun later early => ?_⟩, ?_⟩
      · exact unattended later (early.trans (List.prefix_append before _))
      · simpa using unattended _ (List.prefix_refl _)
  · rintro ⟨strays | ⟨past, straying, rest, rfl, strays, unattended⟩, now⟩
    · refine ⟨life, occurrence, [], rfl, strays, fun later early => ?_⟩
      rw [List.prefix_nil.mp early]
      exact now
    · refine ⟨past, straying, rest ++ [occurrence], by simp, strays, fun later early => ?_⟩
      rcases List.prefix_concat_iff.mp early with rfl | before
      · simpa using now
      · exact unattended later before

/-- Whatever a session lives through, it stays moored. -/
theorem live_moored (host : Host) (peer : PeerId) (life : List Occurrence) :
    ((fresh peer host.options).live host life).Moored
      ((fresh peer host.options).Adrift host life) := by
  induction life using List.reverseRecOn with
  | nil =>
    refine (fresh_moored peer host.options).mono False.elim ?_
    rintro ⟨past, straying, rest, split, _⟩
    simp at split
  | append_singleton life occurrence inductionHypothesis =>
    rw [adrift_append_one, live_append]
    exact inductionHypothesis.undergo host occurrence

/-- Between two events, with no command and no wake-up left to take up, a session with
letters for a peer that was not closed on purpose is secured exactly if it is not
adrift. -/
theorem secured_iff_not_adrift (host : Host) (peer : PeerId) (life : List Occurrence)
    (s : Session) (lived : s = (fresh peer host.options).live host life)
    (idle : s.stage = .idle) (taken : s.commands = []) (rested : s.woken = false)
    (waiting : s.ledger.outbox.size ≠ 0) (opened : s.ledger.phase ≠ .intentionallyClosed) :
    s.Secured ↔ ¬ (fresh peer host.options).Adrift host life := by
  have moored := live_moored host peer life
  rw [← lived] at moored
  exact secured_iff_of_moored s _ moored idle taken rested waiting opened

/-- A letter alone is followed by an attempt to connect. -/
theorem posted_is_secured :
    ((fresh bob aliceService.host.options).live aliceService.host
      [.post ⟨[1], none⟩ (.ofMillis 0), .turn 0 quiet .wake]).Secured ↔
    ¬ (fresh bob aliceService.host.options).Adrift aliceService.host
      [.post ⟨[1], none⟩ (.ofMillis 0), .turn 0 quiet .wake] :=
  secured_iff_not_adrift aliceService.host bob _ _ rfl rfl rfl rfl (by decide) (by decide)

/-- A close that is taken up behind a waiting reconnect strands the letters. -/
theorem closed_behind_reconnect_strands : ¬ ∀ (host : Host) (peer : PeerId)
    (life : List Occurrence) (s : Session), s = (fresh peer host.options).live host life →
    s.stage = .idle → s.commands = [] → s.woken = false → s.ledger.outbox.size ≠ 0 →
    s.ledger.phase ≠ .intentionallyClosed → s.Secured := by
  intro secured
  have stranded := secured aliceService.host bob
    [.post ⟨[1], none⟩ (.ofMillis 0), .reconnect [], .close, .turn 0 quiet .wake,
      .turn 0 quiet .command, .turn 0 quiet .command] _ rfl rfl rfl rfl (by decide) (by decide)
  obtain ⟨phase, _⟩ | ⟨_, dialing⟩ | ⟨phase, _⟩ := stranded
  · cases phase
  · cases dialing
  · cases phase

end Session

end Courier
