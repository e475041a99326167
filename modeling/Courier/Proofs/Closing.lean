import Courier.Proofs.Lives
import Mathlib.Data.List.Induction

/-!
# Closing a connection on purpose

A connection that was closed on purpose stays closed until the application asks for
another one, unless a command to reconnect was waiting when it was closed: the session
takes commands up later than they are given, and a command to reconnect opens the
connection whatever has happened since. Nothing else opens it, in any order of calls
and events.
-/

namespace Courier

/-- A turn leaves a session that is closed on purpose closed, unless it takes up a command to
reconnect. There is one case for each kind of turn, and those that change the phase do not fit a
closed one. -/
theorem Turned.closed {host : Host} {now : Nat} {event : Event} {s after : Session}
    {effects : List Effect} (turned : Turned host now s event after effects)
    (closed : s.ledger.phase = .intentionallyClosed) :
    after.ledger.phase = .intentionallyClosed ∨
      event = .command ∧ s.stage = .idle ∧ s.commands.head? = some .reconnect := by
  have adoption (greeted : Greeted) (t : Session) (still : t.ledger.phase = .intentionallyClosed)
      (adopted : Adopted host now greeted t after effects) :
      after.ledger.phase = .intentionallyClosed := by
    cases adopted with
    | refused unfit => exact still
    | joined fit => exact absurd still fit.1
  have loss (due : Nat) : (s.bereft due).ledger.phase = .intentionallyClosed := by
    simp [Session.bereft, Phase.mayWait, closed, Ledger.count]
  cases turned with
  | attach greeted rest after effects idle next adopted =>
    exact .inl (adoption greeted { s with commands := rest } closed adopted)
  | reconnect rest idle next =>
    right
    refine ⟨rfl, idle, ?_⟩
    rw [next]
    rfl
  | resetDial rest idle next waiting phase => cases closed.symm.trans phase
  | wakeFlush after effects idle woken phase flushed =>
    exact .inl (flushed.alike.phase.trans closed)
  | wakeDial idle woken phase queued => cases closed.symm.trans phase
  | dialed greeted after effects idle dialing adopted =>
    exact .inl (adoption greeted { s with dial := none } closed adopted)
  | dialRetry error due idle dialing unlinked phase => cases closed.symm.trans phase
  | dialGiveUp error idle dialing unlinked phase => cases closed.symm.trans phase
  | elapsedDial idle waiting phase => cases closed.symm.trans phase
  | lost link due => exact .inl (loss due)
  | readBroken link error due => exact .inl (loss due)
  | read link e rest after effects stage held complete took =>
    exact .inl (took.alike.phase.trans closed)
  | greeted after effects stage flushed => exact .inl (flushed.alike.phase.trans closed)
  | replied replyTo payload ledger after effects stage queued flushed =>
    exact .inl (flushed.alike.phase.trans
      ((Ledger.enqueueReply_phase _ _ _ _ _ queued).1.trans closed))
  | _ => exact .inl closed

namespace Session

/-- Whether a turn of the session takes up a command to reconnect. -/
def Reopens (s : Session) (occurrence : Occurrence) : Prop :=
  s.stage = .idle ∧ s.commands.head? = some .reconnect ∧
    ∃ now random, occurrence = .turn now random .command

/-- Leaving a command does not change the phase. -/
theorem push_phase (s : Session) (command : Command) :
    (s.push command).ledger.phase = s.ledger.phase := by
  obtain ⟨commands, same, _⟩ := s.push_eq command
  rw [same]

/-- A session that is closed on purpose stays closed through everything but a call to
reconnect and a turn that takes one up. -/
theorem undergo_closed (host : Host) (s : Session) (occurrence : Occurrence)
    (closed : s.ledger.phase = .intentionallyClosed)
    (uncalled : ∀ hints, occurrence ≠ .reconnect hints) (kept : ¬ s.Reopens occurrence) :
    (s.undergo host occurrence).ledger.phase = .intentionallyClosed := by
  cases occurrence with
  | post letter now =>
    rcases s.undergo_post host letter now with same | ⟨queued, open', _⟩
    · rw [same]
      exact closed
    · exact absurd closed open'
  | addHints hints =>
    obtain ⟨hints, same⟩ := s.ledger.addHints_eq hints
    simp only [undergo, addHints, same]
    exact closed
  | reconnect hints => exact absurd rfl (uncalled hints)
  | close => rw [undergo, close_eq, push_phase]
  | resetBackoff => exact (push_phase _ _).trans closed
  | attach greeted => exact (push_phase _ _).trans closed
  | shutdown => exact (push_phase _ _).trans closed
  | wrote bytes => exact closed
  | turn now random event =>
    obtain ⟨_, turned⟩ := s.undergo_turn host now random event
    rcases turned.closed closed with still | ⟨rfl, idle, next⟩
    · exact still
    · exact absurd ⟨idle, next, now, random, rfl⟩ kept
  | abort random =>
    rw [undergo_abort]
    exact closed

/-- Taking up a command to reconnect opens a session in any phase. -/
theorem undergo_reopens (host : Host) (s : Session) (occurrence : Occurrence)
    (reopens : s.Reopens occurrence) :
    (s.undergo host occurrence).ledger.phase = .connecting := by
  obtain ⟨idle, next, now, random, rfl⟩ := reopens
  obtain ⟨rest, commands⟩ : ∃ rest, s.commands = .reconnect :: rest := by
    cases listed : s.commands with
    | nil => simp [listed] at next
    | cons command rest =>
      simp only [listed, List.head?_cons, Option.some.injEq] at next
      exact ⟨rest, by rw [next]⟩
  simp only [undergo, Turn.handle, idle, Turn.take, commands, Turn.obey, Turn.drop_all,
    Turn.startDial_eq]
  rfl

/-- No command to reconnect comes about but by a call. -/
theorem undergo_uncalled (host : Host) (s : Session) (occurrence : Occurrence)
    (uncalled : ∀ hints, occurrence ≠ .reconnect hints) (none : .reconnect ∉ s.commands) :
    .reconnect ∉ (s.undergo host occurrence).commands := by
  have pushed (t : Session) (command : Command) (other : .reconnect ≠ command)
      (before : .reconnect ∉ t.commands) : .reconnect ∉ (t.push command).commands := by
    obtain ⟨commands, same, rfl | rfl⟩ := t.push_eq command
    · rwa [same]
    · rw [same]
      simp [before, other]
  cases occurrence with
  | post letter now =>
    rcases s.undergo_post host letter now with same | ⟨queued, _, _, same⟩ <;> rw [same] <;>
      exact none
  | addHints hints => exact none
  | reconnect hints => exact absurd rfl (uncalled hints)
  | close =>
    rw [undergo, close_eq]
    exact pushed _ _ Command.noConfusion none
  | resetBackoff => exact pushed _ _ Command.noConfusion none
  | attach greeted => exact pushed _ _ Command.noConfusion none
  | shutdown => exact pushed _ _ Command.noConfusion none
  | wrote bytes => exact none
  | turn now random event =>
    obtain ⟨_, turned⟩ := s.undergo_turn host now random event
    exact fun waiting => none (turned.commands.subset waiting)
  | abort random =>
    rw [undergo_abort]
    exact List.not_mem_nil

end Session

/-- Whether a deed leaves a kernel in service and is no call to reconnect to a peer. -/
def Deed.Spares (deed : Deed) (peer : PeerId) : Prop :=
  deed.isStop = false ∧ ∀ hints, deed ≠ .reconnect peer hints

namespace Kernel

/-- A peer is closed to a kernel when its phase says so and no letter is accepted for it. A
letter that no frame can hold is refused for its size. -/
def ClosedTo (k : Kernel) (peer : PeerId) : Prop :=
  (∃ ledger, k.ledger? peer = some ledger ∧ ledger.phase = .intentionallyClosed) ∧
    ∀ letter now, (k.send peer letter now).1 = .error
      (if Frame.maxPayload < letter.payload.length then
        .messageTooLarge letter.payload.length Frame.maxPayload
      else .closedOnPurpose peer)

/-- Whether a deed of the kernel makes the session of a peer take up a command to
reconnect. -/
def Reopens (k : Kernel) (peer : PeerId) (deed : Deed) : Prop :=
  (∃ now, deed = .turn peer now .command) ∧ ∃ s, k.session? peer = some s ∧
    s.stage = .idle ∧ s.commands.head? = some .reconnect

/-- An active kernel that has a session for a peer. -/
structure Serves (k : Kernel) (service : Service) (peer : PeerId) (s : Session) : Prop where
  active : k.service? = some service
  held : k.session? peer = some s
  about : s.ledger.peer = peer

/-- Nothing but the phase decides whether a peer is closed to an active kernel. -/
theorem closedTo_iff (k : Kernel) (service : Service) (peer : PeerId) (s : Session)
    (serves : k.Serves service peer s) :
    k.ClosedTo peer ↔ s.ledger.phase = .intentionallyClosed := by
  have known : k.ledger? peer = some s.ledger := by simp [ledger?, serves.active, serves.held]
  constructor
  · rintro ⟨⟨ledger, found, closed⟩, _⟩
    cases known.symm.trans found
    exact closed
  · intro closed
    refine ⟨⟨s.ledger, known, closed⟩, fun letter now => ?_⟩
    unfold send
    by_cases large : Frame.maxPayload < letter.payload.length
    · rw [if_pos large, if_pos large]
    · rw [if_neg large, if_neg large, (k.session?_withSession service serves.active peer peer _).1]
      simp [session, serves.held, Session.post, closed, serves.about]

/-- A deed that spares a peer leaves a kernel that serves it, with the session after what
the deed is for it. -/
theorem serves_undergo (k : Kernel) (service : Service) (peer : PeerId) (s : Session)
    (serves : k.Serves service peer s) (deed : Deed) (spares : deed.Spares peer) :
    (k.undergo deed).Serves service peer (s.live service.host (k.occurrences peer deed)) := by
  have keeps := k.undergo_keeps_active service serves.active deed spares.1
  have running := k.host?_of_service? service serves.active
  refine ⟨?_, k.session?_undergo service.host running peer s serves.held deed keeps, ?_⟩
  · rw [(host?_of_status keeps.status).2]
    exact serves.active
  · rw [Session.live_peer]
    exact serves.about

/-- What a deed that spares a peer is for its session is no call to reconnect. -/
theorem Occurs.uncalled {k : Kernel} {peer : PeerId} {deed : Deed} {occurrence : Occurrence}
    (occurs : k.Occurs peer deed occurrence) (spares : deed.Spares peer) (hints : List String) :
    occurrence ≠ .reconnect hints := by
  rintro rfl
  cases occurs with
  | reconnect => exact spares.2 hints rfl

/-- One deed that spares a peer closes or opens nothing, unless it makes the session take up
a command to reconnect. -/
theorem undergo_closedTo_iff (k : Kernel) (service : Service) (peer : PeerId) (s : Session)
    (serves : k.Serves service peer s) (closed : k.ClosedTo peer) (deed : Deed)
    (spares : deed.Spares peer) :
    (k.undergo deed).ClosedTo peer ↔ ¬ k.Reopens peer deed := by
  rw [closedTo_iff k service peer s serves] at closed
  rw [closedTo_iff _ service peer _ (k.serves_undergo service peer s serves deed spares)]
  constructor
  · rintro still ⟨⟨now, rfl⟩, taking, held, idle, next⟩
    cases serves.held.symm.trans held
    have reopened := s.undergo_reopens service.host (.turn now k.random .command)
      ⟨idle, next, now, k.random, rfl⟩
    rw [occurrences, if_pos rfl, Session.live_one, reopened] at still
    cases still
  · intro kept
    rcases k.occurrences_cases peer deed with nothing | ⟨occurrence, one, occurs⟩
    · rw [nothing]
      exact closed
    · rw [one]
      refine s.undergo_closed service.host occurrence closed (occurs.uncalled spares) ?_
      · rintro ⟨idle, next, now, random, rfl⟩
        refine kept ⟨⟨now, ?_⟩, s, serves.held, idle, next⟩
        cases occurs with
        | turn => rfl

/-- Sparing a peer, a kernel goes on serving it. -/
theorem serves_live (k : Kernel) (service : Service) (peer : PeerId) (s : Session)
    (serves : k.Serves service peer s) (life : List Deed)
    (spared : ∀ deed ∈ life, deed.Spares peer) :
    ∃ after, (k.live life).Serves service peer after := by
  induction life generalizing k s with
  | nil => exact ⟨s, serves⟩
  | cons deed rest inductionHypothesis =>
    exact inductionHypothesis _ _
      (k.serves_undergo service peer s serves deed (spared deed List.mem_cons_self))
      fun deed later => spared deed (List.mem_cons_of_mem _ later)

/-- Without a waiting command to reconnect, none is waiting later. -/
theorem live_uncalled (k : Kernel) (service : Service) (peer : PeerId) (s : Session)
    (serves : k.Serves service peer s) (none : .reconnect ∉ s.commands) (life : List Deed)
    (spared : ∀ deed ∈ life, deed.Spares peer) :
    ∃ after, (k.live life).Serves service peer after ∧ .reconnect ∉ after.commands := by
  induction life generalizing k s with
  | nil => exact ⟨s, serves, none⟩
  | cons deed rest inductionHypothesis =>
    have spares := spared deed List.mem_cons_self
    refine inductionHypothesis _ _ (k.serves_undergo service peer s serves deed spares) ?_
      fun deed later => spared deed (List.mem_cons_of_mem _ later)
    rcases k.occurrences_cases peer deed with nothing | ⟨occurrence, one, occurs⟩
    · rw [nothing]
      exact none
    · rw [one]
      exact s.undergo_uncalled service.host occurrence (occurs.uncalled spares) none

/-- A peer stays closed along a life that spares it exactly if no turn on the way takes up a
command to reconnect. -/
theorem live_closedTo_iff (k : Kernel) (service : Service) (peer : PeerId) (s : Session)
    (serves : k.Serves service peer s) (closed : k.ClosedTo peer) (life : List Deed)
    (spared : ∀ deed ∈ life, deed.Spares peer) :
    (∀ past, past <+: life → (k.live past).ClosedTo peer) ↔
      ∀ past deed, past ++ [deed] <+: life → ¬ (k.live past).Reopens peer deed := by
  have step (past : List Deed) (deed : Deed) (way : past ++ [deed] <+: life)
      (before : (k.live past).ClosedTo peer) :
      (k.live (past ++ [deed])).ClosedTo peer ↔ ¬ (k.live past).Reopens peer deed := by
    obtain ⟨t, serving⟩ := k.serves_live service peer s serves past fun deed early =>
      spared deed (way.subset (List.mem_append_left _ early))
    rw [live, List.foldl_append]
    exact undergo_closedTo_iff _ service peer t serving before deed
      (spared deed (way.subset (List.mem_append_right _ List.mem_cons_self)))
  constructor
  · intro throughout past deed way
    have before := throughout past ((List.prefix_append past [deed]).trans way)
    exact (step past deed way before).mp (throughout _ way)
  · intro kept past
    induction past using List.reverseRecOn with
    | nil => exact fun _ => closed
    | append_singleton past deed inductionHypothesis =>
      intro way
      have before := inductionHypothesis ((List.prefix_append past [deed]).trans way)
      exact (step past deed way before).mpr (kept past deed way)

/-- A kernel that was told to close the connection to a peer serves the peer, closed. -/
theorem close_serves (k after : Kernel) (stems : k.Stems) (peer : PeerId)
    (closing : k.close peer = (.ok (), after)) :
    ∃ service s, after.Serves service peer s ∧ after.ClosedTo peer := by
  cases active : k.service? with
  | none => simp [close, withSession, active] at closing
  | some service =>
    have running := k.host?_of_service? service active
    obtain ⟨_, status, held⟩ := k.session?_withSession service active peer peer fun session =>
      ((.ok () : Except CommsError Unit), session.close)
    change (k.close peer).2.status = _ at status
    change (k.close peer).2.session? peer = _ at held
    rw [closing] at status held
    rw [if_pos rfl, Session.close_eq] at held
    have about : (k.session service.host peer).ledger.peer = peer := by
      cases known : k.session? peer with
      | none => simp [session, known, Session.fresh, Ledger.fresh]
      | some s =>
        simp only [session, known, Option.getD_some]
        exact k.session?_peer stems service.host running peer s known
    obtain ⟨commands, pushed, _⟩ := Session.push_eq { k.session service.host peer with
      ledger := { (k.session service.host peer).ledger with phase := .intentionallyClosed } } .close
    rw [pushed] at held
    have serves : after.Serves service peer _ :=
      ⟨(host?_of_status status).2.trans active, held, about⟩
    exact ⟨service, _, serves, (closedTo_iff after service peer _ serves).mpr rfl⟩

/-- After a call to close it, the connection to a peer stays closed along a life without a
call to reconnect and without a stop exactly if no turn on the way takes up a command to
reconnect. None does if none was waiting when the connection was closed. -/
theorem close_lasts_iff (service : Service) (random : Random.Stream) (before : List Deed)
    (peer : PeerId) (k : Kernel)
    (closing : ((started service random).live before).close peer = (.ok (), k))
    (life : List Deed) (spared : ∀ deed ∈ life, deed.Spares peer) :
    ((∀ past, past <+: life → (k.live past).ClosedTo peer) ↔
        ∀ past deed, past ++ [deed] <+: life → ¬ (k.live past).Reopens peer deed) ∧
      ((∀ s, k.session? peer = some s → .reconnect ∉ s.commands) →
        ∀ past, past <+: life → (k.live past).ClosedTo peer) := by
  obtain ⟨serving, s, serves, closed⟩ :=
    close_serves _ k (live_stems service random before) peer closing
  have exactly := k.live_closedTo_iff serving peer s serves closed life spared
  refine ⟨exactly, fun idle => exactly.mpr ?_⟩
  rintro past deed way ⟨_, t, held, _, next⟩
  obtain ⟨after, serving', none⟩ := k.live_uncalled serving peer s serves (idle s serves.held) past
    fun deed early => spared deed (way.subset (List.mem_append_left _ early))
  cases serving'.held.symm.trans held
  exact none (List.mem_of_mem_head? next)

/-- The connection stays closed through a wake-up that came too late. -/
theorem close_lasts_alone :
    (((started aliceService quiet).close bob).2.live [.turn bob 0 .wake]).ClosedTo bob := by
  have spared : ∀ deed ∈ [Deed.turn bob 0 .wake], deed.Spares bob := by
    intro deed listed
    rw [List.mem_singleton.mp listed]
    exact ⟨rfl, by simp⟩
  refine (close_lasts_iff aliceService quiet [] bob _ rfl _ spared).2 ?_ _ (List.prefix_refl _)
  intro s held
  cases held.symm.trans (rfl : _ = some (Session.fresh bob {}).close)
  simp [Session.close, Session.push, Session.fresh]

/-- A command to reconnect that was waiting opens the connection after it was closed. -/
theorem waiting_reconnect_opens : ¬ ∀ (service : Service) (random : Random.Stream)
    (before : List Deed) (peer : PeerId) (k : Kernel),
    ((started service random).live before).close peer = (.ok (), k) →
    ∀ life : List Deed, (∀ deed ∈ life, deed.Spares peer) →
    ∀ past, past <+: life → (k.live past).ClosedTo peer := by
  intro lasting
  have closed := lasting aliceService quiet [.reconnect bob []] bob _ rfl [.turn bob 0 .command]
    (by simp [Deed.Spares, Deed.isStop]) _ (List.prefix_refl _)
  obtain ⟨⟨ledger, known, phase⟩, _⟩ := closed
  have opened : ledger.phase = .connecting := by
    cases known
    rfl
  cases opened.symm.trans phase

end Kernel

end Courier
