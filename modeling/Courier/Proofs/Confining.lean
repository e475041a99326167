import Courier.Proofs.Streams
import Courier.Proofs.Performing

/-!
# The connections of a session

A session has its connection from a greeted connection that it was handed, and does nothing at the
ends of others: whatever it asks for at an end of a connection, it had this end before, or was
just handed it. Which connections a session may be handed is left open here.
-/

namespace Courier

section Known

variable {known : Greeted → Prop}

/-- The connection that a session holds, and those that it is told to attach, are known. -/
structure Session.Confined (known : Greeted → Prop) (s : Session) : Prop where
  link : ∀ link, s.link = some link → ∃ greeted, known greeted ∧
    greeted.endpoint = link.endpoint ∧ greeted.hello.incarnation = link.incarnation
  commands : ∀ greeted, .attach greeted ∈ s.commands → known greeted

/-- An effect is about the ends of known connections only. -/
def Effect.Confined (known : Greeted → Prop) (effect : Effect) : Prop :=
  ∀ e ∈ effect.endpoints, ∃ greeted, known greeted ∧ greeted.endpoint = e

/-- An effect that is about no end is confined. -/
theorem Effect.confined_of_none {effect : Effect} (none : effect.endpoints = []) :
    effect.Confined known := by
  intro e listed
  rw [none] at listed
  cases listed

namespace Session

variable {s t after : Session} {effects : List Effect}

/-- A session of a peer not heard of before has no connections. -/
theorem fresh_confined (peer : PeerId) (options : Options) :
    (fresh peer options).Confined known := ⟨nofun, nofun⟩

/-- A session that holds the same connection or none, and was handed no more, has connections only
that are known. -/
theorem Confined.fewer (confined : s.Confined known)
    (link : after.link = none ∨ after.link = s.link)
    (commands : ∀ greeted, .attach greeted ∈ after.commands → .attach greeted ∈ s.commands) :
    after.Confined known where
  link l held := by
    rcases link with none | same
    · rw [none] at held
      cases held
    · exact confined.link l (same ▸ held)
  commands greeted listed := confined.commands greeted (commands greeted listed)

/-- The end that a session hangs up is known. -/
theorem Confined.hangUp (confined : s.Confined known) {link : Link} (held : s.link = some link) :
    (Effect.hangUp link.endpoint).Confined known := by
  intro e listed
  obtain ⟨greeted, mine, same, _⟩ := confined.link link held
  exact ⟨greeted, mine, same.trans (List.mem_singleton.mp listed).symm⟩

/-- The end that a session writes to is known. -/
theorem Confined.writings (confined : s.Confined known) {link : Link} (held : s.link = some link)
    (dispatches : List Dispatch) :
    ∀ effect ∈ writings link.endpoint dispatches, effect.Confined known := by
  exact forall_writings link.endpoint dispatches (confined.hangUp held)

/-- The ends that a session parts with are known. -/
theorem Confined.partings (confined : s.Confined known) :
    ∀ effect ∈ s.partings, effect.Confined known :=
  s.forall_partings (fun _ held => confined.hangUp held) (Effect.confined_of_none rfl)

end Session

/-- A flush is about the connection held, which is known. -/
theorem Flushed.confined {s after : Session} {effects : List Effect}
    (flushed : Flushed s after effects) (confined : s.Confined known) :
    after.Confined known ∧ ∀ effect ∈ effects, effect.Confined known := by
  cases flushed with
  | nothing => exact ⟨confined, nofun⟩
  | written link writes =>
    exact ⟨confined.fewer (.inr rfl) fun _ => id, confined.writings writes.1 _⟩

/-- Taking in an envelope is about the connection held, which is known. -/
theorem Took.confined {e : Envelope} {s after : Session} {effects : List Effect}
    (took : Took e s after effects) (confined : s.Confined known) :
    after.Confined known ∧ ∀ effect ∈ effects, effect.Confined known := by
  cases took <;> refine ⟨confined.fewer (.inr rfl) fun _ => id, ?_⟩ <;>
    simp [Effect.Confined, Effect.endpoints]

/-- A greeted connection that is known becomes the live one, or is hung up. -/
theorem Adopted.confined {host : Host} {now : Nat} {greeted : Greeted} {s after : Session}
    {effects : List Effect} (adopted : Adopted host now greeted s after effects)
    (confined : s.Confined known) (mine : known greeted) :
    after.Confined known ∧ ∀ effect ∈ effects, effect.Confined known := by
  cases adopted with
  | refused =>
    refine ⟨confined.fewer (.inr rfl) fun _ => id, List.forall_mem_singleton.mpr ?_⟩
    exact fun e listed => ⟨greeted, mine, (List.mem_singleton.mp listed).symm⟩
  | joined =>
    constructor
    · constructor
      · rintro _ ⟨⟩
        exact ⟨greeted, mine, rfl, rfl⟩
      · exact confined.commands
    · refine s.forall_joinings greeted (fun _ held => confined.hangUp held)
        (Effect.confined_of_none rfl) ?_ fun _ => Effect.confined_of_none rfl
      exact fun e here => ⟨greeted, mine, (List.mem_singleton.mp here).symm⟩

namespace Turn

/-- Commands that are passed over are hung up. -/
theorem forgo_confined (commands : List Command) (t : Turn)
    (mine : ∀ greeted, .attach greeted ∈ commands → known greeted) : ∃ effects,
    (commands.foldl forgo t).effects = t.effects ++ effects ∧
      ∀ effect ∈ effects, effect.Confined known := by
  induction commands generalizing t with
  | nil => exact ⟨[], (List.append_nil _).symm, nofun⟩
  | cons command rest inductionHypothesis =>
    obtain ⟨effects, same, confined⟩ := inductionHypothesis (t.forgo command) fun greeted listed =>
      mine greeted (List.mem_cons_of_mem _ listed)
    rw [List.foldl_cons, same]
    cases command with
    | attach greeted =>
      refine ⟨.hangUp greeted.endpoint :: effects, by simp [forgo, emit], ?_⟩
      rw [List.forall_mem_cons]
      refine ⟨fun e listed => ?_, confined⟩
      exact ⟨greeted, mine greeted List.mem_cons_self, (List.mem_singleton.mp listed).symm⟩
    | _ => exact ⟨effects, rfl, confined⟩

/-- A session that ends lets go of its own ends only. -/
theorem release_confined (t : Turn) (confined : t.session.Confined known) : ∃ effects,
    t.release.effects = t.effects ++ effects ∧ ∀ effect ∈ effects, effect.Confined known := by
  obtain ⟨effects, same, gone⟩ := forgo_confined t.session.vacated.commands
    { t with session := t.session.vacated, effects := t.effects ++ t.session.partings }
    confined.commands
  refine ⟨t.session.partings ++ effects, ?_, ?_⟩
  · unfold release
    rw [drop_all, ← List.append_assoc]
    exact same
  · exact List.forall_mem_append.mpr ⟨confined.partings, gone⟩

end Turn

/-- A turn leaves a session with known connections only. What a session does to end is not said
here. There is one case for each kind of turn: a connection is adopted from a command or from the
attempt, both of which are known, and all others are about the connection held. -/
theorem Turned.confined {host : Host} {now : Nat} {event : Event} {s after : Session}
    {effects : List Effect} (turned : Turned host now s event after effects)
    (confined : s.Confined known)
    (handed : ∀ greeted, event = .dialed (.ok greeted) → known greeted) :
    after.Confined known ∧
      ((event = .command ∧ ∃ rest, s.commands = .shutdown :: rest) ∨
        ∀ effect ∈ effects, effect.Confined known) := by
  have told {t : Session} (link : t.link = none ∨ t.link = s.link)
      (commands : ∀ greeted, .attach greeted ∈ t.commands → .attach greeted ∈ s.commands) :
      t.Confined known := confined.fewer link commands
  have later {command : Command} {rest : List Command} (next : s.commands = command :: rest)
      (greeted : Greeted) (listed : .attach greeted ∈ rest) : .attach greeted ∈ s.commands :=
    next ▸ List.mem_cons_of_mem _ listed
  have silent (dial : Dial) : ∀ effect ∈ [Effect.dial dial], effect.Confined known :=
    List.forall_mem_singleton.mpr nofun
  cases turned with
  | still => exact ⟨confined, .inr nofun⟩
  | attach greeted rest after effects idle next adopted =>
    have fewer : ({ s with commands := rest } : Session).Confined known :=
      told (.inr rfl) (later next)
    have mine := confined.commands greeted (next ▸ List.mem_cons_self)
    exact (adopted.confined fewer mine).imp_right .inr
  | reconnect rest idle next =>
    refine ⟨told (.inl rfl) (later next), .inr ?_⟩
    exact List.forall_mem_append.mpr ⟨confined.partings, silent _⟩
  | close rest idle next => exact ⟨told (.inl rfl) (later next), .inr confined.partings⟩
  | resetDial rest idle next => exact ⟨told (.inr rfl) (later next), .inr (silent _)⟩
  | resetNothing rest idle next => exact ⟨told (.inr rfl) (later next), .inr nofun⟩
  | shutdown rest effects idle next => exact ⟨told (.inl rfl) nofun, .inl ⟨rfl, rest, next⟩⟩
  | wakeFlush after effects idle woken phase flushed =>
    have same : ({ s with woken := false } : Session).Confined known := told (.inr rfl) fun _ => id
    exact (flushed.confined same).imp_right .inr
  | wakeDial => exact ⟨told (.inr rfl) fun _ => id, .inr (silent _)⟩
  | dialed greeted after effects idle dialing adopted =>
    have same : ({ s with dial := none } : Session).Confined known := told (.inr rfl) fun _ => id
    exact (adopted.confined same (handed greeted rfl)).imp_right .inr
  | elapsedDial => exact ⟨told (.inr rfl) fun _ => id, .inr (silent _)⟩
  | ackWritten link idle due held =>
    exact ⟨told (.inr rfl) fun _ => id, .inr (confined.writings held _)⟩
  | received bytes link idle held =>
    refine ⟨⟨?_, confined.commands⟩, .inr nofun⟩
    rintro _ ⟨⟩
    exact confined.link link held
  | lost link due idle held =>
    refine ⟨told (.inl (s.bereft_link due)) fun greeted =>
      s.bereft_commands due ▸ id, .inr ?_⟩
    exact List.forall_mem_singleton.mpr (confined.hangUp held)
  | greeted after effects stage flushed =>
    obtain ⟨same, within⟩ := flushed.confined confined
    exact ⟨same.fewer (.inr rfl) fun _ => id, .inr within⟩
  | readBroken link error due stage held =>
    refine ⟨told (.inl (s.bereft_link due)) fun greeted =>
      s.bereft_commands due ▸ id, .inr ?_⟩
    exact List.forall_mem_singleton.mpr (confined.hangUp held)
  | read link e rest after effects stage held complete took =>
    have shorter : ({ s with link := some { link with buffer := rest } } : Session).Confined
        known := by
      refine ⟨?_, confined.commands⟩
      rintro _ ⟨⟩
      exact confined.link link held
    exact (took.confined shorter).imp_right .inr
  | dialGiveUp =>
    exact ⟨told (.inr rfl) fun _ => id, .inr (s.forall_rejections (fun _ => nofun) nofun)⟩
  | replied replyTo payload ledger after effects stage queued flushed =>
    have same : ({ s with ledger, stage := .reading } : Session).Confined known :=
      told (.inr rfl) fun _ => id
    exact (flushed.confined same).imp_right .inr
  | _ => exact ⟨told (.inr rfl) fun _ => id, .inr nofun⟩

/-- A turn leaves a session with known connections only, and asks for nothing at the ends of
others. -/
theorem Turn.handle_confined (host : Host) (now : Nat) (s : Session) (random : Random.Stream)
    (event : Event) (confined : s.Confined known)
    (handed : ∀ greeted, event = .dialed (.ok greeted) → known greeted) :
    (Turn.handle host now ⟨s, random, []⟩ event).session.Confined known ∧
      ∀ effect ∈ (Turn.handle host now ⟨s, random, []⟩ event).effects,
        effect.Confined known := by
  obtain ⟨effects, asked, turned⟩ := handle_goes host now ⟨s, random, []⟩ event
  obtain ⟨after, within⟩ := turned.confined confined handed
  refine ⟨after, ?_⟩
  rcases within with ⟨rfl, rest, next⟩ | within
  · have next : s.commands = .shutdown :: rest := next
    by_cases idle : s.stage = .idle
    · have fewer : ({ s with commands := rest } : Session).Confined known :=
        ⟨confined.link, fun greeted listed =>
          confined.commands greeted (next ▸ List.mem_cons_of_mem _ listed)⟩
      have ends : Turn.handle host now ⟨s, random, []⟩ .command =
          Turn.release ⟨{ s with commands := rest }, random, []⟩ := by
        simp [handle, idle, take, next, obey, amend]
      obtain ⟨effects, same, gone⟩ := release_confined
        ⟨{ s with commands := rest }, random, []⟩ fewer
      rw [ends, same]
      exact gone
    · have still : Turn.handle host now ⟨s, random, []⟩ .command = ⟨s, random, []⟩ := by
        unfold handle
        split
        · next stage => exact absurd stage idle
        all_goals first | rfl | contradiction
      rw [still]
      exact List.forall_mem_nil _
  · rw [asked]
    exact within

/-- Whatever happens to a session, it is left with known connections if it is handed such. -/
theorem Session.Confined.undergo {s : Session} (confined : s.Confined known) (host : Host)
    (occurrence : Occurrence) (attached : ∀ greeted, occurrence = .attach greeted → known greeted)
    (handed : ∀ now random greeted,
      occurrence = .turn now random (.dialed (.ok greeted)) → known greeted) :
    (s.undergo host occurrence).Confined known := by
  have undergone := s.undergone host occurrence
  generalize same : s.undergo host occurrence = after at undergone ⊢
  cases undergone with
  | spared _ _ spared =>
    refine ⟨fun link held => ?_, fun greeted listed => ?_⟩
    · rcases spared.link with none | same
      · cases none.symm.trans held
      · exact confined.link link (same ▸ held)
    rcases List.mem_append.mp (spared.commands.subset listed) with old | new
    · exact confined.commands greeted old
    · apply attached
      cases occurrence <;> simp_all [Occurrence.commands]
  | posted => exact confined.fewer (.inr rfl) fun _ => id
  | turned now random event =>
    rw [← same]
    exact (Turn.handle_confined host now s random event confined fun greeted same =>
      handed now random greeted (same ▸ rfl)).1

/-- All through a life a session has connections only that are known, if it is handed no others. -/
theorem Session.Confined.live {s : Session} (confined : s.Confined known) (host : Host)
    (life : List Occurrence) (attached : ∀ greeted, .attach greeted ∈ life → known greeted)
    (handed : ∀ now random greeted, .turn now random (.dialed (.ok greeted)) ∈ life →
      known greeted) : (s.live host life).Confined known := by
  induction life generalizing s with
  | nil => exact confined
  | cons occurrence rest inductionHypothesis =>
    have first : (s.undergo host occurrence).Confined known := by
      apply confined.undergo host occurrence
      · rintro greeted rfl
        exact attached greeted List.mem_cons_self
      · rintro now random greeted rfl
        exact handed now random greeted List.mem_cons_self
    apply inductionHypothesis first
    · exact fun greeted listed => attached greeted (List.mem_cons_of_mem _ listed)
    · exact fun now random greeted listed =>
        handed now random greeted (List.mem_cons_of_mem _ listed)

end Known

namespace Kernel

variable {known : PeerId → Greeted → Prop} {k : Kernel}

/-- Each session of a kernel has connections only that are known for its peer. -/
def Confined (known : PeerId → Greeted → Prop) (k : Kernel) : Prop :=
  ∀ peer s, k.session? peer = some s → s.Confined (known peer)

/-- Whether a deed hands over connections only that are known for their peers. -/
structure Hands (known : PeerId → Greeted → Prop) (deed : Deed) : Prop where
  attached : ∀ greeted, deed = .attach greeted → known greeted.hello.peer greeted
  dialed : ∀ peer now greeted, deed = .turn peer now (.dialed (.ok greeted)) → known peer greeted

/-- A letter hands over no connection. -/
theorem hands_send (sending : Sending) (now : Nat) : Hands known (sending.deed now) :=
  ⟨nofun, nofun⟩

/-- What holds of every session of a kernel, and of sessions that begin, holds of every session
after a deed if it survives what the deed is for the session. -/
theorem each_undergo {holds : PeerId → Session → Prop} (vacant : k.host? = none → k.sessions = [])
    (deed : Deed) (each : ∀ peer s, k.session? peer = some s → holds peer s)
    (begins : ∀ (host : Host) (peer : PeerId), holds peer (.fresh peer host.options))
    (survives : ∀ host, k.host? = some host → ∀ peer, holds peer (k.session host peer) →
      holds peer ((k.session host peer).live host (k.occurrences peer deed))) :
    ∀ peer s, (k.undergo deed).session? peer = some s → holds peer s := by
  intro peer s left
  have empty := k.undergo_vacant vacant deed
  cases running : (k.undergo deed).host? with
  | none => simp [session?, empty running] at left
  | some host =>
    rcases k.host?_undergo deed host running with before | gone
    · rw [k.session_undergo host before peer deed s left]
      apply survives host before
      unfold session
      cases held : k.session? peer with
      | none => exact begins host peer
      | some old => exact each peer old held
    · simp [session?, gone] at left

/-- A deed leaves the sessions of a kernel with connections only that are known. -/
theorem Confined.undergo (confined : k.Confined known) (vacant : k.host? = none → k.sessions = [])
    (deed : Deed) (hands : Hands known deed) : (k.undergo deed).Confined known := by
  apply each_undergo vacant deed confined
  · exact fun host peer => Session.fresh_confined peer host.options
  · intro host _ peer began
    apply began.live host
    · intro greeted among
      cases occurs_of_mem among with
      | attach _ named => exact named ▸ hands.attached greeted rfl
    · intro now random greeted among
      cases occurs_of_mem among with
      | turn => exact hands.dialed peer now greeted rfl

/-- A kernel that does not run has no sessions at any time. -/
theorem live_vacant (vacant : k.host? = none → k.sessions = []) (life : List Deed)
    (stopped : (k.live life).host? = none) : (k.live life).sessions = [] := by
  induction life generalizing k with
  | nil => exact vacant stopped
  | cons deed rest inductionHypothesis =>
    exact inductionHypothesis (k.undergo_vacant vacant deed) stopped

/-- All through the life of a kernel its sessions have connections only that are known. -/
theorem Confined.live (confined : k.Confined known) (vacant : k.host? = none → k.sessions = [])
    (life : List Deed) (hands : ∀ deed ∈ life, Hands known deed) :
    (k.live life).Confined known := by
  induction life generalizing k with
  | nil => exact confined
  | cons deed rest inductionHypothesis =>
    obtain ⟨first, later⟩ := List.forall_mem_cons.mp hands
    exact inductionHypothesis (confined.undergo vacant deed first) (k.undergo_vacant vacant deed)
      later

/-- Whatever the session of a peer asks for at an end of a connection, the connection is known. -/
theorem Confined.turn (confined : k.Confined known) (peer : PeerId) (now : Nat) (event : Event)
    (handed : ∀ greeted, event = .dialed (.ok greeted) → known peer greeted) :
    ∀ effect ∈ (k.turn peer now event).2, effect.Confined (known peer) := by
  unfold Kernel.turn
  split
  · next host s _ held =>
    exact (Turn.handle_confined host now s k.random event (confined peer s held) handed).2
  · exact nofun

/-- A session that is ended at once asks for nothing but about connections that are known. -/
theorem Confined.abort (confined : k.Confined known) (peer : PeerId) :
    ∀ effect ∈ (k.abort peer).2, effect.Confined (known peer) := by
  unfold Kernel.abort
  split
  · exact nofun
  · next s held =>
    obtain ⟨effects, same, within⟩ :=
      Turn.release_confined ⟨s, k.random, []⟩ (confined peer s held)
    intro effect asked
    have asked : effect ∈ (Turn.release ⟨s, k.random, []⟩).effects := asked
    rw [same] at asked
    exact within effect asked

end Kernel

end Courier
