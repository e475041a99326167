import Courier.Proofs.Turns

/-!
# What a turn means for the messages

Most turns leave everything alone that decides which messages arrive: the outbox, the
numbers, the incarnation last seen, and what stands in the buffers of connections. They may
drop a connection or an attempt, pass over commands, and greet anew. The other turns are
few, and each is named here with the quiet part of it left open.
-/

namespace Courier

/-- A session that is left alone as far as messages go. -/
structure Session.Quiet (host : Host) (s after : Session) : Prop where
  outbox : after.ledger.outbox = s.ledger.outbox := by rfl
  sent : after.ledger.window.sent = s.ledger.window.sent := by rfl
  acked : after.ledger.window.acked = s.ledger.window.acked := by rfl
  received : after.ledger.window.received = s.ledger.window.received := by rfl
  incarnation : after.ledger.incarnation = s.ledger.incarnation := by rfl
  nextBinding : after.ledger.nextBinding = s.ledger.nextBinding := by rfl
  link : after.link = none ∨ after.link = s.link := by exact .inr rfl
  commands : after.commands <:+ s.commands := by exact List.suffix_refl _
  dial : ∀ dial, after.dial = some dial →
    s.dial = some dial ∨ dial.hello = host.hello s.ledger := by exact fun _ => .inl

/-- Whether an effect neither writes anything nor hands out a message. -/
def Effect.isSilent : Effect → Bool
  | .write _ _ | .tell (.message _) => false
  | _ => true

/-- What a turn means for the messages. -/
inductive Moved (host : Host) (now : Nat) (s : Session) :
    Event → Session → List Effect → Prop where
  | quiet (event : Event) (after : Session) (effects : List Effect)
      (quiet : s.Quiet host after) (silent : ∀ effect ∈ effects, effect.isSilent = true) :
      Moved host now s event after effects
  | joined (event : Event) (greeted : Greeted) (t : Session) (effects : List Effect)
      (quiet : s.Quiet host t)
      (origin : s.commands = .attach greeted :: t.commands ∨
        event = .dialed (.ok greeted) ∧ t.commands = s.commands)
      (link : t.link = s.link) (silent : ∀ effect ∈ effects, effect.isSilent = true) :
      Moved host now s event (t.joined host now greeted) effects
  | flushed (event : Event) (t flushed after : Session) (effects : List Effect)
      (before : s.Quiet host t) (flush : Flushed t flushed effects)
      (behind : flushed.Quiet host after) : Moved host now s event after effects
  | replied (replyTo : Nat) (payload : List UInt8) (ledger : Ledger) (after : Session)
      (effects : List Effect) (stage : s.stage = .handling (some replyTo))
      (queued : s.ledger.enqueueReply replyTo payload (.ofMillis now) = .ok ledger)
      (flush : Flushed { s with ledger, stage := .reading } after effects) :
      Moved host now s (.replied (some payload)) after effects
  | acknowledged (event : Event) (link : Link) (after : Session) (held : s.link = some link)
      (quiet : s.Quiet host after) :
      Moved host now s event after (Session.writings link.endpoint
        (Dispatch.of? .ack 0 s.ledger.window.received).toList)
  | received (bytes : ByteArray) (link : Link) (held : s.link = some link) :
      Moved host now s (.received bytes)
        { s with
          link := some { link with buffer := link.buffer ++ bytes }
          ledger := s.ledger.count fun t => t.read bytes.size
          stage := .reading } []
  | read (link : Link) (e : Envelope) (rest : ByteArray) (after : Session)
      (effects : List Effect) (held : s.link = some link)
      (complete : Frame.next? link.buffer = .ok (some (e, rest)))
      (took : Took e { s with link := some { link with buffer := rest } } after effects) :
      Moved host now s .proceed after effects
  | gaveUp (error : LinkError) (after t : Session) (quiet : s.Quiet host t)
      (cleared : after = { t with ledger := { t.ledger with outbox := s.ledger.outbox.clear } })
      (counted : s.ledger.tally.giveUps < t.ledger.tally.giveUps) :
      Moved host now s (.dialed (.error error)) after s.rejections

/-- A session that does nothing is left alone. -/
theorem Session.Quiet.refl (host : Host) (s : Session) : s.Quiet host s := {}

/-- To let go of something is silent. -/
theorem silent_of_parting {effects : List Effect}
    (parting : ∀ effect ∈ effects, effect.isParting = true) :
    ∀ effect ∈ effects, effect.isSilent = true :=
  Effect.forall_of_parting parting (fun _ => rfl) rfl

/-- Adopting a connection is silent. -/
theorem Session.joinings_silent (greeted : Greeted) (s : Session) :
    ∀ effect ∈ s.joinings greeted, effect.isSilent = true :=
  s.forall_joinings greeted (fun _ _ => rfl) rfl rfl fun _ => rfl

/-- To reject promises writes nothing and hands out no message. -/
theorem Session.rejections_silent (s : Session) :
    ∀ effect ∈ s.rejections, effect.isSilent = true :=
  s.forall_rejections (fun _ => rfl) rfl

/-- A new attempt greets with what was received. -/
theorem Session.Quiet.attempting {host : Host} {s t : Session} (quiet : s.Quiet host t)
    (hello : host.hello t.ledger = host.hello s.ledger) : s.Quiet host (t.attempting host) := by
  refine { quiet with dial := ?_ }
  rintro dial begun
  cases begun
  exact .inr hello

/-- Losing the connection leaves alone all else that matters for messages. -/
theorem Session.Quiet.bereft (host : Host) (s : Session) (due : Nat) :
    s.Quiet host (s.bereft due) := by
  obtain ⟨_, _, same⟩ := s.bereft_eq due
  rw [same]
  exact { link := .inl rfl }

/-- A connection that is taken up means a new connection for the messages, or nothing at all. -/
theorem Moved.adopted {host : Host} {now : Nat} {event : Event} {greeted : Greeted}
    {s t after : Session} {effects : List Effect} (quiet : s.Quiet host t)
    (origin : s.commands = .attach greeted :: t.commands ∨
      event = .dialed (.ok greeted) ∧ t.commands = s.commands)
    (link : t.link = s.link) (adopted : Adopted host now greeted t after effects) :
    Moved host now s event after effects := by
  cases adopted with
  | refused =>
    refine .quiet event _ _ ?_ ?_
    · exact { quiet with }
    · intro effect listed
      rw [List.mem_singleton.mp listed]
      rfl
  | joined =>
    exact .joined event greeted t _ quiet origin link (t.joinings_silent greeted)

/-- Every turn means one of these things for the messages. There is one case for each kind of turn,
and most of them are quiet. -/
theorem Turned.moved {host : Host} {now : Nat} {event : Event} {s after : Session}
    {effects : List Effect} (turned : Turned host now s event after effects) :
    Moved host now s event after effects := by
  have first (command : Command) (rest : List Command) (next : s.commands = command :: rest) :
      rest <:+ s.commands := next ▸ List.suffix_cons command rest
  have parting := silent_of_parting s.partings_part
  have one (effect : Effect) (silent : effect.isSilent = true) :
      ∀ e ∈ [effect], e.isSilent = true := List.forall_mem_singleton.mpr silent
  cases turned with
  | still => exact .quiet _ _ _ (.refl host s) nofun
  | attach greeted rest after effects idle next adopted =>
    refine .adopted (t := { s with commands := rest }) ?_ (.inl next) rfl adopted
    exact { commands := first _ rest next }
  | reconnect rest idle next =>
    refine .quiet _ _ _ (.attempting ?_ rfl) ?_
    · exact { link := .inl rfl, commands := first _ rest next, dial := nofun }
    · exact List.forall_mem_append.mpr ⟨parting, one _ rfl⟩
  | close rest idle next =>
    exact .quiet _ _ _ { link := .inl rfl, commands := first _ rest next, dial := nofun } parting
  | resetDial rest idle next waiting phase =>
    exact .quiet _ _ _ (.attempting { commands := first _ rest next } rfl) (one _ rfl)
  | resetNothing rest idle next awake =>
    exact .quiet _ _ _ { commands := first _ rest next } nofun
  | shutdown rest effects idle next parts =>
    refine .quiet _ _ _ ?_ (silent_of_parting parts)
    exact { link := .inl rfl, commands := List.nil_suffix, dial := nofun }
  | wakeFlush after effects idle woken phase flushed =>
    exact .flushed _ { s with woken := false } after after _ {} flushed (.refl host after)
  | wakeDial idle woken phase queued =>
    exact .quiet _ _ _ (.attempting {} rfl) (one _ rfl)
  | dialed greeted after effects idle dialing adopted =>
    refine .adopted (t := { s with dial := none }) ?_ (.inr ⟨rfl, rfl⟩) rfl adopted
    exact { dial := nofun }
  | dialStale | dialRetry => exact .quiet _ _ _ { dial := nofun } nofun
  | dialGiveUp error idle dialing unlinked phase limited spent =>
    refine .gaveUp error _ { s with
      ledger := { s.failing now with
        phase := .disconnected, attempt := 0, bindings := []
        tally := (s.failing now).tally.gaveUp s.ledger.outbox.size }
      dial := none } ?_ rfl (Nat.lt_succ_self _)
    exact { dial := nofun }
  | elapsedDial idle waiting phase =>
    exact .quiet _ _ _ (.attempting {} rfl) (one _ rfl)
  | ackWritten link idle due held owed => exact .acknowledged _ link _ held {}
  | received bytes link idle held => exact .received bytes link held
  | lost link due idle held => exact .quiet _ _ _ (.bereft host s due) (one _ rfl)
  | greeted after effects stage flushed =>
    exact .flushed _ s after _ _ (.refl host s) flushed {}
  | readBroken link error due stage held broken =>
    have bereft := Session.Quiet.bereft host s due
    refine .quiet _ _ _ ?_ (one _ rfl)
    exact { bereft with }
  | read link e rest after effects stage held complete took =>
    exact .read link e rest after effects held complete took
  | replied replyTo payload ledger after effects stage queued flushed =>
    exact .replied replyTo payload ledger after effects stage queued flushed
  | wakeNothing | elapsedNothing | ackNothing | lostNothing | readNothing | readAll | silent =>
    exact .quiet _ _ _ {} nofun

end Courier
