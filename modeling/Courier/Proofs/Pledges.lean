import Courier.Proofs.Intake

/-!
# What becomes of promises

A letter that carries a promise is queued under a binding, and the promise waits until a
reply names the binding or the peer is given up. Here is what one occurrence does with the
promises: it binds one, or a reply settles one, or the peer is given up and all of them are
released and rejected, one after another, with the news of it behind them, or it leaves them
alone. What an occurrence does is noted from the outside, by what the application hands over
and is told and by what waits before and afterwards; the notes of a life stand in its order.
-/

namespace Courier

/-- A promise that was handed over with a letter: the number of its binding, and the sequence
number of the letter. -/
structure Pledge where
  number : Nat
  promise : PromiseId
  seq : Nat
  deriving DecidableEq

/-- A promise that no longer waits: the number of its binding, and the reply that settled it
unless the peer was given up. -/
structure Redemption where
  number : Nat
  promise : PromiseId
  answer : Option (List UInt8)
  deriving DecidableEq

/-- The binding under which a promise waits. -/
def Pledge.binding (p : Pledge) : Nat × PromiseId := (p.number, p.promise)

@[inherit_doc Pledge.binding]
def Redemption.binding (r : Redemption) : Nat × PromiseId := (r.number, r.promise)

/-- The rejection of a promise. -/
def Upcall.rejection (peer : PeerId) (promise : PromiseId) : Upcall :=
  .settled promise (.error (.connectionLost peer))

/-- A promise that ceases to wait because the peer is given up. -/
def Redemption.rejected (binding : Nat × PromiseId) : Redemption := ⟨binding.1, binding.2, none⟩

/-- A rejection is a redemption of the binding that was rejected. -/
@[simp]
theorem Redemption.rejected_binding (bindings : List (Nat × PromiseId)) :
    (bindings.map rejected).map binding = bindings := by
  rw [List.map_map]
  exact List.map_id bindings

/-- The call that settles a promise: with the reply, or with a rejection. -/
def Redemption.call (peer : PeerId) (r : Redemption) : Upcall :=
  r.answer.elim (.rejection peer r.promise) fun payload => .settled r.promise (.ok payload)

/-- What the application is told when a peer is given up while some bindings wait. -/
def Upcall.report (peer : PeerId) (bindings : List (Nat × PromiseId)) : List Upcall :=
  bindings.map (fun binding => rejection peer binding.2) ++ [.gaveUp]

namespace Upcall

/-- Whether an upcall settles a promise. -/
def isCall : Upcall → Bool
  | settled _ _ => true
  | _ => false

/-- Whether an upcall belongs to the report that a peer was given up. -/
def isReport : Upcall → Bool
  | settled _ (.error _) | gaveUp => true
  | _ => false

/-- The reply that an upcall passes on. -/
def answer? : Upcall → Option (List UInt8)
  | settled _ (.ok payload) => some payload
  | _ => none

end Upcall

/-- What an effect tells the application. -/
def Effect.upcall? : Effect → Option Upcall
  | .tell upcall => some upcall
  | _ => none

/-- Whether an effect tells what became of a promise, or that the peer was given up. -/
def Effect.isOutcome : Effect → Bool
  | .tell (.settled _ _) | .tell .gaveUp => true
  | _ => false

/-- The reply that an envelope carries, with the binding that it names. -/
def Envelope.reply? (e : Envelope) : Option (Nat × List UInt8) :=
  match e.body with
  | .ok (some (.parcel (.reply replyTo payload))) => some (replyTo, payload)
  | _ => none

namespace Session

/-- What an occurrence tells the application. -/
def told (host : Host) (s : Session) (occurrence : Occurrence) : List Upcall :=
  (s.asked host occurrence).filterMap Effect.upcall?

/-- The promise of a letter that is accepted. -/
def pledge? (s : Session) : Occurrence → Option Pledge
  | .post letter now =>
    match s.post letter now with
    | .ok _ => letter.promise.map fun promise =>
        ⟨s.ledger.nextBinding, promise, s.ledger.window.sent + 1⟩
    | .error _ => none
  | _ => none

/-- A letter that is accepted pledges its promise, if it has one. -/
theorem pledge?_posted (s : Session) (letter : Letter) (now : Duration) (after : Session)
    (posted : s.post letter now = .ok after) : s.pledge? (.post letter now) =
      letter.promise.map fun promise =>
        ⟨s.ledger.nextBinding, promise, s.ledger.window.sent + 1⟩ := by
  simp [pledge?, posted]

/-- The promises that wait no longer after an occurrence, with the reply that the application
was told meanwhile. -/
def redeems (host : Host) (s : Session) (occurrence : Occurrence) : List Redemption :=
  (s.ledger.bindings.filter fun binding =>
    binding ∉ (s.undergo host occurrence).ledger.bindings).map fun binding =>
      ⟨binding.1, binding.2, (s.told host occurrence).findSome? Upcall.answer?⟩

/-- The reply that an occurrence takes in as a new one, with the binding that it names. -/
def reply? (host : Host) (s : Session) (occurrence : Occurrence) : Option (Nat × List UInt8) :=
  (s.intake? host occurrence).bind fun intake =>
    if intake.passed then intake.envelope.reply? else none

/-- The bindings that wait when an occurrence gives the peer up. -/
def givesUp? (host : Host) (s : Session) (occurrence : Occurrence) :
    Option (List (Nat × PromiseId)) :=
  if s.ledger.tally.giveUps < (s.undergo host occurrence).ledger.tally.giveUps then
    some s.ledger.bindings
  else none

/-- What is noted of each occurrence along a life. -/
def along {α : Type} (host : Host) (note : Session → Occurrence → List α) (s : Session) :
    List Occurrence → List α
  | [] => []
  | occurrence :: rest => note s occurrence ++ (s.undergo host occurrence).along host note rest

/-- What is noted along two lives is noted along them one after the other. -/
theorem along_append {α : Type} (host : Host) (note : Session → Occurrence → List α)
    (s : Session) (life more : List Occurrence) :
    s.along host note (life ++ more) =
      s.along host note life ++ (s.live host life).along host note more := by
  induction life generalizing s with
  | nil => rfl
  | cons occurrence rest inductionHypothesis =>
    simp only [List.cons_append, along, inductionHypothesis, List.append_assoc, live_cons]

/-- What is noted along a life and one more occurrence ends with what is noted of this one. -/
@[simp]
theorem along_append_one {α : Type} (host : Host) (note : Session → Occurrence → List α)
    (s : Session) (life : List Occurrence) (occurrence : Occurrence) :
    s.along host note (life ++ [occurrence]) =
      s.along host note life ++ note (s.live host life) occurrence := by
  rw [along_append, along, along, List.append_nil]

/-- The promises that were handed over during a life. -/
def pledged (host : Host) (s : Session) (life : List Occurrence) : List Pledge :=
  s.along host (fun t occurrence => (t.pledge? occurrence).toList) life

/-- The promises that ceased to wait during a life. -/
def redeemed (host : Host) (s : Session) (life : List Occurrence) : List Redemption :=
  s.along host (redeems host) life

/-- What the application was told during a life. -/
def hearings (host : Host) (s : Session) (life : List Occurrence) : List Upcall :=
  s.along host (told host) life

/-- The replies that were taken in during a life and named a binding given out before. -/
def answers (host : Host) (s : Session) (life : List Occurrence) : List (Nat × List UInt8) :=
  s.along host (fun t occurrence => (t.reply? host occurrence).toList.filter
    fun reply => reply.1 < t.ledger.nextBinding) life

/-- The bindings that waited whenever the peer was given up during a life. -/
def surrenders (host : Host) (s : Session) (life : List Occurrence) :
    List (List (Nat × PromiseId)) :=
  s.along host (fun t occurrence => (t.givesUp? host occurrence).toList) life

/-- The effects of giving up are the report of it. -/
theorem rejections_report (s : Session) :
    s.rejections = (Upcall.report s.ledger.peer s.ledger.bindings).map Effect.tell := by
  simp [rejections, Upcall.report, Upcall.rejection]

end Session

/-- Two ledgers in which the same promises wait. -/
structure Ledger.Bears (l after : Ledger) : Prop where
  bindings : after.bindings = l.bindings := by rfl
  nextBinding : after.nextBinding = l.nextBinding := by rfl
  giveUps : after.tally.giveUps = l.tally.giveUps := by rfl

/-- Bearing the same promises twice is bearing the same promises. -/
theorem Ledger.Bears.trans {l middle after : Ledger} (first : l.Bears middle)
    (second : middle.Bears after) : l.Bears after :=
  ⟨second.bindings.trans first.bindings, second.nextBinding.trans first.nextBinding,
    second.giveUps.trans first.giveUps⟩

/-- A reply in the queue is no promise. -/
theorem Ledger.enqueueReply_bears (l queued : Ledger) (replyTo : Nat) (payload : List UInt8)
    (now : Duration) (accepted : l.enqueueReply replyTo payload now = .ok queued) :
    l.Bears queued := by
  obtain ⟨_, evicted, _, _, rfl, rfl⟩ := l.enqueueReply_eq queued replyTo payload now accepted
  refine { giveUps := ?_ }
  cases evicted <;> rfl

/-- A letter leaves the count of times that the peer was given up alone. -/
theorem Ledger.enqueueLetter_giveUps (l queued : Ledger) (letter : Letter) (now : Duration)
    (accepted : l.enqueueLetter letter now = .ok queued) :
    queued.tally.giveUps = l.tally.giveUps := by
  obtain ⟨_, evicted, _, _, rfl, rfl⟩ := l.enqueueLetter_eq queued letter now accepted
  cases evicted <;> rfl

/-- Heeding an acknowledgement touches no promise. -/
theorem Ledger.heeding_bears (l : Ledger) (e : Envelope) : l.Bears (l.heeding e) := by
  obtain ⟨_, _, same⟩ := l.heeding_eq e
  rw [same]
  exact ⟨rfl, rfl, rfl⟩

/-- A connection that is made touches no promise. -/
theorem Ledger.onConnected_bears (l : Ledger) (own : Incarnation) (hello : Hello)
    (now : Duration) : l.Bears (l.onConnected own hello now) := by
  obtain ⟨_, _, _, _, same⟩ := l.onConnected_eq own hello now
  rw [same]
  exact ⟨rfl, rfl, rfl⟩

namespace Session

/-- Leaving the connected phase touches no promise. -/
theorem vacated_bears (s : Session) : s.ledger.Bears s.vacated.ledger := by
  refine { giveUps := ?_ }
  unfold vacated
  cases s.link <;> rfl

/-- Losing the connection touches no promise. -/
theorem bereft_bears (s : Session) (due : Nat) : s.ledger.Bears (s.bereft due).ledger := by
  obtain ⟨_, _, same⟩ := s.bereft_eq due
  rw [same]
  exact ⟨rfl, rfl, rfl⟩

/-- Adopting a connection touches no promise. -/
theorem joined_bears (host : Host) (now : Nat) (greeted : Greeted) (s : Session) :
    s.ledger.Bears (s.joined host now greeted).ledger := by
  have counted : s.ledger.Bears ({ s.ledger with phase := .connected }.count
      (if s.link.isSome then Tally.duplicate else id)) := by
    refine { giveUps := ?_ }
    cases s.link <;> rfl
  exact counted.trans (Ledger.onConnected_bears _ _ _ _)

end Session

/-- A flush touches no promise. -/
theorem Flushed.bears {s after : Session} {effects : List Effect}
    (flushed : Flushed s after effects) : s.ledger.Bears after.ledger := by
  cases flushed <;> exact ⟨rfl, rfl, rfl⟩

/-- A flush tells the application of no outcome. -/
theorem Flushed.unreported {s after : Session} {effects : List Effect}
    (flushed : Flushed s after effects) : ∀ effect ∈ effects, effect.isOutcome = false := by
  cases flushed with
  | nothing => exact nofun
  | written link => exact Session.forall_writings _ _ rfl

/-- What a session asks for as it parts tells the application of no outcome. -/
theorem unreported_of_parting {effects : List Effect}
    (parting : ∀ effect ∈ effects, effect.isParting = true) :
    ∀ effect ∈ effects, effect.isOutcome = false :=
  Effect.forall_of_parting parting (fun _ => rfl) rfl

/-- Adopting a connection tells the application of no outcome. -/
theorem Session.joinings_unreported (greeted : Greeted) (s : Session) :
    ∀ effect ∈ s.joinings greeted, effect.isOutcome = false :=
  s.forall_joinings greeted (fun _ _ => rfl) rfl rfl fun _ => rfl

/-- What a turn does with the promises, given the reply that it takes in. -/
inductive Outcome (s : Session) (reply? : Option (Nat × List UInt8)) (after : Session) :
    List Effect → Prop where
  | spared (effects : List Effect) (bears : s.ledger.Bears after.ledger)
      (unbound : ∀ reply ∈ reply?, ∀ binding ∈ s.ledger.bindings, binding.1 ≠ reply.1)
      (unreported : ∀ effect ∈ effects, effect.isOutcome = false) : Outcome s reply? after effects
  | answered (number : Nat) (payload : List UInt8) (promise : PromiseId)
      (named : reply? = some (number, payload)) (bound : (number, promise) ∈ s.ledger.bindings)
      (bindings : after.ledger.bindings =
        s.ledger.bindings.filter fun binding => binding.1 ≠ number)
      (nextBinding : after.ledger.nextBinding = s.ledger.nextBinding)
      (giveUps : after.ledger.tally.giveUps = s.ledger.tally.giveUps) :
      Outcome s reply? after [.tell (.settled promise (.ok payload))]
  | gaveUp (unread : reply? = none) (bindings : after.ledger.bindings = [])
      (nextBinding : after.ledger.nextBinding = s.ledger.nextBinding)
      (giveUps : after.ledger.tally.giveUps = s.ledger.tally.giveUps + 1) :
      Outcome s reply? after ((Upcall.report s.ledger.peer s.ledger.bindings).map .tell)

/-- The connection does not matter for the promises. -/
theorem Outcome.relinked {s after : Session} {reply? : Option (Nat × List UInt8)}
    {effects : List Effect} {link : Option Link}
    (outcome : Outcome { s with link } reply? after effects) : Outcome s reply? after effects := by
  cases outcome with
  | spared _ bears unbound unreported => exact .spared _ bears unbound unreported
  | answered number payload promise named bound bindings nextBinding giveUps =>
    exact .answered number payload promise named bound bindings nextBinding giveUps
  | gaveUp unread bindings nextBinding giveUps => exact .gaveUp unread bindings nextBinding giveUps

/-- A turn that reads nothing settles nothing with a reply. Only the last failure permitted touches
the bindings. -/
theorem Turned.outcome {host : Host} {now : Nat} {event : Event} {s after : Session}
    {effects : List Effect} (turned : Turned host now s event after effects)
    (unread : event = .proceed → s.front? = none) : Outcome s none after effects := by
  have spared (after : Session) (effects : List Effect) (bears : s.ledger.Bears after.ledger)
      (unreported : ∀ effect ∈ effects, effect.isOutcome = false) :
      Outcome s none after effects := .spared effects bears nofun unreported
  have one (effect : Effect) (unreported : effect.isOutcome = false) :
      ∀ e ∈ [effect], e.isOutcome = false := List.forall_mem_singleton.mpr unreported
  have parting := unreported_of_parting s.partings_part
  have adopted (t : Session) (greeted : Greeted) (same : t.ledger = s.ledger)
      (adopted : Adopted host now greeted t after effects) : Outcome s none after effects := by
    cases adopted with
    | refused =>
      refine spared _ _ ?_ (one _ rfl)
      rw [← same]
      refine { giveUps := ?_ }
      cases t.link <;> rfl
    | joined =>
      exact spared _ _ (same ▸ t.joined_bears host now greeted) (t.joinings_unreported greeted)
  cases turned with
  | still => exact spared _ _ ⟨rfl, rfl, rfl⟩ nofun
  | attach greeted rest after effects idle next fit =>
    exact adopted { s with commands := rest } greeted rfl fit
  | dialed greeted after effects idle dialing fit =>
    exact adopted { s with dial := none } greeted rfl fit
  | reconnect rest idle next =>
    refine spared _ _ ?_ (List.forall_mem_append.mpr ⟨parting, one _ rfl⟩)
    exact (Session.vacated_bears { s with commands := rest }).trans ⟨rfl, rfl, rfl⟩
  | close rest idle next =>
    exact spared _ _ (Session.vacated_bears { s with commands := rest }) parting
  | shutdown rest effects idle next parts =>
    exact spared _ _ (s.vacated_bears.trans ⟨rfl, rfl, rfl⟩) (unreported_of_parting parts)
  | wakeFlush after effects idle woken phase flushed =>
    exact spared _ _ flushed.bears flushed.unreported
  | greeted after effects stage flushed => exact spared _ _ flushed.bears flushed.unreported
  | replied replyTo payload ledger after effects stage queued flushed =>
    have bears := s.ledger.enqueueReply_bears _ _ _ _ queued
    exact spared _ _ (bears.trans flushed.bears) flushed.unreported
  | ackWritten link idle due held owed =>
    exact spared _ _ ⟨rfl, rfl, rfl⟩ (Session.forall_writings _ _ rfl)
  | lost link due idle held => exact spared _ _ (s.bereft_bears due) (one _ rfl)
  | readBroken link error due stage held broken =>
    exact spared _ _ (s.bereft_bears due) (one _ rfl)
  | read link e rest after effects stage held complete took =>
    have front := s.front?_of_complete link e rest stage held complete
    cases (unread rfl).symm.trans front
  | dialGiveUp error idle dialing unlinked phase limited spent =>
    rw [s.rejections_report]
    exact .gaveUp rfl rfl rfl rfl
  | resetDial | wakeDial | elapsedDial => exact spared _ _ ⟨rfl, rfl, rfl⟩ (one _ rfl)
  | received | readNothing | readAll | silent | resetNothing | wakeNothing | dialStale | dialRetry
  | elapsedNothing | ackNothing | lostNothing => exact spared _ _ ⟨rfl, rfl, rfl⟩ nofun

/-- A promise is released under the binding that the reply names, or none is. -/
theorem Ledger.takeBinding_cases (l : Ledger) (replyTo : Nat) :
    (l.takeBinding replyTo = none ∧ ∀ binding ∈ l.bindings, binding.1 ≠ replyTo) ∨
      ∃ promise taken, l.takeBinding replyTo = some (promise, taken) ∧
        (replyTo, promise) ∈ l.bindings ∧
        taken.bindings = l.bindings.filter fun binding => binding.1 ≠ replyTo := by
  unfold takeBinding
  cases found : l.bindings.find? fun binding => binding.1 = replyTo with
  | none =>
    left
    exact ⟨rfl, fun binding listed => by simpa using List.find?_eq_none.mp found binding listed⟩
  | some binding =>
    right
    have named : binding.1 = replyTo := by simpa using List.find?_some found
    refine ⟨binding.2, _, rfl, ?_, rfl⟩
    rw [← named]
    exact List.mem_of_find?_eq_some found

/-- A turn that reads an envelope settles the promise that its reply names. -/
theorem Took.outcome {e : Envelope} {s after : Session} {effects : List Effect}
    (took : Took e s after effects) :
    Outcome s (if s.ledger.tally.messagesReceived < after.ledger.tally.messagesReceived then
      e.reply? else none) after effects := by
  have heeded := s.ledger.heeding_bears e
  have passed := (s.ledger.heeding_deaf e).passed
  have quiet (untold : e.reply? = none) (bears : s.ledger.Bears after.ledger)
      (unreported : ∀ effect ∈ effects, effect.isOutcome = false) :
      Outcome s (if s.ledger.tally.messagesReceived < after.ledger.tally.messagesReceived then
        e.reply? else none) after effects := by
    refine .spared effects bears ?_ unreported
    rw [untold, ite_self]
    exact nofun
  have counted : s.ledger.tally.messagesReceived <
      (s.ledger.heeding e).tally.received.messagesReceived := by
    rw [show (s.ledger.heeding e).tally.received.messagesReceived =
      (s.ledger.heeding e).tally.messagesReceived + 1 from rfl, passed]
    exact Nat.lt_succ_self _
  cases took with
  | malformed error body | unnumbered body | unknown body | greeting hello body | ack body =>
    exact quiet (by simp [Envelope.reply?, body]) (heeded.trans ⟨rfl, rfl, rfl⟩) nofun
  | message payload replyTo body new =>
    exact quiet (by simp [Envelope.reply?, body]) (heeded.trans ⟨rfl, rfl, rfl⟩)
      (List.forall_mem_singleton.mpr rfl)
  | again parcel body old =>
    refine .spared [] (heeded.trans ⟨rfl, rfl, rfl⟩) ?_ nofun
    have same : (s.ledger.heeding e).tally.receivedAgain.messagesReceived =
      s.ledger.tally.messagesReceived := passed
    simp [same]
  | reply payload replyTo body new unbound =>
    refine .spared [] (heeded.trans ⟨rfl, rfl, rfl⟩) ?_ nofun
    rcases s.ledger.takeBinding_cases replyTo with ⟨_, free⟩ | ⟨promise, taken, bound, _⟩
    · simpa [Envelope.reply?, body, counted] using free
    · cases unbound.symm.trans bound
  | settled payload replyTo promise taken body new bound =>
    rcases s.ledger.takeBinding_cases replyTo with ⟨unbound, _⟩ | ⟨_, _, found, listed, left⟩
    · cases unbound.symm.trans bound
    · cases found.symm.trans bound
      refine .answered replyTo payload promise ?_ listed left heeded.nextBinding heeded.giveUps
      simp [Envelope.reply?, body, counted]

/-- What an occurrence does with the promises. -/
inductive Dealt (host : Host) (s : Session) (occurrence : Occurrence) (after : Session) :
    Prop where
  | turned (unpledged : s.pledge? occurrence = none)
      (outcome : Outcome s (s.reply? host occurrence) after (s.asked host occurrence))
  | pledged (pledge : Pledge) (noted : s.pledge? occurrence = some pledge)
      (number : pledge.number = s.ledger.nextBinding)
      (bindings : after.ledger.bindings = s.ledger.bindings ++ [pledge.binding])
      (nextBinding : after.ledger.nextBinding = s.ledger.nextBinding + 1)
      (giveUps : after.ledger.tally.giveUps = s.ledger.tally.giveUps)
      (unread : s.reply? host occurrence = none) (unasked : s.asked host occurrence = [])

namespace Session

/-- Every occurrence does one of these things. A letter may come with a promise, a turn may settle
one or give the peer up, and nothing else touches the bindings. -/
theorem dealt (host : Host) (s : Session) (occurrence : Occurrence) :
    Dealt host s occurrence (s.undergo host occurrence) := by
  have aside (after : Session) (unpledged : s.pledge? occurrence = none)
      (unread : s.reply? host occurrence = none) (unasked : s.asked host occurrence = [])
      (bears : s.ledger.Bears after.ledger) : Dealt host s occurrence after := by
    refine .turned unpledged (.spared _ bears ?_ ?_)
    · rw [unread]
      exact nofun
    · rw [unasked]
      exact nofun
  have pushed (t : Session) (command : Command) (unpledged : s.pledge? occurrence = none)
      (unread : s.reply? host occurrence = none) (unasked : s.asked host occurrence = [])
      (bears : s.ledger.Bears t.ledger) : Dealt host s occurrence (t.push command) := by
    obtain ⟨commands, same, _⟩ := t.push_eq command
    rw [same]
    exact aside _ unpledged unread unasked bears
  cases occurrence with
  | post letter now =>
    cases posted : s.post letter now with
    | error refusal =>
      have same : s.undergo host (.post letter now) = s := by simp [undergo, posted]
      rw [same]
      exact aside s (by simp [pledge?, posted]) rfl rfl ⟨rfl, rfl, rfl⟩
    | ok after =>
      obtain ⟨queued, accepted, rfl⟩ := s.post_eq letter now after posted
      have same : s.undergo host (.post letter now) =
          { s with ledger := queued, woken := true } := by simp [undergo, posted]
      have giveUps := s.ledger.enqueueLetter_giveUps queued letter now accepted
      have pledges := s.pledge?_posted letter now _ posted
      obtain ⟨outbox, _, tally, _, _, rfl⟩ :=
        s.ledger.enqueueLetter_eq queued letter now accepted
      rw [same]
      cases promised : letter.promise with
      | none =>
        refine aside _ (by simp [pledges, promised]) rfl rfl ?_
        exact ⟨rfl, rfl, giveUps⟩
      | some promise =>
        refine .pledged ⟨s.ledger.nextBinding, promise, s.ledger.window.sent + 1⟩ ?_ rfl rfl rfl
          giveUps rfl rfl
        simp [pledges, promised]
  | addHints hints =>
    obtain ⟨kept, same⟩ := s.ledger.addHints_eq hints
    simp only [undergo, addHints, same]
    exact aside _ rfl rfl rfl ⟨rfl, rfl, rfl⟩
  | reconnect hints =>
    obtain ⟨kept, same⟩ := s.reconnect_eq hints
    rw [undergo, same]
    exact pushed _ _ rfl rfl rfl ⟨rfl, rfl, rfl⟩
  | close =>
    rw [undergo, close_eq]
    exact pushed _ _ rfl rfl rfl ⟨rfl, rfl, rfl⟩
  | resetBackoff => exact pushed _ _ rfl rfl rfl ⟨rfl, rfl, rfl⟩
  | attach greeted => exact pushed _ _ rfl rfl rfl ⟨rfl, rfl, rfl⟩
  | shutdown => exact pushed _ _ rfl rfl rfl ⟨rfl, rfl, rfl⟩
  | wrote bytes => exact aside _ rfl rfl rfl ⟨rfl, rfl, rfl⟩
  | turn now random event =>
    refine .turned rfl ?_
    cases s.takes host now random event with
    | nothing _ unread silent turned =>
      have unheard : s.reply? host (.turn now random event) = none := by simp [reply?, silent]
      rw [unheard]
      exact turned.outcome unread
    | front e rest link front reading held complete taken took =>
      simp only [reply?, taken, Option.bind_some, decide_eq_true_eq]
      exact took.outcome.relinked
  | abort random =>
    obtain ⟨effects, asked, parting, released⟩ := Turn.release_goes ⟨s, random, []⟩
    have asked : s.asked host (.abort random) = effects := asked
    rw [undergo_abort]
    refine .turned rfl (.spared _ (s.vacated_bears.trans ⟨rfl, rfl, rfl⟩) ?_ ?_)
    · intro reply named
      cases named
    · rw [asked]
      exact unreported_of_parting parting

end Session

end Courier
