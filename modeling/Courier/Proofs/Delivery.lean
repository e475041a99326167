import Courier.Proofs.Arrival

/-!
# Messages arrive in order, and none is lost

One kernel lasts, and the other may be replaced any number of times. Whatever happens
between them, each run of the other gets messages of the first in the order of their
numbers, and a message that has left the outbox was discarded there or got through to some
run. The reasons lie at both ends and in between. A number is acknowledged only when it is
covered; a stream never carries a parcel before a message that it should come behind; and
a reader that meets a new number has met everything before it on the same stream.

Each kind of step keeps what always holds, and so does every run of steps.
-/

namespace Courier

open Happening Json

/-- A session does not hand out a message by anything that it asks for. -/
def Unspoken (effects : List Effect) : Prop :=
  ∀ payload, .tell (.message payload) ∉ effects

/-- An effect that says nothing to the application hands out no message. -/
theorem unspoken_of_silent {effects : List Effect}
    (silent : ∀ effect ∈ effects, effect.isSilent = true) : Unspoken effects := by
  intro payload listed
  cases silent _ listed

/-- Writing the drained messages hands nothing out. -/
theorem Session.writings_unspoken (endpoint : Endpoint) (dispatches : List Dispatch) :
    Unspoken (Session.writings endpoint dispatches) := by
  intro payload listed
  exact forall_writings (P := (· ≠ .tell (.message payload))) endpoint dispatches nofun _ listed rfl

/-- A flush hands nothing out. -/
theorem Flushed.unspoken {s after : Session} {effects : List Effect}
    (flushed : Flushed s after effects) : Unspoken effects := by
  cases flushed with
  | nothing => exact fun payload => List.not_mem_nil
  | written link writes => exact Session.writings_unspoken link.endpoint s.dispatches

namespace Session

variable (p : Party) (run any : Incarnation) (s after : Session) (event : Event)

/-- No turn accepts a message. -/
theorem turnHappenings_accepted (effects : List Effect) :
    acceptedBy .here (s.turnHappenings p run after event effects) = [] := by
  unfold turnHappenings
  rw [acceptedBy_append, (discards_silent p .here run run _).1, List.nil_append]
  induction effects with
  | nil => rfl
  | cons effect rest inductionHypothesis =>
    cases effect with
    | tell upcall => cases upcall <;> exact inductionHypothesis
    | _ => exact inductionHypothesis

/-- Where nothing is handed out, all that happens by a turn is what it discards. -/
theorem turnHappenings_unspoken {effects : List Effect} (unspoken : Unspoken effects) :
    s.turnHappenings p run after event effects =
      (s.discards after event).map (.discarded p run) := by
  unfold turnHappenings
  refine (congrArg _ (List.filterMap_eq_nil_iff.mpr ?_)).trans (List.append_nil _)
  intro effect listed
  cases effect with
  | tell upcall =>
    cases upcall with
    | message payload => exact absurd listed (unspoken payload)
    | _ => rfl
  | _ => rfl

/-- Nothing is handed out there by what is asked for here. -/
theorem turnHappenings_here (effects : List Effect) :
    handedBy .there any (s.turnHappenings .here run after event effects) = [] := by
  unfold turnHappenings
  rw [handedBy_append, (discards_silent .here .there run any _).2, List.nil_append]
  induction effects with
  | nil => rfl
  | cons effect rest inductionHypothesis =>
    cases effect with
    | tell upcall => cases upcall <;> exact inductionHypothesis
    | _ => exact inductionHypothesis

end Session

namespace Correspondence

variable {x : Correspondence}

/-- What effects make of the traffic on the connections changes no session and no host. -/
theorem carry_session (p : Party) (x : Correspondence) (effects : List Effect) :
    (effects.foldl (carry p) x).session = x.session ∧
      (effects.foldl (carry p) x).host = x.host := by
  induction effects generalizing x with
  | nil => exact ⟨rfl, rfl⟩
  | cons effect rest inductionHypothesis =>
    obtain ⟨session, host⟩ := inductionHypothesis (carry p x effect)
    rw [List.foldl_cons, session, host]
    cases effect <;> exact ⟨rfl, rfl⟩

/-- A session may be amended before or after something is noted. -/
theorem amend_note (x : Correspondence) (p : Party) (s t : Session) (news : List Happening) :
    ((x.amend p s).note news).amend p t = (x.amend p t).note news := by
  unfold note amend
  simp

/-- What a turn without messages makes happen may be noted. -/
theorem Sound.unspoken (sound : Sound x) (p : Party) (run : Incarnation) (s after : Session)
    (event : Event) (effects : List Effect) (unspoken : Unspoken effects) :
    Sound (x.note (s.turnHappenings p run after event effects)) := by
  refine sound.noted _ (s.turnHappenings_accepted p run after event effects) fun any => ?_
  rw [s.turnHappenings_unspoken p run after event unspoken]
  exact (discards_silent p .there run any _).2

/-- A session may write what it has queued as soon as it is queued. -/
theorem Sound.behind {p : Party} {t : Session} {news : List Happening}
    (sound : Sound ((x.amend p t).note news)) (after : Session) (effects : List Effect)
    (flushed : Flushed t after effects) :
    Sound ((effects.foldl (carry p) (x.amend p after)).note news) := by
  have held : ((x.amend p t).note news).session p = t := Function.update_self _ _ _
  have drained := sound.flushed p after effects (held.symm ▸ flushed)
  rwa [amend_note, carry_note] at drained

/-- A reply may be queued, and written at once. -/
theorem Sound.replied (sound : Sound x) (p : Party) (now replyTo : Nat) (payload : List UInt8)
    (ledger : Ledger) (after : Session) (effects : List Effect)
    (stage : (x.session p).stage = .handling (some replyTo))
    (queued : (x.session p).ledger.enqueueReply replyTo payload (.ofMillis now) = .ok ledger)
    (flushed : Flushed { x.session p with ledger, stage := .reading } after effects) :
    Sound ((effects.foldl (carry p) (x.amend p after)).note ((x.session p).turnHappenings p
      (x.host p).incarnation after (.replied (some payload)) effects)) := by
  obtain ⟨made, evicted, tally, room, _, rfl⟩ :=
    (x.session p).ledger.enqueueReply_eq ledger replyTo payload _ queued
  cases p with
  | here =>
    rw [Session.turnHappenings_unspoken _ _ _ _ _ flushed.unspoken]
    have costs : (x.session .here).discards after (.replied (some payload)) =
        (x.session .here).ledger.outbox.evicted := by
      unfold Session.discards
      rw [stage]
    rw [costs]
    refine Sound.behind ?_ after effects flushed
    rw [← List.append_nil (List.map _ _)]
    refine sound.queuedHere _ (.reply replyTo payload) (.ofMillis now) made evicted []
      ⟨rfl, rfl, .inr rfl, List.suffix_refl _, fun _ => .inl⟩ room rfl rfl rfl (Nat.le_succ _)
      nofun (Nat.zero_le _) (fun _ => rfl) ?_
    intro m listed
    have old : m ∈ x.account.accepted := by
      rw [account_here] at listed
      unfold Account.accepted at listed
      rw [List.append_nil, acceptedBy_append,
        (discards_silent .here .here _ (x.host .here).incarnation _).1, List.append_nil] at listed
      exact listed
    exact Nat.ne_of_lt (Nat.lt_succ_of_le (sound.sends.numbered m old).2)
  | there =>
    have calmed := sound.calmThere
      { x.session .there with
        ledger := { (x.session .there).ledger with
          window := { (x.session .there).ledger.window with
            sent := (x.session .there).ledger.window.sent + 1 }
          outbox := made.enqueue ((x.session .there).ledger.window.sent + 1)
            (.reply replyTo payload) (.ofMillis now)
          tally }
        stage := .reading } ⟨rfl, rfl, .inr rfl, List.suffix_refl _, fun _ => .inl⟩
    rw [← note_nil (x.amend .there _)] at calmed
    have written := calmed.behind after effects flushed
    rw [note_nil] at written
    exact written.unspoken _ _ _ _ _ effects flushed.unspoken

/-- Everything queued may be given up, as long as no message is handed out meanwhile. Every message
that leaves the outbox is noted as discarded. -/
theorem Sound.gaveUp (sound : Sound x) (p : Party) (error : LinkError) (t : Session)
    (quiet : (x.session p).Quiet (x.host p) t)
    (counted : (x.session p).ledger.tally.giveUps < t.ledger.tally.giveUps)
    (effects : List Effect) (silent : Unspoken effects) :
    Sound ((x.amend p { t with ledger := { t.ledger with
      outbox := (x.session p).ledger.outbox.clear } }).note ((x.session p).turnHappenings p
        (x.host p).incarnation { t with ledger := { t.ledger with
          outbox := (x.session p).ledger.outbox.clear } } (.dialed (.error error)) effects)) := by
  have calm : (x.session p).Calm (x.host p) { t with ledger := { t.ledger with
      outbox := (x.session p).ledger.outbox.clear } } :=
    { quiet with }
  cases p with
  | here =>
    rw [Session.turnHappenings_unspoken _ _ _ _ _ silent]
    have costs : (x.session .here).discards { t with ledger := { t.ledger with
        outbox := (x.session .here).ledger.outbox.clear } } (.dialed (.error error)) =
          (x.session .here).ledger.outbox.entries.map (·.seq) := if_pos counted
    rw [costs]
    generalize origin : ((x.session .here).ledger.outbox.entries.map (·.seq)).map
      (Happening.discarded .here (x.host .here).incarnation) = news
    have none : acceptedBy .here news = [] :=
      origin ▸ (discards_silent .here .here _ (x.host .here).incarnation _).1
    have account : ((x.amend .here { t with ledger := { t.ledger with
        outbox := (x.session .here).ledger.outbox.clear } }).note news).account =
          ⟨x.account.own, x.account.sent, x.log ++ news⟩ := by
      rw [account_here, quiet.sent]
      rfl
    refine sound.calmHere _ news calm ?_ ?_ ?_ ?_
    · rw [account]
      exact x.account.extends_note _ news (Nat.le_refl _) (by simp [none])
    · exact fun run => origin ▸ (discards_silent .here .there _ run _).2
    · rw [account]
      refine (sound.sends.note news none).cleared ?_ rfl quiet.sent quiet.acked quiet.nextBinding
      intro e listed
      change e.seq ∈ discardedBy .here (x.log ++ news)
      rw [discardedBy_append, ← origin, discarded_here]
      exact List.mem_append_right _ (List.mem_map_of_mem listed)
    · intro e listed
      cases listed
  | there =>
    exact (sound.calmThere _ calm).unspoken _ _ _ _ _ _ silent

/-- Every turn keeps what always holds. A connection that an attempt brings must be one that the
session may hold. There is one case for each thing that a turn may mean for the messages. -/
theorem Sound.moved (sound : Sound x) (p : Party) (now : Nat) (event : Event) (after : Session)
    (effects : List Effect) (moved : Moved (x.host p) now (x.session p) event after effects)
    (unread : ∀ bytes, event ≠ .received bytes)
    (reached : ∀ greeted, event = .dialed (.ok greeted) →
      Holds x.account p { x.session p with
        commands := .attach greeted :: (x.session p).commands } x.passage) :
    Sound ((effects.foldl (carry p) (x.amend p after)).note ((x.session p).turnHappenings p
      (x.host p).incarnation after event effects)) := by
  cases moved with
  | quiet _ _ _ quiet silent =>
    rw [carry_silent p _ effects silent]
    exact (sound.quiet p after quiet).unspoken _ _ _ _ _ _ (unspoken_of_silent silent)
  | joined _ greeted t _ quiet origin link silent =>
    rw [carry_silent p _ effects silent]
    refine Sound.unspoken ?_ _ _ _ _ _ _ (unspoken_of_silent silent)
    rcases origin with first | ⟨rfl, same⟩
    · exact sound.joined p now greeted t quiet (x.session p) (sound.holds p) first rfl
    · refine sound.joined p now greeted t quiet _ (reached greeted rfl) ?_ rfl
      dsimp only
      rw [same]
  | flushed _ t flushed _ _ before flush behind =>
    have first := sound.quiet p t before
    rw [← note_nil (x.amend p t)] at first
    have drained := first.behind flushed effects flush
    rw [note_nil] at drained
    obtain ⟨session, host⟩ := carry_session p (x.amend p flushed) effects
    have last := drained.quiet p after (by
      rw [session, host, amend_session]
      exact behind)
    rw [← carry_amend, amend_amend] at last
    exact last.unspoken _ _ _ _ _ _ flush.unspoken
  | replied replyTo payload ledger _ _ stage queued flush =>
    exact sound.replied p now replyTo payload ledger after effects stage queued flush
  | acknowledged _ link _ held quiet =>
    have written := sound.acknowledged p link.endpoint after quiet
    exact written.unspoken _ _ _ _ _ _ (Session.writings_unspoken _ _)
  | received bytes => exact absurd rfl (unread bytes)
  | read link e rest _ _ held complete took =>
    rw [took.silent]
    obtain ⟨done, todo, d, fetched⟩ := sound.fetched held complete
    cases p with
    | here =>
      refine (sound.readHere fetched took).noted _ ?_ ?_
      · exact Session.turnHappenings_accepted _ _ _ _ _ effects
      · exact fun any => Session.turnHappenings_here _ any _ _ _ effects
    | there => exact sound.readThere fetched took
  | gaveUp error _ t quiet cleared counted =>
    have silent := (x.session p).rejections_silent
    rw [carry_silent p _ _ silent, cleared]
    exact sound.gaveUp p error t quiet counted _ (unspoken_of_silent silent)

/-- Every turn of a session keeps what always holds. -/
theorem Sound.turned (sound : Sound x) (p : Party) (now : Nat) (random : Random.Stream)
    (event : Event) (unread : ∀ bytes, event ≠ .received bytes)
    (reached : ∀ greeted, event = .dialed (.ok greeted) →
      Holds x.account p { x.session p with
        commands := .attach greeted :: (x.session p).commands } x.passage) :
    Sound (x.turned p now random event) := by
  obtain ⟨effects, same, turned⟩ :=
    Turn.handle_goes (x.host p) now ⟨x.session p, random, []⟩ event
  unfold Correspondence.turned
  dsimp only
  rw [same]
  exact sound.moved p now event _ effects turned.moved unread reached

/-- A letter may be posted, at the cost of what is evicted for it. What is evicted is noted as
discarded before the letter is noted as accepted under the next number. -/
theorem Sound.posted (sound : Sound x) (p : Party) (letter : Letter) (now : Duration)
    (fit : letter.payload.length ≤ Frame.maxPayload) : Sound (x.called p (.post letter now)) := by
  unfold called
  simp only [Session.undergo, Session.callHappenings]
  cases posted : (x.session p).post letter now with
  | error =>
    rw [note_nil]
    exact sound.quiet p _ (.refl _ _)
  | ok after =>
    obtain ⟨ledger, queued, rfl⟩ := (x.session p).post_eq letter now after posted
    obtain ⟨made, evicted, tally, room, _, rfl⟩ :=
      (x.session p).ledger.enqueueLetter_eq ledger letter now queued
    obtain ⟨bound, next⟩ := (x.session p).ledger.bind_number letter.promise
    generalize (x.session p).ledger.bind letter.promise = binding at bound next
    obtain ⟨replyTo, roomy⟩ := binding
    have calm (s : Session) : s.Calm (x.host p) { s with
        ledger := { s.ledger with
          window := { s.ledger.window with sent := s.ledger.window.sent + 1 }
          outbox := made.enqueue (s.ledger.window.sent + 1) (.message letter.payload replyTo) now
          bindings := roomy.bindings, nextBinding := roomy.nextBinding, tally }
        woken := true } :=
      ⟨rfl, rfl, .inr rfl, List.suffix_refl _, fun _ => .inl⟩
    cases p with
    | here =>
      refine sound.queuedHere _ (.message letter.payload replyTo) now made evicted _ (calm _) room
        rfl rfl rfl next ?_ (Nat.le_refl 1) (fun _ => rfl) ⟨?_, fit, ?_⟩
      · intro m listed
        rw [List.mem_singleton.mp listed]
      · unfold Account.accepted account note
        rw [acceptedBy_append, acceptedBy_append]
        exact List.mem_append_right _ (List.mem_append_right _ (List.mem_singleton_self _))
      · intro n named
        rw [bound n named]
        exact sound.sends.bindings
    | there =>
      refine (sound.calmThere _ (calm _)).noted _ ?_ fun run => ?_
      · rw [acceptedBy_append, (discards_silent .there .here _ default _).1]
        rfl
      · rw [handedBy_append, (discards_silent .there .there _ run _).2]
        rfl

/-- A command may be left for a session that may hold what the command brings. -/
theorem Sound.pushed (sound : Sound x) (p : Party) (command : Command)
    (holds : Holds x.account p ((x.session p).push command) x.passage) :
    Sound (x.amend p ((x.session p).push command)) := by
  obtain ⟨commands, same, _⟩ := (x.session p).push_eq command
  rw [same] at holds ⊢
  have dials := sound.dials p
  have received := sound.received p
  cases p with
  | here => exact sound.replaceHere _ sound.sends sound.marked holds dials received
  | there => exact sound.replaceThere _ sound.receives holds dials received

/-- Every call keeps what always holds. A letter is queued or refused; every other call leaves a
command, the hints or the phase behind, none of which matters to the messages. -/
theorem Sound.called (sound : Sound x) (p : Party) (call : Occurrence) (fit : call.IsCall) :
    Sound (x.called p call) := by
  -- A call that leaves a command behind a change that matters to nobody.
  have commanding (t : Session) (command : Command) (quiet : (x.session p).Quiet (x.host p) t)
      (other : ∀ greeted, command ≠ .attach greeted) : Sound (x.amend p (t.push command)) := by
    have settled := sound.quiet p t quiet
    have holds := settled.holds p
    have pushed := settled.pushed p command
    rw [amend_session] at holds pushed
    rw [amend_amend] at pushed
    exact pushed (holds.pushed command other)
  have quiet (ledger : Ledger) (outbox : ledger.outbox = (x.session p).ledger.outbox)
      (window : ledger.window = (x.session p).ledger.window)
      (incarnation : ledger.incarnation = (x.session p).ledger.incarnation)
      (binding : ledger.nextBinding = (x.session p).ledger.nextBinding) :
      (x.session p).Quiet (x.host p) { x.session p with ledger } :=
    ⟨outbox, by rw [window], by rw [window], by rw [window], incarnation, binding, .inr rfl,
      List.suffix_refl _, fun _ => .inl⟩
  have silent
      (nothing : (x.session p).callHappenings p (x.host p).incarnation call = []) :
      x.called p call = x.amend p ((x.session p).undergo (x.host p) call) := by
    unfold Correspondence.called
    rw [nothing, note_nil]
  cases call with
  | post letter now => exact sound.posted p letter now fit
  | attach greeted => cases fit
  | turn now random event => cases fit
  | addHints hints =>
    obtain ⟨kept, same⟩ := (x.session p).ledger.addHints_eq hints
    have hinted : (x.session p).undergo (x.host p) (.addHints hints) =
        { x.session p with ledger := { (x.session p).ledger with hints := kept } } := by
      simp only [Session.undergo, Session.addHints, same]
    rw [silent rfl, hinted]
    exact sound.quiet p _ (quiet _ rfl rfl rfl rfl)
  | reconnect hints =>
    obtain ⟨kept, same⟩ := (x.session p).reconnect_eq hints
    rw [silent rfl, Session.undergo, same]
    exact commanding _ .reconnect (quiet _ rfl rfl rfl rfl) (by simp)
  | close =>
    rw [silent rfl, Session.undergo, Session.close_eq]
    exact commanding _ .close (quiet _ rfl rfl rfl rfl) (by simp)
  | resetBackoff =>
    rw [silent rfl]
    exact commanding _ .resetBackoff (quiet _ rfl rfl rfl rfl) (by simp)
  | shutdown =>
    rw [silent rfl]
    exact commanding _ .shutdown (.refl _ _) (by simp)
  | wrote bytes =>
    rw [silent rfl]
    exact sound.quiet p _ (quiet _ rfl rfl rfl rfl)
  | abort random =>
    obtain ⟨_, _, _, released⟩ := Turn.release_goes ⟨x.session p, random, []⟩
    rw [silent rfl, Session.undergo, released]
    refine sound.quiet p _ ⟨rfl, rfl, rfl, rfl, rfl, rfl, .inl rfl, List.nil_suffix, ?_⟩
    exact fun _ begun => absurd begun.symm (Option.some_ne_none _)

/-- A greeting is honest, and carries no parcel. -/
theorem greeting_honest (a : Account) (p : Party) (hello : Hello) (d : Dispatch)
    (greets : a.Greets p hello)
    (encoded : Dispatch.of? (.hello hello) 0 hello.ack = some d) :
    a.Honest p d ∧ ∀ parcel, d.body ≠ .parcel parcel := by
  obtain ⟨body, _, ack, _⟩ := Dispatch.of?_eq _ _ _ d encoded
  refine ⟨⟨Dispatch.of?_formed _ _ _ d encoded, ?_, ?_, ?_⟩, ?_⟩
  · intro other same
    rw [body] at same
    cases same
    exact greets
  · intro _ parcel same
    rw [body] at same
    cases same
  · rintro rfl
    rw [ack]
    exact greets.2
  · intro parcel same
    rw [body] at same
    cases same

/-- A connection may be opened with a greeting. -/
theorem Sound.dialed (sound : Sound x) (p : Party) (dial : Dial) (c : Nat) (hello : Dispatch)
    (run : Incarnation) (dialing : (x.session p).dial = some dial)
    (unused : (x.passage c).dialer = none)
    (encoded : Dispatch.of? (.hello dial.hello) 0 dial.hello.ack = some hello) :
    Sound (x.change c fun _ => ({ dialer := some p } : Passage).greet p run hello) := by
  obtain ⟨honest, bare⟩ :=
    greeting_honest x.account p dial.hello hello (sound.dials p dial dialing) encoded
  have written (q : Party) : (({ dialer := some p } : Passage).greet p run hello).written q =
      if q = p then [hello] else [] := Passage.append_written { dialer := some p } p q [hello]
  refine sound.changed c _ ?_ nofun (fun _ _ => rfl) ?_ ?_
  · intro q joined
    rw [sound.unused c unused q] at joined
    cases joined
  · intro q d listed
    rw [written] at listed
    split at listed
    · next same =>
      rw [List.mem_singleton.mp listed, same]
      exact honest
    · cases listed
  · rw [written]
    split
    · refine x.account.gapless_nil.snoc hello ?_
      rintro ⟨parcel, body⟩
      exact absurd body (bare parcel)
    · exact x.account.gapless_nil

/-- A greeting may be answered. -/
theorem Sound.answered (sound : Sound x) (p : Party) (c : Nat) (hello : Dispatch)
    (run : Incarnation) (encoded : Dispatch.of? (.hello ((x.host p).hello (x.session p).ledger)) 0
      (x.session p).ledger.window.received = some hello) :
    Sound (x.change c fun w => w.greet p run hello) := by
  obtain ⟨honest, bare⟩ := greeting_honest x.account p _ hello (sound.greets p) encoded
  refine sound.wrote p c _ [hello] rfl rfl rfl rfl ?_ ?_
  · intro d listed
    rw [List.mem_singleton.mp listed]
    exact honest
  · intro _
    refine (sound.gapless c).snoc hello ?_
    rintro ⟨parcel, body⟩
    exact absurd body (bare parcel)

/-- A connection on which the greetings are done may be held. The first message of a stream is a
greeting, so the reader is aligned with everything behind it. -/
theorem Sound.welcomed (sound : Sound x) (p : Party) (c : Nat) (arrived : ByteArray)
    (theirs : Hello) (surplus : ByteArray) (used : (x.passage c).dialer ≠ none)
    (untaken : (x.passage c).joined p = false) (offered : (x.passage c).Offers p arrived)
    (greeted : Handshake.take? arrived = .ok (some (theirs, surplus))) :
    Sound (x.change c fun w => w.join p arrived.size) ∧ ∀ side (t : Session),
      t.link = (x.session p).link →
      t.ledger.window.received = (x.session p).ledger.window.received →
      t.commands.Perm (.attach ⟨⟨c, side⟩, theirs, surplus⟩ :: (x.session p).commands) →
      Holds x.account p t (x.change c fun w => w.join p arrived.size).passage := by
  have untouched := sound.untouched c p untaken
  have formed (d : Dispatch) (listed : d ∈ (x.passage c).written p.other) : d.Formed :=
    (sound.honest c _ d listed).formed
  obtain ⟨d, todo, written, method, body, aligned⟩ :=
    offered.greeted untouched formed theirs surplus greeted
  have joined := (x.passage c).join_joined p
  have taken (q : Party) : ((x.passage c).join p arrived.size).taken q =
      if q = p then (x.passage c).taken p + arrived.size else (x.passage c).taken q :=
    (x.passage c).take_taken p q arrived.size
  have changed : Sound (x.change c fun w => w.join p arrived.size) := by
    refine sound.changed c _ ?_ (absurd · used) ?_ (sound.honest c) (sound.gapless c)
    · intro q before
      have other : q ≠ p := by
        rintro rfl
        rw [untaken] at before
        cases before
      rw [joined, taken, if_neg other, if_neg other]
      exact ⟨before, rfl, fun _ => List.prefix_refl _⟩
    · intro q before
      rw [joined] at before
      rw [taken]
      split at before
      · cases before
      · next other =>
        rw [if_neg other]
        exact sound.untouched c q before
  have listed : d ∈ (x.passage c).written p.other := by
    rw [written]
    exact List.mem_cons_self
  have honest := sound.honest c _ d listed
  -- What was written first is a greeting, so that it reads back as it was written.
  obtain ⟨hello, greets⟩ : ∃ hello, d.body = .hello hello := by
    cases kind : d.body with
    | hello hello => exact ⟨hello, rfl⟩
    | parcel parcel =>
      rw [kind] at method
      cases parcel <;> exact absurd method (by simp [Body.method])
    | ack =>
      rw [kind] at method
      exact absurd method (by simp [Body.method])
  have said := honest.hello hello greets
  have same : d.body = .hello theirs := body (by
    rw [greets]
    exact said.1)
  rw [greets] at same
  cases same
  have passage : (x.change c fun w => w.join p arrived.size).passage c =
      (x.passage c).join p arrived.size := by
    rw [change_passage, if_pos rfl]
  refine ⟨changed, fun side t link received commands => ?_⟩
  refine (changed.holds p).waits ⟨⟨c, side⟩, theirs, surplus⟩ ?_ ?_ ?_ said link received commands
  · intro held
    have before := (sound.holds p).joined c held
    rw [untaken] at before
    cases before
  · rw [passage, joined, if_pos rfl]
  · rw [passage]
    refine ⟨[d], todo, aligned, ?_⟩
    rintro other only _ ⟨payload, replyTo, message⟩
    rw [List.mem_singleton.mp only, greets] at message
    cases message

/-- What always holds is carried over to where ledgers, attempts and streams are the same. -/
theorem Sound.alike (sound : Sound x) {y : Correspondence} (host : y.host = x.host)
    (former : y.former = x.former) (log : y.log = x.log)
    (ledger : ∀ p, (y.session p).ledger = (x.session p).ledger)
    (dial : ∀ p, (y.session p).dial = (x.session p).dial)
    (links : ∀ link, (y.session .here).link = some link →
      ∃ before, (x.session .here).link = some before ∧ before.endpoint = link.endpoint)
    (passage : ∀ c, (y.passage c).written = (x.passage c).written ∧
      (y.passage c).joined = (x.passage c).joined ∧ (y.passage c).dialer = (x.passage c).dialer)
    (untouched : ∀ c p, (x.passage c).joined p = false → (y.passage c).taken p = 0)
    (holds : ∀ p, Holds x.account p (y.session p) y.passage) : Sound y := by
  have account : y.account = x.account := by
    unfold Correspondence.account
    rw [host, ledger, log]
  refine ⟨?_, ?_, ?_, ?_, ?_, ?_, ?_, ?_, ?_, ?_⟩
  · rw [account, ledger]
    exact sound.sends
  · intro c p
    rw [account, (passage c).1]
    exact sound.honest c p
  · intro c
    rw [account, (passage c).1]
    exact sound.gapless c
  · intro link held
    obtain ⟨before, live, same⟩ := links link held
    rw [ledger, (passage _).1, ← same]
    exact sound.marked before live
  · rw [account, host, former, ledger]
    exact sound.receives
  · intro p
    rw [account]
    exact holds p
  · intro p
    rw [account, dial]
    exact sound.dials p
  · intro p
    rw [ledger]
    exact sound.received p
  · intro c unused p
    rw [(passage c).2.1]
    exact sound.unused c ((passage c).2.2.symm.trans unused) p
  · intro c p before
    rw [(passage c).2.1] at before
    exact untouched c p before

/-- Bytes that arrive may be put behind those in the buffer. Only the connection and the buffer of
its reader change, and the reader stands where it stood with more to read. -/
theorem Sound.taken (sound : Sound x) (p : Party) (link : Link) (bytes : ByteArray)
    (held : (x.session p).link = some link)
    (offered : (x.passage link.endpoint.connection).Offers p bytes) :
    Sound ((x.change link.endpoint.connection fun w => w.take p bytes.size).amend p
      { x.session p with link := some { link with buffer := link.buffer ++ bytes } }) := by
  have reached := (sound.holds p).joined _ (Holds.link_ends _ link held)
  have passage (c : Nat) : (x.change link.endpoint.connection fun w =>
      w.take p bytes.size).passage c = if c = link.endpoint.connection then
        (x.passage c).take p bytes.size else x.passage c := by
    rw [change_passage]
    split
    · next same => rw [same]
    · rfl
  have kept (c : Nat) : ∃ w, (x.change link.endpoint.connection fun w =>
      w.take p bytes.size).passage c = w ∧ w.written = (x.passage c).written ∧
        w.joined = (x.passage c).joined ∧ w.dialer = (x.passage c).dialer := by
    refine ⟨_, passage c, ?_⟩
    split <;> exact ⟨rfl, rfl, rfl⟩
  have taken (c : Nat) (q : Party) (other : q ≠ p ∨ c ≠ link.endpoint.connection) :
      ((x.change link.endpoint.connection fun w => w.take p bytes.size).passage c).taken q =
        (x.passage c).taken q := by
    rw [passage]
    split
    · next same => exact Function.update_of_ne (other.resolve_right (absurd same)) _ _
    · rfl
  have session (q : Party) : (x.amend p { x.session p with
      link := some { link with buffer := link.buffer ++ bytes } }).session q =
        if q = p then { x.session p with
          link := some { link with buffer := link.buffer ++ bytes } } else x.session q :=
    Function.update_apply _ _ _ _
  refine sound.alike rfl rfl rfl ?_ ?_ ?_ ?_ ?_ ?_
  · intro q
    refine (congrArg Session.ledger (session q)).trans ?_
    split
    · next same => rw [same]
    · rfl
  · intro q
    refine (congrArg Session.dial (session q)).trans ?_
    split
    · next same => rw [same]
    · rfl
  · intro live holding
    have before := (congrArg Session.link (session .here)).symm.trans holding
    split at before
    · next same =>
      cases before
      exact ⟨link, same ▸ held, rfl⟩
    · exact ⟨live, before, rfl⟩
  · intro c
    obtain ⟨w, same, alike⟩ := kept c
    exact same.symm ▸ alike
  · intro c q before
    refine (taken c q ?_).trans (sound.untouched c q before)
    by_contra both
    obtain ⟨rfl, rfl⟩ : q = p ∧ c = link.endpoint.connection := by simpa using both
    rw [reached] at before
    cases before
  · intro q
    rw [show ((x.change link.endpoint.connection _).amend p _).session q = _ from session q]
    split
    · next same =>
      subst same
      refine (sound.holds q).reads _ link held _ rfl (List.suffix_refl _)
        (fun _ => Nat.le_refl _) ?_ ?_ ?_
      · have follows := ((sound.holds q).link link held).take bytes offered
        have live := (passage link.endpoint.connection).trans (if_pos rfl)
        exact cast (congrArg (Passage.Follows · q _ _) live.symm) follows
      · obtain ⟨w, same, _, joined, _⟩ := kept link.endpoint.connection
        exact (congrFun ((congrArg Passage.joined same).trans joined) q).trans reached
      · intro c other
        exact (passage c).trans (if_neg other)
    · next other =>
      -- The other party reads nothing here, so that its place in each connection stays.
      refine (sound.holds q).longer _ fun c before => ?_
      obtain ⟨w, same, written, joined, _⟩ := kept c
      refine ⟨?_, taken c q (.inl other), ?_⟩
      · exact (congrFun ((congrArg Passage.joined same).trans joined) q).trans before
      · exact (congrFun ((congrArg Passage.written same).trans written) _).symm ▸
          List.prefix_refl _

/-- Bytes that arrive may be taken up. -/
theorem Sound.heard (sound : Sound x) (p : Party) (link : Link) (bytes : ByteArray) (now : Nat)
    (random : Random.Stream) (held : (x.session p).link = some link)
    (idle : (x.session p).stage = .idle)
    (offered : (x.passage link.endpoint.connection).Offers p bytes) :
    Sound ((x.change link.endpoint.connection fun w => w.take p bytes.size).turned p now random
      (.received bytes)) := by
  have handled :=
    (x.session p).handle_received (x.host p) now random link bytes idle held
  have quiet := (sound.taken p link bytes held offered).quiet p
    { x.session p with
      link := some { link with buffer := link.buffer ++ bytes }
      ledger := (x.session p).ledger.count fun t => t.read bytes.size
      stage := .reading } (by
    rw [amend_session]
    exact ⟨rfl, rfl, rfl, rfl, rfl, rfl, .inr rfl, List.suffix_refl _, fun _ => .inl⟩)
  rw [amend_amend] at quiet
  unfold Correspondence.turned
  have same : Turn.handle ((x.change link.endpoint.connection fun w =>
      w.take p bytes.size).host p) now ⟨(x.change link.endpoint.connection fun w =>
        w.take p bytes.size).session p, random, []⟩ (.received bytes) = _ := handled
  rw [same]
  exact (note_nil _).symm ▸ quiet

/-- The kernel there may be replaced by a new run. -/
theorem Sound.restarted (sound : Sound x) (host : Host)
    (fresh : host.incarnation ∉ (x.host .there).incarnation :: x.former .there) :
    Sound (x.restarted .there host) := by
  have earlier (any : Incarnation) (handed : handedBy .there any x.log ≠ []) :
      any ∈ (x.host .there).incarnation :: x.former .there :=
    List.mem_cons.mpr (sound.receives.runs any handed)
  refine ⟨sound.sends, sound.honest, sound.gapless, sound.marked, ?_, ?_, ?_, ?_, sound.unused,
    sound.untouched⟩
  · change Receives x.account host.incarnation ((x.host .there).incarnation :: x.former .there)
      (Session.fresh (x.host .here).id host.options).ledger
    refine ⟨⟨Nat.zero_le _, ?_⟩, nofun, sound.receives.ordered, sound.receives.genuine, ?_, ?_⟩
    · intro m listed none
      have positive := (sound.sends.numbered m listed).1
      exact absurd none (Nat.not_le_of_lt positive)
    · intro m listed
      exact absurd (earlier _ (List.ne_nil_of_mem listed)) fresh
    · exact fun any handed => .inr (earlier any handed)
  · intro p
    cases p with
    | here => exact sound.holds .here
    | there => exact .none rfl rfl
  · intro p dial begun
    cases p with
    | here => exact sound.dials .here dial begun
    | there => cases begun
  · intro p
    cases p with
    | here => exact sound.received .here
    | there => exact Nat.zero_le _

/-- It holds at the beginning. -/
theorem Sound.begin (host : Party → Host) : Sound (begin host) := by
  refine ⟨?_, nofun, fun _ => Account.gapless_nil _, nofun, ?_, ?_, ?_, ?_, fun _ _ _ => rfl,
    fun _ _ _ => rfl⟩
  · exact ⟨rfl, Nat.le_refl _, .nil, nofun, nofun, .nil, nofun, nofun, ⟨Nat.le_refl _, nofun⟩,
      Nat.le_refl _⟩
  · exact ⟨⟨Nat.le_refl _, nofun⟩, nofun, fun _ => .nil, nofun, nofun,
      fun _ some' => absurd rfl some'⟩
  · exact fun p => .none rfl rfl
  · intro p dial begun
    cases begun
  · exact fun p => Nat.zero_le _

/-- Every step keeps what always holds, as long as the kernel here is not replaced. There is one
case for each kind of step. -/
theorem Sound.step (sound : Sound x) {y : Correspondence} (step : Step (· = .there) x y) :
    Sound y := by
  cases step with
  | call p call fit => exact sound.called p call fit
  | turn p now random event own =>
    refine sound.turned p now random event ?_ ?_
    · rintro bytes rfl
      cases own
    · rintro greeted rfl
      cases own
  | dial p dial c hello dialing unused greeting =>
    exact sound.dialed p dial c hello _ dialing unused greeting
  | answer p c arrived theirs surplus hello _ _ _ _ _ _ _ greeting =>
    exact sound.answered p c hello _ greeting
  | attach p c arrived theirs surplus dialed _ untaken offered greeted =>
    obtain ⟨welcomed, holds⟩ := sound.welcomed p c arrived theirs surplus
      (dialed ▸ Option.some_ne_none _) untaken offered greeted
    refine welcomed.pushed p _ ?_
    change Holds x.account p ((x.session p).push _) _
    obtain ⟨commands, same, waiting⟩ :=
      (x.session p).push_eq (.attach ⟨⟨c, .acceptor⟩, theirs, surplus⟩)
    rw [same]
    rcases waiting with rfl | rfl
    · exact welcomed.holds p
    · exact holds .acceptor _ rfl rfl (List.perm_append_singleton _ _)
  | reach p c arrived theirs surplus now random dialed _ untaken offered greeted _ _ _ =>
    obtain ⟨welcomed, holds⟩ := sound.welcomed p c arrived theirs surplus
      (dialed ▸ Option.some_ne_none _) untaken offered greeted
    refine welcomed.turned p now random _ nofun ?_
    rintro reached same
    cases same
    exact holds .dialer _ rfl rfl (List.Perm.refl _)
  | receive p link bytes now random held idle offered =>
    exact sound.heard p link bytes now random held idle offered
  | restart p host may same fresh =>
    subst may
    exact sound.restarted host fresh

/-- Everything that two kernels can get to is as it should be. -/
theorem Reachable.sound (reachable : Reachable (· = .there) x) : Sound x := by
  obtain ⟨host, steps⟩ := reachable
  induction steps with
  | refl => exact .begin host
  | tail _ step inductionHypothesis => exact inductionHypothesis.step step

/-- As long as the kernel here is not replaced, each run of the kernel there hands out
messages of the kernel here in the order of their numbers, each with the payload that was
accepted under its number. And a message that was accepted here, is not in the outbox any
more, and was not discarded was handed out by some run there. -/
theorem delivers (reachable : Reachable (· = .there) x) :
    (∀ run, (handedBy .there run x.log).Pairwise (fun m n => m.1 < n.1) ∧
      ∀ m ∈ handedBy .there run x.log, m ∈ acceptedBy .here x.log) ∧
    (acceptedBy .here x.log).Pairwise (fun m n => m.1 < n.1) ∧
    ∀ m ∈ acceptedBy .here x.log,
      (∀ e ∈ (x.session .here).ledger.outbox.entries, e.seq ≠ m.1) →
      m.1 ∉ discardedBy .here x.log →
        ∃ run ∈ (x.host .there).incarnation :: x.former .there,
          m ∈ handedBy .there run x.log := by
  have sound := reachable.sound
  refine ⟨fun run => ⟨sound.receives.ordered run, sound.receives.genuine run⟩,
    sound.sends.ordered, ?_⟩
  intro m accepted gone kept
  rcases sound.sends.kept m accepted with ⟨e, held, same⟩ | discarded | ⟨run, handed⟩
  · exact absurd same (gone e held)
  · exact absurd discarded kept
  · refine ⟨run, ?_, handed⟩
    exact List.mem_cons.mpr (sound.receives.runs run (List.ne_nil_of_mem handed))

/-- Two kernels for runs on fixed inputs, where a letter is sent from here. -/
def acquaintances : Party → Host
  | .here => aliceService.host
  | .there => ⟨bob, ⟨0, 2⟩, {}⟩

/-- What the kernels greet each other with. -/
def greeting (p : Party) : Hello :=
  (acquaintances p).hello ((begin acquaintances).session p).ledger

/-- The greeting of a fresh session acknowledges nothing. -/
theorem greeting_unheard (p : Party) : (greeting p).ack = 0 := by
  cases p <;> rfl

/-- The message that carries a body. Its frame is never spelled out. -/
@[irreducible]
def made (body : Body) (seq ack : Nat) : Dispatch :=
  (Dispatch.of? body seq ack).getD ⟨seq, ack, body, []⟩

/-- A body that fits in a frame makes the message that carries it. -/
theorem made_eq {body : Body} {seq ack : Nat} (framed : (Dispatch.of? body seq ack).isSome) :
    Dispatch.of? body seq ack = some (made body seq ack) := by
  obtain ⟨d, same⟩ := Option.isSome_iff_exists.mp framed
  rw [made, same, Option.getD_some]

/-- The messages of the run: the two greetings, the letter, and its acknowledgement. -/
def greets (p : Party) : Dispatch := made (.hello (greeting p)) 0 0

@[inherit_doc greets]
def letter : Dispatch := made (.parcel (.message [1, 2] none)) 1 0

@[inherit_doc greets]
def thanks : Dispatch := made .ack 0 1

/-- Both greetings fit in a frame. -/
theorem greets_framed (p : Party) :
    Dispatch.of? (.hello (greeting p)) 0 0 = some (greets p) := by
  refine made_eq (Dispatch.of?_hello (greeting p) 0 0 ?_ (by decide) (by decide))
  exact greeting_unheard p ▸ Nat.zero_le _

/-- The letter fits in a frame. -/
theorem letter_framed : Dispatch.of? (.parcel (.message [1, 2] none)) 1 0 = some letter :=
  made_eq (Dispatch.of?_parcel (.message [1, 2] none) nofun 1 0 (by decide) (by decide)
    (by decide))

/-- The acknowledgement fits in a frame. -/
theorem thanks_framed : Dispatch.of? .ack 0 1 = some thanks :=
  made_eq (Dispatch.of?_ack 0 1 (by decide) (by decide))

/-- A message arrives in one piece. -/
def arriving (d : Dispatch) : ByteArray := ⟨d.frame.toArray⟩

/-- A message that arrives in one piece is its own frame. -/
theorem arriving_bytes (d : Dispatch) : (arriving d).data.toList = d.frame := rfl

/-- Only the empty array has no bytes. -/
theorem empty_of_bytes {b : ByteArray} (none : b.data.toList = []) : b = .empty :=
  ByteArray.ext (Array.toList_inj.mp none)

/-- A greeting that arrives is taken off in full, and nothing is left behind it. -/
theorem greets_taken (p : Party) :
    Handshake.take? (arriving (greets p)) = .ok (some (greeting p, .empty)) := by
  have unheard := greeting_unheard p
  obtain ⟨surplus, taken, empty⟩ := Handshake.take?_front (greeting p)
    (unheard ▸ Nat.zero_le _) (greets p) (unheard.symm ▸ greets_framed p) (arriving (greets p))
    [] (List.append_nil _).symm
  rw [taken, empty_of_bytes empty]

/-- A letter is posted here, and an attempt to connect begins. -/
def calling : Correspondence :=
  ((begin acquaintances).called .here (.post ⟨[1, 2], none⟩ (.ofMillis 0))).turned .here 0
    quiet .wake

/-- Both kernels have greeted on a connection. -/
def greeted : Correspondence :=
  (calling.change 0 fun _ =>
    ({ dialer := some .here } : Passage).greet .here ⟨0, 1⟩ (greets .here)).change 0
      fun w => w.greet .there ⟨0, 2⟩ (greets .there)

/-- Both have adopted the connection. -/
def joined : Correspondence :=
  let attached := ((greeted.change 0 fun w =>
    w.join .there (arriving (greets .here)).size).amend .there
      ((greeted.session .there).push
        (.attach ⟨⟨0, .acceptor⟩, greeting .here, .empty⟩))).turned .there 0 quiet .command
  (attached.change 0 fun w => w.join .here (arriving (greets .there)).size).turned .here 0
    quiet (.dialed (.ok ⟨⟨0, .dialer⟩, greeting .there, .empty⟩))

/-- The letter is written. -/
def written : Correspondence :=
  (joined.amend .here { joined.session .here with
    ledger := (joined.session .here).ledger.drain.2.2
    ackDue := none
    stage := .reading }).change 0 fun w => w.append .here [letter]

/-- The letter has arrived there. -/
def arrived : Correspondence :=
  (((written.turned .there 0 quiet .proceed).turned .there 0 quiet .proceed).change 0
    fun w => w.take .there (arriving letter).size).turned .there 0 quiet
      (.received (arriving letter))

/-- The letter is handed out. -/
def delivered : Correspondence :=
  (arrived.amend .there { arrived.session .there with
    link := some ⟨⟨0, .acceptor⟩, ⟨0, 1⟩, .empty⟩
    ledger := { (arrived.session .there).ledger with
      window := { received := 1, ackPending := true }
      tally := (arrived.session .there).ledger.tally.received }
    stage := .handling none }).note [.handed .there ⟨0, 2⟩ 1 [1, 2]]

/-- The application is done with it, and an acknowledgement is due. -/
def owing : Correspondence :=
  (delivered.turned .there 0 quiet (.replied none)).turned .there 0 quiet .proceed

/-- The acknowledgement is written. -/
def thanked : Correspondence :=
  (owing.amend .there { owing.session .there with
    ledger := { (owing.session .there).ledger with window := { received := 1 } }
    ackDue := none }).change 0 fun w => w.append .there [thanks]

/-- The acknowledgement has arrived here. -/
def answered : Correspondence :=
  ((thanked.turned .here 0 quiet .proceed).change 0
    fun w => w.take .here (arriving thanks).size).turned .here 0 quiet
      (.received (arriving thanks))

/-- The letter is acknowledged, and then the kernel there starts anew. -/
def acknowledged : Correspondence :=
  (answered.amend .here { answered.session .here with
    link := some ⟨⟨0, .dialer⟩, ⟨0, 2⟩, .empty⟩
    ledger := (answered.session .here).ledger.applyAck 1 }).restarted .there ⟨bob, ⟨0, 3⟩, {}⟩

/-- The run gets to where the letter is posted and an attempt begins: one call and one turn. -/
theorem calling_reachable : Reachable (· = .there) calling := by
  have posts : Step (· = .there) (begin acquaintances)
      ((begin acquaintances).called .here (.post ⟨[1, 2], none⟩ (.ofMillis 0))) := by
    refine .call .here _ ?_
    change [1, 2].length ≤ Frame.maxPayload
    decide
  exact ⟨acquaintances, .tail (.tail .refl posts) (.turn .here 0 quiet .wake rfl)⟩

/-- The attempt makes a connection, and both kernels greet on it. -/
theorem greeted_reachable : Reachable (· = .there) greeted := by
  have reached := calling_reachable
  have dialed := reached.tail
    (.dial .here ⟨[], greeting .here⟩ 0 (greets .here) rfl rfl (greets_framed .here))
  refine dialed.tail (.answer .there 0 (arriving (greets .here)) (greeting .here) .empty
    (greets .there) rfl rfl rfl ?_ (greets_taken .here) rfl (by decide) (greets_framed .there))
  exact Passage.offers_next _ _ [] [] (greets .here) _ rfl rfl (arriving_bytes _)

/-- Each kernel reads the greeting of the other and adopts the connection. -/
theorem joined_reachable : Reachable (· = .there) joined := by
  have reached := greeted_reachable
  have attached := reached.tail
    (.attach .there 0 (arriving (greets .here)) (greeting .here) .empty rfl rfl rfl
      (Passage.offers_next _ _ [] [] (greets .here) _ rfl rfl (arriving_bytes _))
      (greets_taken .here))
  have adopted := attached.tail (.turn .there 0 quiet .command rfl)
  refine adopted.tail (.reach .here 0 (arriving (greets .there)) (greeting .there) .empty 0
    quiet rfl rfl rfl ?_ (greets_taken .there) rfl rfl rfl)
  exact Passage.offers_next _ _ [] [] (greets .there) _ rfl rfl (arriving_bytes _)

/-- The kernel here writes the letter. -/
theorem written_reachable : Reachable (· = .there) written := by
  have dispatches : (joined.session .here).dispatches = [letter] := by
    change Entry.dispatches 0 [⟨1, .message [1, 2] none, .ofMillis 0⟩] = [letter]
    simp [Entry.dispatches, letter_framed]
  have writes := joined.turned_greeting .here 0 quiet ⟨⟨0, .dialer⟩, ⟨0, 2⟩, .empty⟩ rfl
    ⟨rfl, rfl, by decide⟩ (by simp [dispatches])
  have reached := joined_reachable
  have turned := reached.tail (.turn .here 0 quiet .proceed rfl)
  rw [writes, dispatches] at turned
  exact turned

/-- The bytes of the letter arrive there. -/
theorem arrived_reachable : Reachable (· = .there) arrived := by
  have reached := written_reachable
  have ready := (reached.tail (.turn .there 0 quiet .proceed rfl)).tail
    (.turn .there 0 quiet .proceed rfl)
  refine ready.tail (.receive .there ⟨⟨0, .acceptor⟩, ⟨0, 1⟩, .empty⟩ (arriving letter) 0
    quiet rfl rfl ?_)
  refine Passage.offers_next _ _ [greets .here] [] letter _ rfl ?_ (arriving_bytes _)
  change 0 + (arriving (greets .here)).size = _
  simp [Dispatch.bytes, arriving, ByteArray.size]

/-- The letter is read there and handed out. -/
theorem delivered_reachable : Reachable (· = .there) delivered := by
  obtain ⟨body, seq, ack, _⟩ := Dispatch.of?_eq _ _ _ letter letter_framed
  have fits := Dispatch.of?_fits _ _ _ letter letter_framed nofun (by decide) (by decide)
  obtain ⟨rest, empty, hands⟩ := arrived.turned_message .there 0 quiet
    ⟨⟨0, .acceptor⟩, ⟨0, 1⟩, .empty ++ .empty ++ arriving letter⟩ letter [] rfl rfl
    (Dispatch.of?_formed _ _ _ letter letter_framed) fits (by simp [arriving_bytes]) [1, 2]
    none body (seq ▸ Nat.one_pos)
  have unheeded : (arrived.session .there).ledger.heeding letter.envelope =
      (arrived.session .there).ledger := if_neg (Nat.not_lt_of_le (Nat.le_of_eq ack))
  have reached := arrived_reachable
  have turned := reached.tail (.turn .there 0 quiet .proceed rfl)
  rw [hands, empty_of_bytes empty, unheeded, seq] at turned
  exact turned

/-- Once the application is done with the letter, its acknowledgement is written. -/
theorem thanked_reachable : Reachable (· = .there) thanked := by
  have reached := delivered_reachable
  have owed : Reachable (· = .there) owing :=
    (reached.tail (.turn .there 0 quiet (.replied none) rfl)).tail
      (.turn .there 0 quiet .proceed rfl)
  have writes := owing.turned_owed .there 0 quiet ⟨⟨0, .acceptor⟩, ⟨0, 1⟩, .empty⟩ thanks rfl
    rfl rfl rfl thanks_framed
  have turned := owed.tail (.turn .there 0 quiet .ackElapsed rfl)
  rw [writes] at turned
  exact turned

/-- The acknowledgement arrives here. -/
theorem answered_reachable : Reachable (· = .there) answered := by
  have reached := thanked_reachable
  have ready := reached.tail (.turn .here 0 quiet .proceed rfl)
  refine ready.tail (.receive .here ⟨⟨0, .dialer⟩, ⟨0, 2⟩, .empty⟩ (arriving thanks) 0 quiet
    rfl rfl ?_)
  refine Passage.offers_next _ _ [greets .there] [] thanks _ rfl ?_ (arriving_bytes _)
  change 0 + (arriving (greets .there)).size = _
  simp [Dispatch.bytes, arriving, ByteArray.size]

/-- The acknowledgement is read here, which empties the outbox, and the kernel there starts anew. -/
theorem acknowledged_reachable : Reachable (· = .there) acknowledged := by
  obtain ⟨body, seq, ack, _⟩ := Dispatch.of?_eq _ _ _ thanks thanks_framed
  have fits := Dispatch.of?_fits _ _ _ thanks thanks_framed trivial (by decide) (by decide)
  obtain ⟨rest, empty, heeds⟩ := answered.turned_ack .here 0 quiet
    ⟨⟨0, .dialer⟩, ⟨0, 2⟩, .empty ++ .empty ++ arriving thanks⟩ thanks [] rfl rfl
    (Dispatch.of?_formed _ _ _ thanks thanks_framed) fits (by simp [arriving_bytes]) body
  have heeded : (answered.session .here).ledger.heeding thanks.envelope =
      (answered.session .here).ledger.applyAck 1 := by
    have counts : thanks.envelope.ack = 1 := ack
    rw [Ledger.heeding, counts, if_pos Nat.one_pos]
  have reached := answered_reachable
  have turned := reached.tail (.turn .here 0 quiet .proceed rfl)
  rw [heeds, empty_of_bytes empty, heeded] at turned
  exact turned.tail (.restart .there ⟨bob, ⟨0, 3⟩, {}⟩ rfl rfl (by decide))

/-- The letter left the outbox because the run there that has ended handed it out. -/
theorem acknowledged_delivers :
    acceptedBy .here acknowledged.log = [(1, [1, 2])] ∧
    (acknowledged.session .here).ledger.outbox.entries = [] ∧
    discardedBy .here acknowledged.log = [] ∧
    handedBy .there ⟨0, 2⟩ acknowledged.log = [(1, [1, 2])] ∧
    (∀ run, (handedBy .there run acknowledged.log).Pairwise (fun m n => m.1 < n.1) ∧
      ∀ m ∈ handedBy .there run acknowledged.log, m ∈ acceptedBy .here acknowledged.log) ∧
    (acceptedBy .here acknowledged.log).Pairwise (fun m n => m.1 < n.1) ∧
    ∀ m ∈ acceptedBy .here acknowledged.log,
      (∀ e ∈ (acknowledged.session .here).ledger.outbox.entries, e.seq ≠ m.1) →
      m.1 ∉ discardedBy .here acknowledged.log →
        ∃ run ∈ (acknowledged.host .there).incarnation :: acknowledged.former .there,
          m ∈ handedBy .there run acknowledged.log :=
  ⟨rfl, rfl, rfl, rfl, delivers acknowledged_reachable⟩

end Correspondence

end Courier
