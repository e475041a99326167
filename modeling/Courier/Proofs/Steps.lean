import Courier.Proofs.Approaches

/-!
# A step of a node

A step of a node is about one peer at most: the one whose session, attempt to connect or writer
moves on, or the one that greeted. For the kernel it is a few deeds, which belong to this peer or
which the application asks for when it is called back. What is under way with other peers is left
alone.
-/

namespace Courier

/-- Whether a deed is about the session of a peer and no call of the application. -/
def Deed.IsOwn (peer : PeerId) : Deed → Prop
  | .meet p | .turn p _ _ | .wrote p _ => p = peer
  | .attach greeted => greeted.hello.peer = peer
  | _ => False

/-- A deed of the session of a peer is about this peer. -/
theorem Deed.IsOwn.peer? {deed : Deed} {peer : PeerId} (own : deed.IsOwn peer) :
    deed.peer? = some peer := by
  cases deed with
  | meet | turn | wrote | attach => exact congrArg some own
  | _ => cases own

namespace Node

/-- The letters that the application asks for when the session of a peer takes up an event. -/
def callbacks (now : Nat) (peer : PeerId) (n : Node) (event : Event) : List Sending :=
  (n.kernel.turn peer now event).2.flatMap (·.sendings n.application peer)

/-- What an occasion brings to the session of a peer, and what the application has sent before. -/
def upcoming? (now : Nat) (peer : PeerId) (occasion : Occasion) (n : Node) (network : Network) :
    Option (List Sending × Event) :=
  match n.kernel.session? peer with
  | none => none
  | some s =>
    match s.stage, occasion with
    | .greeting, .onward | .reading, .onward => some ([], .proceed)
    | .handling _, .onward =>
      match n.works.find? fun work => work.peer = peer with
      | none => none
      | some work =>
        if work.due ≤ now then some (work.reaction.sendings, .replied work.reaction.reply)
        else none
    | .idle, .dialed => (n.outcome? peer).map fun outcome => ([], .dialed outcome)
    | .idle, .command => if s.commands.isEmpty then none else some ([], .command)
    | .idle, .wake => if s.woken then some ([], .wake) else none
    | .idle, .backoff => if s.backoffDue.any (· ≤ now) then some ([], .backoffElapsed) else none
    | .idle, .ack => if s.ackDue.any (· ≤ now) then some ([], .ackElapsed) else none
    | .idle, .reading =>
      s.link.bind fun link =>
        match network.read link.endpoint Handshake.chunk with
        | (.bytes bytes, _) => some ([], .received bytes)
        | (.ended, _) => some ([], .lost)
        | (.nothing, _) => none
    | .idle, .failure => if s.link.any n.writerFailed then some ([], .lost) else none
    | _, _ => none

/-- The node whose session takes up an event: what led to the event is over. -/
def cleared (peer : PeerId) (n : Node) : Event → Node
  | .replied _ => { n with works := n.works.filter fun work => work.peer ≠ peer }
  | .dialed _ => { n with dialings := n.dialings.filter fun d => d.peer ≠ peer }
  | _ => n

/-- The network once a session took up what an occasion brings: what was read from it is gone. -/
def drawn (peer : PeerId) (n : Node) (network : Network) : Occasion → Network
  | .reading =>
    match (n.kernel.session? peer).bind (·.link) with
    | some link => (network.read link.endpoint Handshake.chunk).2
    | none => network
  | _ => network

/-- A session draws on the network at its own connection only. -/
theorem drawn_touched (peer : PeerId) (n : Node) (network : Network) (occasion : Occasion) :
    network.Touched (fun e => ∃ s link, n.kernel.session? peer = some s ∧ s.link = some link ∧
      link.endpoint = e) (n.drawn peer network occasion) := by
  cases occasion with
  | reading =>
    dsimp only [drawn]
    split
    · next link linked =>
      obtain ⟨s, held, same⟩ := Option.bind_eq_some_iff.mp linked
      apply (network.read_touched link.endpoint Handshake.chunk).mono
      exact fun e here => ⟨s, link, held, same, here.symm⟩
    · exact .refl _ network
  | _ => exact .refl _ network

/-- What a session reads from its connection it takes up in a turn. -/
theorem listen?_eq (now : Nat) (peer : PeerId) (s : Session) (link : Link) (n : Node)
    (network : Network) (held : n.kernel.session? peer = some s) (linked : s.link = some link) :
    n.listen? now peer link network =
      (match network.read link.endpoint Handshake.chunk with
        | (.bytes bytes, _) => some (Event.received bytes)
        | (.ended, _) => some .lost
        | (.nothing, _) => none).map fun event =>
          n.turn now peer (n.drawn peer network .reading) event := by
  have same : (n.kernel.session? peer).bind (·.link) = some link := by simp [held, linked]
  have left : n.drawn peer network .reading = (network.read link.endpoint Handshake.chunk).2 := by
    simp only [drawn, same]
  rw [left, listen?]
  rcases network.read link.endpoint Handshake.chunk with ⟨reading, rest⟩
  cases reading <;> rfl

/-- A step of a session is the turn that takes up what an occasion brings. There is one case for
each thing that a session may be in the middle of, and for an idle one for each occasion. -/
theorem session?_eq (now : Nat) (peer : PeerId) (occasion : Occasion) (n : Node)
    (network : Network) :
    n.session? now peer occasion network =
      (n.upcoming? now peer occasion network).map fun (sendings, event) =>
        ((n.cleared peer event).sendAll now sendings).turn now peer
          (n.drawn peer network occasion) event := by
  unfold session? upcoming?
  cases held : n.kernel.session? peer with
  | none => rfl
  | some s =>
    dsimp only
    cases occasion with
    | onward =>
      cases s.stage with
      | handling replyTo =>
        dsimp only
        cases n.works.find? fun work => work.peer = peer with
        | none => rfl
        | some work =>
          dsimp only
          split <;> rfl
      | _ => rfl
    | dialed =>
      cases s.stage with
      | idle => cases n.outcome? peer <;> rfl
      | _ => rfl
    | reading =>
      cases s.stage with
      | idle =>
        cases linked : s.link with
        | none => rfl
        | some link =>
          simp only [Option.bind_some, n.listen?_eq now peer s link network held linked]
          rcases network.read link.endpoint Handshake.chunk with ⟨reading, rest⟩
          cases reading <;> rfl
      | _ => rfl
    | _ =>
      cases s.stage with
      | idle =>
        dsimp only
        split <;> rfl
      | _ => rfl

/-- When the session of a peer takes up an event, the node does what the session asks for. -/
theorem turn_performed (now : Nat) (peer : PeerId) (n : Node) (network : Network)
    (event : Event) :
    Performed now peer { n with kernel := (n.kernel.turn peer now event).1 } network
      (n.kernel.turn peer now event).2 (n.turn now peer network event).1
      (n.turn now peer network event).2 :=
  performAll_performed _

/-- The node whose session takes up an event, once the application has sent what it was asked for
before. -/
def ready (now : Nat) (peer : PeerId) (n : Node) (sendings : List Sending) (event : Event) : Node :=
  (n.cleared peer event).sendAll now sendings

/-- The peer that a step is about. Before a greeting was read there is none. -/
def about? (n : Node) : Activity → Option PeerId
  | .accept _ => none
  | .welcome endpoint => ((n.arrival? endpoint).bind (·.welcome.hello?)).map (·.peer)
  | .dialing peer | .session peer _ => some peer
  | .writer endpoint => (n.writers.find? fun w => w.endpoint = endpoint).map (·.peer)

/-- What a step is for the kernel. -/
def deeds (now : Nat) (n : Node) (network : Network) : Activity → List Deed
  | .accept _ | .dialing _ => []
  | .welcome endpoint => ((n.arrival? endpoint).map (·.welcome.deeds endpoint)).getD []
  | .session peer occasion =>
    match n.upcoming? now peer occasion network with
    | none => []
    | some (sendings, event) =>
      sendings.map (·.deed now) ++ .turn peer now event ::
        ((n.ready now peer sendings event).callbacks now peer event).map (·.deed now)
  | .writer endpoint =>
    ((n.writers.find? fun w => w.endpoint = endpoint).map (·.deeds)).getD []

/-- The application asks for a letter when it is called back about a peer. -/
def Asks (n : Node) (peer : PeerId) (sending : Sending) : Prop :=
  (∃ promise, sending ∈ n.application.onSettled promise) ∨
    sending ∈ n.application.onGiveUp peer ∨
    ∃ work ∈ n.works, work.peer = peer ∧ sending ∈ work.reaction.sendings

section Steps

variable {now : Nat} {n after : Node} {network rest : Network}

/-- A step of a session is a turn: what it asks for is done. -/
theorem session?_turns {peer : PeerId} {occasion : Occasion}
    (stepped : n.session? now peer occasion network = some (after, rest)) : ∃ sendings event,
      n.upcoming? now peer occasion network = some (sendings, event) ∧
        Performed now peer
          { n.ready now peer sendings event with
            kernel := ((n.ready now peer sendings event).kernel.turn peer now event).1 }
          (n.drawn peer network occasion)
          ((n.ready now peer sendings event).kernel.turn peer now event).2 after rest := by
  rw [session?_eq] at stepped
  obtain ⟨⟨sendings, event⟩, upcoming, same⟩ := Option.map_eq_some_iff.mp stepped
  refine ⟨sendings, event, upcoming, ?_⟩
  have performed := turn_performed now peer (n.ready now peer sendings event)
    (n.drawn peer network occasion) event
  have goes : (n.ready now peer sendings event).turn now peer (n.drawn peer network occasion)
      event = (after, rest) := same
  rwa [goes] at performed

/-- What is over before a session takes up an event is about this peer. -/
theorem cleared_eq (peer : PeerId) (n : Node) (event : Event) :
    n.cleared peer event = { n with
      works := (n.cleared peer event).works, dialings := (n.cleared peer event).dialings } := by
  cases event <;> rfl

/-- What the application sends before an event is taken up are letters of the kernel, and news of no
promise. -/
theorem ready_eq (now : Nat) (peer : PeerId) (n : Node) (sendings : List Sending)
    (event : Event) : ∃ news : List Report, (∀ promise result, .settled promise result ∉ news) ∧
      n.ready now peer sendings event = { n.cleared peer event with
        kernel := n.kernel.live (sendings.map (·.deed now))
        reports := n.reports ++ news.toArray } := by
  obtain ⟨news, unsettled, same⟩ := (n.cleared peer event).sendAll_eq now sendings
  refine ⟨news, unsettled, ?_⟩
  rw [ready, same]
  have kernel : (n.cleared peer event).kernel = n.kernel := by rw [cleared_eq]
  have reports : (n.cleared peer event).reports = n.reports := by rw [cleared_eq]
  rw [kernel, reports]

/-- For the kernel, a session that takes up an event is the letters sent before, the turn, and the
letters that the application then asks for. -/
theorem deeds_session {peer : PeerId} {occasion : Occasion} {sendings : List Sending}
    {event : Event} (upcoming : n.upcoming? now peer occasion network = some (sendings, event)) :
    n.deeds now network (.session peer occasion) =
      sendings.map (·.deed now) ++ .turn peer now event ::
        ((n.ready now peer sendings event).callbacks now peer event).map (·.deed now) := by
  simp only [deeds, upcoming]

/-- The kernel goes through the deeds of a step. -/
theorem step?_lives {activity : Activity}
    (stepped : n.step? now network activity = some (after, rest)) :
    after.kernel = n.kernel.live (n.deeds now network activity) := by
  cases activity with
  | accept listener =>
    obtain ⟨_, _, same⟩ := Option.map_eq_some_iff.mp stepped
    cases same
    rfl
  | welcome endpoint =>
    obtain ⟨a, found, greets⟩ := welcome?_greets stepped
    have deeds : n.deeds now network (.welcome endpoint) = a.welcome.deeds endpoint := by
      simp [deeds, found]
    rw [greets.kernel, deeds]
  | dialing peer =>
    simp only [step?] at stepped
    obtain ⟨_, _, _, same, _⟩ := dialing?_moves stepped
    rw [same]
    rfl
  | session peer occasion =>
    obtain ⟨sendings, event, upcoming, performed⟩ := session?_turns stepped
    obtain ⟨news, _, ready⟩ := ready_eq now peer n sendings event
    have sent : (n.ready now peer sendings event).kernel =
        n.kernel.live (sendings.map (·.deed now)) := by rw [ready]
    rw [performed.kernel, deeds_session upcoming, Kernel.live, Kernel.live, List.foldl_append,
      List.foldl_cons]
    change _ = List.foldl _ ((n.kernel.live (sendings.map (·.deed now))).undergo _) _
    rw [← sent]
    rfl
  | writer endpoint =>
    obtain ⟨w, _, found, _, _, _, lives, _⟩ := writer?_writes stepped
    have deeds : n.deeds now network (.writer endpoint) = w.deeds := by simp [deeds, found]
    rw [lives, deeds]

/-- A step changes nothing about a node but its kernel, what is under way and the reports. -/
theorem step?_same {activity : Activity}
    (stepped : n.step? now network activity = some (after, rest)) :
    after = { n with
      kernel := after.kernel, arrivals := after.arrivals, dialings := after.dialings
      writers := after.writers, works := after.works, reports := after.reports } := by
  cases activity with
  | accept listener =>
    obtain ⟨_, _, same⟩ := Option.map_eq_some_iff.mp stepped
    cases same
    rfl
  | welcome endpoint =>
    obtain ⟨_, _, greets⟩ := welcome?_greets stepped
    rw [greets.same]
  | dialing peer =>
    simp only [step?] at stepped
    obtain ⟨_, _, _, same, _⟩ := dialing?_moves stepped
    rw [same]
    rfl
  | session peer occasion =>
    obtain ⟨sendings, event, upcoming, performed⟩ := session?_turns stepped
    obtain ⟨news, _, ready⟩ := ready_eq now peer n sendings event
    rw [performed.same, ready, cleared_eq]
  | writer endpoint =>
    obtain ⟨_, _, _, same, _⟩ := writer?_writes stepped
    rw [same]
    rfl

/-- What may be brought to the session of a peer, with the letters that go ahead of it. -/
inductive Brings (now : Nat) (peer : PeerId) (n : Node) (network : Network) (s : Session) :
    Occasion → List Sending → Event → Prop where
  | proceed (stage : s.stage = .greeting ∨ s.stage = .reading) :
      Brings now peer n network s .onward [] .proceed
  | replied (work : Work) (listed : work ∈ n.works) (named : work.peer = peer)
      (due : work.due ≤ now) :
      Brings now peer n network s .onward work.reaction.sendings (.replied work.reaction.reply)
  | dialed (d : Dialing) (outcome : Except LinkError Greeted) (listed : d ∈ n.dialings)
      (named : d.peer = peer) (ended : d.outcome = some outcome) :
      Brings now peer n network s .dialed [] (.dialed outcome)
  | command (left : s.commands ≠ []) : Brings now peer n network s .command [] .command
  | wake (woken : s.woken = true) : Brings now peer n network s .wake [] .wake
  | backoff (due : Nat) (waiting : s.backoffDue = some due) (passed : due ≤ now) :
      Brings now peer n network s .backoff [] .backoffElapsed
  | ack (due : Nat) (waiting : s.ackDue = some due) (passed : due ≤ now) :
      Brings now peer n network s .ack [] .ackElapsed
  | received (link : Link) (held : s.link = some link) (bytes : ByteArray)
      (read : (network.read link.endpoint Handshake.chunk).1 = .bytes bytes) :
      Brings now peer n network s .reading [] (.received bytes)
  | ended (link : Link) (held : s.link = some link)
      (read : (network.read link.endpoint Handshake.chunk).1 = .ended) :
      Brings now peer n network s .reading [] .lost
  | failed (link : Link) (held : s.link = some link) (failed : n.writerFailed link = true) :
      Brings now peer n network s .failure [] .lost

/-- A session is idle when it takes up an event other than the next of its own steps. -/
theorem idle_of_upcoming? {peer : PeerId} {occasion : Occasion} {s : Session}
    {brought : List Sending × Event} (held : n.kernel.session? peer = some s)
    (outer : occasion ≠ .onward)
    (upcoming : n.upcoming? now peer occasion network = some brought) : s.stage = .idle := by
  cases stage : s.stage with
  | idle => rfl
  | _ =>
    cases occasion with
    | onward => exact absurd rfl outer
    | _ => simp only [upcoming?, held, stage, reduceCtorEq] at upcoming

/-- An occasion brings what is there for it. Whatever else is there does not matter, so that a
session may take up any event that is there. -/
theorem upcoming?_brings {peer : PeerId} {occasion : Occasion} {sendings : List Sending}
    {event : Event} (upcoming : n.upcoming? now peer occasion network = some (sendings, event)) :
    ∃ s, n.kernel.session? peer = some s ∧ Brings now peer n network s occasion sendings event := by
  cases held : n.kernel.session? peer with
  | none => simp only [upcoming?, held, reduceCtorEq] at upcoming
  | some s =>
    refine ⟨s, rfl, ?_⟩
    have idle (outer : occasion ≠ .onward) := idle_of_upcoming? held outer upcoming
    have passed {due : Option Nat} (any : due.any (· ≤ now) = true) :
        ∃ time, due = some time ∧ time ≤ now := by
      obtain ⟨time, waiting, before⟩ := (Option.any_eq_true _ _).mp any
      exact ⟨time, waiting, of_decide_eq_true before⟩
    cases occasion with
    | onward =>
      cases stage : s.stage with
      | greeting =>
        simp only [upcoming?, held, stage, Option.some.injEq, Prod.mk.injEq] at upcoming
        obtain ⟨rfl, rfl⟩ := upcoming
        exact .proceed (.inl stage)
      | reading =>
        simp only [upcoming?, held, stage, Option.some.injEq, Prod.mk.injEq] at upcoming
        obtain ⟨rfl, rfl⟩ := upcoming
        exact .proceed (.inr stage)
      | handling replyTo =>
        cases found : n.works.find? fun work => work.peer = peer with
        | none => simp only [upcoming?, held, stage, found, reduceCtorEq] at upcoming
        | some work =>
          simp only [upcoming?, held, stage, found, Option.ite_none_right_eq_some,
            Option.some.injEq, Prod.mk.injEq] at upcoming
          obtain ⟨due, rfl, rfl⟩ := upcoming
          have named : work.peer = peer := by simpa using List.find?_some found
          exact .replied work (List.mem_of_find?_eq_some found) named due
      | idle => simp only [upcoming?, held, stage, reduceCtorEq] at upcoming
      | ended => simp only [upcoming?, held, stage, reduceCtorEq] at upcoming
    | dialed =>
      simp only [upcoming?, held, idle (by decide), Option.map_eq_some_iff,
        Prod.mk.injEq] at upcoming
      obtain ⟨outcome, there, rfl, rfl⟩ := upcoming
      obtain ⟨d, found, ended⟩ := Option.bind_eq_some_iff.mp there
      have named : d.peer = peer := by simpa using List.find?_some found
      exact .dialed d outcome (List.mem_of_find?_eq_some found) named ended
    | command =>
      simp only [upcoming?, held, idle (by decide), Option.ite_none_left_eq_some,
        Option.some.injEq, Prod.mk.injEq] at upcoming
      obtain ⟨left, rfl, rfl⟩ := upcoming
      exact .command (by simpa using left)
    | wake =>
      simp only [upcoming?, held, idle (by decide), Option.ite_none_right_eq_some,
        Option.some.injEq, Prod.mk.injEq] at upcoming
      obtain ⟨woken, rfl, rfl⟩ := upcoming
      exact .wake woken
    | backoff =>
      simp only [upcoming?, held, idle (by decide), Option.ite_none_right_eq_some,
        Option.some.injEq, Prod.mk.injEq] at upcoming
      obtain ⟨any, rfl, rfl⟩ := upcoming
      obtain ⟨time, waiting, before⟩ := passed any
      exact .backoff time waiting before
    | ack =>
      simp only [upcoming?, held, idle (by decide), Option.ite_none_right_eq_some,
        Option.some.injEq, Prod.mk.injEq] at upcoming
      obtain ⟨any, rfl, rfl⟩ := upcoming
      obtain ⟨time, waiting, before⟩ := passed any
      exact .ack time waiting before
    | reading =>
      simp only [upcoming?, held, idle (by decide)] at upcoming
      obtain ⟨link, linked, read⟩ := Option.bind_eq_some_iff.mp upcoming
      split at read
      · next bytes _ seen =>
        cases read
        exact .received link linked bytes (by rw [seen])
      · next seen =>
        cases read
        exact .ended link linked (by rw [seen])
      · cases read
    | failure =>
      simp only [upcoming?, held, idle (by decide), Option.ite_none_right_eq_some,
        Option.some.injEq, Prod.mk.injEq] at upcoming
      obtain ⟨any, rfl, rfl⟩ := upcoming
      obtain ⟨link, linked, failed⟩ := (Option.any_eq_true _ _).mp any
      exact .failed link linked failed

/-- Letters go ahead of a reply only: they are those that the application answers a message with. -/
theorem upcoming?_replies {peer : PeerId} {occasion : Occasion} {sendings : List Sending}
    {event : Event} (upcoming : n.upcoming? now peer occasion network = some (sendings, event)) :
    sendings = [] ∨ ∃ reply, event = .replied reply := by
  obtain ⟨s, _, brings⟩ := upcoming?_brings upcoming
  cases brings with
  | replied => exact .inr ⟨_, rfl⟩
  | _ => exact .inl rfl

/-- What goes ahead of an event the application was asked for. -/
theorem upcoming?_asks {peer : PeerId} {occasion : Occasion} {sendings : List Sending}
    {event : Event} (upcoming : n.upcoming? now peer occasion network = some (sendings, event)) :
    ∀ sending ∈ sendings, n.Asks peer sending := by
  obtain ⟨s, _, brings⟩ := upcoming?_brings upcoming
  cases brings with
  | replied work listed named =>
    exact fun sending asked => .inr (.inr ⟨work, listed, named, asked⟩)
  | _ => exact nofun

/-- The outcome of an attempt to connect is taken up from the attempt. -/
theorem upcoming?_dialed {peer : PeerId} {occasion : Occasion} {sendings : List Sending}
    {outcome : Except LinkError Greeted}
    (upcoming : n.upcoming? now peer occasion network = some (sendings, .dialed outcome)) :
    ∃ d ∈ n.dialings, d.peer = peer ∧ d.outcome = some outcome := by
  obtain ⟨s, _, brings⟩ := upcoming?_brings upcoming
  cases brings with
  | dialed d _ listed named ended => exact ⟨d, listed, named, ended⟩

/-- What the application asks for when a session takes up an event it asks for about this peer. -/
theorem callbacks_asks (peer : PeerId) (n : Node) (sendings : List Sending) (event : Event) :
    ∀ sending ∈ (n.ready now peer sendings event).callbacks now peer event,
      n.Asks peer sending := by
  intro sending listed
  obtain ⟨news, _, ready⟩ := ready_eq now peer n sendings event
  have application : (n.ready now peer sendings event).application = n.application := by
    rw [ready, cleared_eq]
  obtain ⟨effect, _, asked⟩ := List.mem_flatMap.mp listed
  rw [application] at asked
  cases effect with
  | tell upcall =>
    cases upcall with
    | settled promise result => exact .inl ⟨promise, asked⟩
    | gaveUp => exact .inr (.inl asked)
    | message | restarted => cases asked
  | _ => cases asked

/-- A step is for the kernel what it is for the peer that the step is about, and what the
application asks for when it is called back. There is one case for each activity. -/
theorem deeds_about (now : Nat) (n : Node) (network : Network) (activity : Activity) :
    ∀ deed ∈ n.deeds now network activity, ∃ peer, n.about? activity = some peer ∧
      (deed.IsOwn peer ∨ ∃ sending, deed = sending.deed now ∧ n.Asks peer sending) := by
  intro deed listed
  cases activity with
  | accept | dialing => cases listed
  | welcome endpoint =>
    cases found : n.arrival? endpoint with
    | none => simp [deeds, found] at listed
    | some a =>
      simp only [deeds, found, Option.map_some, Option.getD_some] at listed
      have about : n.about? (.welcome endpoint) = a.welcome.hello?.map (·.peer) := by
        simp [about?, found]
      rw [about]
      rcases Welcome.mem_deeds listed with ⟨hello, rfl, met⟩ | ⟨hello, _, _, _, rfl, welcome⟩
      · exact ⟨hello.peer, by simp [met], .inl rfl⟩
      · exact ⟨hello.peer, by simp [welcome, Welcome.hello?], .inl rfl⟩
  | session peer occasion =>
    refine ⟨peer, rfl, ?_⟩
    simp only [deeds] at listed
    split at listed
    · cases listed
    · next sendings event upcoming =>
      rcases List.mem_append.mp listed with before | here
      · obtain ⟨sending, asked, rfl⟩ := List.mem_map.mp before
        exact .inr ⟨sending, rfl, upcoming?_asks upcoming sending asked⟩
      · rcases List.mem_cons.mp here with rfl | behind
        · exact .inl rfl
        · obtain ⟨sending, asked, rfl⟩ := List.mem_map.mp behind
          exact .inr ⟨sending, rfl, callbacks_asks peer n sendings event sending asked⟩
  | writer endpoint =>
    cases found : n.writers.find? fun w => w.endpoint = endpoint with
    | none => simp [deeds, found] at listed
    | some w =>
      simp only [deeds, found, Option.map_some, Option.getD_some, Writer.deeds] at listed
      refine ⟨w.peer, ?_, ?_⟩
      · simp [about?, found]
      · split at listed
        · cases listed
        · split at listed
          · rw [List.mem_singleton.mp listed]
            exact .inl rfl
          · cases listed

/-- To put an attempt in its place changes none of the attempts to connect to other peers. -/
theorem setDialing_others (n : Node) (d : Dialing) :
    (n.setDialing d).dialings.filter (·.peer ≠ d.peer) = n.dialings.filter (·.peer ≠ d.peer) := by
  have replaced (dialings : List Dialing) :
      (dialings.map fun other => if other.peer = d.peer then d else other).filter
        (·.peer ≠ d.peer) = dialings.filter (·.peer ≠ d.peer) := by
    induction dialings with
    | nil => rfl
    | cons other rest inductionHypothesis =>
      rw [List.map_cons, List.filter_cons, List.filter_cons, inductionHypothesis]
      by_cases same : other.peer = d.peer <;> simp [same]
  exact replaced n.dialings

/-- What is cleared away for an event is about the peer of the event. -/
theorem cleared_apart (peer other : PeerId) (apart : other ≠ peer) (n : Node) (event : Event) :
    (n.cleared peer event).works.filter (·.peer = other) = n.works.filter (·.peer = other) ∧
      (n.cleared peer event).dialings.filter (·.peer ≠ peer) =
        n.dialings.filter (·.peer ≠ peer) := by
  cases event with
  | replied reply =>
    refine ⟨?_, rfl⟩
    simp only [cleared, List.filter_filter]
    apply List.filter_congr
    intro work _
    by_cases named : work.peer = other <;> simp [named, apart]
  | dialed outcome => exact ⟨rfl, by simp [cleared]⟩
  | _ => exact ⟨rfl, rfl⟩

/-- A step leaves alone what is under way with a peer that it is not about. There is one case for
each activity. It changes what is under way by a filter for its own peer, which leaves the others in
place. -/
theorem step?_apart {activity : Activity}
    (stepped : n.step? now network activity = some (after, rest)) (other : PeerId)
    (apart : n.about? activity ≠ some other) :
    after.dialings.filter (·.peer = other) = n.dialings.filter (·.peer = other) ∧
      after.works.filter (·.peer = other) = n.works.filter (·.peer = other) := by
  have others (peer : PeerId) (different : other ≠ peer) (dialings : List Dialing) :
      dialings.filter (·.peer = other) =
        (dialings.filter (·.peer ≠ peer)).filter (·.peer = other) := by
    rw [List.filter_filter]
    apply List.filter_congr
    intro d _
    by_cases named : d.peer = other <;> simp [named, different]
  cases activity with
  | accept listener =>
    obtain ⟨_, _, same⟩ := Option.map_eq_some_iff.mp stepped
    cases same
    exact ⟨rfl, rfl⟩
  | welcome endpoint =>
    obtain ⟨_, _, greets⟩ := welcome?_greets stepped
    rw [greets.same]
    exact ⟨rfl, rfl⟩
  | dialing peer =>
    simp only [step?] at stepped
    obtain ⟨d, found, later, same, named, _⟩ := dialing?_moves stepped
    have different : other ≠ peer := fun h => apart (by rw [h]; rfl)
    have there : d.peer = peer := by simpa using List.find?_some found
    rw [same]
    refine ⟨?_, rfl⟩
    have kept : (n.setDialing later).dialings.filter (·.peer ≠ peer) =
        n.dialings.filter (·.peer ≠ peer) := by
      rw [← there, ← named]
      exact setDialing_others n later
    rw [others peer different, kept, ← others peer different]
  | session peer occasion =>
    obtain ⟨sendings, event, upcoming, performed⟩ := session?_turns stepped
    obtain ⟨news, _, ready⟩ := ready_eq now peer n sendings event
    have different : other ≠ peer := fun h => apart (by rw [h]; rfl)
    obtain ⟨works, dialings⟩ := cleared_apart peer other different n event
    constructor
    · rw [others peer different, performed.dialings, ready, dialings, ← others peer different]
    · obtain ⟨more, same, about⟩ := performed.works
      have unrelated : more.filter (·.peer = other) = [] := by
        apply List.filter_eq_nil_iff.mpr
        intro work listed
        rw [(about work listed).1]
        simpa using different.symm
      rw [same, List.filter_append, unrelated, List.append_nil, ready]
      exact works
  | writer endpoint =>
    obtain ⟨_, _, _, same, _⟩ := writer?_writes stepped
    rw [same]
    exact ⟨rfl, rfl⟩

/-- A promise that is settled in a step is settled by a turn of the peer that the step is about. -/
theorem step?_reports {activity : Activity}
    (stepped : n.step? now network activity = some (after, rest)) : ∃ news,
      after.reports = n.reports ++ List.toArray news ∧
        ∀ promise result, .settled promise result ∈ news → ∃ peer sendings event,
          n.about? activity = some peer ∧ (sendings = [] ∨ ∃ reply, event = .replied reply) ∧
            .tell (.settled promise result) ∈
              ((n.kernel.live (sendings.map (Sending.deed now))).turn peer now event).2 := by
  cases activity with
  | accept listener =>
    obtain ⟨_, _, same⟩ := Option.map_eq_some_iff.mp stepped
    cases same
    exact ⟨[], by simp, nofun⟩
  | welcome endpoint =>
    obtain ⟨_, _, greets⟩ := welcome?_greets stepped
    exact ⟨[], by rw [greets.same]; simp, nofun⟩
  | dialing peer =>
    simp only [step?] at stepped
    obtain ⟨_, _, _, same, _⟩ := dialing?_moves stepped
    exact ⟨[], by rw [same]; simp [setDialing], nofun⟩
  | session peer occasion =>
    obtain ⟨sendings, event, upcoming, performed⟩ := session?_turns stepped
    obtain ⟨first, unsettled, ready⟩ := ready_eq now peer n sendings event
    obtain ⟨news, same, settled⟩ := performed.reports
    refine ⟨first ++ news, ?_, fun promise result listed => ?_⟩
    · rw [same, ready]
      simp
    · rcases List.mem_append.mp listed with early | late
      · exact absurd early (unsettled promise result)
      · have told := settled promise result late
        rw [ready] at told
        exact ⟨peer, sendings, event, rfl, upcoming?_replies upcoming, told⟩
  | writer endpoint =>
    obtain ⟨_, _, _, same, _⟩ := writer?_writes stepped
    exact ⟨[], by rw [same]; simp [setWriter], nofun⟩

/-- What the application makes of a message is what it is asked for when the message comes. -/
theorem step?_works {activity : Activity}
    (stepped : n.step? now network activity = some (after, rest)) :
    ∀ work ∈ after.works, work ∈ n.works ∨
      ∃ payload, work.reaction = n.application.onMessage work.peer payload := by
  cases activity with
  | accept listener =>
    obtain ⟨_, _, same⟩ := Option.map_eq_some_iff.mp stepped
    cases same
    exact fun _ => .inl
  | welcome endpoint =>
    obtain ⟨_, _, greets⟩ := welcome?_greets stepped
    rw [greets.same]
    exact fun _ => .inl
  | dialing peer =>
    simp only [step?] at stepped
    obtain ⟨_, _, _, same, _⟩ := dialing?_moves stepped
    rw [same]
    exact fun _ => .inl
  | session peer occasion =>
    obtain ⟨sendings, event, upcoming, performed⟩ := session?_turns stepped
    obtain ⟨_, _, ready⟩ := ready_eq now peer n sendings event
    obtain ⟨more, same, about⟩ := performed.works
    intro work listed
    rw [same] at listed
    rcases List.mem_append.mp listed with old | new
    · rw [ready] at old
      left
      cases event with
      | replied => exact (List.mem_filter.mp old).1
      | _ => exact old
    · obtain ⟨named, payload, made⟩ := about work new
      rw [ready, cleared_eq] at made
      exact .inr ⟨payload, named ▸ made⟩
  | writer endpoint =>
    obtain ⟨_, _, _, same, _⟩ := writer?_writes stepped
    rw [same]
    exact fun _ => .inl

end Steps

end Node

end Courier
