import Courier.Proofs.Closing

/-!
# Location hints in the order of their last registration

The hints for a peer come in with two calls of the application, in batches that may overlap,
repeat, and hold texts that are no addresses. Whatever else happens meanwhile, the hints that
are kept are the distinct addresses of all batches so far, the one that was registered last in
front. An attempt to connect tries them in this order, and behind them the peer at each relay,
without trying an address twice.
-/

namespace Courier

/-- The first of equal things is kept, so that some may be left out before or afterwards: all
that are equal go together. -/
theorem eraseDups_filter {α : Type} [DecidableEq α] (p : α → Bool) :
    (texts : List α) → (texts.filter p).eraseDups = texts.eraseDups.filter p
  | [] => rfl
  | text :: rest => by
    have shorter : (rest.filter fun other => !other == text).length < rest.length + 1 :=
      Nat.lt_succ_of_le (List.length_filter_le _ rest)
    rw [List.eraseDups_cons]
    by_cases kept : p text = true
    · rw [List.filter_cons_of_pos kept, List.eraseDups_cons, List.filter_cons_of_pos kept,
        ← eraseDups_filter p (rest.filter fun other => !other == text)]
      simp only [List.filter_filter, Bool.and_comm]
    · have already : (rest.filter fun other => !other == text).filter p = rest.filter p := by
        rw [List.filter_filter]
        refine List.filter_congr fun other _ => ?_
        by_cases same : other = text
        · simp [same, kept]
        · simp [same]
      rw [List.filter_cons_of_neg kept, List.filter_cons_of_neg kept,
        ← eraseDups_filter p (rest.filter fun other => !other == text), already]
termination_by texts => texts.length

/-- With its repetitions erased, a list has each text once. -/
theorem eraseDups_nodup {α : Type} [DecidableEq α] : (texts : List α) → texts.eraseDups.Nodup
  | [] => .nil
  | text :: rest => by
    have shorter : (rest.filter fun other => !other == text).length < rest.length + 1 :=
      Nat.lt_succ_of_le (List.length_filter_le _ rest)
    rw [List.eraseDups_cons]
    refine List.nodup_cons.mpr ⟨?_, eraseDups_nodup _⟩
    simp [List.mem_eraseDups]
termination_by texts => texts.length

/-- Things that are told apart by a part of them repeat exactly where the part does. -/
theorem eraseDups_map {α β : Type} [DecidableEq α] [DecidableEq β] (part : α → β)
    (telling : Function.Injective part) :
    (things : List α) → (things.map part).eraseDups = things.eraseDups.map part
  | [] => rfl
  | thing :: rest => by
    have shorter : (rest.filter fun other => !other == thing).length < rest.length + 1 :=
      Nat.lt_succ_of_le (List.length_filter_le _ rest)
    have apart : (rest.map part).filter (fun other => !other == part thing) =
        (rest.filter fun other => !other == thing).map part := by
      rw [List.filter_map]
      refine congrArg _ (List.filter_congr fun other _ => ?_)
      simp [telling.eq_iff]
    rw [List.map_cons, List.eraseDups_cons, List.eraseDups_cons, List.map_cons, apart,
      eraseDups_map part telling]
termination_by things => things.length

/-- The distinct texts of a history, the one that came last in front. -/
def latestFirst (history : List String) : List String := history.reverse.eraseDups

/-- A text that comes once more is moved to the front. -/
theorem latestFirst_append_one (history : List String) (text : String) :
    latestFirst (history ++ [text]) = text :: (latestFirst history).filter (· ≠ text) := by
  have others : (fun other => !other == text) = fun other => decide (other ≠ text) := by
    funext other
    by_cases same : other = text <;> simp [same]
  rw [latestFirst, List.reverse_append, List.reverse_singleton, List.singleton_append,
    List.eraseDups_cons, eraseDups_filter, others, latestFirst]

/-- A history put in order has the texts of the history. -/
theorem mem_latestFirst (history : List String) (text : String) :
    text ∈ latestFirst history ↔ text ∈ history := by
  rw [latestFirst, List.mem_eraseDups, List.mem_reverse]

/-- A history put in order has each text once. -/
theorem latestFirst_nodup (history : List String) : (latestFirst history).Nodup :=
  eraseDups_nodup _

namespace Address

/-- Whether a text is an address, so that it can be a location hint. -/
def recognizes (text : String) : Bool := (parse text).isSome

/-- An address is its text. -/
theorem text_injective : Function.Injective Address.text := by
  intro first second same
  have parsed := congrArg parse same
  rw [parse_text, parse_text] at parsed
  exact Option.some.inj parsed

/-- The addresses among some texts are those that are recognized. -/
theorem texts_parsed (texts : List String) :
    (texts.filterMap parse).map (·.text) = texts.filter recognizes := by
  induction texts with
  | nil => rfl
  | cons text rest inductionHypothesis =>
    cases parsed : parse text with
    | none =>
      have refused : recognizes text = false := by simp [recognizes, parsed]
      simp [parsed, refused, inductionHypothesis]
    | some a =>
      have spelled : a.text = text := by
        unfold parse at parsed
        split at parsed
        · cases parsed
          rfl
        · cases parsed
      have taken : recognizes text = true := by simp [recognizes, parsed]
      simp [parsed, taken, spelled, inductionHypothesis]

end Address

namespace Ledger

/-- A circuit through a relay is an address, whatever text names the relay. -/
theorem circuit_recognized (relay : String) (peer : PeerId) :
    Address.recognizes (circuit relay peer) = true := by
  have within : "/p2p-circuit".toList <:+: (circuit relay peer).toList := by
    refine ⟨relay.toList, "/p2p/".toList ++ peer.text.toList, ?_⟩
    simp [circuit]
  have relayed : Transport.classify (circuit relay peer) = some .relay := by
    unfold Transport.classify
    rw [if_pos ((Text.occurs_iff _ _).mpr within)]
  rw [Address.recognizes, Address.parse_isSome, relayed]
  rfl

/-- Keeping the first of equal addresses, one after another, is what it says. -/
theorem distinct_eq (addresses : List Address) : distinct addresses = addresses.eraseDups := by
  have onto (kept : List Address) :
      addresses.foldl (fun kept a => if a ∈ kept then kept else kept ++ [a]) kept =
        kept ++ (addresses.filter fun a => a ∉ kept).eraseDups := by
    induction addresses generalizing kept with
    | nil => simp
    | cons a rest inductionHypothesis =>
      rw [List.foldl_cons]
      by_cases held : a ∈ kept
      · rw [if_pos held, inductionHypothesis kept, List.filter_cons_of_neg (by simpa using held)]
      · have further : (rest.filter fun other => other ∉ kept ++ [a]) =
            (rest.filter fun other => other ∉ kept).filter fun other => !other == a := by
          rw [List.filter_filter]
          refine List.filter_congr fun other _ => ?_
          by_cases same : other = a <;> simp [same]
        rw [if_neg held, inductionHypothesis (kept ++ [a]), further,
          List.filter_cons_of_pos (by simpa using held), List.eraseDups_cons, List.append_assoc]
        rfl
  rw [distinct, onto [], List.nil_append, List.filter_eq_self.mpr (by simp)]

/-- What an attempt to connect tries, as texts: the hints, and behind them the circuits through
the relays, each text only where it comes first. -/
theorem candidates_texts (l : Ledger) (recognized : ∀ hint ∈ l.hints, Address.recognizes hint)
    (relays : List String) : (l.candidates relays).map (·.text) =
      (l.hints ++ relays.map fun relay => circuit relay l.peer).eraseDups := by
  have whole : (l.hints ++ relays.map fun relay => circuit relay l.peer).filter
      Address.recognizes = l.hints ++ relays.map fun relay => circuit relay l.peer := by
    refine List.filter_eq_self.mpr fun text listed => ?_
    rcases List.mem_append.mp listed with hint | behind
    · exact recognized text hint
    · obtain ⟨relay, _, rfl⟩ := List.mem_map.mp behind
      exact circuit_recognized relay l.peer
  rw [candidates, distinct_eq, ← eraseDups_map _ Address.text_injective, Address.texts_parsed,
    whole]

/-- A hint that is an address goes to the front, and is nowhere else. -/
theorem addHint_recognized (taken : Nat × Ledger) (hint : String)
    (recognized : Address.recognizes hint = true) : addHint taken hint =
      (taken.1 + 1, { taken.2 with hints := hint :: taken.2.hints.filter (· ≠ hint) }) :=
  if_pos recognized

/-- A hint that is no address is not taken. -/
theorem addHint_refused (taken : Nat × Ledger) (hint : String)
    (refused : ¬ Address.recognizes hint = true) : addHint taken hint = taken := if_neg refused

/-- Each batch counts its recognized hints, repetitions included, and goes on with the order
that the batches before it left. -/
theorem addHints_latest (l : Ledger) (history hints : List String)
    (known : l.hints = latestFirst history) :
    (l.addHints hints).1 = (hints.filter Address.recognizes).length ∧
      (l.addHints hints).2.hints = latestFirst (history ++ hints.filter Address.recognizes) := by
  have onto (taken : Nat × Ledger) (history : List String)
      (known : taken.2.hints = latestFirst history) :
      (hints.foldl addHint taken).1 = taken.1 + (hints.filter Address.recognizes).length ∧
        (hints.foldl addHint taken).2.hints =
          latestFirst (history ++ hints.filter Address.recognizes) := by
    induction hints generalizing taken history with
    | nil => exact ⟨rfl, by simpa using known⟩
    | cons hint rest inductionHypothesis =>
      rw [List.foldl_cons]
      by_cases recognized : Address.recognizes hint = true
      · have moved : (addHint taken hint).2.hints = latestFirst (history ++ [hint]) := by
          rw [latestFirst_append_one, ← known, addHint_recognized taken hint recognized]
        obtain ⟨count, order⟩ := inductionHypothesis (addHint taken hint) (history ++ [hint]) moved
        rw [List.filter_cons_of_pos recognized, count, order,
          addHint_recognized taken hint recognized, List.length_cons]
        refine ⟨?_, by simp⟩
        dsimp only
        omega
      · rw [addHint_refused taken hint recognized, List.filter_cons_of_neg recognized]
        exact inductionHypothesis taken history known
  obtain ⟨count, order⟩ := onto (0, l) history known
  exact ⟨count.trans (Nat.zero_add _), order⟩

/-- Heeding an acknowledgement leaves the hints as they are. -/
theorem heeding_hints (l : Ledger) (e : Envelope) : (l.heeding e).hints = l.hints := by
  obtain ⟨_, _, same⟩ := l.heeding_eq e
  rw [same]

/-- A connection that is made leaves the hints as they are. -/
theorem onConnected_hints (l : Ledger) (own : Incarnation) (hello : Hello) (now : Duration) :
    (l.onConnected own hello now).hints = l.hints := by
  obtain ⟨_, _, _, _, same⟩ := l.onConnected_eq own hello now
  rw [same]

end Ledger

/-- Losing the connection leaves the hints as they are. -/
theorem Session.bereft_hints (due : Nat) (s : Session) :
    (s.bereft due).ledger.hints = s.ledger.hints := by
  obtain ⟨_, _, same⟩ := s.bereft_eq due
  rw [same]
  rfl

/-- A flush leaves the hints as they are. -/
theorem Flushed.hints {s after : Session} {effects : List Effect}
    (flushed : Flushed s after effects) : after.ledger.hints = s.ledger.hints := by
  cases flushed <;> rfl

/-- Taking in an envelope leaves the hints as they are. -/
theorem Took.hints {e : Envelope} {s after : Session} {effects : List Effect}
    (took : Took e s after effects) : after.ledger.hints = s.ledger.hints := by
  have heeded := s.ledger.heeding_hints e
  cases took <;> exact heeded

/-- Adopting a connection leaves the hints as they are. -/
theorem Adopted.hints {host : Host} {now : Nat} {greeted : Greeted} {s after : Session}
    {effects : List Effect} (adopted : Adopted host now greeted s after effects) :
    after.ledger.hints = s.ledger.hints := by
  cases adopted with
  | refused => rfl
  | joined => exact Ledger.onConnected_hints _ _ _ _

/-- No turn changes the hints. -/
theorem Turned.hints {host : Host} {now : Nat} {event : Event} {s after : Session}
    {effects : List Effect} (turned : Turned host now s event after effects) :
    after.ledger.hints = s.ledger.hints := by
  cases turned with
  | attach greeted rest after effects idle next adopted => exact adopted.hints
  | dialed greeted after effects idle dialing adopted => exact adopted.hints
  | wakeFlush after effects idle woken phase flushed => exact flushed.hints
  | greeted after effects stage flushed => exact flushed.hints
  | replied replyTo payload ledger after effects stage queued flushed =>
    obtain ⟨_, _, _, _, _, rfl⟩ := s.ledger.enqueueReply_eq ledger replyTo payload _ queued
    exact flushed.hints
  | lost link due => exact s.bereft_hints due
  | readBroken link error due => exact s.bereft_hints due
  | read link e rest after effects stage held complete took => exact took.hints
  | _ => rfl

/-- The location hints that an occurrence brings. -/
def Occurrence.hints : Occurrence → List String
  | .addHints hints | .reconnect hints => hints
  | _ => []

namespace Session

/-- Leaving a command leaves the hints as they are. -/
theorem push_hints (s : Session) (command : Command) :
    (s.push command).ledger.hints = s.ledger.hints := by
  obtain ⟨commands, same, _⟩ := s.push_eq command
  rw [same]

/-- A session takes in the hints that an occurrence brings, and keeps their order otherwise. Only
the two calls that bring hints touch them. -/
theorem undergo_hints (host : Host) (s : Session) (occurrence : Occurrence)
    (history : List String) (known : s.ledger.hints = latestFirst history) :
    (s.undergo host occurrence).ledger.hints =
      latestFirst (history ++ occurrence.hints.filter Address.recognizes) := by
  have taken (hints : List String) := (s.ledger.addHints_latest history hints known).2
  have untouched (same : (s.undergo host occurrence).ledger.hints = s.ledger.hints)
      (nothing : occurrence.hints = []) : (s.undergo host occurrence).ledger.hints =
        latestFirst (history ++ occurrence.hints.filter Address.recognizes) := by
    rw [same, nothing, List.filter_nil, List.append_nil, known]
  cases occurrence with
  | post letter now =>
    refine untouched ?_ rfl
    rcases s.undergo_post host letter now with same | ⟨queued, _, accepted, same⟩
    · rw [same]
    · obtain ⟨_, _, _, _, _, rfl⟩ := s.ledger.enqueueLetter_eq queued letter now accepted
      rw [same]
  | addHints hints => exact taken hints
  | reconnect hints =>
    have merged : (s.reconnect hints).ledger.hints = (s.ledger.addHints hints).2.hints := by
      simp only [reconnect, push_hints, Ledger.moveIfAllowed, Ledger.move?, Phase.move_connecting,
        Option.map_some, Option.getD_some]
    exact merged.trans (taken hints)
  | close =>
    refine untouched ?_ rfl
    rw [undergo, close_eq, push_hints]
  | resetBackoff => exact untouched (push_hints _ _) rfl
  | attach greeted => exact untouched (push_hints _ _) rfl
  | shutdown => exact untouched (push_hints _ _) rfl
  | wrote bytes => exact untouched rfl rfl
  | turn now random event =>
    obtain ⟨_, turned⟩ := s.undergo_turn host now random event
    exact untouched turned.hints rfl
  | abort random =>
    refine untouched ?_ rfl
    rw [undergo_abort]
    rfl

end Session

/-- Whether a deed passes location hints for a peer, if only an empty batch. -/
def Deed.Advises (deed : Deed) (peer : PeerId) : Prop :=
  ∃ hints, deed = .addHints peer hints ∨ deed = .reconnect peer hints

/-- The location hints for a peer that a deed passes. -/
def Deed.hints (peer : PeerId) : Deed → List String
  | .addHints p hints | .reconnect p hints => if p = peer then hints else []
  | _ => []

/-- A deed that passes hints is one that advises. -/
theorem Deed.advises_of_hints (deed : Deed) (peer : PeerId) (passed : deed.hints peer ≠ []) :
    deed.Advises peer := by
  cases deed with
  | addHints p hints =>
    obtain rfl : p = peer := by
      by_contra other
      exact passed (if_neg other)
    exact ⟨hints, .inl rfl⟩
  | reconnect p hints =>
    obtain rfl : p = peer := by
      by_contra other
      exact passed (if_neg other)
    exact ⟨hints, .inr rfl⟩
  | _ => exact absurd rfl passed

namespace Kernel

/-- A peer that hints are passed for is known from then on. -/
theorem undergo_advised (k : Kernel) (service : Service) (active : k.service? = some service)
    (deed : Deed) (peer : PeerId) (advises : deed.Advises peer) :
    ((k.undergo deed).session? peer).isSome := by
  have called {α : Type} (act : Session → Except CommsError α × Session) :
      ((k.withSession peer act).2.session? peer).isSome := by
    rw [(k.session?_withSession service active peer peer act).2.2, if_pos rfl]
    rfl
  obtain ⟨hints, rfl | rfl⟩ := advises
  · exact called _
  · exact called _

/-- What a deed brings for the session of a peer are the hints that it passes for that peer. -/
theorem occurrences_hints (k : Kernel) (service : Service) (active : k.service? = some service)
    (peer : PeerId) (deed : Deed) :
    (k.occurrences peer deed).flatMap Occurrence.hints = deed.hints peer := by
  cases deed with
  | addHints p hints =>
    by_cases same : p = peer <;> simp [occurrences, Deed.hints, Occurrence.hints, active, same]
  | reconnect p hints =>
    by_cases same : p = peer <;> simp [occurrences, Deed.hints, Occurrence.hints, active, same]
  | start | beginStop | finishStop | meet => rfl
  | _ =>
    simp only [occurrences, Deed.hints]
    split <;> rfl

/-- An active kernel that keeps the hints for a peer in the order of a history. -/
structure Advised (k : Kernel) (service : Service) (peer : PeerId) (history : List String) :
    Prop where
  active : k.service? = some service
  order : (k.session service.host peer).ledger.hints = latestFirst history

/-- A deed puts the hints that it passes for a peer in front, and leaves them as they are otherwise,
unless the kernel stops. -/
theorem Advised.undergo {k : Kernel} {service : Service} {peer : PeerId} {history : List String}
    (advised : k.Advised service peer history) (deed : Deed) (lasting : deed.isStop = false) :
    (k.undergo deed).Advised service peer
      (history ++ (deed.hints peer).filter Address.recognizes) := by
  have keeps := k.undergo_keeps_active service advised.active deed lasting
  have running := k.host?_of_service? service advised.active
  have brought := k.occurrences_hints service advised.active peer deed
  refine ⟨(host?_of_status keeps.status).2.trans advised.active, ?_⟩
  cases left : (k.undergo deed).session? peer with
  | none =>
    have unknown : k.session? peer = none := by
      by_contra known
      have still := keeps.sessions peer (Option.isSome_iff_ne_none.mpr known)
      simp [left] at still
    have silent : deed.hints peer = [] := by
      by_contra passed
      have known := k.undergo_advised service advised.active deed peer
        (deed.advises_of_hints peer passed)
      simp [left] at known
    have order := advised.order
    rw [session, unknown] at order
    rw [session, left, silent, List.filter_nil, List.append_nil]
    exact order
  | some after =>
    have gone := k.session_undergo service.host running peer deed after left
    rw [session, left, Option.getD_some, gone]
    rcases k.occurrences_cases peer deed with nothing | ⟨occurrence, one, _⟩
    · rw [nothing] at brought ⊢
      rw [← brought, List.flatMap_nil, List.filter_nil, List.append_nil]
      exact advised.order
    · rw [one] at brought ⊢
      rw [← brought, List.flatMap_singleton]
      exact Session.undergo_hints service.host _ occurrence history advised.order

/-- A kernel that just started has no hints. -/
theorem started_advised (service : Service) (random : Random.Stream) (peer : PeerId) :
    (started service random).Advised service peer [] := ⟨rfl, rfl⟩

/-- All through a life, the hints for a peer are in the order of their last registration, and the
peer has a session as soon as hints were passed for it, if only none. -/
theorem live_advised (service : Service) (random : Random.Stream) (peer : PeerId)
    (life : List Deed) (lasting : ∀ deed ∈ life, deed.isStop = false) :
    ((started service random).live life).Advised service peer
        ((life.flatMap (Deed.hints peer)).filter Address.recognizes) ∧
      ((∃ deed ∈ life, deed.Advises peer) →
        (((started service random).live life).session? peer).isSome) := by
  induction life using List.reverseRecOn with
  | nil => exact ⟨started_advised service random peer, by simp⟩
  | append_singleton past deed inductionHypothesis =>
    obtain ⟨advised, known⟩ := inductionHypothesis fun early listed =>
      lasting early (List.mem_append_left _ listed)
    have last := lasting deed (List.mem_append_right _ List.mem_cons_self)
    have step : (started service random).live (past ++ [deed]) =
        ((started service random).live past).undergo deed := List.foldl_append
    rw [step]
    refine ⟨?_, ?_⟩
    · rw [List.flatMap_append, List.flatMap_singleton, List.filter_append]
      exact advised.undergo deed last
    · rintro ⟨advising, listed, advises⟩
      rcases List.mem_append.mp listed with early | now
      · have keeps := undergo_keeps_active _ service advised.active deed last
        exact keeps.sessions peer (known ⟨advising, early, advises⟩)
      · rw [List.mem_singleton.mp now] at advises
        exact undergo_advised _ service advised.active deed peer advises

/-- Hints in the order of their last registration. After any life without a stop the hints for a
peer are the distinct recognized ones among all that were passed, the latest first; an attempt to
connect would try them and then the circuits through the relays, each text once; and a call counts
its recognized hints, repetitions included. -/
theorem hints_latest_first (service : Service) (random : Random.Stream) (life : List Deed)
    (lasting : ∀ deed ∈ life, deed.isStop = false) (peer : PeerId) :
    ((∃ deed ∈ life, deed.Advises peer) →
        (((started service random).live life).ledger? peer).isSome) ∧
      (∀ ledger, ((started service random).live life).ledger? peer = some ledger →
        ledger.hints =
            latestFirst ((life.flatMap (Deed.hints peer)).filter Address.recognizes) ∧
          ledger.hints.Nodup ∧
          (∀ relays, (ledger.candidates relays).map (·.text) =
            (ledger.hints ++ relays.map fun relay => Ledger.circuit relay peer).eraseDups) ∧
          ∀ hints, (ledger.addHints hints).1 = (hints.filter Address.recognizes).length) ∧
      ∀ hints, (((started service random).live life).addHints peer hints).1 =
        .ok (hints.filter Address.recognizes).length := by
  obtain ⟨⟨active, order⟩, known⟩ := live_advised service random peer life lasting
  have stems := live_stems service random life
  generalize (started service random).live life = k at *
  have running := k.host?_of_service? service active
  refine ⟨?_, ?_, fun hints => ?_⟩
  · intro advised
    rw [ledger?, active, Option.isSome_map]
    exact known advised
  · intro ledger found
    obtain ⟨s, held, rfl⟩ : ∃ s, k.session? peer = some s ∧ s.ledger = ledger := by
      rw [ledger?, active] at found
      exact Option.map_eq_some_iff.mp found
    have about := k.session?_peer stems service.host running peer s held
    rw [session, held, Option.getD_some] at order
    have recognized : ∀ hint ∈ s.ledger.hints, Address.recognizes hint := by
      intro hint listed
      rw [order, mem_latestFirst] at listed
      exact (List.mem_filter.mp listed).2
    refine ⟨order, ?_, fun relays => ?_, fun hints => ?_⟩
    · rw [order]
      exact latestFirst_nodup _
    · rw [s.ledger.candidates_texts recognized relays, about]
    · exact (s.ledger.addHints_latest _ hints order).1
  · have counted := ((k.session service.host peer).ledger.addHints_latest _ hints order).1
    rw [addHints, (k.session?_withSession service active peer peer _).1, ← counted]
    rfl

/-- Three hints of which one is no address and one was registered before, and a relay whose
circuit is a hint as well. -/
theorem hints_of_two_calls :
    ∃ ledger, ((started aliceService quiet).live [
        .addHints bob ["/memory/a", "elsewhere", Ledger.circuit "/memory/r" bob],
        .reconnect bob ["/memory/b", "/memory/a"]]).ledger? bob = some ledger ∧
      ledger.hints = ["/memory/a", "/memory/b", Ledger.circuit "/memory/r" bob] := by
  obtain ⟨known, kept, _⟩ := hints_latest_first aliceService quiet [
    .addHints bob ["/memory/a", "elsewhere", Ledger.circuit "/memory/r" bob],
    .reconnect bob ["/memory/b", "/memory/a"]] (by simp [Deed.isStop]) bob
  obtain ⟨ledger, found⟩ := Option.isSome_iff_exists.mp
    (known ⟨_, List.mem_cons_self, _, .inl rfl⟩)
  refine ⟨ledger, found, (kept ledger found).1.trans ?_⟩
  decide +kernel

end Kernel

end Courier
