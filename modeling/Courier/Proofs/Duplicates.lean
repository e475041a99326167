import Courier.Proofs.Crossing

/-!
# Both ends keep the same connection

Two kernels may open any number of connections to each other before either of them has taken
up all of them, and the two ends may take them up in orders that agree only as far as the
connections of one opener are concerned. Each end holds on to one connection at a time and
decides for each newcomer whether it replaces the one held. In the end both hold the same: the
last connection that the peer with the smaller id opened, or, if it opened none, the last one
that the other peer opened.

A newcomer of the smaller peer always wins, and one of the other peer wins over its own kind
alone. So what is held depends on the last newcomer of each kind and not on how the two kinds
interleave, and the smaller id is the same seen from either end.
-/

namespace Courier

namespace PeerId

/-- The larger of two ids. -/
def larger (id other : PeerId) : PeerId := if id.smaller other = id then other else id

/-- Both ends agree on which of the two ids is the larger. -/
theorem larger_comm (id other : PeerId) (apart : id ≠ other) :
    id.larger other = other.larger id := by
  unfold larger
  rw [smaller_comm other id]
  rcases Session.smaller_cases id other with first | second
  · rw [first, if_pos rfl, if_neg apart]
  · rw [second, if_neg apart.symm, if_pos rfl]

/-- The larger of two different ids is not the smaller. -/
theorem larger_ne_smaller (id other : PeerId) (apart : id ≠ other) :
    id.larger other ≠ id.smaller other := by
  unfold larger
  rcases Session.smaller_cases id other with first | second
  · rw [first, if_pos rfl]
    exact apart.symm
  · rw [second, if_neg apart.symm]
    exact apart

end PeerId

namespace Greeted

/-- The peer that opened a connection, as one of its ends sees it. -/
def opener (host : Host) (peer : PeerId) (greeted : Greeted) : PeerId :=
  (greeted.origin host peer).initiator

/-- The connection that is held once another one arrived. -/
def settle (host : Host) (peer : PeerId) (held : Option Greeted) (incoming : Greeted) :
    Option Greeted :=
  match held with
  | none => some incoming
  | some held =>
    if (incoming.origin host peer).replaces (held.origin host peer) host.id peer then some incoming
    else some held

/-- The connection that is held of those that arrive one after another. -/
def kept (host : Host) (peer : PeerId) (arrivals : List Greeted) : Option Greeted :=
  arrivals.foldl (settle host peer) none

/-- The last arrival settles with what was held before it. -/
theorem kept_append_one {host : Host} {peer : PeerId} (arrivals : List Greeted)
    (incoming : Greeted) :
    kept host peer (arrivals ++ [incoming]) =
      settle host peer (kept host peer arrivals) incoming := by
  unfold kept
  rw [List.foldl_append]
  rfl

/-- Something is held once anything has arrived. -/
theorem kept_isSome (host : Host) (peer : PeerId) (arrivals : List Greeted)
    (some' : arrivals ≠ []) : (kept host peer arrivals).isSome := by
  rw [← List.dropLast_concat_getLast some', kept_append_one]
  unfold settle
  split
  · rfl
  · split <;> rfl

/-- The connections that a peer opened. -/
def openedBy (host : Host) (peer opener : PeerId) (arrivals : List Greeted) : List Greeted :=
  arrivals.filter fun greeted => greeted.opener host peer = opener

variable {host : Host} {peer : PeerId}

/-- A connection was opened by one of the two peers. -/
theorem opener_cases (greeted : Greeted) : greeted.opener host peer = host.id.smaller peer ∨
    greeted.opener host peer = host.id.larger peer := by
  have sides : greeted.opener host peer = host.id ∨ greeted.opener host peer = peer := by
    unfold opener origin
    cases greeted.endpoint.side with
    | dialer => exact .inl rfl
    | acceptor => exact .inr rfl
  unfold PeerId.larger
  rcases Session.smaller_cases host.id peer with first | second
  · rw [first, if_pos rfl]
    exact sides
  · rw [second]
    split
    · next same => exact .inl (sides.elim (fun own => own.trans same.symm) id)
    · exact sides.symm

/-- A connection that the smaller peer opened replaces any other. -/
theorem settle_smaller (held : Option Greeted) (incoming : Greeted)
    (smaller : incoming.opener host peer = host.id.smaller peer) :
    settle host peer held incoming = some incoming := by
  have wins (other : Origin) :
      (incoming.origin host peer).replaces other host.id peer = true := by
    unfold opener at smaller
    simp [Origin.replaces, smaller]
  cases held with
  | none => rfl
  | some held => simp only [settle, wins, if_true]

/-- A connection of the same opener replaces the one held. -/
theorem settle_same (held incoming : Greeted)
    (same : incoming.opener host peer = held.opener host peer) :
    settle host peer (some held) incoming = some incoming := by
  unfold opener at same
  simp [settle, Origin.replaces, same]

/-- A connection of the smaller peer is not replaced by one of the other peer, unless there was
a restart in between. -/
theorem settle_larger (apart : host.id ≠ peer) (held incoming : Greeted)
    (sameRun : incoming.hello.incarnation = held.hello.incarnation)
    (smaller : held.opener host peer = host.id.smaller peer)
    (larger : incoming.opener host peer = host.id.larger peer) :
    settle host peer (some held) incoming = some held := by
  have differ := PeerId.larger_ne_smaller host.id peer apart
  unfold opener at smaller larger
  have run : (incoming.origin host peer).incarnation = (held.origin host peer).incarnation :=
    sameRun
  simp [settle, Origin.replaces, run, smaller, larger, differ]

/-- The last arrival is the last one of its opener. -/
theorem openedBy_append_one (opener : PeerId) (arrivals : List Greeted) (greeted : Greeted) :
    openedBy host peer opener (arrivals ++ [greeted]) =
      if greeted.opener host peer = opener then openedBy host peer opener arrivals ++ [greeted]
      else openedBy host peer opener arrivals := by
  unfold openedBy
  split <;> simp_all

/-- The last connection of an opener arrived, and was opened by this peer. -/
theorem opener_of_last (opener : PeerId) (arrivals : List Greeted) (greeted : Greeted)
    (last : (openedBy host peer opener arrivals).getLast? = some greeted) :
    greeted ∈ arrivals ∧ greeted.opener host peer = opener := by
  obtain ⟨listed, opened⟩ := List.mem_filter.mp (List.mem_of_getLast? last)
  exact ⟨listed, of_decide_eq_true opened⟩

/-- What is held is the last connection that the smaller peer opened, or else the last one that
the other peer opened. -/
theorem kept_eq (apart : host.id ≠ peer) (arrivals : List Greeted) (run : Incarnation)
    (sameRun : ∀ greeted ∈ arrivals, greeted.hello.incarnation = run) :
    kept host peer arrivals =
      (openedBy host peer (host.id.smaller peer) arrivals).getLast?.or
        (openedBy host peer (host.id.larger peer) arrivals).getLast? := by
  induction arrivals using List.reverseRecOn with
  | nil => rfl
  | append_singleton arrivals incoming inductionHypothesis =>
    have before := inductionHypothesis fun greeted listed =>
      sameRun greeted (List.mem_append_left _ listed)
    have now := sameRun incoming (List.mem_append_right _ List.mem_cons_self)
    have differ := PeerId.larger_ne_smaller host.id peer apart
    rw [kept_append_one, openedBy_append_one, openedBy_append_one]
    have openers : incoming.opener host peer = host.id.smaller peer ∨
        incoming.opener host peer = host.id.larger peer := incoming.opener_cases
    rcases openers with smaller | larger
    · rw [if_pos smaller, settle_smaller _ _ smaller, List.getLast?_concat, Option.some_or]
    · rw [if_neg (larger ▸ differ), if_pos larger, List.getLast?_concat, before]
      cases last : (openedBy host peer (host.id.smaller peer) arrivals).getLast? with
      | some held =>
        obtain ⟨listed, smaller⟩ := opener_of_last _ _ held last
        have old := sameRun held (List.mem_append_left _ listed)
        exact settle_larger apart held incoming (now.trans old.symm) smaller larger
      | none =>
        cases last : (openedBy host peer (host.id.larger peer) arrivals).getLast? with
        | some held =>
          obtain ⟨_, opened⟩ := opener_of_last _ _ held last
          exact settle_same held incoming (larger.trans opened.symm)
        | none => rfl

/-- The connections that two kernels opened to each other, as each of them sees them arrive: no
restart lies between those that one of them sees, and each peer opened its own in one order. -/
structure Agree (a b : Host) (here there : List Greeted) : Prop where
  sameRun : ∃ run, ∀ greeted ∈ here, greeted.hello.incarnation = run
  sameRun' : ∃ run, ∀ greeted ∈ there, greeted.hello.incarnation = run
  sameOrder : ∀ opener ∈ [a.id, b.id],
    (openedBy a b.id opener here).map (·.endpoint.other) =
      (openedBy b a.id opener there).map (·.endpoint)

variable {a b : Host} {here there : List Greeted}

/-- The last connection of an opener is one connection for both ends. -/
theorem Agree.last (agree : Agree a b here there) (opener : PeerId)
    (among : opener ∈ [a.id, b.id]) :
    (openedBy a b.id opener here).getLast?.map (·.endpoint.other) =
      (openedBy b a.id opener there).getLast?.map (·.endpoint) := by
  rw [← List.getLast?_map, agree.sameOrder opener among, List.getLast?_map]

/-- The two ends hold the two ends of one connection. -/
theorem Agree.kept (agree : Agree a b here there) (apart : a.id ≠ b.id) :
    (kept a b.id here).map (·.endpoint.other) = (Greeted.kept b a.id there).map (·.endpoint) := by
  obtain ⟨run, sameRun⟩ := agree.sameRun
  obtain ⟨run', sameRun'⟩ := agree.sameRun'
  have smaller : a.id.smaller b.id ∈ [a.id, b.id] := by
    rcases Session.smaller_cases a.id b.id with first | second <;> simp [*]
  have larger : a.id.larger b.id ∈ [a.id, b.id] := by
    unfold PeerId.larger
    split <;> simp
  rw [kept_eq apart here run sameRun, kept_eq apart.symm there run' sameRun',
    PeerId.smaller_comm b.id, PeerId.larger_comm b.id a.id apart.symm, Option.map_or, Option.map_or,
    agree.last _ smaller, agree.last _ larger]

end Greeted

namespace Session

/-- The session once it took greeted connections one after another. -/
def adoptAll (host : Host) (now : Nat) (random : Random.Stream) (s : Session)
    (arrivals : List Greeted) : Session :=
  arrivals.foldl (fun s greeted => (Turn.adopt host now greeted ⟨s, random, []⟩).session) s

/-- Whether the live connection is a given one, if any. -/
def HoldsOnly (s : Session) : Option Greeted → Prop
  | none => s.link = none
  | some greeted => s.Holds greeted

/-- A session that is not closed decides between two connections as its end does. The two read off
the same tie-break. -/
theorem HoldsOnly.adopted {host : Host} {now : Nat} {greeted : Greeted} {s after : Session}
    {effects : List Effect} {held : Option Greeted} (holds : s.HoldsOnly held)
    (unclosed : s.ledger.phase ≠ .intentionallyClosed)
    (adopted : Adopted host now greeted s after effects) :
    after.HoldsOnly (greeted.settle host s.ledger.peer held) ∧
      after.ledger.phase ≠ .intentionallyClosed := by
  have decides (first : Greeted) (link : Link) (linked : s.link = some link)
      (endpoint : link.endpoint = first.endpoint)
      (incarnation : link.incarnation = first.hello.incarnation) :
      s.Admits host greeted ↔ (greeted.origin host s.ledger.peer).replaces
        (first.origin host s.ledger.peer) host.id s.ledger.peer = true := by
    have origin : link.origin host s.ledger.peer = first.origin host s.ledger.peer := by
      simp only [Link.origin, Greeted.origin, endpoint, incarnation]
    rw [← origin]
    refine ⟨fun fit => fit.2 link linked, fun wins => ⟨unclosed, ?_⟩⟩
    rintro other same
    cases linked.symm.trans same
    exact wins
  cases adopted with
  | refused unfit =>
    refine ⟨?_, unclosed⟩
    cases held with
    | none =>
      refine absurd ⟨unclosed, fun link linked => ?_⟩ unfit
      cases linked.symm.trans holds
    | some first =>
      obtain ⟨link, linked, endpoint, incarnation⟩ := holds
      have loses := mt (decides first link linked endpoint incarnation).mpr unfit
      rw [Greeted.settle, if_neg loses]
      exact ⟨link, linked, endpoint, incarnation⟩
  | joined fit =>
    refine ⟨?_, by simp [joined_phase]⟩
    have newcomer := joined_holds host now greeted s
    cases held with
    | none => exact newcomer
    | some first =>
      obtain ⟨link, linked, endpoint, incarnation⟩ := holds
      rw [Greeted.settle, if_pos ((decides first link linked endpoint incarnation).mp fit)]
      exact newcomer

/-- A session that is not closed holds what its end keeps of the connections that it took. -/
theorem adoptAll_holds (host : Host) (now : Nat) (random : Random.Stream) (s : Session)
    (unlinked : s.link = none) (unclosed : s.ledger.phase ≠ .intentionallyClosed)
    (arrivals : List Greeted) :
    (s.adoptAll host now random arrivals).HoldsOnly (Greeted.kept host s.ledger.peer arrivals) := by
  suffices lasts : (s.adoptAll host now random arrivals).HoldsOnly
      (Greeted.kept host s.ledger.peer arrivals) ∧
      (s.adoptAll host now random arrivals).ledger.phase ≠ .intentionallyClosed ∧
      (s.adoptAll host now random arrivals).ledger.peer = s.ledger.peer from lasts.1
  induction arrivals using List.reverseRecOn with
  | nil => exact ⟨unlinked, unclosed, rfl⟩
  | append_singleton arrivals greeted inductionHypothesis =>
    obtain ⟨holds, phase, peer⟩ := inductionHypothesis
    have kept : Greeted.kept host s.ledger.peer (arrivals ++ [greeted]) =
        greeted.settle host s.ledger.peer (Greeted.kept host s.ledger.peer arrivals) :=
      Greeted.kept_append_one arrivals greeted
    have taken : s.adoptAll host now random (arrivals ++ [greeted]) =
        (Turn.adopt host now greeted
          ⟨s.adoptAll host now random arrivals, random, []⟩).session := by
      unfold adoptAll
      rw [List.foldl_append]
      rfl
    obtain ⟨effects, _, adopted⟩ :=
      Turn.adopt_goes host now greeted ⟨s.adoptAll host now random arrivals, random, []⟩
    rw [kept, taken]
    have next := holds.adopted phase adopted
    rw [peer] at next
    exact ⟨next.1, next.2, adopted.peer.trans peer⟩

/-- Two kernels that open connections to each other share one once both took all of them. -/
theorem adoptAll_shares (a b : Host) (apart : a.id ≠ b.id) (s t : Session)
    (about : s.ledger.peer = b.id) (about' : t.ledger.peer = a.id) (unlinked : s.link = none)
    (unlinked' : t.link = none) (unclosed : s.ledger.phase ≠ .intentionallyClosed)
    (unclosed' : t.ledger.phase ≠ .intentionallyClosed) (here there : List Greeted)
    (agree : Greeted.Agree a b here there) (some' : here ≠ []) (now now' : Nat)
    (random random' : Random.Stream) :
    (s.adoptAll a now random here).Shares (t.adoptAll b now' random' there) := by
  have mine := s.adoptAll_holds a now random unlinked unclosed here
  have theirs := t.adoptAll_holds b now' random' unlinked' unclosed' there
  rw [about] at mine
  rw [about'] at theirs
  have same := agree.kept apart
  obtain ⟨first, held⟩ := Option.isSome_iff_exists.mp (Greeted.kept_isSome a b.id here some')
  rw [held, Option.map_some] at same
  obtain ⟨second, met, endpoint⟩ := Option.map_eq_some_iff.mp same.symm
  rw [held] at mine
  rw [met] at theirs
  obtain ⟨link, linked, mine, _⟩ := mine
  obtain ⟨other, linked', theirs, _⟩ := theirs
  exact ⟨link, other, linked, linked', by rw [theirs, endpoint, mine]⟩

end Session

/-- The ends of two kernels that open connections to each other hold one connection in the end:
the last one that the peer with the smaller id opened, or, if it opened none, the last one that
the other peer opened. -/
theorem Greeted.kept_confluent (a b : Host) (apart : a.id ≠ b.id) (here there : List Greeted)
    (agree : Agree a b here there) :
    (kept a b.id here).map (·.endpoint.other) = (kept b a.id there).map (·.endpoint) ∧
      kept a b.id here = (openedBy a b.id (a.id.smaller b.id) here).getLast?.or
        (openedBy a b.id (a.id.larger b.id) here).getLast? ∧
      kept b a.id there = (openedBy b a.id (a.id.smaller b.id) there).getLast?.or
        (openedBy b a.id (a.id.larger b.id) there).getLast? := by
  obtain ⟨run, sameRun⟩ := agree.sameRun
  obtain ⟨run', sameRun'⟩ := agree.sameRun'
  refine ⟨agree.kept apart, kept_eq apart here run sameRun, ?_⟩
  rw [PeerId.smaller_comm a.id, PeerId.larger_comm a.id b.id apart]
  exact kept_eq apart.symm there run' sameRun'

/-- Four connections between two kernels, the first and the third opened by the smaller one, in
the order in which it sees them arrive. -/
def Encounter.arrivalsHere : List Greeted :=
  [(0, .dialer), (1, .acceptor), (2, .dialer), (3, .acceptor)].map fun (number, side) =>
    ⟨⟨number, side⟩, ⟨bob, ⟨0, 2⟩, 0, none⟩, .empty⟩

/-- The same connections in the order in which the other one sees them arrive. -/
def Encounter.arrivalsThere : List Greeted :=
  [(1, .dialer), (3, .dialer), (0, .acceptor), (2, .acceptor)].map fun (number, side) =>
    ⟨⟨number, side⟩, ⟨alice, ⟨0, 1⟩, 0, none⟩, .empty⟩

/-- Both ends keep the third connection, although another one arrives after it. -/
theorem Encounter.keeps_third :
    Greeted.Agree aliceService.host bobHost arrivalsHere arrivalsThere ∧
      (Greeted.kept aliceService.host bobHost.id arrivalsHere).map (·.endpoint) =
        some ⟨2, .dialer⟩ ∧
      (Greeted.kept bobHost aliceService.host.id arrivalsThere).map (·.endpoint) =
        some ⟨2, .acceptor⟩ := by
  have agree : Greeted.Agree aliceService.host bobHost arrivalsHere arrivalsThere := by
    refine ⟨⟨⟨0, 2⟩, by simp [arrivalsHere]⟩, ⟨⟨0, 1⟩, by simp [arrivalsThere]⟩, ?_⟩
    simp only [List.forall_mem_cons, List.not_mem_nil, false_implies, implies_true, and_true]
    exact ⟨by decide, by decide⟩
  obtain ⟨same, last, _⟩ := Greeted.kept_confluent aliceService.host bobHost (by decide) _ _ agree
  have held : (Greeted.kept aliceService.host bobHost.id arrivalsHere).map (·.endpoint) =
      some ⟨2, .dialer⟩ := by
    rw [last]
    decide
  refine ⟨agree, held, same.symm.trans ?_⟩
  have turned := congrArg (Option.map Endpoint.other) held
  rwa [Option.map_map] at turned

end Courier
