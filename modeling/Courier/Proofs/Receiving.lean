import Courier.Proofs.Following

/-!
# A receiver agrees with the account

The kernel that may be replaced is followed through all its runs. What each run handed out
is what the other kernel accepted, in the order of its numbers, and the number that a run
counts as received is covered: every message up to it was handed out by some run, or
discarded where it came from. A run may only go on to a number that is covered.
-/

namespace Courier

open Happening

/-- A run of the receiving kernel that agrees with the account. -/
structure Receives (a : Account) (run : Incarnation) (former : List Incarnation)
    (l : Ledger) : Prop where
  covered : a.Covered l.window.received
  seen : ∀ incarnation ∈ l.incarnation, incarnation = a.own
  ordered : ∀ any, (handedBy .there any a.log).Pairwise fun m n => m.1 < n.1
  genuine : ∀ any, ∀ m ∈ handedBy .there any a.log, m ∈ a.accepted
  bounded : ∀ m ∈ handedBy .there run a.log, m.1 ≤ l.window.received
  runs : ∀ any, handedBy .there any a.log ≠ [] → any = run ∨ any ∈ former

/-- A run agrees with a later account, if it neither received anything nor handed anything out
meanwhile. -/
theorem Receives.extends {a b : Account} {run : Incarnation} {former : List Incarnation}
    {l after : Ledger} (receives : Receives a run former l) (later : a.Extends b)
    (handed : ∀ any, handedBy .there any b.log = handedBy .there any a.log)
    (received : after.window.received = l.window.received)
    (seen : ∀ incarnation ∈ after.incarnation, incarnation = a.own) :
    Receives b run former after := by
  refine ⟨?_, ?_, ?_, ?_, ?_, ?_⟩
  · rw [received]
    exact receives.covered.extends later
  · intro incarnation held
    exact (seen incarnation held).trans later.own.symm
  · intro any
    rw [handed]
    exact receives.ordered any
  · intro any m listed
    rw [handed] at listed
    exact later.accepted m (receives.genuine any m listed)
  · rw [handed, received]
    exact receives.bounded
  · intro any some'
    rw [handed] at some'
    exact receives.runs any some'

/-- A higher number may be counted as received once it is covered. -/
theorem Receives.passed {a : Account} {run : Incarnation} {former : List Incarnation}
    {l after : Ledger} (receives : Receives a run former l)
    (covered : a.Covered after.window.received)
    (grown : l.window.received ≤ after.window.received)
    (seen : after.incarnation = l.incarnation) : Receives a run former after := by
  refine ⟨covered, ?_, receives.ordered, receives.genuine, ?_, receives.runs⟩
  · rw [seen]
    exact receives.seen
  · exact fun m listed => Nat.le_trans (receives.bounded m listed) grown

/-- The next message may be handed out when all before it are settled. The numbers that this run
handed out stay in order because the next one is above the number received. -/
theorem Receives.handed {a : Account} {run : Incarnation} {former : List Incarnation}
    {l after : Ledger} (receives : Receives a run former l) (seq : Nat) (payload : List UInt8)
    (number : after.window.received = seq) (new : l.window.received < seq)
    (accepted : (seq, payload) ∈ a.accepted) (sent : seq ≤ a.sent)
    (before : ∀ m ∈ a.accepted, m.1 < seq → Settled a.log m)
    (alone : ∀ m ∈ a.accepted, m.1 = seq → m = (seq, payload))
    (seen : after.incarnation = l.incarnation) :
    Receives ⟨a.own, a.sent, a.log ++ [.handed .there run seq payload]⟩ run former after := by
  have same : (⟨a.own, a.sent, a.log ++ [.handed .there run seq payload]⟩ : Account).accepted =
      a.accepted := by
    unfold Account.accepted
    rw [acceptedBy_append]
    exact List.append_nil _
  have handed (any : Incarnation) : handedBy .there any
      (a.log ++ [.handed .there run seq payload]) =
        handedBy .there any a.log ++ if run = any then [(seq, payload)] else [] := by
    rw [handedBy_append]
    by_cases equal : run = any <;> simp [handedBy, equal]
  refine ⟨⟨number ▸ sent, ?_⟩, ?_, ?_, ?_, ?_, ?_⟩
  · intro m listed below
    rw [same] at listed
    rw [number] at below
    rcases Nat.lt_or_eq_of_le below with less | equal
    · exact (before m listed less).append _
    · right
      refine ⟨run, ?_⟩
      rw [handed, if_pos rfl, alone m listed equal]
      exact List.mem_append_right _ (List.mem_singleton_self _)
  · rw [seen]
    exact receives.seen
  · intro any
    rw [handed]
    split
    · next equal =>
      subst equal
      rw [List.pairwise_append]
      refine ⟨receives.ordered run, List.pairwise_singleton _ _, ?_⟩
      intro m listed n last
      rw [List.mem_singleton.mp last]
      exact Nat.lt_of_le_of_lt (receives.bounded m listed) new
    · rw [List.append_nil]
      exact receives.ordered any
  · intro any m listed
    rw [same]
    rw [handed] at listed
    rcases List.mem_append.mp listed with old | last
    · exact receives.genuine any m old
    · split at last
      · rw [List.mem_singleton.mp last]
        exact accepted
      · cases last
  · intro m listed
    rw [number]
    rw [handed, if_pos rfl] at listed
    rcases List.mem_append.mp listed with old | last
    · exact Nat.le_of_lt (Nat.lt_of_le_of_lt (receives.bounded m old) new)
    · rw [List.mem_singleton.mp last]
  · intro any some'
    rw [handed] at some'
    by_cases equal : run = any
    · exact .inl equal.symm
    · rw [if_neg equal, List.append_nil] at some'
      exact receives.runs any some'

/-- What a new connection leaves of what was received, and whom it names. -/
theorem Ledger.onConnected_seen (l : Ledger) (own : Incarnation) (hello : Hello) (now : Duration) :
    (l.onConnected own hello now).incarnation = some hello.incarnation ∧
      (l.onConnected own hello now).window.received =
        if Incarnation.restarted l.incarnation hello.incarnation then 0 else l.window.received := by
  obtain ⟨_, _, _, _, same⟩ := l.onConnected_eq own hello now
  rw [same]
  exact ⟨rfl, apply_ite Window.received _ _ _⟩

/-- A connection that is adopted names the incarnation last seen, and what was received from an
earlier one is forgotten. -/
theorem Session.joined_seen (host : Host) (now : Nat) (greeted : Greeted) (t : Session) :
    (t.joined host now greeted).ledger.incarnation = some greeted.hello.incarnation ∧
      (t.joined host now greeted).ledger.window.received =
        if Incarnation.restarted t.ledger.incarnation greeted.hello.incarnation then 0
        else t.ledger.window.received := Ledger.onConnected_seen _ _ _ _

/-- What taking in an envelope leaves alone: all that is queued apart from what is
acknowledged, and all that is held. -/
structure Leaves (e : Envelope) (s after : Session) : Prop where
  outbox : after.ledger.outbox = (s.ledger.heeding e).outbox
  sent : after.ledger.window.sent = (s.ledger.heeding e).window.sent
  acked : after.ledger.window.acked = (s.ledger.heeding e).window.acked
  nextBinding : after.ledger.nextBinding = (s.ledger.heeding e).nextBinding
  incarnation : after.ledger.incarnation = s.ledger.incarnation
  link : after.link = s.link
  commands : after.commands = s.commands
  dial : after.dial = s.dial
  received : after.ledger.window.received = s.ledger.window.received ∨
    after.ledger.window.received = max s.ledger.window.received e.seq

/-- Taking in an envelope leaves all alone that is queued and held, apart from its
acknowledgement. -/
theorem Took.leaves {e : Envelope} {s after : Session} {effects : List Effect}
    (took : Took e s after effects) : Leaves e s after := by
  have heard : (s.ledger.heeding e).window.received = s.ledger.window.received ∧
      (s.ledger.heeding e).incarnation = s.ledger.incarnation := by
    obtain ⟨_, _, same⟩ := s.ledger.heeding_eq e
    rw [same]
    exact ⟨rfl, rfl⟩
  have receives (w : Window) : (w.receive e.seq).2.sent = w.sent ∧
      (w.receive e.seq).2.acked = w.acked := by
    rw [w.receive_eq]
    exact ⟨rfl, rfl⟩
  obtain ⟨sent, acked⟩ := receives (s.ledger.heeding e).window
  have received : ((s.ledger.heeding e).window.receive e.seq).2.received =
      max s.ledger.window.received e.seq := by
    rw [Window.receive_received, heard.1]
  cases took with
  | malformed | unnumbered | greeting | ack =>
    exact ⟨rfl, rfl, rfl, rfl, heard.2, rfl, rfl, rfl, .inl heard.1⟩
  | unknown | again | message | reply | settled =>
    exact ⟨rfl, sent, acked, rfl, heard.2, rfl, rfl, rfl, .inr received⟩

/-- Taking in an envelope writes nothing. -/
theorem Took.silent {e : Envelope} {s after : Session} {effects : List Effect}
    (took : Took e s after effects) (p : Party) (x : Correspondence) :
    effects.foldl (Correspondence.carry p) x = x := by
  cases took <;> rfl

end Courier
