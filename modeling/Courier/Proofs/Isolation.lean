import Courier.Proofs.Owing
import Courier.Proofs.Starting

/-!
# Peers are kept apart

Numbers of bindings and of envelopes begin at one for every peer, so those of different peers
coincide; and a peer may write into its envelopes what it likes. Still no peer gets at what
belongs to another. The session of a peer has its connection from greetings that named this peer.
No two peers share an end of a connection. Whatever happens for one peer, a step leaves the
session of any other as it was, with all that is under way for it, unless the application asks for
a letter to the other peer when it is called back; and what the step settles was handed over with
a letter to the peer that it is about.
-/

namespace Courier

open Handshake

/-- The application asks for a letter when it is called back about a peer: it was sent a message,
a promise was settled, or the peer was given up. -/
def Application.Asks (application : Application) (peer : PeerId) (sending : Sending) : Prop :=
  (∃ payload, sending ∈ (application.onMessage peer payload).sendings) ∨
    (∃ promise, sending ∈ application.onSettled promise) ∨ sending ∈ application.onGiveUp peer

namespace Kernel

section Apart

variable {peer q : PeerId} {k other : Kernel} {deed : Deed} {now : Nat} {sending : Sending}

/-- Two kernels that are alike as far as a peer is concerned. -/
structure AlikeFor (peer : PeerId) (k other : Kernel) : Prop where
  status : other.status = k.status
  session : other.session? peer = k.session? peer

/-- A kernel is like itself. -/
theorem AlikeFor.refl (peer : PeerId) (k : Kernel) : k.AlikeFor peer k := ⟨rfl, rfl⟩

/-- A kernel is like what one that is like it is like. -/
theorem AlikeFor.trans {later : Kernel} (first : k.AlikeFor peer other)
    (second : other.AlikeFor peer later) : k.AlikeFor peer later :=
  ⟨second.status.trans first.status, second.session.trans first.session⟩

/-- Kernels that are alike have the same service. -/
theorem AlikeFor.service? (alike : k.AlikeFor peer other) : other.service? = k.service? := by
  unfold Kernel.service?
  rw [alike.status]

/-- Kernels that are alike have the same session of the peer. -/
theorem AlikeFor.kernelSession (alike : k.AlikeFor peer other) (host : Host) :
    other.session host peer = k.session host peer := by
  unfold Kernel.session
  rw [alike.session]

/-- A deed about one peer leaves the sessions of the others alone. -/
theorem undergo_apart (apart : q ≠ peer) (about : deed.peer? = some q) :
    k.AlikeFor peer (k.undergo deed) :=
  have tended := k.undergo_tended deed q about
  ⟨tended.keeps.status, tended.others apart.symm⟩

/-- What a letter to a peer does to its session depends on this session only. -/
theorem AlikeFor.send (alike : k.AlikeFor peer other) (same : sending.peer = peer) :
    (k.undergo (sending.deed now)).AlikeFor peer (other.undergo (sending.deed now)) := by
  constructor
  case status =>
    rw [(k.undergo_keeps _ rfl).status, (other.undergo_keeps _ rfl).status]
    exact alike.status
  case session =>
    simp only [Sending.deed, undergo, Kernel.send]
    split
    · exact alike.session
    · cases active : k.service? with
      | none =>
        have inactive : other.service? = none := alike.service?.trans active
        simpa [withSession, active, inactive] using alike.session
      | some service =>
        have running : other.service? = some service := alike.service?.trans active
        rw [(k.session?_withSession service active sending.peer peer _).2.2,
          (other.session?_withSession service running sending.peer peer _).2.2, same,
          alike.kernelSession]
        simp

/-- Of deeds that belong to other peers, and letters, only the letters to a peer matter to its
session. -/
theorem AlikeFor.live {asked : Sending → Prop} {life : List Deed} (alike : k.AlikeFor peer other)
    (deeds : ∀ deed ∈ life, (∃ q, q ≠ peer ∧ deed.IsOwn q) ∨
      ∃ sending, deed = sending.deed now ∧ asked sending) :
    ∃ sendings : List Sending, (∀ sending ∈ sendings, sending.peer = peer ∧ asked sending) ∧
      (k.live (sendings.map (·.deed now))).AlikeFor peer (other.live life) := by
  induction life generalizing k other with
  | nil => exact ⟨[], nofun, alike⟩
  | cons deed rest inductionHypothesis =>
    rw [List.forall_mem_cons] at deeds
    obtain ⟨first, later⟩ := deeds
    rcases first with ⟨q, apart, own⟩ | ⟨sending, rfl, asks⟩
    · exact inductionHypothesis (alike.trans (undergo_apart apart own.peer?)) later
    · by_cases same : sending.peer = peer
      · obtain ⟨sendings, mine, alike⟩ := inductionHypothesis (alike.send same) later
        refine ⟨sending :: sendings, ?_, alike⟩
        rw [List.forall_mem_cons]
        exact ⟨⟨same, asks⟩, mine⟩
      · exact inductionHypothesis (alike.trans (undergo_apart same rfl)) later

end Apart

end Kernel

namespace Node

variable {r : Register} {now : Nat} {n after : Node} {network rest : Network} {peer : PeerId}

/-- A node has an end of a connection for a peer. -/
inductive Has (n : Node) (peer : PeerId) : Endpoint → Prop where
  | linked (s : Session) (held : n.kernel.session? peer = some s) (link : Link)
      (live : s.link = some link) : Has n peer link.endpoint
  | handed (s : Session) (held : n.kernel.session? peer = some s) (greeted : Greeted)
      (told : .attach greeted ∈ s.commands) : Has n peer greeted.endpoint
  | written (w : Writer) (listed : w ∈ n.writers) (named : w.peer = peer) : Has n peer w.endpoint
  | dialed (d : Dialing) (listed : d ∈ n.dialings) (named : d.peer = peer) (e : Endpoint)
      (mine : e ∈ d.endpoints) : Has n peer e

/-- What belongs to a peer is as it was, but for letters to it that are asked for. -/
structure Spared (now : Nat) (peer : PeerId) (asked : Sending → Prop) (n after : Node) :
    Prop where
  session : ∃ sendings : List Sending,
    (∀ sending ∈ sendings, sending.peer = peer ∧ asked sending) ∧
      after.kernel.session? peer =
        (n.kernel.live (sendings.map (·.deed now))).session? peer
  dialings : after.dialings.filter (·.peer = peer) = n.dialings.filter (·.peer = peer)
  writers : after.writers.filter (·.peer = peer) = n.writers.filter (·.peer = peer)
  works : after.works.filter (·.peer = peer) = n.works.filter (·.peer = peer)

/-- What a node has for a peer is registered as such. -/
theorem Held.has (held : n.Held r) {e : Endpoint} (has : n.Has peer e) :
    r.owner e = some (.node n.number (.linked peer)) ∨
      r.owner e = some (.node n.number (.dialed peer)) := by
  cases has with
  | linked s found link live =>
    obtain ⟨greeted, met, same, _⟩ := (held.sessions peer s found).link link live
    exact .inl (same ▸ met.owner)
  | handed s found greeted told =>
    exact .inl ((held.sessions peer s found).commands greeted told).owner
  | written w listed named => exact .inl (named ▸ held.writers w listed)
  | dialed d listed named e mine => exact .inr (named ▸ (held.dialings d listed).owner e mine)

/-- No two peers share an end. -/
theorem Held.apart (held : n.Held r) {p q : PeerId} {e : Endpoint} (first : n.Has p e)
    (second : n.Has q e) : p = q := by
  rcases held.has first with mine | mine <;> rcases held.has second with other | other <;>
    cases mine.symm.trans other
  · rfl
  · rfl

/-- What the session of a peer asks for when it takes up an event is about ends of this peer. -/
theorem Held.effects (held : n.Held r) {occasion : Occasion} {sendings : List Sending}
    {event : Event} (upcoming : n.upcoming? now peer occasion network = some (sendings, event)) :
    ∀ effect ∈ ((n.kernel.live (sendings.map (·.deed now))).turn peer now event).2,
      ∀ e ∈ effect.endpoints, r.owner e = some (.node n.number (.linked peer)) ∨
        r.owner e = some (.node n.number (.dialed peer)) := by
  let known (p : PeerId) (greeted : Greeted) : Prop :=
    r.owner greeted.endpoint = some (.node n.number (.linked p)) ∨
      r.owner greeted.endpoint = some (.node n.number (.dialed p))
  have kept : n.kernel.Confined known := fun p s found =>
    (held.sessions p s found).mono fun _ met => .inl met.owner
  have sent : (n.kernel.live (sendings.map (·.deed now))).Confined known := by
    apply kept.live held.vacant
    exact List.forall_mem_map.mpr fun sending _ => Kernel.hands_send sending now
  intro effect asked e here
  obtain ⟨greeted, mine, same⟩ := sent.turn peer now event (by
    rintro greeted rfl
    obtain ⟨d, listed, named, outcome⟩ := upcoming?_dialed upcoming
    have owner := (held.dialings d listed).owner greeted.endpoint (by
      simp [Dialing.endpoints, outcome])
    exact .inr (named ▸ owner)) effect asked e here
  exact same ▸ mine

/-- A writer of another peer changes none of the writers of a peer. -/
theorem setWriter_others {later : Writer} (different : later.peer ≠ peer)
    (others : ∀ w ∈ n.writers, w.endpoint = later.endpoint → w.peer ≠ peer) :
    (n.setWriter later).writers.filter (·.peer = peer) = n.writers.filter (·.peer = peer) := by
  have replaced (writers : List Writer)
      (others : ∀ w ∈ writers, w.endpoint = later.endpoint → w.peer ≠ peer) :
      (writers.map fun w => if w.endpoint = later.endpoint then later else w).filter
        (·.peer = peer) = writers.filter (·.peer = peer) := by
    induction writers with
    | nil => rfl
    | cons w rest inductionHypothesis =>
      rw [List.forall_mem_cons] at others
      obtain ⟨first, behind⟩ := others
      rw [List.map_cons, List.filter_cons, List.filter_cons, inductionHypothesis behind]
      by_cases here : w.endpoint = later.endpoint
      · simp [here, different, first here]
      · simp [here]
  exact replaced n.writers others

/-- The writers of a peer are left alone in a step that is not about it. A writer is found by its
end, and the register tells whose end that is. -/
theorem Held.writers_apart {activity : Activity} (held : n.Held r)
    (stepped : n.step? now network activity = some (after, rest))
    (apart : n.about? activity ≠ some peer) :
    after.writers.filter (·.peer = peer) = n.writers.filter (·.peer = peer) := by
  cases activity with
  | accept listener =>
    obtain ⟨_, _, same⟩ := Option.map_eq_some_iff.mp stepped
    cases same
    rfl
  | welcome endpoint =>
    obtain ⟨_, _, greets⟩ := welcome?_greets stepped
    rw [greets.same]
  | dialing q =>
    simp only [Node.step?] at stepped
    obtain ⟨_, _, _, same, _⟩ := dialing?_moves stepped
    rw [same]
    rfl
  | session q occasion =>
    obtain ⟨sendings, event, upcoming, performed⟩ := session?_turns stepped
    obtain ⟨news, _, ready⟩ := ready_eq now q n sendings event
    have different : peer ≠ q := fun same => apart (by rw [same]; rfl)
    have writers : (n.ready now q sendings event).writers = n.writers := by
      rw [ready, cleared_eq]
    have others := performed.writers peer different
    rw [ready] at others
    have kept := others fun w listed named effect asked here => by
      have listed : w ∈ n.writers := by
        rw [cleared_eq] at listed
        exact listed
      have mine := held.writers w listed
      rw [named] at mine
      rcases held.effects upcoming effect asked w.endpoint here with other | other
      · cases mine.symm.trans other
        exact different rfl
      · cases mine.symm.trans other
    rw [kept, cleared_eq]
  | writer endpoint =>
    obtain ⟨w, later, found, same, place, named, _⟩ := writer?_writes stepped
    have mine := held.writers w (List.mem_of_find?_eq_some found)
    have different : w.peer ≠ peer := fun same => apart (by simp [about?, found, same])
    rw [same]
    apply setWriter_others (named ▸ different)
    intro v old here
    have owner := held.writers v old
    rw [here, place, mine] at owner
    have named : w.peer = v.peer := by simpa using owner
    exact named ▸ different

/-- What a step does to the session of a peer that it is not about the application asked for. -/
theorem Accounted.asks {accepted : List (Nat × Sending)} (accounted : n.Accounted accepted)
    {q : PeerId} {sending : Sending} (asks : n.Asks q sending) : n.application.Asks q sending := by
  rcases asks with settled | givenUp | ⟨work, listed, named, asked⟩
  · exact .inr (.inl settled)
  · exact .inr (.inr givenUp)
  · obtain ⟨payload, same⟩ := accounted.works work listed
    rw [same, named] at asked
    exact .inl ⟨payload, asked⟩

/-- A step spares every peer that it is not about. -/
theorem Held.spares {accepted : List (Nat × Sending)} {activity : Activity} (held : n.Held r)
    (accounted : n.Accounted accepted)
    (stepped : n.step? now network activity = some (after, rest))
    (apart : n.about? activity ≠ some peer) :
    n.Spared now peer (fun sending => ∃ q, n.about? activity = some q ∧
      n.application.Asks q sending) after := by
  obtain ⟨dialings, works⟩ := n.step?_apart stepped peer apart
  refine ⟨?_, dialings, held.writers_apart stepped apart, works⟩
  have deeds : ∀ deed ∈ n.deeds now network activity, (∃ q, q ≠ peer ∧ deed.IsOwn q) ∨
      ∃ sending : Sending, deed = sending.deed now ∧
        ∃ q, n.about? activity = some q ∧ n.application.Asks q sending := by
    intro deed listed
    obtain ⟨q, about, which⟩ := deeds_about now n network activity deed listed
    have other : q ≠ peer := fun same => apart (same ▸ about)
    rcases which with own | ⟨sending, same, asks⟩
    · exact .inl ⟨q, other, own⟩
    · exact .inr ⟨sending, same, q, about, accounted.asks asks⟩
  obtain ⟨sendings, mine, alike⟩ := (Kernel.AlikeFor.refl peer n.kernel).live deeds
  refine ⟨sendings, mine, ?_⟩
  rw [step?_lives stepped]
  exact alike.session

end Node

/-- The peers of a node are kept apart. -/
structure Scene.Isolates (s : Scene) (n : Node) : Prop where
  /-- A session has its connection, and is handed others, from greetings that named its peer. -/
  greeted : n.kernel.Confined fun peer greeted => greeted.hello.peer = peer ∧
    Finds (s.heard greeted.endpoint) greeted.hello greeted.surplus
  /-- No two peers share an end of a connection. -/
  apart : ∀ p q e, n.Has p e → n.Has q e → p = q
  /-- What a step leaves of other peers than the one it is about. -/
  spared : ∀ activity after rest,
    n.step? (s.world.clock n) s.world.network activity = some (after, rest) →
      ∀ peer, n.about? activity ≠ some peer →
        n.Spared (s.world.clock n) peer (fun sending => ∃ q, n.about? activity = some q ∧
          n.application.Asks q sending) after
  /-- What a step settles was handed over with a letter to the peer that it is about. -/
  settled : ∀ activity after rest,
    n.step? (s.world.clock n) s.world.network activity = some (after, rest) →
      ∃ news, after.reports = n.reports ++ List.toArray news ∧
        ∀ promise result, .settled promise result ∈ news → ∃ peer letter,
          n.about? activity = some peer ∧ letter.promise = some promise ∧
            (n.number, ⟨peer, letter⟩) ∈ s.accepted

/-- In every scene that comes about, each node keeps its peers apart, whatever bytes they sent. -/
theorem Scene.Reachable.isolates {s : Scene} (reachable : s.Reachable) :
    ∀ n ∈ s.world.nodes, s.Isolates n := by
  intro n listed
  obtain ⟨owner, held⟩ := reachable.held
  have has := held.nodes n listed
  have accounted := reachable.accounted n listed
  constructor
  case greeted =>
    intro peer session found
    exact (has.sessions peer session found).mono fun greeted met => ⟨met.named, met.finds⟩
  case apart => exact fun p q e => has.apart
  case spared => exact fun activity after rest stepped peer => has.spares accounted stepped
  case settled => exact fun activity after rest stepped => accounted.settles stepped

/-- What a letter that fits makes of the sessions of an active kernel. -/
theorem Kernel.session?_sent {k : Kernel} {service : Service} (active : k.service? = some service)
    {letter : Letter} (fits : letter.payload.length ≤ Frame.maxPayload) (peer other : PeerId)
    (now : Nat) : (k.undergo (.send peer letter now)).session? other =
      if other = peer then
        some ((k.session service.host peer).undergo service.host (.post letter (.ofMillis now)))
      else k.session? other := by
  simp only [undergo, send, if_neg (Nat.not_lt.mpr fits)]
  rw [(k.session?_withSession service active peer other _).2.2]
  simp only [Session.undergo]
  split
  · split <;> simp_all
  · rfl

/-- A letter with a promise. -/
def pledging : Letter := { payload := [], promise := some ⟨"p"⟩ }

/-- The first promises for two peers wait under the same number. -/
theorem Kernel.pledges_collide (k : Kernel) {service : Service}
    (active : k.status = .active service) (empty : k.sessions = [])
    (given : service.host.options = Scene.home) : ∀ peer ∈ [alice, bob], ∃ session,
      ((k.undergo (.send alice pledging 0)).undergo (.send bob pledging 0)).session? peer =
        some session ∧ session.ledger.bindings = [(1, ⟨"p"⟩)] := by
  have fits : pledging.payload.length ≤ Frame.maxPayload := Nat.zero_le _
  have serving : k.service? = some service := by simp [service?, active]
  have still : (k.undergo (.send alice pledging 0)).service? = some service := by
    simp [service?, (k.undergo_keeps (.send alice pledging 0) rfl).status, active]
  have apart : bob ≠ alice := by decide
  have unknown (peer : PeerId) : k.session service.host peer =
      .fresh peer service.host.options := by simp [session, session?, empty]
  have untold : (k.undergo (.send alice pledging 0)).session service.host bob =
      .fresh bob service.host.options := by
    rw [← unknown bob, session, k.session?_sent serving fits, if_neg apart, session]
  have pledged (peer : PeerId) : ((Session.fresh peer service.host.options).undergo service.host
      (.post pledging (.ofMillis 0))).ledger.bindings = [(1, ⟨"p"⟩)] := by
    rw [given]
    rfl
  intro peer listed
  rw [session?_sent still fits, untold, k.session?_sent serving fits, unknown]
  rcases List.mem_pair.mp listed with rfl | rfl
  · exact ⟨_, by rw [if_neg apart.symm, if_pos rfl], pledged alice⟩
  · exact ⟨_, if_pos rfl, pledged bob⟩

/-- A node was handed a promise for each of two peers. Both wait under the same number, and the
peers are kept apart. -/
theorem Scene.isolates_colliding : ∃ s : Scene, ∃ n ∈ s.world.nodes,
    (∀ peer ∈ [alice, bob], ∃ session, n.kernel.session? peer = some session ∧
      session.ledger.bindings = [(1, ⟨"p"⟩)]) ∧ s.Isolates n := by
  obtain ⟨n, listed⟩ : ∃ n, n ∈ alone.world.nodes := ⟨_, List.mem_singleton_self _⟩
  have inactive : n.kernel.service? = none := by
    rw [List.mem_singleton.mp listed]
    rfl
  have regular := alone_reachable.tenanted.network
  have succeeds := n.kernel.start_able _ regular inactive home_startable
  have whole := n.kernel.start_whole alone.world.network regular [1] home inactive
  rcases start : n.kernel.start alone.world.network [1] home with ⟨result, k, rest⟩
  rw [start] at succeeds whole
  cases succeeds
  obtain ⟨service, _, active, empty, given, _⟩ := whole.active
  let first : Node := { n with kernel := k }
  let second : Node := { first with kernel := k.undergo (.send alice pledging 0) }
  have started : first ∈ (alone.world.start n [1] home).2.nodes := by
    simp only [World.start, start]
    exact World.mem_set_self listed rfl
  have told := World.mem_set_self (n := second) started rfl
  have reachable := ((alone_reachable.tail (.started n listed [1] home)).tail
    (.stirred _ (.called first started (.send alice pledging 0) rfl))).tail
      (.stirred _ (.called second told (.send bob pledging 0) rfl))
  have there := World.mem_set_self (n := { second with
    kernel := second.kernel.undergo (.send bob pledging 0) }) told rfl
  refine ⟨_, _, there, ?_, Scene.Reachable.isolates reachable _ there⟩
  exact k.pledges_collide active empty given

end Courier
