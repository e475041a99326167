import Courier.Proofs.Books

/-!
# A refused letter leaves no trace

A letter is either refused, and then the whole kernel is as it was, or it is queued, and then
only the session of its peer changed: the letter has the next number and stands last, one
binding is new if it carries a promise, and at most the oldest message had to make room.

The session of a peer comes about before the letter is judged. That nothing of it remains
after a refusal takes two facts about all that a kernel may live through: a peer has one
session, so that putting a session back changes nothing, and a session that has just come
about has room, so that only a session that was there before refuses.
-/

namespace Courier

/-- What stays of the messages, the mark and the tally when room is made for one more: all of
them, or all but the oldest message of a full outbox that drops the oldest. -/
inductive Ledger.Spares (l : Ledger) : List (Entry Parcel) → Nat → Tally → Prop where
  | all (room : l.outbox.size < l.outbox.capacity) :
    Spares l l.outbox.entries l.outbox.marked l.tally
  | allButOldest (oldest : Entry Parcel) (rest : List (Entry Parcel))
    (policy : l.outbox.overflow = .dropOldest) (full : l.outbox.size = l.outbox.capacity)
    (front : l.outbox.entries = oldest :: rest) :
    Spares l rest (l.outbox.marked - 1) { l.tally with dropped := l.tally.dropped + 1 }

/-- What a ledger is after a letter was queued. Its promise, if it has one, is bound under a
number that no other promise is bound under. -/
structure Ledger.Queues (l : Ledger) (letter : Letter) (now : Duration) (after : Ledger) :
    Prop where
  unbound : ∀ binding ∈ l.bindings, binding.1 ≠ l.nextBinding
  changes : ∃ kept marked tally, l.Spares kept marked tally ∧ after = { l with
    window := { l.window with sent := l.window.sent + 1 }
    outbox := { l.outbox with
      entries := kept ++ [⟨l.window.sent + 1,
        .message letter.payload (letter.promise.map fun _ => l.nextBinding), now⟩]
      marked }
    bindings := l.bindings ++ (letter.promise.map (l.nextBinding, ·)).toList
    nextBinding := l.nextBinding + letter.promise.toList.length
    tally }

namespace Ledger

/-- Making room spares all messages but the oldest at most. -/
theorem makeRoom_spares (l : Ledger) (made : Outbox Parcel) (evicted : Option (Entry Parcel))
    (room : l.outbox.makeRoom = .ok (made, evicted)) (positive : 0 < l.outbox.capacity)
    (within : l.outbox.size ≤ l.outbox.capacity) :
    l.Spares made.entries made.marked (if evicted.isSome then l.tally.discarded 1 else l.tally) := by
  obtain ⟨free, rfl, rfl⟩ | ⟨crowded, policy, rfl, rfl⟩ := l.outbox.makeRoom_cases made evicted room
  · exact .all free
  · have full : l.outbox.size = l.outbox.capacity := Nat.le_antisymm within crowded
    obtain ⟨oldest, rest, front⟩ := List.exists_cons_of_length_pos (full ▸ positive)
    rw [front]
    exact .allButOldest oldest rest policy full front

/-- A letter that a regular ledger accepts is queued in it. -/
theorem enqueueLetter_queues {limit : Nat} (l queued : Ledger) (letter : Letter) (now : Duration)
    (positive : 0 < limit) (regular : l.Regular limit)
    (accepted : l.enqueueLetter letter now = .ok queued) : l.Queues letter now queued := by
  refine ⟨fun binding listed => Nat.ne_of_lt (regular.bound binding listed), ?_⟩
  obtain ⟨made, evicted, _, room, rfl, rfl⟩ := l.enqueueLetter_eq queued letter now accepted
  have roomy : 0 < l.outbox.capacity := regular.capacity ▸ positive
  have within : l.outbox.size ≤ l.outbox.capacity := regular.capacity ▸ regular.within
  have capacity := (l.outbox.makeRoom_below made evicted room roomy within).1
  have overflow := (l.outbox.makeRoom_keeps made evicted room).1
  refine ⟨_, _, _, l.makeRoom_spares made evicted room roomy within, ?_⟩
  simp only [bind_eq, Outbox.enqueue, capacity, overflow]

end Ledger

/-- A session that has just come about refuses no letter. -/
theorem Session.fresh_accepts (peer : PeerId) (options : Options) (letter : Letter)
    (now : Duration) : ∃ posted, (fresh peer options).post letter now = .ok posted := by
  have free : 0 < max options.maxQueue 1 := Nat.lt_of_lt_of_le Nat.one_pos (Nat.le_max_right _ _)
  simp [fresh, post, Ledger.fresh, Ledger.enqueueLetter, Ledger.makeRoom, Outbox.makeRoom,
    Outbox.empty, Outbox.size, free]

namespace Kernel

/-- The peers that a kernel has sessions for. -/
def peers (k : Kernel) : List PeerId := k.sessions.map (·.1)

/-- The peers of a kernel after a deed: the same, one more that was not among them, or none. -/
inductive Meets (before : List PeerId) : List PeerId → Prop where
  | same : Meets before before
  | one (peer : PeerId) (new : peer ∉ before) : Meets before (before ++ [peer])
  | none : Meets before []

/-- A kernel has a session for just the peers it lists. -/
theorem mem_peers (k : Kernel) (peer : PeerId) :
    peer ∈ k.peers ↔ (k.session? peer).isSome := by
  simp [peers, session?]

/-- Putting a session in its place adds its peer, unless it is there already. -/
theorem peers_put (k : Kernel) (peer : PeerId) (s : Session) :
    (k.put peer s).peers = if peer ∈ k.peers then k.peers else k.peers ++ [peer] := by
  have renamed (entry : PeerId × Session) :
      (if entry.1 = peer then (peer, s) else entry).1 = entry.1 := by
    split
    · next same => exact same.symm
    · rfl
  simp only [mem_peers]
  unfold put
  split
  · simp [peers, renamed]
  · simp [peers]

/-- Looking up a session adds its peer, unless it is there already. -/
theorem peers_ensure (k : Kernel) (host : Host) (peer : PeerId) :
    (k.ensure host peer).2.peers = if peer ∈ k.peers then k.peers else k.peers ++ [peer] := by
  unfold ensure
  split
  · next s held => rw [if_pos ((k.mem_peers peer).mpr (held ▸ rfl))]
  · exact k.peers_put peer _

/-- An action on a session adds its peer, unless it is there already. -/
theorem peers_withSession {α : Type} (k : Kernel) (service : Service)
    (active : k.service? = some service) (peer : PeerId)
    (act : Session → Except CommsError α × Session) :
    (k.withSession peer act).2.peers =
      if peer ∈ k.peers then k.peers else k.peers ++ [peer] := by
  have known : peer ∈ (k.ensure service.host peer).2.peers := by
    rw [mem_peers, (k.session?_ensure service.host peer peer).2.2, if_pos rfl]
    rfl
  simp only [withSession, active]
  rw [peers_put, if_pos known, peers_ensure]

/-- Adding a peer unless it is there already adds one new peer at most. -/
theorem Meets.ofPeer (before : List PeerId) (peer : PeerId) :
    Meets before (if peer ∈ before then before else before ++ [peer]) := by
  split
  · exact .same
  · next new => exact .one peer new

/-- Putting a session in its place adds one new peer at most. -/
theorem put_meets (k : Kernel) (peer : PeerId) (s : Session) :
    Meets k.peers (k.put peer s).peers := k.peers_put peer s ▸ .ofPeer _ _

/-- An action on a session adds one new peer at most. -/
theorem withSession_meets {α : Type} (k : Kernel) (peer : PeerId)
    (act : Session → Except CommsError α × Session) :
    Meets k.peers (k.withSession peer act).2.peers := by
  cases active : k.service? with
  | none =>
    simp only [withSession, active]
    exact .same
  | some service => exact k.peers_withSession service active peer act ▸ .ofPeer _ _

/-- A start leaves the peers as they are, or there are none. -/
theorem start_meets (k : Kernel) (network : Network) (seed : List UInt8) (options : Options) :
    Meets k.peers (k.start network seed options).2.1.peers := by
  rcases k.start_cases network seed options with ⟨_, _, _, failed⟩ | ⟨_, _, _, succeeded, _⟩
  · rw [failed]
    exact .same
  · rw [succeeded]
    exact .none

/-- Tending to the session of a peer adds one new peer at most. -/
theorem Tended.meets {k after : Kernel} {peer : PeerId} (tended : k.Tended peer after) :
    Meets k.peers after.peers := by
  cases tended with
  | same => exact .same
  | met host => exact k.peers_ensure host peer ▸ .ofPeer _ _
  | called act => exact k.withSession_meets peer act
  | put random s => exact put_meets { k with random } peer s

/-- A deed meets one new peer at most. -/
theorem undergo_meets (k : Kernel) (deed : Deed) : Meets k.peers (k.undergo deed).peers := by
  cases about : deed.peer? with
  | some peer => exact (k.undergo_tended deed peer about).meets
  | none =>
    cases deed with
    | start network seed options => exact k.start_meets network seed options
    | beginStop network =>
      simp only [undergo, beginStop]
      split <;> exact .same
    | finishStop =>
      simp only [undergo, finishStop]
      split
      · exact .none
      · exact .same
    | resetBackoffs =>
      simp only [undergo, resetBackoffs]
      split
      · exact .same
      · have same : (k.sessions.map fun entry => (entry.1, entry.2.resetBackoff)).map (·.1) =
            k.peers := List.map_map
        exact same ▸ .same
    | _ => cases about

/-- Peers are listed once each still. -/
theorem Meets.nodup {before after : List PeerId} (meets : Meets before after)
    (distinct : before.Nodup) : after.Nodup := by
  cases meets with
  | same => exact distinct
  | one peer new =>
    rw [← List.concat_eq_append]
    exact distinct.concat new
  | none => exact List.nodup_nil

/-- What a kernel keeps through all that it lives through: its options leave room in an outbox,
each of its sessions lived a life of its own, and a peer has one session. -/
structure Proper (k : Kernel) : Prop where
  founded : k.Founded
  stems : k.Stems
  distinct : k.peers.Nodup

/-- A kernel that was never active. -/
theorem proper_idle (random : Random.Stream) : ({ random } : Kernel).Proper where
  founded := ⟨fun _ running => (nomatch running), fun _ => rfl⟩
  stems := fun _ running => nomatch running
  distinct := List.nodup_nil

/-- A deed keeps a kernel proper. -/
theorem proper_undergo (k : Kernel) (proper : k.Proper) (deed : Deed) : (k.undergo deed).Proper :=
  ⟨k.undergo_founded proper.founded deed, k.stems_undergo proper.stems deed,
    (k.undergo_meets deed).nodup proper.distinct⟩

/-- A kernel stays proper all through a life. -/
theorem proper_live (k : Kernel) (proper : k.Proper) (life : List Deed) : (k.live life).Proper := by
  induction life generalizing k with
  | nil => exact proper
  | cons deed rest inductionHypothesis =>
    exact inductionHypothesis _ (k.proper_undergo proper deed)

/-- A kernel lists no other session of a peer than the one that is found. -/
theorem session?_of_mem (k : Kernel) (distinct : k.peers.Nodup) (peer : PeerId) (s : Session)
    (listed : (peer, s) ∈ k.sessions) : k.session? peer = some s := by
  have known : (k.session? peer).isSome := (k.mem_peers peer).mp (List.mem_map_of_mem listed)
  obtain ⟨t, held⟩ := Option.isSome_iff_exists.mp known
  obtain ⟨entry, found, rfl⟩ := Option.map_eq_some_iff.mp held
  have same : entry.1 = peer := by simpa using List.find?_some found
  have one := List.inj_on_of_nodup_map distinct (List.mem_of_find?_eq_some found) listed same
  rw [held, one]

/-- Putting a session back where it was changes nothing. -/
theorem put_back (k : Kernel) (distinct : k.peers.Nodup) (peer : PeerId) (s : Session)
    (held : k.session? peer = some s) : k.put peer s = k := by
  have known : (k.session? peer).isSome := held ▸ rfl
  have same : (k.sessions.map fun entry => if entry.1 = peer then (peer, s) else entry) =
      k.sessions.map id := by
    refine List.map_congr_left fun entry listed => ?_
    obtain ⟨other, t⟩ := entry
    by_cases own : other = peer
    · subst own
      have found := k.session?_of_mem distinct other t listed
      rw [if_pos rfl, Option.some.inj (held.symm.trans found)]
      rfl
    · exact if_neg own
  unfold put
  rw [if_pos known, same, List.map_id]

/-- The session of a peer is regular, also when it has yet to come about. -/
theorem Proper.session_regular {k : Kernel} (proper : k.Proper) (host : Host)
    (running : k.host? = some host) (peer : PeerId) :
    0 < host.options.maxQueue ∧ (k.session host peer).ledger.Regular host.options.maxQueue := by
  have positive := proper.founded.room host running
  refine ⟨positive, ?_⟩
  have fresh := Ledger.fresh_regular peer host.options positive
  cases held : k.session? peer with
  | none =>
    rw [session, held]
    exact fresh
  | some s =>
    obtain ⟨life, rfl⟩ := proper.stems host running peer s held
    rw [session, held]
    exact Session.regular_live host _ positive fresh life

/-- What a kernel is after a letter was queued: the session of its peer, which may have come
about for that, is woken up with the letter in its ledger. -/
structure Queues (k : Kernel) (peer : PeerId) (letter : Letter) (now : Nat) (after : Kernel) :
    Prop where
  status : after.status = k.status
  random : after.random = k.random
  peers : after.peers = if peer ∈ k.peers then k.peers else k.peers ++ [peer]
  others : ∀ other, other ≠ peer → after.session? other = k.session? other
  own : ∃ service queued, k.service? = some service ∧
    (k.session service.host peer).ledger.Queues letter (.ofMillis now) queued ∧
    after.session? peer =
      some { k.session service.host peer with ledger := queued, woken := true }

/-- Putting a session in its place draws no random number. -/
theorem put_random (k : Kernel) (peer : PeerId) (s : Session) :
    (k.put peer s).random = k.random := by
  unfold put
  split <;> rfl

/-- An action on a session draws no random number. -/
theorem withSession_random {α : Type} (k : Kernel) (peer : PeerId)
    (act : Session → Except CommsError α × Session) :
    (k.withSession peer act).2.random = k.random := by
  unfold withSession
  split
  · rfl
  · dsimp only
    rw [put_random]
    unfold ensure
    split
    · rfl
    · exact k.put_random peer _

/-- A refused letter leaves the kernel as it was. -/
theorem send_refused (k : Kernel) (distinct : k.peers.Nodup) (peer : PeerId) (letter : Letter)
    (now : Nat) (error : CommsError) (refused : (k.send peer letter now).1 = .error error) :
    (k.send peer letter now).2 = k := by
  unfold send at refused ⊢
  split at refused
  · next large => rw [if_pos large]
  · next small =>
    rw [if_neg small]
    cases active : k.service? with
    | none => simp only [withSession, active]
    | some service =>
      simp only [withSession, active] at refused ⊢
      cases held : k.session? peer with
      | none =>
        -- A session that came about for the letter would have queued it.
        obtain ⟨posted, accepts⟩ :=
          Session.fresh_accepts peer service.host.options letter (.ofMillis now)
        simp only [ensure, held, accepts] at refused
        cases refused
      | some s =>
        simp only [ensure, held] at refused ⊢
        cases outcome : s.post letter (.ofMillis now) with
        | error _ => exact k.put_back distinct peer s held
        | ok posted =>
          simp only [outcome] at refused
          cases refused

/-- A full outbox that takes nothing new refuses a letter. -/
example : (((started ⟨⟨alice, ⟨0, 1⟩, { maxQueue := 1, overflow := .rejectNew }⟩, [], []⟩
      quiet).live [.send bob ⟨[1], none⟩ 0]).send bob ⟨[2], some ⟨"answer"⟩⟩ 1).1 =
    .error (.queueAtCapacity bob 1) := rfl

/-- A letter that is accepted is queued. -/
theorem send_accepted (k : Kernel) (proper : k.Proper) (peer : PeerId) (letter : Letter)
    (now : Nat) (accepted : (k.send peer letter now).1 = .ok ()) :
    k.Queues peer letter now (k.send peer letter now).2 := by
  unfold send at accepted ⊢
  split at accepted
  · cases accepted
  · next small =>
    rw [if_neg small]
    cases active : k.service? with
    | none =>
      simp only [withSession, active] at accepted
      cases accepted
    | some service =>
      have running := k.host?_of_service? service active
      obtain ⟨positive, regular⟩ := proper.session_regular service.host running peer
      rw [(k.session?_withSession service active peer peer _).1] at accepted
      refine ⟨(k.session?_withSession service active peer peer _).2.1,
        k.withSession_random peer _, k.peers_withSession service active peer _,
        fun other apart => ?_, ?_⟩
      · rw [(k.session?_withSession service active peer other _).2.2, if_neg apart]
      · rw [(k.session?_withSession service active peer peer _).2.2, if_pos rfl]
        cases outcome : (k.session service.host peer).post letter (.ofMillis now) with
        | error _ =>
          simp only [outcome] at accepted
          cases accepted
        | ok posted =>
          obtain ⟨queued, given, rfl⟩ := Session.post_eq _ letter _ posted outcome
          exact ⟨service, queued, active,
            Ledger.enqueueLetter_queues _ queued letter _ positive regular given, rfl⟩

/-- In whatever state a kernel may be, a letter is queued with all that this takes, or refused
without a trace. -/
theorem live_send_allOrNothing (random : Random.Stream) (life : List Deed) (peer : PeerId)
    (letter : Letter) (now : Nat) :
    match (({ random } : Kernel).live life).send peer letter now with
    | (.error _, after) => after = ({ random } : Kernel).live life
    | (.ok (), after) => (({ random } : Kernel).live life).Queues peer letter now after := by
  have proper := proper_live _ (proper_idle random) life
  generalize ({ random } : Kernel).live life = k at proper ⊢
  have refused := k.send_refused proper.distinct peer letter now
  have accepted := k.send_accepted proper peer letter now
  split
  · next error after outcome =>
    rw [outcome] at refused
    exact refused error rfl
  · next after outcome =>
    rw [outcome] at accepted
    exact accepted rfl

end Kernel

end Courier
