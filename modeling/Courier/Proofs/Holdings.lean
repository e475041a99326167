import Courier.Proofs.Confining
import Courier.Proofs.Listening
import Courier.Proofs.Scenes

/-!
# Who has which end of a connection

Each end of a connection is in the hands of one party at a time: a listener at which it waits, a
node, or a party without a kernel. A node has an end for greetings with whoever arrived, for an
attempt to connect to a peer, or for the session of a peer. An end that is born goes to the party
that dialed, or to a listener; from a listener it goes to whoever takes it up, and from greetings
to the session of the peer that the greeting names. No other way leads to a session.

A register tells who has which end, and what was read there while greetings were exchanged. What
the parties hold agrees with it. In a step of a node only its own ends change hands, and ends that
are born or wait; so all else is left in agreement.
-/

namespace Courier

open Handshake

/-- What a node has an end of a connection for. -/
inductive Role where
  | guest
  | dialed (peer : PeerId)
  | linked (peer : PeerId)
  deriving DecidableEq

/-- Who may have an end of a connection. -/
inductive Holder where
  | listener (number : Nat)
  | node (number : Nat) (role : Role)
  | visitor
  deriving DecidableEq

/-- Who has which end, and the pieces that were read there while greetings were exchanged. -/
structure Register where
  owner : Endpoint → Option Holder
  heard : Endpoint → List ByteArray

namespace Register

/-- An end goes to a holder. -/
def hand (r : Register) (e : Endpoint) (holder : Holder) : Register :=
  { r with owner := fun other => if other = e then some holder else r.owner other }

/-- Pieces are read. -/
def hear (r : Register) (pieces : Endpoint → List ByteArray) : Register :=
  { r with heard := fun e => r.heard e ++ pieces e }

/-- A greeted connection is one of a session of a node: the session has the end, and the greeting
that was read there names the peer of the session. -/
structure Met (r : Register) (number : Nat) (peer : PeerId) (greeted : Greeted) : Prop where
  owner : r.owner greeted.endpoint = some (.node number (.linked peer))
  named : greeted.hello.peer = peer
  finds : Finds (r.heard greeted.endpoint) greeted.hello greeted.surplus

/-- What a holder has is left alone. -/
def Spares (r after : Register) (holder : Holder) : Prop :=
  ∀ e, r.owner e = some holder → after.owner e = r.owner e ∧ after.heard e = r.heard e

end Register

/-- What an attempt to connect has agrees with the register. -/
structure Dialing.Held (r : Register) (number : Nat) (d : Dialing) : Prop where
  owner : ∀ e ∈ d.endpoints, r.owner e = some (.node number (.dialed d.peer))
  greeting : ∀ e due frame written, d.approach = some ⟨e, due, .greeting frame written⟩ →
    r.heard e = []
  reading : ∀ e due buffer, d.approach = some ⟨e, due, .reading buffer⟩ →
    Awaits (r.heard e) buffer
  met : ∀ greeted, d.outcome = some (.ok greeted) →
    greeted.hello.peer = d.peer ∧ Finds (r.heard greeted.endpoint) greeted.hello greeted.surplus

/-- What a node has agrees with the register. -/
structure Node.Held (r : Register) (n : Node) : Prop where
  guests : ∀ a ∈ n.arrivals, r.owner a.endpoint = some (.node n.number .guest) ∧
    a.welcome.Keeps (r.heard a.endpoint)
  dialings : ∀ d ∈ n.dialings, d.Held r n.number
  writers : ∀ w ∈ n.writers, r.owner w.endpoint = some (.node n.number (.linked w.peer))
  sessions : n.kernel.Confined (r.Met n.number)
  vacant : n.kernel.host? = none → n.kernel.sessions = []

/-- What waits at the listeners of a network agrees with the register, and nobody has what is not
born yet. -/
structure Network.Held (r : Register) (n : Network) : Prop where
  unborn : ∀ e : Endpoint, n.dialsMade < e.connection → r.owner e = none ∧ r.heard e = []
  waiting : ∀ l ∈ n.listeners, ∀ arrival ∈ l.waiting,
    r.owner arrival.1 = some (.listener l.number) ∧ r.heard arrival.1 = []
  once : ∀ l ∈ n.listeners, (l.waiting.map (·.1)).Nodup

/-- What everybody has agrees with the register of a scene. -/
structure Scene.Held (owner : Endpoint → Option Holder) (s : Scene) : Prop where
  network : s.world.network.Held ⟨owner, s.heard⟩
  nodes : ∀ n ∈ s.world.nodes, n.Held ⟨owner, s.heard⟩
  visitors : ∀ e ∈ s.ends, owner e = some .visitor

section Sparing

variable {r after : Register}

/-- A greeted connection stays that of a session whose ends are left alone. -/
theorem Register.Met.spared {number : Nat} {peer : PeerId} {greeted : Greeted}
    (met : r.Met number peer greeted)
    (spares : r.Spares after (.node number (.linked peer))) : after.Met number peer greeted := by
  obtain ⟨owner, heard⟩ := spares _ met.owner
  constructor
  · exact owner.trans met.owner
  · exact met.named
  · exact heard ▸ met.finds

/-- A session whose connections are known has connections only that are known to those who know
more. -/
theorem Session.Confined.mono {known more : Greeted → Prop} {s : Session}
    (confined : s.Confined known) (within : ∀ greeted, known greeted → more greeted) :
    s.Confined more where
  link link held := by
    obtain ⟨greeted, mine, same⟩ := confined.link link held
    exact ⟨greeted, within greeted mine, same⟩
  commands greeted listed := within greeted (confined.commands greeted listed)

/-- The sessions of a kernel whose ends are left alone keep their connections. -/
theorem Kernel.Confined.spared {number : Nat} {k : Kernel} (confined : k.Confined (r.Met number))
    (spares : ∀ peer, r.Spares after (.node number (.linked peer))) :
    k.Confined (after.Met number) := fun peer s held =>
  (confined peer s held).mono fun _ met => met.spared (spares peer)

/-- An attempt to connect whose ends are left alone agrees with the later register. -/
theorem Dialing.Held.spared {number : Nat} {d : Dialing} (held : d.Held r number)
    (spares : r.Spares after (.node number (.dialed d.peer))) : d.Held after number := by
  have heard (e : Endpoint) (mine : e ∈ d.endpoints) : after.heard e = r.heard e :=
    (spares e (held.owner e mine)).2
  constructor
  case owner => exact fun e mine => (spares e (held.owner e mine)).1.trans (held.owner e mine)
  case greeting =>
    intro e due frame written approach
    rw [heard e (by simp [endpoints, approach])]
    exact held.greeting e due frame written approach
  case reading =>
    intro e due buffer approach
    rw [heard e (by simp [endpoints, approach])]
    exact held.reading e due buffer approach
  case met =>
    intro greeted outcome
    rw [heard greeted.endpoint (by simp [endpoints, outcome])]
    exact held.met greeted outcome

section Attempts

variable {number : Nat} {d : Dialing} {e : Endpoint} {due : Nat}

/-- An attempt that has no end agrees with every register. -/
theorem Dialing.held_endless (unreached : d.approach = none)
    (unlinked : ∀ greeted, d.outcome ≠ some (.ok greeted)) : d.Held r number where
  owner e mine := by
    unfold endpoints at mine
    rw [unreached] at mine
    split at mine
    · next greeted ended => exact absurd ended (unlinked greeted)
    · cases mine
  greeting := by simp [unreached]
  reading := by simp [unreached]
  met greeted ended := absurd ended (unlinked greeted)

/-- An attempt that has not read anything yet. -/
theorem Dialing.held_greeting {frame : ByteArray} {written : Nat}
    (approach : d.approach = some ⟨e, due, .greeting frame written⟩) (pending : d.outcome = none)
    (owner : r.owner e = some (.node number (.dialed d.peer))) (nothing : r.heard e = []) :
    d.Held r number where
  owner o mine := by
    obtain rfl : o = e := by simpa [endpoints, approach, pending] using mine
    exact owner
  greeting o _ _ _ here := by
    cases approach.symm.trans here
    exact nothing
  reading _ _ _ here := by cases approach.symm.trans here
  met := by simp [pending]

/-- An attempt that waits for the rest of a greeting. -/
theorem Dialing.held_reading {buffer : ByteArray}
    (approach : d.approach = some ⟨e, due, .reading buffer⟩) (pending : d.outcome = none)
    (owner : r.owner e = some (.node number (.dialed d.peer)))
    (awaits : Awaits (r.heard e) buffer) : d.Held r number where
  owner o mine := by
    obtain rfl : o = e := by simpa [endpoints, approach, pending] using mine
    exact owner
  greeting _ _ _ _ here := by cases approach.symm.trans here
  reading o _ _ here := by
    cases approach.symm.trans here
    exact awaits
  met := by simp [pending]

/-- An attempt that has met its peer. -/
theorem Dialing.held_met {greeted : Greeted} (unreached : d.approach = none)
    (ended : d.outcome = some (.ok greeted))
    (owner : r.owner greeted.endpoint = some (.node number (.dialed d.peer)))
    (named : greeted.hello.peer = d.peer)
    (finds : Finds (r.heard greeted.endpoint) greeted.hello greeted.surplus) :
    d.Held r number where
  owner o mine := by
    obtain rfl : o = greeted.endpoint := by simpa [endpoints, unreached, ended] using mine
    exact owner
  greeting := by simp [unreached]
  reading := by simp [unreached]
  met other here := by
    cases ended.symm.trans here
    exact ⟨named, finds⟩

end Attempts

/-- What a node has is in agreement as long as it is left alone. -/
theorem Node.Held.spared {n : Node} (held : n.Held r)
    (spares : ∀ role, r.Spares after (.node n.number role)) : n.Held after where
  guests a listed := by
    obtain ⟨owner, keeps⟩ := held.guests a listed
    obtain ⟨same, heard⟩ := spares _ _ owner
    exact ⟨same.trans owner, heard ▸ keeps⟩
  dialings d listed := (held.dialings d listed).spared (spares _)
  writers w listed := (spares _ _ (held.writers w listed)).1.trans (held.writers w listed)
  sessions := held.sessions.spared fun _ => spares _
  vacant := held.vacant

/-- A network agrees with a later register if what its listeners have is left alone, and nobody has
what is not born yet. -/
theorem Network.Held.spared {n : Network} (held : n.Held r)
    (spares : ∀ number, r.Spares after (.listener number))
    (unborn : ∀ e : Endpoint, n.dialsMade < e.connection →
      after.owner e = r.owner e ∧ after.heard e = r.heard e) : n.Held after where
  unborn e later := by
    obtain ⟨owner, heard⟩ := unborn e later
    rw [owner, heard]
    exact held.unborn e later
  waiting l listed arrival among := by
    obtain ⟨owner, nothing⟩ := held.waiting l listed arrival among
    obtain ⟨same, heard⟩ := spares _ _ owner
    exact ⟨same.trans owner, heard.trans nothing⟩
  once := held.once

/-- A network agrees with a register still when bytes moved at some ends. -/
theorem Network.Held.touched {n rest : Network} {ends : Endpoint → Prop} (held : n.Held r)
    (touched : Touched ends n rest) : rest.Held r := by
  constructor
  · rw [touched.dialsMade]
    exact held.unborn
  · rw [touched.listeners]
    exact held.waiting
  · rw [touched.listeners]
    exact held.once

end Sparing

section Handing

variable {r after later : Register} {holder : Holder}

/-- Doing nothing leaves everything alone. -/
theorem Register.Spares.refl (r : Register) (holder : Holder) : r.Spares r holder :=
  fun _ _ => ⟨rfl, rfl⟩

/-- What is left alone twice is left alone. -/
theorem Register.Spares.trans (first : r.Spares after holder) (second : after.Spares later holder) :
    r.Spares later holder := by
  intro e mine
  obtain ⟨owner, heard⟩ := first e mine
  obtain ⟨same, onward⟩ := second e (owner.trans mine)
  exact ⟨same.trans owner, onward.trans heard⟩

/-- To hand over an end leaves alone whoever did not have it. -/
theorem Register.hand_spares {e : Endpoint} (other : r.owner e ≠ some holder) (taker : Holder) :
    r.Spares (r.hand e taker) holder := by
  intro o mine
  have apart : o ≠ e := by
    rintro rfl
    exact other mine
  simp [hand, apart]

/-- An end that went to a holder is with this holder. -/
theorem Register.hand_owner (r : Register) (e : Endpoint) (taker : Holder) :
    (r.hand e taker).owner e = some taker := by simp [hand]

/-- What is read comes behind what was read before. -/
theorem Register.hear_heard (r : Register) (pieces : Endpoint → List ByteArray) (e : Endpoint) :
    (r.hear pieces).heard e = r.heard e ++ pieces e := rfl

/-- Where nothing is read at the ends of a holder, what it has is left alone. -/
theorem Register.hear_spares {pieces : Endpoint → List ByteArray}
    (silent : ∀ e, r.owner e = some holder → pieces e = []) :
    r.Spares (r.hear pieces) holder := by
  intro e mine
  simp [hear, silent e mine]

end Handing

namespace Network

section Ends

variable {r : Register} {n rest : Network}

/-- What somebody has was born. -/
theorem Held.born (held : n.Held r) {e : Endpoint} {holder : Holder}
    (mine : r.owner e = some holder) : e.connection ≤ n.dialsMade := by
  by_contra later
  have none := (held.unborn e (Nat.lt_of_not_le later)).1
  rw [none] at mine
  cases mine

/-- Listeners that close, or begin with nobody waiting. -/
theorem Held.fewer (held : n.Held r)
    (listeners : ∀ l ∈ rest.listeners, l ∈ n.listeners ∨ l.waiting = [])
    (dialsMade : rest.dialsMade = n.dialsMade) : rest.Held r where
  unborn := by
    rw [dialsMade]
    exact held.unborn
  waiting l listed := by
    rcases listeners l listed with old | nobody
    · exact held.waiting l old
    · rw [nobody]
      exact nofun
  once l listed := by
    rcases listeners l listed with old | nobody
    · exact held.once l old
    · rw [nobody]
      exact List.nodup_nil

/-- An end that waits is taken up. It no longer waits at the listener, since an end waits there
once. -/
theorem Held.accepted {number : Nat} {arrival : Endpoint × String} (held : n.Held r)
    (taken : n.accept? number = some (arrival, rest)) (taker : Holder) :
    r.owner arrival.1 = some (.listener number) ∧ r.heard arrival.1 = [] ∧
      rest.Held (r.hand arrival.1 taker) := by
  unfold accept? at taken
  split at taken
  · next key found first waiting listened =>
    cases taken
    have listed := List.mem_of_find?_eq_some listened
    have named : found = number := by simpa using List.find?_some listened
    obtain ⟨owner, nothing⟩ := held.waiting _ listed arrival List.mem_cons_self
    obtain ⟨gone, once⟩ := List.nodup_cons.mp (held.once _ listed)
    rw [named] at owner
    refine ⟨owner, nothing, ?_⟩
    have kept (e : Endpoint) (apart : e ≠ arrival.1) :
        (r.hand arrival.1 taker).owner e = r.owner e := by simp [Register.hand, apart]
    constructor
    case unborn =>
      intro e later
      have apart : e ≠ arrival.1 := by
        rintro rfl
        exact absurd (held.born owner) (Nat.not_le_of_lt later)
      rw [kept e apart]
      exact held.unborn e later
    case waiting =>
      intro l among other inside
      obtain ⟨old, there, rfl⟩ := List.mem_map.mp among
      split at inside
      · next same =>
        obtain ⟨mine, quiet⟩ := held.waiting _ listed other (List.mem_cons_of_mem _ inside)
        have apart : other.1 ≠ arrival.1 := fun equal =>
          gone (List.mem_map.mpr ⟨other, inside, equal⟩)
        rw [kept other.1 apart, if_pos same, same, ← named]
        exact ⟨mine, quiet⟩
      · next different =>
        obtain ⟨mine, quiet⟩ := held.waiting old there other inside
        have apart : other.1 ≠ arrival.1 := by
          intro equal
          rw [equal, owner] at mine
          cases mine
          exact different rfl
        rw [kept other.1 apart, if_neg different]
        exact ⟨mine, quiet⟩
    case once =>
      intro l among
      obtain ⟨old, there, rfl⟩ := List.mem_map.mp among
      split
      · exact once
      · exact held.once old there
  · cases taken

/-- A dial that fails brings no end about. -/
theorem Held.refused {address : Address} {error : NetworkError} (held : n.Held r)
    (dialed : n.dial address = (.error error, rest)) : rest.Held r := by
  unfold dial at dialed
  split at dialed
  · cases dialed
    exact held
  · dsimp only at dialed
    split at dialed
    · cases dialed
    · cases dialed
      constructor
      · exact fun e later => held.unborn e (Nat.lt_of_succ_lt later)
      · exact held.waiting
      · exact held.once

/-- Of the two ends of a new connection one goes to whoever dialed, and one waits. Both ends have a
number that is new, so nothing that anybody has changes. -/
theorem Held.dialed {address : Address} {endpoint : Endpoint} (held : n.Held r)
    (regular : n.Regular) (dialed : n.dial address = (.ok endpoint, rest)) (holder : Holder) :
    ∃ owner, rest.Held { r with owner } ∧ owner endpoint = some holder ∧
      r.heard endpoint = [] ∧ ∀ other, r.Spares { r with owner } other := by
  unfold dial at dialed
  split at dialed
  · cases dialed
  · dsimp only at dialed
    split at dialed
    · next bound =>
      cases dialed
      obtain ⟨l, found⟩ := Option.isSome_iff_exists.mp bound
      have listed := List.mem_of_find?_eq_some found
      have named : l.key = address.transportPart := by simpa using List.find?_some found
      let after := (r.hand ⟨n.dialsMade + 1, .acceptor⟩ (.listener l.number)).hand
        ⟨n.dialsMade + 1, .dialer⟩ holder
      have kept (e : Endpoint) (other : e.connection ≠ n.dialsMade + 1) :
          after.owner e = r.owner e := by
        have first : e ≠ ⟨n.dialsMade + 1, .dialer⟩ := fun same => other (by rw [same])
        have second : e ≠ ⟨n.dialsMade + 1, .acceptor⟩ := fun same => other (by rw [same])
        simp [after, Register.hand, first, second]
      have old {e : Endpoint} {someone : Holder} (mine : r.owner e = some someone) :
          after.owner e = r.owner e := kept e (Nat.ne_of_lt (Nat.lt_succ_of_le (held.born mine)))
      have fresh := held.unborn ⟨n.dialsMade + 1, .dialer⟩ (Nat.lt_succ_self _)
      have awaited := held.unborn ⟨n.dialsMade + 1, .acceptor⟩ (Nat.lt_succ_self _)
      have accepting : after.owner ⟨n.dialsMade + 1, .acceptor⟩ = some (.listener l.number) := by
        simp [after, Register.hand]
      refine ⟨after.owner, ?_, ?_, fresh.2, fun other e mine => ⟨old mine, rfl⟩⟩
      · constructor
        case unborn =>
          intro e later
          have other : e.connection ≠ n.dialsMade + 1 := Nat.ne_of_gt later
          obtain ⟨nobody, nothing⟩ := held.unborn e (Nat.lt_of_succ_lt later)
          exact ⟨(kept e other).trans nobody, nothing⟩
        case waiting =>
          intro m among arrival inside
          obtain ⟨before, there, rfl⟩ := List.mem_map.mp among
          split at inside
          · next same =>
            obtain rfl : before = l :=
              List.inj_on_of_nodup_map regular.keys there listed (same.trans named.symm)
            rw [if_pos same]
            rcases List.mem_append.mp inside with early | new
            · obtain ⟨mine, quiet⟩ := held.waiting before there arrival early
              exact ⟨(old mine).trans mine, quiet⟩
            · rw [List.mem_singleton.mp new]
              exact ⟨accepting, awaited.2⟩
          · next different =>
            rw [if_neg different]
            obtain ⟨mine, quiet⟩ := held.waiting before there arrival inside
            exact ⟨(old mine).trans mine, quiet⟩
        case once =>
          intro m among
          obtain ⟨before, there, rfl⟩ := List.mem_map.mp among
          split
          · rw [List.map_append, List.map_singleton, ← List.concat_eq_append]
            apply (held.once before there).concat
            intro early
            obtain ⟨arrival, inside, same⟩ := List.mem_map.mp early
            obtain ⟨mine, _⟩ := held.waiting before there arrival inside
            rw [same, awaited.1] at mine
            cases mine
          · exact held.once before there
      · simp [after, Register.hand]
    · cases dialed

end Ends

end Network

/-- Only ends that a node has change hands, and pieces are read at such ends only. -/
structure Register.Own (r later : Register) (number : Nat) : Prop where
  others : ∀ holder, (∀ role, holder ≠ .node number role) → r.Spares later holder
  nobody : ∀ e, r.owner e = none → later.owner e = none ∧ later.heard e = r.heard e

/-- After a step of a node it agrees with a later register, and so does the network, and what
others have is left alone. -/
structure Node.Onward (r later : Register) (n after : Node) (rest : Network) : Prop where
  node : after.Held later
  network : rest.Held later
  others : ∀ number role, number ≠ n.number → r.Spares later (.node number role)
  visitors : r.Spares later .visitor

section Own

variable {r middle later : Register} {number : Nat}

/-- Doing nothing changes no hands. -/
theorem Register.Own.refl (r : Register) (number : Nat) : r.Own r number :=
  ⟨fun _ _ => .refl r _, fun _ nobody => ⟨nobody, rfl⟩⟩

/-- What changes hands within a node in two steps does so within the node. -/
theorem Register.Own.trans (first : r.Own middle number) (second : middle.Own later number) :
    r.Own later number where
  others holder apart := (first.others holder apart).trans (second.others holder apart)
  nobody e free := by
    obtain ⟨still, heard⟩ := first.nobody e free
    obtain ⟨ever, onward⟩ := second.nobody e still
    exact ⟨ever, onward.trans heard⟩

/-- Reading at the ends of a node leaves all others alone. -/
theorem Register.hear_own {pieces : Endpoint → List ByteArray}
    (within : ∀ e, pieces e ≠ [] → ∃ role, r.owner e = some (.node number role)) :
    r.Own (r.hear pieces) number where
  others holder apart := by
    apply hear_spares
    intro e mine
    by_contra heard
    obtain ⟨role, own⟩ := within e heard
    rw [mine] at own
    cases own
    exact apart role rfl
  nobody e free := by
    refine ⟨free, ?_⟩
    have silent : pieces e = [] := by
      by_contra heard
      obtain ⟨role, own⟩ := within e heard
      rw [free] at own
      cases own
    simp [hear, silent]

/-- An end that a node gives away was its own. -/
theorem Register.hand_own {e : Endpoint} {role : Role}
    (mine : r.owner e = some (.node number role)) (taker : Holder) :
    r.Own (r.hand e taker) number where
  others holder apart := by
    apply hand_spares
    rw [mine]
    rintro ⟨⟩
    exact apart role rfl
  nobody o free := by
    have other : o ≠ e := by
      rintro rfl
      rw [free] at mine
      cases mine
    simp [hand, other, free]

/-- What waits on a network is left alone when only a node changes its own. -/
theorem Network.Held.own {n : Network} (held : n.Held r) (own : r.Own later number) :
    n.Held later := by
  apply held.spared
  · exact fun number => own.others _ nofun
  · intro e unborn
    obtain ⟨free, _⟩ := held.unborn e unborn
    obtain ⟨still, heard⟩ := own.nobody e free
    exact ⟨still.trans free.symm, heard⟩

/-- A step that changes a node only at its own ends. -/
theorem Register.Own.onward {n after : Node} {network rest : Network} {ends : Endpoint → Prop}
    (own : r.Own later n.number) (held : network.Held r) (touched : network.Touched ends rest)
    (node : after.Held later) : n.Onward r later after rest where
  node := node
  network := (held.own own).touched touched
  others number role apart := own.others _ fun role' same => by
    cases same
    exact apart rfl
  visitors := own.others _ nofun

end Own

namespace Node

variable {r : Register} {now : Nat} {n after : Node} {network rest : Network}

/-- A node takes up a connection that waits. -/
theorem Held.accepts {listener : Nat} (held : n.Held r) (waiting : network.Held r)
    (stepped : n.accept? now listener network = some (after, rest)) : ∃ later,
      later.heard = r.heard ∧ n.Onward r later after rest := by
  obtain ⟨⟨arrival, left⟩, taken, same⟩ := Option.map_eq_some_iff.mp stepped
  cases same
  obtain ⟨owner, nothing, network⟩ := waiting.accepted taken (.node n.number .guest)
  have spares (holder : Holder) (other : holder ≠ .listener listener) :
      r.Spares (r.hand arrival.1 (.node n.number .guest)) holder := by
    apply Register.hand_spares
    rw [owner]
    exact fun same => other (Option.some.inj same).symm
  have kept := held.spared fun role => spares (.node n.number role) nofun
  refine ⟨r.hand arrival.1 (.node n.number .guest), rfl, ?_, network,
    fun _ _ _ => spares _ nofun, spares _ nofun⟩
  refine { kept with guests := fun a listed => ?_ }
  rcases List.mem_append.mp listed with old | new
  · exact kept.guests a old
  · rw [List.mem_singleton.mp new]
    refine ⟨r.hand_owner _ _, ?_⟩
    have unheard : (r.hand arrival.1 (.node n.number .guest)).heard arrival.1 = [] := nothing
    rw [unheard]
    exact Awaits.begin

/-- The pieces that a node reads at its own ends. -/
theorem Held.hears (held : n.Held r) (network : Network) (activity : Activity) (e : Endpoint)
    (heard : n.hears network activity e ≠ []) :
    ∃ role, r.owner e = some (.node n.number role) := by
  cases activity with
  | accept | session | writer => exact absurd rfl heard
  | welcome endpoint =>
    simp only [Node.hears] at heard
    split at heard
    · next here =>
      cases found : n.arrival? endpoint with
      | none => simp [found] at heard
      | some a =>
        have owner := (held.guests a (List.mem_of_find?_eq_some found)).1
        rw [arrival?_endpoint found] at owner
        exact ⟨_, here ▸ owner⟩
    · exact absurd rfl heard
  | dialing peer =>
    simp only [Node.hears] at heard
    split at heard
    · exact absurd rfl heard
    · next d found =>
      split at heard
      · next mine => exact ⟨_, (held.dialings d (List.mem_of_find?_eq_some found)).owner e mine⟩
      · exact absurd rfl heard

section Greeting

variable {endpoint : Endpoint} {a : Arrival} {later : Register}

/-- What is read at an end in a step of its greetings is the piece read there; nothing is read at
any other end. -/
theorem hears_welcome (found : n.arrival? endpoint = some a) (network : Network) (e : Endpoint) :
    n.hears network (.welcome endpoint) e =
      if e = endpoint then a.welcome.hears endpoint network else [] := by
  simp [Node.hears, found]

/-- The greetings on an accepted connection go on or are over, and everything else that the node
has is left alone. -/
theorem Held.greets {deeds : List Deed} (held : n.Held r)
    (greets : n.Greets endpoint network deeds after rest)
    (spares : ∀ role, role ≠ .guest → r.Spares later (.node n.number role))
    (hands : ∀ deed ∈ deeds, Kernel.Hands (later.Met n.number) deed)
    (guests : ∀ b ∈ after.arrivals, later.owner b.endpoint = some (.node n.number .guest) ∧
      b.welcome.Keeps (later.heard b.endpoint)) : after.Held later := by
  have same := greets.same
  have number : after.number = n.number := by rw [same]
  constructor
  case guests => exact number ▸ guests
  case dialings =>
    rw [same]
    exact fun d listed => (held.dialings d listed).spared (spares _ nofun)
  case writers =>
    rw [same]
    intro w listed
    have mine := held.writers w listed
    exact (spares (.linked w.peer) nofun _ mine).1.trans mine
  case sessions =>
    rw [number, greets.kernel]
    exact (held.sessions.spared fun _ => spares _ nofun).live held.vacant _ hands
  case vacant =>
    rw [greets.kernel]
    exact Kernel.live_vacant held.vacant _

/-- What is known of accepted connections after a step of the greetings on one of them, unless
this is handed over. -/
theorem Held.guests_onward (held : n.Held r) (found : n.arrival? endpoint = some a)
    (greets : n.Greets endpoint network (a.welcome.deeds endpoint) after rest)
    (stepped : n.welcome? now endpoint network = some (after, rest))
    (same : ∀ e, (e = endpoint → after.arrival? endpoint ≠ none) → later.owner e = r.owner e ∧
      later.heard e = (r.hear (n.hears network (.welcome endpoint))).heard e) :
    ∀ b ∈ after.arrivals, later.owner b.endpoint = some (.node n.number .guest) ∧
      b.welcome.Keeps (later.heard b.endpoint) := by
  intro b listed
  rcases greets.arrivals b listed with ⟨old, other⟩ | new
  · obtain ⟨mine, kept⟩ := held.guests b old
    obtain ⟨owner, heard⟩ := same b.endpoint fun same => absurd same other
    have unread := hears_welcome found network b.endpoint
    rw [if_neg other] at unread
    rw [owner, heard, Register.hear_heard, unread, List.append_nil]
    exact ⟨mine, kept⟩
  · have there := arrival?_endpoint new
    have named := arrival?_endpoint found
    obtain ⟨mine, keeps⟩ := held.guests a (List.mem_of_find?_eq_some found)
    obtain ⟨owner, heard⟩ := same b.endpoint fun _ => by simp [new]
    obtain ⟨place, due, welcome⟩ := a
    cases named
    obtain ⟨_, _, welcomed⟩ := welcome?_goes found stepped
    rw [new] at welcomed
    rw [owner, heard, there, Register.hear_heard, hears_welcome found network, if_pos rfl]
    exact ⟨mine, welcomed.keeps keeps⟩

/-- Greetings are exchanged on an accepted connection: in the end it goes to the session of the
peer that the greeting names. -/
theorem Held.welcomes (held : n.Held r) (waiting : network.Held r)
    (stepped : n.welcome? now endpoint network = some (after, rest)) : ∃ later,
      later.heard = (r.hear (n.hears network (.welcome endpoint))).heard ∧
        n.Onward r later after rest := by
  obtain ⟨a, found, greets⟩ := welcome?_greets stepped
  obtain ⟨owner, keeps⟩ := held.guests a (List.mem_of_find?_eq_some found)
  rw [arrival?_endpoint found] at owner keeps
  have pieces := hears_welcome found network
  have heard := Register.hear_own (held.hears network (.welcome endpoint))
  have silent (role : Role) (other : role ≠ .guest) :
      r.Spares (r.hear (n.hears network (.welcome endpoint))) (.node n.number role) := by
    apply Register.hear_spares
    intro e mine
    have apart : e ≠ endpoint := by
      rintro rfl
      rw [owner] at mine
      cases mine
      exact other rfl
    rw [pieces, if_neg apart]
  by_cases handed : ∃ greeted, .attach greeted ∈ a.welcome.deeds endpoint
  · obtain ⟨_, attached⟩ := handed
    have gone := greets.handed _ attached
    obtain ⟨_, ⟨⟩, _⟩ | ⟨hello, surplus, frame, written, ⟨⟩, welcome⟩ := Welcome.mem_deeds attached
    have mine : (r.hear (n.hears network (.welcome endpoint))).owner endpoint =
        some (.node n.number .guest) := owner
    have own := heard.trans (Register.hand_own mine (.node n.number (.linked hello.peer)))
    refine ⟨(r.hear (n.hears network (.welcome endpoint))).hand endpoint
      (.node n.number (.linked hello.peer)), rfl, ?_⟩
    apply own.onward waiting greets.network
    apply held.greets greets
    case spares =>
      intro role other
      apply (silent role other).trans
      apply Register.hand_spares
      rw [mine]
      rintro ⟨⟩
      exact other rfl
    case hands =>
      intro deed listed
      refine ⟨?_, ?_⟩
      · rintro greeted rfl
        obtain ⟨_, ⟨⟩, _⟩ | ⟨_, _, _, _, ⟨⟩, same⟩ := Welcome.mem_deeds listed
        rw [welcome] at same keeps
        cases same
        constructor
        case owner => exact Register.hand_owner _ _ _
        case named => rfl
        case finds =>
          have unread : n.hears network (.welcome endpoint) endpoint = [] := by
            rw [pieces, if_pos rfl, welcome]
            rfl
          have met : Finds (r.heard endpoint ++ n.hears network (.welcome endpoint) endpoint)
              hello surplus := by
            rw [unread, List.append_nil]
            exact keeps
          exact met
      · rintro peer time greeted rfl
        obtain ⟨_, ⟨⟩, _⟩ | ⟨_, _, _, _, ⟨⟩, _⟩ := Welcome.mem_deeds listed
    case guests =>
      apply held.guests_onward found greets stepped
      intro e present
      have apart : e ≠ endpoint := fun same => present same gone
      simp [Register.hand, Register.hear, apart]
  · refine ⟨_, rfl, heard.onward waiting greets.network ?_⟩
    apply held.greets greets silent
    case hands =>
      intro deed listed
      refine ⟨?_, ?_⟩
      · rintro greeted rfl
        exact absurd ⟨greeted, listed⟩ handed
      · rintro peer time greeted rfl
        obtain ⟨_, ⟨⟩, _⟩ | ⟨_, _, _, _, ⟨⟩, _⟩ := Welcome.mem_deeds listed
    case guests =>
      exact held.guests_onward found greets stepped fun e _ => ⟨rfl, rfl⟩

end Greeting

/-- An attempt that is put in its place is the only one for its peer. -/
theorem mem_setDialing {d e : Dialing} (listed : e ∈ (n.setDialing d).dialings) :
    e ∈ n.dialings ∧ e.peer ≠ d.peer ∨ e = d := by
  obtain ⟨old, there, rfl⟩ := List.mem_map.mp listed
  split
  · exact .inr rfl
  · next other => exact .inl ⟨there, other⟩

/-- An attempt to connect moves on, and everything else that the node has is left alone. -/
theorem Held.setDialing {later : Register} (held : n.Held r) (d : Dialing)
    (spares : ∀ role, role ≠ .dialed d.peer → r.Spares later (.node n.number role))
    (dialing : d.Held later n.number) : (n.setDialing d).Held later where
  guests a listed := by
    obtain ⟨owner, keeps⟩ := held.guests a listed
    obtain ⟨same, heard⟩ := spares .guest nofun _ owner
    exact ⟨same.trans owner, heard ▸ keeps⟩
  dialings e listed := by
    rcases mem_setDialing listed with ⟨old, other⟩ | rfl
    · apply (held.dialings e old).spared
      exact spares _ fun same => other (Role.dialed.inj same)
    · exact dialing
  writers w listed := by
    have mine := held.writers w listed
    exact (spares (.linked w.peer) nofun _ mine).1.trans mine
  sessions := held.sessions.spared fun peer => spares (.linked peer) nofun
  vacant := held.vacant

/-- An attempt to connect has the end that it is greeting at, and what it read there comes to a
greeting that names the peer. While nothing is read the register stays as it is, up to the ends that
are born. -/
theorem Held.dials {peer : PeerId} (held : n.Held r) (waiting : network.Held r)
    (regular : network.Regular) (stepped : n.dialing? now peer network = some (after, rest)) :
    ∃ later, later.heard = (r.hear (n.hears network (.dialing peer))).heard ∧
      n.Onward r later after rest := by
  obtain ⟨d, found, later, same, named, moves⟩ := dialing?_moves stepped
  have there : d.peer = peer := by simpa using List.find?_some found
  have has := held.dialings d (List.mem_of_find?_eq_some found)
  have pieces (e : Endpoint) : n.hears network (.dialing peer) e =
      if e ∈ d.endpoints then d.hears network else [] := by simp [Node.hears, found]
  subst there
  rw [same]
  -- While nothing is read the register is the same up to the ends that are born.
  have quiet (nothing : d.hears network = []) :
      r.hear (n.hears network (.dialing d.peer)) = r := by
    simp [Register.hear, pieces, nothing]
  have unread (nothing : d.hears network = []) (left : Network) (ends : Endpoint → Prop)
      (touched : network.Touched ends left) (dialing : later.Held r n.number) :
      ∃ onward, onward.heard = (r.hear (n.hears network (.dialing d.peer))).heard ∧
        n.Onward r onward (n.setDialing later) left := by
    refine ⟨r, by rw [quiet nothing], (Register.Own.refl r n.number).onward waiting touched ?_⟩
    exact held.setDialing later (fun role _ => .refl r _) dialing
  have owns {e : Endpoint} {due : Nat} {introduction : Introduction}
      (approach : d.approach = some ⟨e, due, introduction⟩) :
      r.owner e = some (.node n.number (.dialed d.peer)) :=
    has.owner e (by simp [Dialing.endpoints, approach])
  generalize hears : d.hears network = heard at moves
  cases moves with
  | exhausted unreached pending =>
    apply unread hears network _ (.refl (fun _ => False) network)
    exact Dialing.held_endless unreached (by simp)
  | missed address remaining failure rest unreached pending given =>
    rcases dialed : network.dial address with ⟨result, left⟩
    rw [dialed] at given
    have idle (onward : Register) :
        ({ d with remaining, failure } : Dialing).Held onward n.number :=
      Dialing.held_endless unreached (by simp [pending])
    cases result with
    | error error =>
      refine ⟨r, by rw [quiet hears], ?_, (waiting.refused dialed).touched given,
        fun _ _ _ => .refl r _, .refl r _⟩
      exact held.setDialing _ (fun role _ => .refl r _) (idle r)
    | ok endpoint =>
      obtain ⟨owner, network', _, _, spares⟩ := waiting.dialed regular dialed .visitor
      refine ⟨{ r with owner }, by rw [quiet hears], ?_, network'.touched given,
        fun _ _ _ => spares _, spares _⟩
      exact held.setDialing _ (fun role _ => spares _) (idle _)
  | reached address remaining endpoint due frame rest unreached pending dialed =>
    obtain ⟨owner, network', mine, nothing, spares⟩ :=
      waiting.dialed regular dialed (.node n.number (.dialed d.peer))
    refine ⟨{ r with owner }, by rw [quiet hears], ?_, network', fun _ _ _ => spares _, spares _⟩
    apply held.setDialing _ fun role _ => spares _
    exact Dialing.held_greeting rfl pending mine nothing
  | passed approach failure rest approached pending touched =>
    apply unread hears rest _ touched
    exact Dialing.held_endless rfl (by simp [pending])
  | wrote endpoint due frame written more rest greeting pending touched =>
    apply unread hears rest _ touched
    have nothing := has.greeting endpoint due frame written greeting
    exact Dialing.held_greeting rfl pending (owns greeting) nothing
  | greeted endpoint due frame written greeting pending =>
    apply unread hears network _ (.refl (fun _ => False) network)
    refine Dialing.held_reading rfl pending (owns greeting) ?_
    rw [has.greeting endpoint due frame written greeting]
    exact Awaits.begin
  | heard endpoint due buffer bytes rest reading pending incomplete touched =>
    have own := Register.hear_own (held.hears network (.dialing d.peer))
    refine ⟨_, rfl, own.onward waiting touched (held.setDialing _ ?_ ?_)⟩
    · intro role other
      apply Register.hear_spares
      intro e mine
      rw [pieces, if_neg]
      intro among
      rw [has.owner e among] at mine
      cases mine
      exact other rfl
    · refine Dialing.held_reading rfl pending (owns reading) ?_
      have mine : endpoint ∈ d.endpoints := by simp [Dialing.endpoints, reading]
      rw [Register.hear_heard, pieces, if_pos mine, hears]
      exact (has.reading endpoint due buffer reading).more incomplete bytes
  | met endpoint due buffer hello surplus reading pending taken meant =>
    apply unread hears network _ (.refl (fun _ => False) network)
    have finds := (has.reading endpoint due buffer reading).finds hello surplus taken
    have named : hello.peer = d.peer := by
      unfold mismatch? at meant
      split at meant
      · next same => exact same
      · cases meant
    exact Dialing.held_met rfl rfl (owns reading) named finds

/-- A node does what the session of a peer asks for at ends that this session has. -/
theorem Held.performs {peer : PeerId} {effects : List Effect} (held : n.Held r)
    (performed : Performed now peer n network effects after rest)
    (own : ∀ effect ∈ effects, effect.Confined (r.Met n.number peer)) : after.Held r := by
  have number : after.number = n.number := by rw [performed.same]
  constructor
  case guests =>
    rw [performed.same]
    exact held.guests
  case dialings =>
    rw [number]
    intro d listed
    rcases performed.begun d listed with old | ⟨_, unreached, pending⟩
    · exact held.dialings d old
    · exact Dialing.held_endless unreached (by simp [pending])
  case writers =>
    rw [number]
    intro w listed
    rcases performed.opened w listed with ⟨v, old, endpoint, named⟩ | ⟨mine, effect, asked, here⟩
    · rw [← endpoint, ← named]
      exact held.writers v old
    · obtain ⟨greeted, met, same⟩ := own effect asked w.endpoint here
      rw [← same, mine]
      exact met.owner
  case sessions =>
    rw [number, performed.kernel]
    apply held.sessions.live held.vacant
    exact List.forall_mem_map.mpr fun sending _ => Kernel.hands_send sending now
  case vacant =>
    rw [performed.kernel]
    exact Kernel.live_vacant held.vacant _

/-- The session of a peer takes up an event. What the node has agrees with a register in which the
end of an attempt that is over went to the session. -/
theorem Held.turned {peer : PeerId} {occasion : Occasion} {later : Register}
    {sendings : List Sending} {event : Event} (held : n.Held r)
    (performed : Performed now peer { n.ready now peer sendings event with
      kernel := ((n.ready now peer sendings event).kernel.turn peer now event).1 }
        (n.drawn peer network occasion)
        ((n.ready now peer sendings event).kernel.turn peer now event).2 after rest)
    (spares : ∀ role, role ≠ .dialed peer → r.Spares later (.node n.number role))
    (handed : ∀ greeted, event = .dialed (.ok greeted) → later.Met n.number peer greeted)
    (dialings : ∀ d ∈ (n.cleared peer event).dialings, d.Held later n.number) :
    after.Held later := by
  obtain ⟨news, _, ready⟩ := ready_eq now peer n sendings event
  have kept : n.kernel.Confined (later.Met n.number) :=
    held.sessions.spared fun other => spares (.linked other) nofun
  have sent : (n.kernel.live (sendings.map (·.deed now))).Confined (later.Met n.number) := by
    apply kept.live held.vacant
    exact List.forall_mem_map.mpr fun sending _ => Kernel.hands_send sending now
  have vacant := Kernel.live_vacant held.vacant (sendings.map (·.deed now))
  rw [ready, cleared_eq] at performed
  refine performs ?_ performed (sent.turn peer now event handed)
  constructor
  case guests =>
    intro a listed
    obtain ⟨owner, keeps⟩ := held.guests a listed
    obtain ⟨same, heard⟩ := spares .guest nofun _ owner
    exact ⟨same.trans owner, heard ▸ keeps⟩
  case dialings => exact dialings
  case writers =>
    intro w listed
    have owner := held.writers w listed
    exact (spares (.linked w.peer) nofun _ owner).1.trans owner
  case sessions =>
    apply sent.undergo vacant (.turn peer now event)
    refine ⟨nofun, ?_⟩
    rintro _ _ greeted ⟨⟩
    exact handed greeted rfl
  case vacant => exact Kernel.undergo_vacant _ vacant (.turn peer now event)

/-- The session of a peer takes up what an occasion brings: when an attempt to connect is over,
its end goes to the session. -/
theorem Held.takes {peer : PeerId} {occasion : Occasion} (held : n.Held r)
    (waiting : network.Held r)
    (stepped : n.session? now peer occasion network = some (after, rest)) : ∃ later,
      later.heard = r.heard ∧ n.Onward r later after rest := by
  obtain ⟨sendings, event, upcoming, performed⟩ := session?_turns stepped
  have touched := ((drawn_touched peer n network occasion).mono fun _ _ => trivial).trans
    (performed.network.mono fun _ _ => trivial)
  by_cases ended : ∃ greeted, event = .dialed (.ok greeted)
  · obtain ⟨greeted, rfl⟩ := ended
    obtain ⟨d, listed, named, outcome⟩ := upcoming?_dialed upcoming
    have has := held.dialings d listed
    have owner := has.owner greeted.endpoint (by simp [Dialing.endpoints, outcome])
    rw [named] at owner
    have spares (role : Role) (other : role ≠ .dialed peer) :
        r.Spares (r.hand greeted.endpoint (.node n.number (.linked peer)))
          (.node n.number role) := by
      apply Register.hand_spares
      rw [owner]
      rintro ⟨⟩
      exact other rfl
    have own := Register.hand_own owner (.node n.number (.linked peer))
    refine ⟨r.hand greeted.endpoint (.node n.number (.linked peer)), rfl, ?_⟩
    apply own.onward waiting touched
    apply held.turned performed spares
    case handed =>
      rintro _ ⟨⟩
      obtain ⟨met, finds⟩ := has.met greeted outcome
      exact ⟨r.hand_owner _ _, met.trans named, finds⟩
    case dialings =>
      intro e left
      obtain ⟨old, other⟩ := List.mem_filter.mp left
      apply (held.dialings e old).spared
      apply spares
      intro same
      rw [Role.dialed.inj same] at other
      simp at other
  · refine ⟨r, rfl, ?_⟩
    apply (Register.Own.refl r n.number).onward waiting touched
    apply held.turned performed fun role _ => .refl r _
    case handed => exact fun greeted same => absurd ⟨greeted, same⟩ ended
    case dialings =>
      intro d left
      apply held.dialings d
      cases event with
      | dialed outcome => exact (List.mem_filter.mp left).1
      | _ => exact left

/-- A writer stays at its end. -/
theorem Held.writes {endpoint : Endpoint} (held : n.Held r) (waiting : network.Held r)
    (stepped : n.writer? now endpoint network = some (after, rest)) :
    n.Onward r r after rest := by
  obtain ⟨w, later, found, same, place, named, lives, touched⟩ := writer?_writes stepped
  have listed := List.mem_of_find?_eq_some found
  apply (Register.Own.refl r n.number).onward waiting touched
  rw [same]
  constructor
  case guests => exact held.guests
  case dialings => exact held.dialings
  case writers =>
    intro v among
    obtain ⟨old, there, rfl⟩ := List.mem_map.mp among
    split
    · rw [place, named]
      exact held.writers w listed
    · exact held.writers old there
  case sessions =>
    change after.kernel.Confined _
    rw [lives]
    apply held.sessions.live held.vacant
    intro deed listed
    unfold Writer.deeds at listed
    split at listed
    · cases listed
    · split at listed
      · rw [List.mem_singleton.mp listed]
        exact ⟨nofun, nofun⟩
      · cases listed
  case vacant =>
    change after.kernel.host? = none → after.kernel.sessions = []
    rw [lives]
    exact Kernel.live_vacant held.vacant _

end Node

end Courier
