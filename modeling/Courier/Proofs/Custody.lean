import Courier.Proofs.Holdings
import Courier.Proofs.Tenancy

/-!
# What everybody has, at any time

In every scene that comes about, what the parties have agrees with a register. So an end of a
connection is never in two hands, and the connection that a session holds came to it from
greetings that named its peer, as the pieces show that were read at its end meanwhile.
-/

namespace Courier

open Network

/-- A kernel without sessions has no connection. -/
theorem Kernel.confined_of_vacant {known : PeerId → Greeted → Prop} {k : Kernel}
    (empty : k.sessions = []) : k.Confined known := by
  intro peer s held
  simp [session?, empty] at held

/-- All sessions are told to end. -/
theorem Kernel.session?_told (k : Kernel) (peer : PeerId) : ({ k with
    sessions := k.sessions.map fun entry => (entry.1, entry.2.push .shutdown) } :
      Kernel).session? peer = (k.session? peer).map (·.push .shutdown) := by
  simp only [session?, List.find?_map, Function.comp_def, Option.map_map]

/-- Sessions that are told to end have what they had. -/
theorem Kernel.Confined.told {known : PeerId → Greeted → Prop} {k : Kernel}
    (confined : k.Confined known) : ({ k with
      sessions := k.sessions.map fun entry => (entry.1, entry.2.push .shutdown) } :
        Kernel).Confined known := by
  intro peer s found
  rw [k.session?_told] at found
  obtain ⟨old, held, rfl⟩ := Option.map_eq_some_iff.mp found
  have before := confined peer old held
  obtain ⟨commands, same, which⟩ := old.push_eq .shutdown
  have fewer (greeted : Greeted) (listed : .attach greeted ∈ commands) :
      .attach greeted ∈ old.commands := by
    rcases which with rfl | rfl
    · exact listed
    · simpa using listed
  rw [same]
  exact ⟨before.link, fun greeted listed => before.commands greeted (fewer greeted listed)⟩

namespace Node

variable {r : Register} {now : Nat} {n after : Node} {network rest : Network}

/-- A step of a node. -/
theorem Held.step? {activity : Activity} (held : n.Held r) (waiting : network.Held r)
    (regular : network.Regular) (stepped : n.step? now network activity = some (after, rest)) :
    ∃ later, later.heard = (r.hear (n.hears network activity)).heard ∧
      n.Onward r later after rest := by
  have silent (unheard : ∀ e, n.hears network activity e = []) :
      (r.hear (n.hears network activity)).heard = r.heard := by
    simp [Register.hear, unheard]
  cases activity with
  | accept listener =>
    rw [silent fun _ => rfl]
    exact held.accepts waiting stepped
  | welcome endpoint => exact held.welcomes waiting stepped
  | dialing peer =>
    simp only [Node.step?] at stepped
    exact held.dials waiting regular stepped
  | session peer =>
    rw [silent fun _ => rfl]
    exact held.takes waiting stepped
  | writer endpoint => exact ⟨r, (silent fun _ => rfl).symm, held.writes waiting stepped⟩

/-- A node that was just set up has nothing. -/
theorem held_new (n : Node) (arrivals : n.arrivals = []) (dialings : n.dialings = [])
    (writers : n.writers = []) (sessions : n.kernel.sessions = []) : n.Held r where
  guests := by simp [arrivals]
  dialings := by simp [dialings]
  writers := by simp [writers]
  sessions := Kernel.confined_of_vacant sessions
  vacant _ := sessions

/-- What a node has agrees with the register as long as its kernel does. -/
theorem Held.kernel (held : n.Held r) (k : Kernel) (sessions : k.Confined (r.Met n.number))
    (vacant : k.host? = none → k.sessions = []) : ({ n with kernel := k } : Node).Held r :=
  { held with sessions, vacant }

/-- Whoever ends a session at once lets go of what the session has. -/
theorem Held.aborts (held : n.Held r) (now : Nat) (waiting : network.Held r) (peer : PeerId) :
    n.Onward r r (n.abort now peer network).1 (n.abort now peer network).2 := by
  have performed := abort_performed now peer n network
  apply (Register.Own.refl r n.number).onward waiting performed.network
  refine performs ?_ performed (held.sessions.abort peer)
  exact { held with
    sessions := held.sessions.undergo held.vacant (.abort peer) ⟨nofun, nofun⟩
    vacant := n.kernel.undergo_vacant held.vacant (.abort peer) }

end Node

namespace Scene

section Steps

variable {owner : Endpoint → Option Holder} {s t : Scene} {n : Node}

/-- A node goes on, and the others are left alone. -/
theorem Held.set (held : s.Held owner) {m : Node} {rest : Network} {later : Register}
    (onward : n.Onward ⟨owner, s.heard⟩ later m rest) (number : m.number = n.number)
    (world : t.world = { s.world.set m with network := rest }) (heard : t.heard = later.heard)
    (ends : t.ends = s.ends) : t.Held later.owner := by
  have register : (⟨later.owner, t.heard⟩ : Register) = later := by rw [heard]
  constructor
  case network =>
    rw [register, world]
    exact onward.network
  case nodes =>
    rw [register, world]
    intro k there
    rcases World.mem_set there with ⟨old, other⟩ | rfl
    · exact (held.nodes k old).spared fun role => onward.others k.number role (number ▸ other)
    · exact onward.node
  case visitors =>
    rw [ends]
    intro e mine
    exact (onward.visitors e (held.visitors e mine)).1.trans (held.visitors e mine)

/-- A node is put in the place of one that had the same or more. -/
theorem Held.still (held : s.Held owner) {m : Node} (rest : Network)
    (node : m.Held ⟨owner, s.heard⟩) (network : rest.Held ⟨owner, s.heard⟩)
    (number : m.number = n.number) (world : t.world = { s.world.set m with network := rest })
    (heard : t.heard = s.heard) (ends : t.ends = s.ends) : t.Held owner :=
  have onward : n.Onward ⟨owner, s.heard⟩ ⟨owner, s.heard⟩ m rest :=
    ⟨node, network, fun _ _ _ => .refl _ _, .refl _ _⟩
  held.set onward number world heard ends

/-- Nodes that have the same, or are gone. -/
theorem Held.fewer (held : s.Held owner) (network : t.world.network = s.world.network)
    (nodes : ∀ m ∈ t.world.nodes, ∃ n ∈ s.world.nodes, m = { n with reports := m.reports })
    (heard : t.heard = s.heard) (ends : t.ends = s.ends) : t.Held owner where
  network := by
    rw [network, heard]
    exact held.network
  nodes m listed := by
    obtain ⟨n, there, same⟩ := nodes m listed
    have has := held.nodes n there
    rw [heard, same]
    exact { has with }
  visitors := ends ▸ held.visitors

/-- Whatever stirs, what everybody has is in agreement with a register. -/
theorem Held.stirs (held : s.Held owner) (regular : s.world.network.Regular)
    (stirs : s.Stirs t) : ∃ later, t.Held later := by
  cases stirs with
  | acted n listed activity after rest stepped =>
    obtain ⟨later, heard, onward⟩ :=
      (held.nodes n listed).step? held.network regular stepped
    refine ⟨later.owner, held.set onward ?_ rfl heard.symm rfl⟩
    rw [Node.step?_same stepped]
  | passed later onward => exact ⟨owner, held.network, held.nodes, held.visitors⟩
  | called n listed deed call =>
    have has := held.nodes n listed
    have hands : Kernel.Hands (Register.Met ⟨owner, s.heard⟩ n.number) deed := by
      constructor
      · rintro greeted rfl
        cases call
      · rintro peer now greeted rfl
        cases call
    have node := has.kernel _ (has.sessions.undergo has.vacant deed hands)
      (n.kernel.undergo_vacant has.vacant deed)
    exact ⟨owner, held.still s.world.network node held.network rfl rfl rfl rfl⟩
  | aborted n listed peer =>
    have onward := (held.nodes n listed).aborts (s.world.clock n) held.network peer
    refine ⟨owner, held.set onward ?_ rfl rfl rfl⟩
    rw [(Node.abort_performed (s.world.clock n) peer n s.world.network).same]
  | buried =>
    refine ⟨owner, held.fewer rfl (fun m listed => ?_) rfl rfl⟩
    exact ⟨m, (List.mem_filter.mp listed).1, rfl⟩
  | forgot =>
    refine ⟨owner, held.fewer rfl (fun m listed => ?_) rfl rfl⟩
    obtain ⟨n, there, rfl⟩ := List.mem_map.mp listed
    exact ⟨n, there, rfl⟩

/-- A network that changed while no node did, and no visitor got an end. -/
theorem Held.around (held : s.Held owner)
    (network : t.world.network.Held ⟨owner, s.heard⟩) (nodes : t.world.nodes = s.world.nodes)
    (heard : t.heard = s.heard) (ends : t.ends ⊆ s.ends) : t.Held owner where
  network := heard ▸ network
  nodes := by
    rw [nodes, heard]
    exact held.nodes
  visitors e mine := held.visitors e (ends mine)

/-- A visitor comes by an end that nobody has or that waits. -/
theorem Held.visited {e : Endpoint} (held : s.Held owner) {later : Endpoint → Option Holder}
    (network : t.world.network.Held ⟨later, s.heard⟩) (mine : later e = some .visitor)
    (spares : ∀ holder, (∀ number, holder ≠ .listener number) →
      Register.Spares ⟨owner, s.heard⟩ ⟨later, s.heard⟩ holder)
    (nodes : t.world.nodes = s.world.nodes) (heard : t.heard = s.heard)
    (ends : t.ends = e :: s.ends) : t.Held later where
  network := heard ▸ network
  nodes := by
    rw [nodes, heard]
    exact fun n listed => (held.nodes n listed).spared fun role => spares _ nofun
  visitors := by
    rw [ends, List.forall_mem_cons]
    refine ⟨mine, fun o among => ?_⟩
    have old := held.visitors o among
    exact (spares .visitor nofun o old).1.trans old

/-- A visit leaves what everybody has in agreement with a register. A visitor has its own ends only,
and those that were born for it. -/
theorem Held.visits (held : s.Held owner) (regular : s.world.network.Regular)
    (visits : s.Visits t) : ∃ later, t.Held later := by
  have same : s.ends ⊆ s.ends := List.Subset.refl _
  cases visits with
  | dialed address endpoint rest dialed =>
    obtain ⟨later, network, mine, _, spares⟩ := held.network.dialed regular dialed .visitor
    exact ⟨later, held.visited network mine (fun holder _ => spares holder) rfl rfl rfl⟩
  | refused address error rest dialed =>
    exact ⟨owner, held.around (held.network.refused dialed) rfl rfl same⟩
  | listened text number key rest bound =>
    have listens := listen_ok bound
    refine ⟨owner, held.around (held.network.fewer (fun l listed => ?_) ?_) rfl rfl same⟩
    · rw [listens.eq] at listed
      rcases List.mem_append.mp listed with old | new
      · exact .inl old
      · rw [List.mem_singleton.mp new]
        exact .inr rfl
    · rw [listens.eq]
  | unlistened number posted =>
    obtain ⟨fewer, made⟩ := s.world.network.unlistenAll_fewer [number]
    have network := held.network.fewer (fun l listed => .inl (fewer listed)) made
    exact ⟨owner, held.around network rfl rfl same⟩
  | accepted number posted arrival rest taken =>
    obtain ⟨waited, _, network⟩ := held.network.accepted taken .visitor
    refine ⟨_, held.visited network (Register.hand_owner _ _ _) (fun holder other => ?_) rfl rfl
      rfl⟩
    apply Register.hand_spares
    rw [waited]
    exact fun same => other number (Option.some.inj same).symm
  | wrote e mine bytes start count rest wrote =>
    have touched := Network.write_touched _ e _ _ _ wrote
    exact ⟨owner, held.around (held.network.touched touched) rfl rfl same⟩
  | read e mine limit =>
    have touched := s.world.network.read_touched e limit
    exact ⟨owner, held.around (held.network.touched touched) rfl rfl same⟩
  | shut e mine =>
    have touched := s.world.network.change_touched e fun c =>
      c.setOutward (c.outward e.side).close e.side
    exact ⟨owner, held.around (held.network.touched touched) rfl rfl same⟩
  | hungUp e mine =>
    have touched := s.world.network.hangUp_touched e
    exact ⟨owner, held.around (held.network.touched touched) rfl rfl (List.filter_subset_self _)⟩

/-- A kernel that starts has no sessions, or those that it had, and the network has the ends that
it had. -/
theorem Held.started (held : s.Held owner) (regular : s.world.network.Regular)
    (listed : n ∈ s.world.nodes) (seed : List UInt8) (options : Options)
    (world : t.world = (s.world.start n seed options).2) (heard : t.heard = s.heard)
    (ends : t.ends = s.ends) : t.Held owner := by
  have has := held.nodes n listed
  rcases start : n.kernel.start s.world.network seed options with ⟨result, after, rest⟩
  have world : t.world = { s.world.set { n with kernel := after } with network := rest } := by
    rw [world]
    simp [World.start, start]
  have put (sessions : after.Confined (Register.Met ⟨owner, s.heard⟩ n.number))
      (vacant : after.host? = none → after.sessions = [])
      (network : rest.Held ⟨owner, s.heard⟩) : t.Held owner :=
    held.still rest (has.kernel after sessions vacant) network rfl world heard ends
  by_cases inactive : n.kernel.service? = none
  · have whole := n.kernel.start_whole s.world.network regular seed options inactive
    rw [start] at whole
    cases result with
    | ok =>
      obtain ⟨service, bound, active, empty, _, _, binds⟩ := whole.active
      obtain ⟨made, same⟩ := binds.eq
      apply put (Kernel.confined_of_vacant empty) fun _ => empty
      apply held.network.fewer
      · rw [same]
        intro l among
        rcases List.mem_append.mp among with old | new
        · exact .inl old
        · obtain ⟨entry, _, rfl⟩ := List.mem_map.mp new
          exact .inr rfl
      · rw [same]
    | error error =>
      obtain ⟨unstarted, _⟩ := whole
      apply put
      · intro peer sess found
        apply has.sessions peer sess
        rw [← found, Kernel.session?, Kernel.session?, unstarted.sessions]
      · rw [(Kernel.host?_of_status unstarted.status).1, unstarted.sessions]
        exact has.vacant
      · rw [unstarted.network]
        exact held.network.fewer (fun l among => .inl among) rfl
  · have active := Option.isSome_iff_ne_none.mpr inactive
    cases start.symm.trans (n.kernel.start_active s.world.network seed options active)
    exact put has.sessions has.vacant held.network

/-- A step of a scene leaves what everybody has in agreement with a register. Nobody gets an end by
a node that is set up, started, withdrawn, dropped or finished; so the register stays, except for
what stirs and what is visited. -/
theorem Held.step (held : s.Held owner) (regular : s.world.network.Regular)
    (step : s.Step t) : ∃ later, t.Held later := by
  cases step with
  | stirred t stirs => exact held.stirs regular stirs
  | visited t visits => exact held.visits regular visits
  | added name application seed =>
    refine ⟨owner, held.network, fun m listed => ?_, held.visitors⟩
    rcases List.mem_append.mp listed with old | new
    · exact held.nodes m old
    · rw [List.mem_singleton.mp new]
      exact Node.held_new _ rfl rfl rfl rfl
  | started n listed seed options =>
    exact ⟨owner, held.started regular listed seed options rfl rfl rfl⟩
  | withdrew n listed =>
    have has := held.nodes n listed
    have kernel : (n.kernel.beginStop s.world.network).1.sessions = n.kernel.sessions ∧
        (n.kernel.beginStop s.world.network).1.host? = n.kernel.host? := by
      unfold Kernel.beginStop
      split
      · next service active => exact ⟨rfl, by simp [Kernel.host?, active]⟩
      · exact ⟨rfl, rfl⟩
    have network : (n.kernel.beginStop s.world.network).2.Held ⟨owner, s.heard⟩ := by
      unfold Kernel.beginStop
      split
      · next service active =>
        obtain ⟨fewer, made⟩ := s.world.network.unlistenAll_fewer service.listeners
        exact held.network.fewer (fun l among => .inl (fewer among)) made
      · exact held.network
    have dismissed := ({ n with kernel := (n.kernel.beginStop s.world.network).1 } :
      Node).dismiss_touched (n.kernel.beginStop s.world.network).2
    refine ⟨owner, held.still (withdrawing n s.world.network).2
      (m := (withdrawing n s.world.network).1) ?_ (network.touched dismissed) rfl rfl rfl rfl⟩
    constructor
    case guests => exact nofun
    case dialings => exact has.dialings
    case writers => exact has.writers
    case sessions =>
      intro peer sess found
      apply has.sessions peer sess
      rw [← found]
      change _ = (n.kernel.beginStop s.world.network).1.session? peer
      rw [Kernel.session?, Kernel.session?, kernel.1]
    case vacant =>
      change (n.kernel.beginStop s.world.network).1.host? = none →
        (n.kernel.beginStop s.world.network).1.sessions = []
      rw [kernel.1, kernel.2]
      exact has.vacant
  | dropped n listed =>
    have has := held.nodes n listed
    have told := has.sessions.told
    have vacant (stopped : n.kernel.host? = none) :
        (n.kernel.sessions.map fun entry => (entry.1, entry.2.push .shutdown)) = [] :=
      List.map_eq_nil_iff.mpr (has.vacant stopped)
    refine ⟨owner, held.still s.world.network ?_ held.network rfl rfl rfl rfl⟩
    exact { has with sessions := told, vacant }
  | finished n listed =>
    have has := held.nodes n listed
    refine ⟨owner, held.still s.world.network (has.kernel n.kernel.finishStop ?_ ?_)
      held.network rfl rfl rfl rfl⟩
    · unfold Kernel.finishStop
      split
      · exact Kernel.confined_of_vacant rfl
      · exact has.sessions
    · unfold Kernel.finishStop
      split
      · exact fun _ => rfl
      · exact has.vacant

/-- In every scene that comes about, what everybody has agrees with a register. -/
theorem Reachable.held (reachable : s.Reachable) : ∃ owner, s.Held owner := by
  induction reachable with
  | refl =>
    refine ⟨fun _ => none, ?_, nofun, nofun⟩
    exact ⟨fun _ _ => ⟨rfl, rfl⟩, nofun, nofun⟩
  | tail earlier step inductionHypothesis =>
    obtain ⟨owner, held⟩ := inductionHypothesis
    exact held.step (Reachable.tenanted earlier).network step

end Steps

end Scene

end Courier
