import Courier.Proofs.Tenancy

/-!
# Starting and stopping, all or nothing

A kernel that starts binds all of its addresses, which nobody held and which differ, or it changes
nothing: neither its stage nor what is bound. Once it is active it refuses to start again. When it
stops, just the addresses that it bound are free again, and while its sessions come to their end
nothing else is bound or freed; so it can start with its options again.
-/

namespace Courier

open Network

/-- The node of a number has stopped and can become active with these options again, on a network
where these addresses are bound. -/
structure World.Restartable (w : World) (number : Nat) (options : Options) (bound : List String) :
    Prop where
  bound : w.network.bound = bound
  again : ∃ n ∈ w.nodes, n.number = number ∧ n.kernel.status = .stopped ∧
    ∀ seed : List UInt8, seed ≠ [] → (w.start n seed options).1 = .ok ()

namespace Kernel

/-- What a start does to a kernel that is not active. -/
def StartsWhole (k : Kernel) (network : Network) (seed : List UInt8) (options : Options) : Prop :=
  match k.start network seed options with
  | (.ok (), after, rest) =>
    (∃ service, after.status = .active service ∧ service.host.options = options) ∧
      options.keys.Nodup ∧ (∀ key ∈ options.keys, key ∉ network.bound) ∧
      rest.bound = network.bound ++ options.keys
  | (.error _, after, rest) =>
    after.status = k.status ∧ after.sessions = k.sessions ∧ rest.listeners = network.listeners ∧
      ¬ Startable network seed options

/-- A kernel that is not active starts with all of its addresses bound, or stays as it is. -/
theorem startsWhole (k : Kernel) (network : Network) (regular : network.Regular)
    (inactive : k.service? = none) (seed : List UInt8) (options : Options) :
    k.StartsWhole network seed options := by
  have whole := k.start_whole network regular seed options inactive
  unfold StartsWhole
  rcases start : k.start network seed options with ⟨_ | _, after, rest⟩ <;> rw [start] at whole
  · obtain ⟨unstarted, unable⟩ := whole
    refine ⟨unstarted.status, unstarted.sessions, ?_, unable⟩
    rw [unstarted.network]
  · have able := whole.startable regular
    obtain ⟨service, bound, active, _, given, _, binds⟩ := whole.active
    exact ⟨⟨service, active, given⟩, able.once, able.free, binds.bound⟩

/-- A kernel that can start does. -/
theorem start_able (k : Kernel) (network : Network) (regular : network.Regular)
    (inactive : k.service? = none) {seed : List UInt8} {options : Options}
    (able : Startable network seed options) : (k.start network seed options).1 = .ok () := by
  have whole := k.start_whole network regular seed options inactive
  rcases start : k.start network seed options with ⟨_ | _, after, rest⟩
  · rw [start] at whole
    exact absurd able whole.2
  · rfl

end Kernel

namespace Scene

/-- What it means for an active node to stop. -/
structure Vacates (s : Scene) (n : Node) (options : Options) : Prop where
  held : ∀ key ∈ options.keys, key ∈ s.world.network.bound
  /-- The listeners close at once. -/
  freed : (s.withdrawn n.number).world.network.bound =
    s.world.network.bound.filter (· ∉ options.keys)
  /-- Whatever goes on until the sessions have ended. -/
  meanwhile : ∀ t, (s.withdrawn n.number).GoesOn t → (t.world.finish n.number).Restartable n.number
    options (s.world.network.bound.filter (· ∉ options.keys))
  stops : ∀ w, s.world.stop n = some w → w.Restartable n.number options
    (s.world.network.bound.filter (· ∉ options.keys))

/-- Starting and stopping are all or nothing. -/
structure AllOrNothing (s : Scene) : Prop where
  starts : ∀ k : Kernel, k.service? = none → ∀ seed options,
    k.StartsWhole s.world.network seed options
  refuses : ∀ k : Kernel, k.service?.isSome → ∀ seed options,
    k.start s.world.network seed options = (.error .alreadyInitialized, k, s.world.network)
  stops : ∀ n ∈ s.world.alive, ∀ service, n.kernel.status = .active service →
    s.Vacates n service.host.options

section Stopping

variable {s : Scene} {n : Node} {service : Service}

/-- The addresses of a service are those that its listeners are bound to. -/
theorem Tenanted.own_keys (tenanted : s.Tenanted) (listed : n ∈ s.world.nodes)
    (active : n.kernel.status = .active service) (entry : Nat × String)
    (bound : entry ∈ s.world.network.bindings) :
    entry.1 ∈ service.listeners ↔ entry.2 ∈ service.host.options.keys := by
  obtain ⟨own, listeners, keys, within⟩ := (tenanted.housed n listed service active).bound
  have numbers := tenanted.network.numbers
  have texts := tenanted.network.keys
  rw [bound_eq] at texts
  constructor
  · intro held
    rw [← listeners] at held
    obtain ⟨other, mine, same⟩ := List.mem_map.mp held
    have equal := List.inj_on_of_nodup_map numbers (within other mine) bound same
    rw [← keys, ← equal]
    exact List.mem_map_of_mem mine
  · intro held
    rw [← keys] at held
    obtain ⟨other, mine, same⟩ := List.mem_map.mp held
    have equal := List.inj_on_of_nodup_map texts (within other mine) bound same
    rw [← listeners, ← equal]
    exact List.mem_map_of_mem mine

/-- A node that withdraws frees the addresses of its options, and no others. -/
theorem Tenanted.freed (tenanted : s.Tenanted) (listed : n ∈ s.world.nodes)
    (active : n.kernel.status = .active service) :
    (withdrawing n s.world.network).2.bound =
      s.world.network.bound.filter (· ∉ service.host.options.keys) := by
  obtain ⟨_, bindings, _⟩ := withdrawing_bindings n s.world.network
  rw [bound_eq, bindings, bound_eq, List.filter_map, Kernel.posts_of_active active]
  congr 1
  apply List.filter_congr
  intro entry bound
  have own := tenanted.own_keys listed active entry bound
  simp [own]

/-- Stopping a node changes nothing but the node and what its kernel bound on the network. -/
theorem withdrawn_eq (s : Scene) (once : (s.world.nodes.map (·.number)).Nodup)
    (listed : n ∈ s.world.nodes) : s.withdrawn n.number =
      { s with
        world := { s.world.set (withdrawing n s.world.network).1 with
          network := (withdrawing n s.world.network).2 } } := by
  have world := s.world.change_of_mem once listed fun n network _ => withdrawing n network
  rw [← world]
  rfl

/-- Addresses are held by those who bound them still when a node stops. -/
theorem Tenanted.gone (tenanted : s.Tenanted) (listed : n ∈ s.world.nodes) :
    (s.withdrawn n.number).Tenanted := by
  rw [s.withdrawn_eq tenanted.numbers listed]
  exact tenanted.step (.withdrew n listed)

/-- Once a node of a scene withdrew it is stopping, and it can start again when it has stopped. What
goes on meanwhile binds nothing and frees nothing, so the addresses of its options are free
still. -/
theorem Tenanted.restartable (tenanted : s.Tenanted) (listed : n ∈ s.world.nodes)
    (lasting : n.dropped = false) (active : n.kernel.status = .active service) (t : Scene)
    (goes : (s.withdrawn n.number).GoesOn t) :
    (t.world.finish n.number).Restartable n.number service.host.options
      (s.world.network.bound.filter (· ∉ service.host.options.keys)) := by
  have housed := tenanted.housed n listed service active
  have gone := tenanted.gone listed
  have alike := GoesOn.alike gone.numbers goes
  have regular := (gone.alike alike).network
  have stopping : (withdrawing n s.world.network).1.kernel.status = .stopping service.host := by
    have begun : (n.kernel.beginStop s.world.network).1.status = .stopping service.host := by
      simp [Kernel.beginStop, active]
    exact begun
  obtain ⟨m, there, number, _, status⟩ := alike.remain (withdrawing n s.world.network).1
    (s.withdrawn_eq tenanted.numbers listed ▸ World.mem_set_self listed rfl) lasting
  have finished : m.kernel.finishStop.status = .stopped := by
    simp [Kernel.finishStop, status, stopping]
  have finish := t.world.change_of_mem (gone.alike alike).numbers there fun n network _ =>
    ({ n with kernel := n.kernel.finishStop }, network)
  have bound : t.world.network.bound =
      s.world.network.bound.filter (· ∉ service.host.options.keys) := by
    rw [alike.bindings.bound, s.withdrawn_eq tenanted.numbers listed]
    exact tenanted.freed listed active
  have named : m.number = n.number := number
  rw [World.finish, ← named, finish]
  constructor
  case bound => exact bound
  case again =>
    refine ⟨_, World.mem_set_self there rfl, rfl, finished, fun seed seeded => ?_⟩
    apply Kernel.start_able _ _ regular
    · simp [Kernel.service?, finished]
    · constructor
      case valid => exact housed.valid
      case seeded => exact seeded
      case kinds => exact housed.kinds
      case once => exact housed.once
      case free =>
        intro key own
        rw [bound]
        simp [own]

/-- A node that is active in a scene that comes about can stop and start again. -/
theorem Tenanted.vacates (tenanted : s.Tenanted) (listed : n ∈ s.world.nodes)
    (lasting : n.dropped = false) (active : n.kernel.status = .active service) :
    s.Vacates n service.host.options := by
  constructor
  case held =>
    intro key own
    obtain ⟨bound, _, keys, within⟩ := (tenanted.housed n listed service active).bound
    rw [← keys] at own
    obtain ⟨entry, mine, rfl⟩ := List.mem_map.mp own
    rw [bound_eq]
    exact List.mem_map_of_mem (within entry mine)
  case freed =>
    rw [s.withdrawn_eq tenanted.numbers listed]
    exact tenanted.freed listed active
  case meanwhile => exact tenanted.restartable listed lasting active
  case stops =>
    intro w stopped
    have serving : n.kernel.service?.isSome := by simp [Kernel.service?, active]
    obtain ⟨t, goes, rfl⟩ := stop_leads serving stopped
    exact tenanted.restartable listed lasting active t goes

/-- In every scene that comes about a start takes all of its addresses or nothing, and a stop
gives back just those that were taken. -/
theorem Reachable.allOrNothing (reachable : s.Reachable) : s.AllOrNothing := by
  have tenanted := reachable.tenanted
  constructor
  case starts =>
    intro k inactive seed options
    exact k.startsWhole _ tenanted.network inactive seed options
  case refuses =>
    intro k active seed options
    exact k.start_active _ seed options active
  case stops =>
    intro n listed service active
    obtain ⟨there, lasting⟩ := List.mem_filter.mp listed
    exact tenanted.vacates there (by simpa using lasting) active

/-- One node, which was just set up. -/
def alone : Scene := { world := ({} : World).add "a" ({} : Script).application 1 }

/-- Options of a node that listens. -/
def home : Options := { listenAddresses := ["/memory/a"] }

/-- The scene with one node is reachable. -/
theorem alone_reachable : alone.Reachable := .single (.added "a" ({} : Script).application 1)

/-- The address of the node is free, so that it can start. -/
theorem home_startable : Kernel.Startable alone.world.network [1] home := by
  constructor
  case valid => rfl
  case seeded => simp
  case kinds | once => decide
  case free => exact fun key _ => List.not_mem_nil

/-- A node that was just set up becomes active, and holds the address that it listens on. -/
theorem allOrNothing_listening : ∃ s : Scene, s.world.network.bound = ["/memory/a"] ∧
    (∃ n ∈ alone.world.nodes, alone.world.start n [1] home = (.ok (), s.world)) ∧
    s.AllOrNothing := by
  have regular := alone_reachable.tenanted.network
  obtain ⟨n, listed⟩ : ∃ n, n ∈ alone.world.nodes := ⟨_, List.mem_singleton_self _⟩
  have inactive : n.kernel.service? = none := by
    rw [List.mem_singleton.mp listed]
    rfl
  have whole := n.kernel.startsWhole alone.world.network regular inactive [1] home
  have succeeds := n.kernel.start_able _ regular inactive home_startable
  have reachable := alone_reachable.tail (.started n listed [1] home)
  refine ⟨_, ?_, ⟨n, listed, ?_⟩, Reachable.allOrNothing reachable⟩
  · unfold Kernel.StartsWhole at whole
    rcases start : n.kernel.start alone.world.network [1] home with ⟨result, after, rest⟩
    rw [start] at whole succeeds
    cases succeeds
    obtain ⟨_, _, _, bound⟩ := whole
    have keys : home.keys = ["/memory/a"] := by decide
    have before : alone.world.network.bound = [] := rfl
    simpa [World.start, start, keys, before] using bound
  · exact Prod.ext succeeds rfl

end Stopping

end Scene

end Courier
