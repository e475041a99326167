import Courier.Proofs.Listening
import Courier.Proofs.Scenes

/-!
# Who holds which address

While a kernel is active it holds a listener for each of its addresses, and nobody else holds
these. Whatever goes on meanwhile changes neither who is active nor what is bound; only starting,
withdrawing and visitors do. So a start takes the addresses of its options or nothing, a kernel
that stops gives back exactly the addresses that it took, and it can be started again.
-/

namespace Courier

open Network

namespace Kernel

/-- A kernel stays in its stage while nothing but ordinary deeds is done. -/
theorem live_status (k : Kernel) (life : List Deed)
    (ordinary : ∀ deed ∈ life, deed.isOrdinary = true) : (k.live life).status = k.status := by
  induction life generalizing k with
  | nil => rfl
  | cons deed life inductionHypothesis =>
    rw [List.forall_mem_cons] at ordinary
    have first := (k.undergo_keeps deed ordinary.1).status
    exact (inductionHypothesis (k.undergo deed) ordinary.2).trans first

/-- The listeners of a kernel, while it is active. -/
def posts (k : Kernel) : List Nat := (k.service?.map (·.listeners)).getD []

/-- A kernel of the same status has the same listeners. -/
theorem posts_of_status {k after : Kernel} (same : after.status = k.status) :
    after.posts = k.posts := by
  rw [posts, posts, (host?_of_status same).2]

/-- An active kernel has the listeners of its service. -/
theorem posts_of_active {k : Kernel} {service : Service} (active : k.status = .active service) :
    k.posts = service.listeners := by
  simp [posts, service?, active]

/-- A kernel that is not active has no listeners. -/
theorem posts_of_inactive {k : Kernel} (inactive : k.service? = none) : k.posts = [] := by
  simp [posts, inactive]

/-- A kernel that begins to stop closes its listeners. -/
theorem beginStop_bindings (k : Kernel) (network : Network) :
    (k.beginStop network).1.service? = none ∧
      (k.beginStop network).2.bindings = network.bindings.filter (·.1 ∉ k.posts) ∧
      (k.beginStop network).2.listenersMade = network.listenersMade := by
  unfold beginStop
  split
  · next service active =>
    rw [posts_of_active active]
    exact ⟨rfl, network.unlistenAll_bindings service.listeners⟩
  · next inactive =>
    have none : k.service? = none := by
      unfold service?
      split
      · next service active => exact absurd active (inactive service)
      · rfl
    simp [posts_of_inactive none, none]

/-- A kernel at the end of stopping is not active, or as it was. -/
theorem finishStop_status (k : Kernel) :
    k.finishStop.service? = none ∨ k.finishStop.status = k.status := by
  unfold finishStop
  split
  · exact .inl rfl
  · exact .inr rfl

end Kernel

namespace Node

variable {now : Nat} {n after : Node} {network rest : Network}

/-- To send letters is nothing out of the ordinary. -/
theorem sends_ordinary (now : Nat) (sendings : List Sending) :
    ∀ deed ∈ sendings.map (·.deed now), deed.isOrdinary = true := by
  intro deed listed
  obtain ⟨sending, _, rfl⟩ := List.mem_map.mp listed
  rfl

/-- A step neither starts nor stops the kernel. -/
theorem step?_status {activity : Activity}
    (stepped : n.step? now network activity = some (after, rest)) :
    after.kernel.status = n.kernel.status := by
  rw [step?_lives stepped]
  apply Kernel.live_status
  intro deed listed
  obtain ⟨peer, _, own | ⟨sending, rfl, _⟩⟩ := n.deeds_about now network activity deed listed
  · cases deed <;> first | rfl | cases own
  · rfl

/-- A step binds nothing and closes no listener. -/
theorem step?_sameBindings {activity : Activity}
    (stepped : n.step? now network activity = some (after, rest)) :
    network.SameBindings rest := by
  cases activity with
  | accept listener =>
    obtain ⟨⟨arrival, left⟩, taken, same⟩ := Option.map_eq_some_iff.mp stepped
    cases same
    exact accept?_sameBindings taken
  | welcome endpoint =>
    obtain ⟨_, _, greets⟩ := welcome?_greets stepped
    exact greets.network.sameBindings
  | dialing peer =>
    simp only [step?] at stepped
    obtain ⟨d, later, _, _, _, moves⟩ := dialing?_moves stepped
    generalize d.hears network = heard at moves
    cases moves with
    | exhausted | greeted | met => exact .refl network
    | missed address remaining failure rest unreached pending given =>
      exact (network.dial_sameBindings address).trans given.sameBindings
    | reached address remaining endpoint due frame rest unreached pending dialed =>
      have same := network.dial_sameBindings address
      rwa [dialed] at same
    | passed approach failure rest approached pending touched => exact touched.sameBindings
    | wrote endpoint due frame written more rest greeting pending touched =>
      exact touched.sameBindings
    | heard endpoint due buffer bytes rest reading pending incomplete touched =>
      exact touched.sameBindings
  | session peer occasion =>
    obtain ⟨sendings, event, _, performed⟩ := session?_turns stepped
    have drawn := (drawn_touched peer n network occasion).sameBindings
    exact drawn.trans performed.network.sameBindings
  | writer endpoint =>
    obtain ⟨_, _, _, _, _, _, _, touched⟩ := writer?_writes stepped
    exact touched.sameBindings

/-- To end a session at once is to do what it then asks for. -/
theorem abort_performed (now : Nat) (peer : PeerId) (n : Node) (network : Network) :
    Performed now peer
      { n with
        kernel := (n.kernel.abort peer).1
        works := n.works.filter fun work => work.peer ≠ peer } network
      (n.kernel.abort peer).2 (n.abort now peer network).1 (n.abort now peer network).2 :=
  performAll_performed _

/-- The end of a session leaves the status of the kernel alone. -/
theorem abort_status (now : Nat) (peer : PeerId) (n : Node) (network : Network) :
    (n.abort now peer network).1.kernel.status = n.kernel.status := by
  rw [(abort_performed now peer n network).kernel]
  have sent := (n.kernel.abort peer).1.live_status _ (sends_ordinary now
    ((n.kernel.abort peer).2.flatMap (·.sendings n.application peer)))
  exact sent.trans (n.kernel.undergo_keeps (.abort peer) rfl).status

/-- A node that lets go of whoever arrived only hangs up. -/
theorem dismiss_touched (n : Node) (network : Network) :
    network.Touched (fun _ => True) (n.dismiss network).2 :=
  foldl_hangUp (fun a : Arrival => a.endpoint) network n.arrivals

end Node

namespace World

/-- The nodes once one was put in its place. -/
theorem mem_set {w : World} {n m : Node} (listed : m ∈ (w.set n).nodes) :
    m ∈ w.nodes ∧ m.number ≠ n.number ∨ m = n := by
  obtain ⟨old, there, rfl⟩ := List.mem_map.mp listed
  split
  · exact .inr rfl
  · next other => exact .inl ⟨there, other⟩

/-- The nodes have the same numbers when one of them is put in its place. -/
theorem set_numbers (w : World) (n : Node) :
    (w.set n).nodes.map (·.number) = w.nodes.map (·.number) := by
  unfold set
  rw [List.map_map]
  apply List.map_congr_left
  intro m _
  by_cases same : m.number = n.number <;> simp [same]

/-- A node that is put in its place is in the world. -/
theorem mem_set_self {w : World} {n old : Node} (listed : old ∈ w.nodes)
    (same : old.number = n.number) : n ∈ (w.set n).nodes :=
  List.mem_map.mpr ⟨old, listed, if_pos same⟩

/-- Other nodes are in the world still when one is put in its place. -/
theorem mem_set_other {w : World} {n m : Node} (listed : m ∈ w.nodes)
    (other : m.number ≠ n.number) : m ∈ (w.set n).nodes :=
  List.mem_map.mpr ⟨m, listed, if_neg other⟩

/-- A change of a node is one of the node of its number. -/
theorem change_of_mem (w : World) (once : (w.nodes.map (·.number)).Nodup) {n : Node}
    (listed : n ∈ w.nodes) (act : Node → Network → Nat → Node × Network) :
    w.change n.number act = { w.set (act n w.network (w.clock n)).1 with
      network := (act n w.network (w.clock n)).2 } := by
  unfold change
  cases found : w.nodes.find? fun m => m.number = n.number with
  | none =>
    have missing := List.find?_eq_none.mp found n listed
    simp at missing
  | some m =>
    have same : m.number = n.number := by simpa using List.find?_some found
    have there := List.mem_of_find?_eq_some found
    rw [List.inj_on_of_nodup_map once there listed same]

end World

/-- A service has a listener for each of its addresses, and its options were found good. -/
structure Service.Housed (service : Service) (network : Network) : Prop where
  bound : ∃ bound : List (Nat × String), bound.map (·.1) = service.listeners ∧
    bound.map (·.2) = service.host.options.keys ∧ ∀ entry ∈ bound, entry ∈ network.bindings
  valid : service.host.options.validate = .ok ()
  once : service.host.options.keys.Nodup
  kinds : ∀ text ∈ service.host.options.listenAddresses, Transport.classify text = some .memory

namespace Scene

/-- The same kernels are at the same stages, and the same listeners are bound. Dropped nodes may
be gone. -/
structure Alike (s t : Scene) : Prop where
  bindings : s.world.network.SameBindings t.world.network
  posts : t.posts = s.posts
  made : t.world.made = s.world.made
  numbers : List.Sublist (t.world.nodes.map (·.number)) (s.world.nodes.map (·.number))
  nodes : ∀ m ∈ t.world.nodes, ∃ n ∈ s.world.nodes,
    n.number = m.number ∧ m.kernel.status = n.kernel.status
  remain : ∀ n ∈ s.world.nodes, n.dropped = false → ∃ m ∈ t.world.nodes,
    m.number = n.number ∧ m.dropped = false ∧ m.kernel.status = n.kernel.status

section Going

variable {s t u : Scene}

/-- A scene is like itself. -/
theorem Alike.refl (s : Scene) : s.Alike s where
  bindings := .refl _
  posts := rfl
  made := rfl
  numbers := .refl _
  nodes m listed := ⟨m, listed, rfl, rfl⟩
  remain n listed lasting := ⟨n, listed, rfl, lasting, rfl⟩

/-- A scene is like what one that is like it is like. -/
theorem Alike.trans (first : s.Alike t) (second : t.Alike u) : s.Alike u where
  bindings := first.bindings.trans second.bindings
  posts := second.posts.trans first.posts
  made := second.made.trans first.made
  numbers := second.numbers.trans first.numbers
  nodes m listed := by
    obtain ⟨n, there, number, status⟩ := second.nodes m listed
    obtain ⟨k, before, same, earlier⟩ := first.nodes n there
    exact ⟨k, before, same.trans number, status.trans earlier⟩
  remain n listed lasting := by
    obtain ⟨m, there, number, lasts, status⟩ := first.remain n listed lasting
    obtain ⟨k, after, same, still, later⟩ := second.remain m there lasts
    exact ⟨k, after, same.trans number, still, later.trans status⟩

/-- A node that is put in the place of one at the same stage. -/
theorem Alike.set {n : Node} (m : Node) (rest : Network)
    (once : (s.world.nodes.map (·.number)).Nodup) (listed : n ∈ s.world.nodes)
    (world : t.world = { s.world.set m with network := rest }) (posts : t.posts = s.posts)
    (number : m.number = n.number) (dropped : m.dropped = n.dropped)
    (status : m.kernel.status = n.kernel.status)
    (bindings : s.world.network.SameBindings rest) : s.Alike t := by
  constructor
  case bindings =>
    rw [world]
    exact bindings
  case posts => exact posts
  case made =>
    rw [world]
    rfl
  case numbers =>
    rw [world]
    exact (s.world.set_numbers m).symm ▸ .refl _
  case nodes =>
    rw [world]
    intro k there
    rcases World.mem_set there with ⟨old, _⟩ | rfl
    · exact ⟨k, old, rfl, rfl⟩
    · exact ⟨n, listed, number.symm, status⟩
  case remain =>
    rw [world]
    intro k there lasting
    by_cases same : k.number = m.number
    · obtain rfl : k = n :=
        List.inj_on_of_nodup_map once there listed (same.trans number)
      exact ⟨m, World.mem_set_self there same, number, dropped.trans lasting, status⟩
    · exact ⟨k, World.mem_set_other there same, rfl, lasting, rfl⟩

/-- Nodes that go on as they are. -/
theorem Alike.still (nodes : t.world.nodes = s.world.nodes)
    (bindings : s.world.network.SameBindings t.world.network) (made : t.world.made = s.world.made)
    (posts : t.posts = s.posts) : s.Alike t where
  bindings := bindings
  posts := posts
  made := made
  numbers := nodes ▸ .refl _
  nodes m listed := ⟨m, nodes ▸ listed, rfl, rfl⟩
  remain n listed lasting := ⟨n, nodes.symm ▸ listed, rfl, lasting, rfl⟩

/-- Whatever stirs changes neither who is active nor what is bound. There is one case for each way
to stir, and none of them is a start or a stop. -/
theorem Stirs.alike (once : (s.world.nodes.map (·.number)).Nodup) (stirs : s.Stirs t) :
    s.Alike t := by
  cases stirs with
  | acted n listed activity after rest stepped =>
    have same := Node.step?_same stepped
    apply Alike.set after rest once listed
    case world | posts => rfl
    case number | dropped => rw [same]
    case status => exact Node.step?_status stepped
    case bindings => exact Node.step?_sameBindings stepped
  | passed later onward => exact .still rfl (.refl _) rfl rfl
  | called n listed deed call =>
    have ordinary : deed.isOrdinary = true := by
      cases deed <;> first | rfl | cases call
    have status := (n.kernel.undergo_keeps deed ordinary).status
    exact .set _ s.world.network once listed rfl rfl rfl rfl status (.refl _)
  | aborted n listed peer =>
    have performed := Node.abort_performed (s.world.clock n) peer n s.world.network
    apply Alike.set (n.abort (s.world.clock n) peer s.world.network).1 _ once listed
    case world | posts => rfl
    case number | dropped => rw [performed.same]
    case status => exact Node.abort_status _ peer n _
    case bindings => exact performed.network.sameBindings
  | buried =>
    constructor
    case bindings => exact .refl _
    case posts | made => rfl
    case numbers => exact List.filter_sublist.map _
    case nodes => exact fun m listed => ⟨m, (List.mem_filter.mp listed).1, rfl, rfl⟩
    case remain =>
      intro n listed lasting
      refine ⟨n, List.mem_filter.mpr ⟨listed, ?_⟩, rfl, lasting, rfl⟩
      simp [lasting]
  | forgot =>
    constructor
    case bindings => exact .refl _
    case posts | made => rfl
    case numbers =>
      have same : (s.world.forgetReports.nodes.map (·.number)) =
          s.world.nodes.map (·.number) := by
        simp [World.forgetReports, Function.comp_def]
      exact same ▸ .refl _
    case nodes =>
      intro m listed
      obtain ⟨n, there, rfl⟩ := List.mem_map.mp listed
      exact ⟨n, there, rfl, rfl⟩
    case remain =>
      intro n listed lasting
      exact ⟨_, List.mem_map.mpr ⟨n, listed, rfl⟩, rfl, lasting, rfl⟩

/-- As long as a scene goes on, it stays alike. -/
theorem GoesOn.alike (once : (s.world.nodes.map (·.number)).Nodup) (goes : s.GoesOn t) :
    s.Alike t := by
  induction goes with
  | refl => exact .refl s
  | tail earlier stirs inductionHypothesis =>
    have still := inductionHypothesis.numbers.nodup once
    exact inductionHypothesis.trans (Stirs.alike still stirs)

/-- A party without a kernel that neither listens nor closes a listener leaves all as it is. -/
theorem Visits.alike (visits : s.Visits t) :
    s.Alike t ∨
      (∃ text number key, s.world.network.Listens text number key t.world.network ∧
        t.posts = number :: s.posts ∧ t.world.nodes = s.world.nodes ∧
        t.world.made = s.world.made) ∨
      ∃ number ∈ s.posts, t.world.network = s.world.network.unlisten number ∧
        t.posts = s.posts.filter (· ≠ number) ∧ t.world.nodes = s.world.nodes ∧
        t.world.made = s.world.made := by
  cases visits with
  | dialed address endpoint rest dialed =>
    have same := s.world.network.dial_sameBindings address
    rw [dialed] at same
    exact .inl (.still rfl same rfl rfl)
  | refused address error rest dialed =>
    have same := s.world.network.dial_sameBindings address
    rw [dialed] at same
    exact .inl (.still rfl same rfl rfl)
  | listened text number key rest bound =>
    exact .inr (.inl ⟨text, number, key, listen_ok bound, rfl, rfl, rfl⟩)
  | unlistened number held => exact .inr (.inr ⟨number, held, rfl, rfl, rfl, rfl⟩)
  | accepted number held arrival rest taken =>
    exact .inl (.still rfl (accept?_sameBindings taken) rfl rfl)
  | wrote e held bytes start count rest wrote =>
    have touched := Network.write_touched _ e _ _ _ wrote
    exact .inl (.still rfl touched.sameBindings rfl rfl)
  | read e held limit =>
    exact .inl (.still rfl (s.world.network.read_touched e limit).sameBindings rfl rfl)
  | shut e held =>
    have touched := s.world.network.change_touched e fun c =>
      c.setOutward (c.outward e.side).close e.side
    exact .inl (.still rfl touched.sameBindings rfl rfl)
  | hungUp e held =>
    exact .inl (.still rfl (s.world.network.hangUp_touched e).sameBindings rfl rfl)

end Going

/-- Who holds which listeners, and what they are bound to. -/
structure Tenanted (s : Scene) : Prop where
  network : s.world.network.Regular
  numbers : (s.world.nodes.map (·.number)).Nodup
  made : ∀ n ∈ s.world.nodes, n.number ≤ s.world.made
  housed : ∀ n ∈ s.world.nodes, ∀ service, n.kernel.status = .active service →
    service.Housed s.world.network
  apart : ∀ n ∈ s.world.nodes, ∀ m ∈ s.world.nodes, n.number ≠ m.number →
    ∀ number ∈ n.kernel.posts, number ∉ m.kernel.posts
  outside : ∀ n ∈ s.world.nodes, ∀ number ∈ n.kernel.posts, number ∉ s.posts
  given : ∀ number ∈ s.posts, number ≤ s.world.network.listenersMade

section Tenants

variable {s t : Scene}

/-- The listeners of a kernel are bound. -/
theorem Tenanted.bound (tenanted : s.Tenanted) {n : Node} (listed : n ∈ s.world.nodes)
    {number : Nat} (held : number ∈ n.kernel.posts) :
    ∃ key, (number, key) ∈ s.world.network.bindings := by
  unfold Kernel.posts Kernel.service? at held
  split at held
  · next service status =>
    obtain ⟨bound, numbers, _, within⟩ := (tenanted.housed n listed service status).bound
    rw [Option.map_some, Option.getD_some, ← numbers] at held
    obtain ⟨entry, there, rfl⟩ := List.mem_map.mp held
    exact ⟨entry.2, within entry there⟩
  · cases held

/-- A change after which each kernel is as it was or not active, and nothing was taken from those
that are active. -/
theorem Tenanted.change (tenanted : s.Tenanted) (network : t.world.network.Regular)
    (numbers : (t.world.nodes.map (·.number)).Nodup)
    (made : ∀ m ∈ t.world.nodes, m.number ≤ t.world.made)
    (nodes : ∀ m ∈ t.world.nodes, m.kernel.service? = none ∨ ∃ n ∈ s.world.nodes,
      n.number = m.number ∧ m.kernel.status = n.kernel.status)
    (kept : ∀ m ∈ t.world.nodes, ∀ entry ∈ s.world.network.bindings,
      entry.1 ∈ m.kernel.posts → entry ∈ t.world.network.bindings)
    (later : s.world.network.listenersMade ≤ t.world.network.listenersMade)
    (posts : ∀ number ∈ t.posts, number ∈ s.posts ∨
      s.world.network.listenersMade < number ∧ number ≤ t.world.network.listenersMade) :
    t.Tenanted := by
  have active (m : Node) (listed : m ∈ t.world.nodes) (service : Service)
      (status : m.kernel.status = .active service) : ∃ n ∈ s.world.nodes,
        n.number = m.number ∧ n.kernel.status = .active service := by
    rcases nodes m listed with inactive | ⟨n, there, number, same⟩
    · simp [Kernel.service?, status] at inactive
    · exact ⟨n, there, number, same.symm.trans status⟩
  have held (m : Node) (listed : m ∈ t.world.nodes) (number : Nat)
      (holds : number ∈ m.kernel.posts) : ∃ n ∈ s.world.nodes,
        n.number = m.number ∧ number ∈ n.kernel.posts := by
    rcases nodes m listed with inactive | ⟨n, there, named, same⟩
    · rw [Kernel.posts_of_inactive inactive] at holds
      cases holds
    · exact ⟨n, there, named, Kernel.posts_of_status same ▸ holds⟩
  constructor
  case network => exact network
  case numbers => exact numbers
  case made => exact made
  case housed =>
    intro m listed service status
    obtain ⟨n, there, _, same⟩ := active m listed service status
    have housed := tenanted.housed n there service same
    obtain ⟨bound, named, keys, within⟩ := housed.bound
    refine { housed with bound := ⟨bound, named, keys, fun entry mine => ?_⟩ }
    apply kept m listed entry (within entry mine)
    rw [Kernel.posts_of_active status, ← named]
    exact List.mem_map_of_mem mine
  case apart =>
    intro m listed other listed' different number mine theirs
    obtain ⟨n, there, named, holds⟩ := held m listed number mine
    obtain ⟨n', there', named', holds'⟩ := held other listed' number theirs
    exact tenanted.apart n there n' there' (by rwa [named, named']) number holds holds'
  case outside =>
    intro m listed number mine visited
    obtain ⟨n, there, _, holds⟩ := held m listed number mine
    rcases posts number visited with old | ⟨new, _⟩
    · exact tenanted.outside n there number holds old
    · obtain ⟨key, bound⟩ := tenanted.bound there holds
      have given := tenanted.network.given _ bound
      dsimp only at given
      omega
  case given =>
    intro number visited
    rcases posts number visited with old | ⟨_, given⟩
    · exact (tenanted.given number old).trans later
    · exact given

/-- Addresses are held by those who bound them in every scene that is alike. -/
theorem Tenanted.alike (tenanted : s.Tenanted) (alike : s.Alike t) : t.Tenanted := by
  apply tenanted.change (tenanted.network.same alike.bindings)
    (alike.numbers.nodup tenanted.numbers)
  case made =>
    intro m listed
    obtain ⟨n, there, number, _⟩ := alike.nodes m listed
    rw [alike.made, ← number]
    exact tenanted.made n there
  case nodes => exact fun m listed => .inr (alike.nodes m listed)
  case kept =>
    intro m _ entry bound _
    rw [alike.bindings.bindings]
    exact bound
  case later => exact alike.bindings.made.ge
  case posts =>
    rw [alike.posts]
    exact fun number listed => .inl listed

/-- Visitors bind new listeners, and close their own. -/
theorem Tenanted.visits (tenanted : s.Tenanted) (visits : s.Visits t) : t.Tenanted := by
  rcases visits.alike with alike | ⟨text, number, key, listens, posts, nodes, made⟩ |
    ⟨number, held, closed, posts, nodes, made⟩
  · exact tenanted.alike alike
  · have counted := listens.counted
    have later : t.world.network.listenersMade = number := by rw [listens.eq]
    apply tenanted.change (tenanted.network.listens listens)
    case numbers => exact nodes ▸ tenanted.numbers
    case made => exact nodes ▸ made ▸ tenanted.made
    case nodes => exact fun m listed => .inr ⟨m, nodes ▸ listed, rfl, rfl⟩
    case kept =>
      intro m _ entry bound _
      rw [listens.bindings]
      exact List.mem_append_left _ bound
    case later => omega
    case posts =>
      rw [posts, List.forall_mem_cons]
      exact ⟨.inr (by omega), fun number listed => .inl listed⟩
  · obtain ⟨bindings, later⟩ := s.world.network.unlistenAll_bindings [number]
    rw [List.foldl_cons, List.foldl_nil, ← closed] at bindings later
    apply tenanted.change (tenanted.network.closed bindings later)
    case numbers => exact nodes ▸ tenanted.numbers
    case made => exact nodes ▸ made ▸ tenanted.made
    case nodes => exact fun m listed => .inr ⟨m, nodes ▸ listed, rfl, rfl⟩
    case kept =>
      intro m listed entry bound mine
      rw [bindings, List.mem_filter]
      refine ⟨bound, ?_⟩
      have other : entry.1 ≠ number := fun same =>
        tenanted.outside m (nodes ▸ listed) entry.1 mine (same ▸ held)
      simpa using other
    case later => exact later.ge
    case posts =>
      rw [posts]
      exact fun number listed => .inl (List.mem_filter.mp listed).1

/-- A node that is put in the place of one, with a kernel that is as it was or not active. -/
theorem Tenanted.set (tenanted : s.Tenanted) {n : Node} (listed : n ∈ s.world.nodes) (m : Node)
    (rest : Network) (world : t.world = { s.world.set m with network := rest })
    (posts : t.posts = s.posts) (number : m.number = n.number)
    (status : m.kernel.service? = none ∨ m.kernel.status = n.kernel.status)
    (regular : rest.Regular)
    (later : s.world.network.listenersMade ≤ rest.listenersMade)
    (kept : ∀ entry ∈ s.world.network.bindings,
      entry.1 ∉ n.kernel.posts ∨ m.kernel.service? ≠ none → entry ∈ rest.bindings) :
    t.Tenanted := by
  apply tenanted.change
  case network => exact world ▸ regular
  case numbers =>
    rw [world]
    exact s.world.set_numbers m ▸ tenanted.numbers
  case made =>
    rw [world]
    intro k there
    rcases World.mem_set there with ⟨old, _⟩ | rfl
    · exact tenanted.made k old
    · exact number ▸ tenanted.made n listed
  case nodes =>
    rw [world]
    intro k there
    rcases World.mem_set there with ⟨old, _⟩ | rfl
    · exact .inr ⟨k, old, rfl, rfl⟩
    · exact status.imp id fun same => ⟨n, listed, number.symm, same⟩
  case kept =>
    rw [world]
    intro k there entry bound mine
    apply kept entry bound
    rcases World.mem_set there with ⟨old, other⟩ | rfl
    · exact .inl (tenanted.apart k old n listed (number ▸ other) entry.1 mine)
    · right
      intro inactive
      rw [Kernel.posts_of_inactive inactive] at mine
      cases mine
  case later => exact world ▸ later
  case posts =>
    rw [posts]
    exact fun number listed => .inl listed

/-- A node that is put in the place of one while the network stays as it is. -/
theorem Tenanted.still (tenanted : s.Tenanted) {n m : Node} (listed : n ∈ s.world.nodes)
    (world : t.world = s.world.set m) (posts : t.posts = s.posts) (number : m.number = n.number)
    (status : m.kernel.service? = none ∨ m.kernel.status = n.kernel.status) : t.Tenanted :=
  tenanted.set listed m s.world.network world posts number status tenanted.network (Nat.le_refl _)
    fun _ bound _ => bound

/-- A node that withdraws is active no longer, and takes its own listeners along and no others. -/
theorem withdrawing_bindings (n : Node) (network : Network) :
    (withdrawing n network).1.kernel.service? = none ∧
      (withdrawing n network).2.bindings = network.bindings.filter (·.1 ∉ n.kernel.posts) ∧
      (withdrawing n network).2.listenersMade = network.listenersMade := by
  obtain ⟨inactive, bindings, made⟩ := n.kernel.beginStop_bindings network
  have dismissed := (({ n with kernel := (n.kernel.beginStop network).1 } : Node).dismiss_touched
    (n.kernel.beginStop network).2).sameBindings
  exact ⟨inactive, dismissed.bindings.trans bindings, dismissed.made.trans made⟩

/-- A kernel that starts takes nothing that somebody holds. The listeners that it binds have numbers
above all that were given out, so they are new to all other kernels and to visitors. -/
theorem Tenanted.started (tenanted : s.Tenanted) {n : Node} (listed : n ∈ s.world.nodes)
    {seed : List UInt8} {options : Options} {after : Kernel} {rest : Network}
    (started : n.kernel.Started s.world.network seed options after rest)
    (world : t.world = { s.world.set { n with kernel := after } with network := rest })
    (posts : t.posts = s.posts) : t.Tenanted := by
  have able := started.startable tenanted.network
  obtain ⟨service, bound, active, _, given, listeners, binds⟩ := started.active
  have numbers (k : Node) (there : k ∈ s.world.nodes) (number : Nat)
      (held : number ∈ k.kernel.posts) : number ∉ service.listeners := by
    obtain ⟨key, old⟩ := tenanted.bound there held
    have counted := tenanted.network.given _ old
    rw [listeners]
    intro new
    obtain ⟨entry, fresh, same⟩ := List.mem_map.mp new
    have later := binds.new entry fresh
    dsimp only at counted
    omega
  have cases (k : Node) (there : k ∈ t.world.nodes) :
      k ∈ s.world.nodes ∧ k.number ≠ n.number ∨ k = { n with kernel := after } := by
    rw [world] at there
    exact World.mem_set there
  constructor
  case network => exact world ▸ binds.regular tenanted.network
  case numbers =>
    rw [world]
    exact s.world.set_numbers { n with kernel := after } ▸ tenanted.numbers
  case made =>
    intro k there
    rw [world]
    rcases cases k there with ⟨old, _⟩ | rfl
    · exact tenanted.made k old
    · exact tenanted.made n listed
  case housed =>
    intro k there service' active'
    rw [world]
    rcases cases k there with ⟨old, _⟩ | rfl
    · have housed := tenanted.housed k old service' active'
      obtain ⟨bound', named, keys, within⟩ := housed.bound
      refine { housed with bound := ⟨bound', named, keys, fun entry mine => ?_⟩ }
      rw [binds.bindings]
      exact List.mem_append_left _ (within entry mine)
    · cases active.symm.trans active'
      constructor
      case bound =>
        refine ⟨bound, listeners.symm, ?_, fun entry mine => ?_⟩
        · rw [binds.keys, given]
          rfl
        · rw [binds.bindings]
          exact List.mem_append_right _ mine
      case valid => exact given ▸ started.valid
      case once => exact given ▸ able.once
      case kinds => exact given ▸ able.kinds
  case apart =>
    intro k there m there' different number mine theirs
    rcases cases k there with ⟨old, _⟩ | rfl <;> rcases cases m there' with ⟨old', _⟩ | rfl
    · exact tenanted.apart k old m old' different number mine theirs
    · rw [Kernel.posts_of_active active] at theirs
      exact numbers k old number mine theirs
    · rw [Kernel.posts_of_active active] at mine
      exact numbers m old' number theirs mine
    · exact different rfl
  case outside =>
    intro k there number mine visited
    rw [posts] at visited
    rcases cases k there with ⟨old, _⟩ | rfl
    · exact tenanted.outside k old number mine visited
    · rw [Kernel.posts_of_active active, listeners] at mine
      obtain ⟨entry, fresh, rfl⟩ := List.mem_map.mp mine
      have counted := tenanted.given _ visited
      have later := binds.new entry fresh
      omega
  case given =>
    intro number visited
    rw [posts] at visited
    rw [world]
    exact (tenanted.given number visited).trans binds.later

/-- A step of a scene leaves each listener with whoever holds it. Only starting, withdrawing and
visiting change what is bound, and a new node has bound nothing. -/
theorem Tenanted.step (tenanted : s.Tenanted) (step : s.Step t) : t.Tenanted := by
  cases step with
  | stirred t stirs => exact tenanted.alike (Stirs.alike tenanted.numbers stirs)
  | visited t visits => exact tenanted.visits visits
  | added name application seed =>
    have fresh : s.world.made + 1 ∉ s.world.nodes.map (·.number) := by
      intro listed
      obtain ⟨n, there, same⟩ := List.mem_map.mp listed
      have made := tenanted.made n there
      omega
    apply tenanted.change
    case network => exact tenanted.network
    case numbers =>
      rw [World.add, List.map_append, List.map_singleton, ← List.concat_eq_append]
      exact tenanted.numbers.concat fresh
    case made =>
      intro m listed
      rcases List.mem_append.mp listed with old | new
      · exact (tenanted.made m old).trans (Nat.le_succ _)
      · rw [List.mem_singleton.mp new]
        exact Nat.le_refl _
    case nodes =>
      intro m listed
      rcases List.mem_append.mp listed with old | new
      · exact .inr ⟨m, old, rfl, rfl⟩
      · rw [List.mem_singleton.mp new]
        exact .inl rfl
    case kept => exact fun m _ entry bound _ => bound
    case later => exact Nat.le_refl _
    case posts => exact fun number listed => .inl listed
  | started n listed seed options =>
    by_cases inactive : n.kernel.service? = none
    · have whole := n.kernel.start_whole s.world.network tenanted.network seed options inactive
      rcases start : n.kernel.start s.world.network seed options with ⟨result, after, rest⟩
      rw [start] at whole
      have world : (s.world.start n seed options).2 =
          { s.world.set { n with kernel := after } with network := rest } := by
        simp [World.start, start]
      cases result with
      | ok =>
        exact tenanted.started listed whole world rfl
      | error error =>
        obtain ⟨unstarted, _⟩ := whole
        have bindings : rest.bindings = s.world.network.bindings := by
          rw [unstarted.network]
          rfl
        apply tenanted.set listed { n with kernel := after } rest
        case world => exact world
        case posts | number => rfl
        case status => exact .inr unstarted.status
        case regular => exact tenanted.network.part (bindings ▸ .refl _) unstarted.later
        case later => exact unstarted.later
        case kept => exact fun entry bound _ => bindings ▸ bound
    · have active := Option.isSome_iff_ne_none.mpr inactive
      have start := n.kernel.start_active s.world.network seed options active
      apply tenanted.set listed n s.world.network
      case world => simp [World.start, start]
      case posts | number => rfl
      case status => exact .inr rfl
      case regular => exact tenanted.network
      case later => exact Nat.le_refl _
      case kept => exact fun entry bound _ => bound
  | withdrew n listed =>
    obtain ⟨inactive, bindings, made⟩ := withdrawing_bindings n s.world.network
    apply tenanted.set listed (withdrawing n s.world.network).1 (withdrawing n s.world.network).2
    case world | posts | number => rfl
    case status => exact .inl inactive
    case regular => exact tenanted.network.closed bindings made
    case later => exact made.ge
    case kept =>
      intro entry bound kept
      rw [bindings, List.mem_filter]
      simpa [inactive, bound] using kept
  | dropped n listed =>
    apply tenanted.still listed
    case world | posts | number => rfl
    case status => exact .inr rfl
  | finished n listed =>
    apply tenanted.still listed
    case world | posts | number => rfl
    case status => exact n.kernel.finishStop_status

/-- In every scene that comes about, the listeners are held like this. -/
theorem Reachable.tenanted (reachable : s.Reachable) : s.Tenanted := by
  induction reachable with
  | refl =>
    have network : ({} : Network).Regular := ⟨List.nodup_nil, List.nodup_nil, nofun⟩
    exact ⟨network, List.nodup_nil, nofun, nofun, nofun, nofun, nofun⟩
  | tail _ step inductionHypothesis => exact inductionHypothesis.step step

end Tenants

end Scene

end Courier
