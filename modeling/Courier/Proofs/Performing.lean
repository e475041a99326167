import Courier.Proofs.Lives
import Courier.World.Activity

/-!
# Doing what a session asks for

The session of a peer asks its node for effects, and the node does them one after another. They
are about this peer: its attempt to connect, its writers, its messages, and the ends of its
connections. Only the letters that the application asks for when it is told something reach
further, and these go through the kernel like all letters.
-/

namespace Courier

/-- To send a letter is a deed of the kernel. -/
def Sending.deed (now : Nat) (sending : Sending) : Deed := .send sending.peer sending.letter now

/-- What the application asks for when it is told something about a peer. -/
def Upcall.sendings (application : Application) (peer : PeerId) : Upcall → List Sending
  | .settled promise _ => application.onSettled promise
  | .gaveUp => application.onGiveUp peer
  | .message _ | .restarted _ => []

/-- What the application asks for because of an effect of a turn. -/
def Effect.sendings (application : Application) (peer : PeerId) : Effect → List Sending
  | .tell upcall => upcall.sendings application peer
  | _ => []

/-- The ends of connections that an effect is about. -/
def Effect.endpoints : Effect → List Endpoint
  | .opened endpoint | .write endpoint _ | .hangUp endpoint => [endpoint]
  | _ => []

/-- The ends of connections that an attempt to connect has. -/
def Dialing.endpoints (d : Dialing) : List Endpoint :=
  d.approach.toList.map (·.endpoint) ++
    match d.outcome with
    | some (.ok greeted) => [greeted.endpoint]
    | _ => []

/-- A network after something was done at some ends only. -/
structure Network.Touched (ends : Endpoint → Prop) (n after : Network) : Prop where
  listeners : after.listeners = n.listeners
  listenersMade : after.listenersMade = n.listenersMade
  dialsMade : after.dialsMade = n.dialsMade
  connections : ∀ number, (∀ side, ¬ ends ⟨number, side⟩) →
    after.connection? number = n.connection? number

namespace Network

variable {ends more : Endpoint → Prop} {n middle after : Network}

/-- Where nothing is done, nothing is done at any ends. -/
theorem Touched.refl (ends : Endpoint → Prop) (n : Network) : Touched ends n n :=
  ⟨rfl, rfl, rfl, fun _ _ => rfl⟩

/-- What is done at some ends twice is done at these ends. -/
theorem Touched.trans (first : Touched ends n middle) (second : Touched ends middle after) :
    Touched ends n after where
  listeners := second.listeners.trans first.listeners
  listenersMade := second.listenersMade.trans first.listenersMade
  dialsMade := second.dialsMade.trans first.dialsMade
  connections number apart :=
    (second.connections number apart).trans (first.connections number apart)

/-- What is done at some ends is done at ends of a larger kind. -/
theorem Touched.mono (touched : Touched ends n after) (within : ∀ e, ends e → more e) :
    Touched more n after :=
  { touched with
    connections := fun number apart =>
      touched.connections number fun side mine => apart side (within _ mine) }

/-- A change of a connection at one of its ends is done at this end. -/
theorem change_touched (n : Network) (e : Endpoint) (change : Connection → Connection) :
    Touched (· = e) n (n.change e.connection change) := by
  constructor
  case connections =>
    intro number apart
    have other : number ≠ e.connection := by
      rintro rfl
      exact apart e.side rfl
    have same : (fun entry : Nat × Connection => decide ((if entry.1 = e.connection
        then (entry.1, change entry.2) else entry).1 = number)) =
        fun entry => decide (entry.1 = number) := by
      funext entry
      split <;> rfl
    unfold connection? Network.change
    rw [List.find?_map, Function.comp_def, same, Option.map_map]
    cases found : n.connections.find? fun entry => entry.1 = number with
    | none => rfl
    | some entry =>
      have named : entry.1 = number := by simpa using List.find?_some found
      simp [named, other]
  all_goals rfl

/-- To hang up is done at one end. -/
theorem hangUp_touched (n : Network) (e : Endpoint) : Touched (· = e) n (n.hangUp e) :=
  n.change_touched e _

/-- To read is done at one end. -/
theorem read_touched (n : Network) (e : Endpoint) (limit : Nat) :
    Touched (· = e) n (n.read e limit).2 := by
  unfold read
  split
  · exact .refl _ n
  · next c _ =>
    let pipe := ((c.inward e.side).read limit).2
    exact n.change_touched e fun c => c.setInward pipe e.side

/-- To write is done at one end. -/
theorem write_touched (n : Network) (e : Endpoint) (bytes : ByteArray) (start count : Nat)
    (wrote : n.write? e bytes start = some (count, after)) : Touched (· = e) n after := by
  unfold write? at wrote
  obtain ⟨c, _, given⟩ := Option.bind_eq_some_iff.mp wrote
  obtain ⟨pipe, _, same⟩ := Option.map_eq_some_iff.mp given
  cases same
  exact n.change_touched e _

/-- A dial that succeeds makes the next connection. -/
theorem dial_endpoint (n : Network) (address : Address) (endpoint : Endpoint)
    (dialed : n.dial address = (.ok endpoint, after)) :
    endpoint = ⟨n.dialsMade + 1, .dialer⟩ := by
  unfold dial at dialed
  split at dialed
  · cases dialed
  · dsimp only at dialed
    split at dialed
    · cases dialed
      rfl
    · cases dialed

end Network

namespace Node

/-- To send letters is to do so one after another. -/
theorem sendAll_eq (now : Nat) (n : Node) (sendings : List Sending) : ∃ news : List Report,
    (∀ promise result, .settled promise result ∉ news) ∧
      n.sendAll now sendings = { n with
        kernel := n.kernel.live (sendings.map (·.deed now))
        reports := n.reports ++ news.toArray } := by
  induction sendings generalizing n with
  | nil =>
    refine ⟨[], nofun, ?_⟩
    simp [sendAll, Kernel.live]
  | cons sending rest inductionHypothesis =>
    rcases sent : n.kernel.send sending.peer sending.letter now with ⟨result, kernel⟩
    obtain ⟨news, unsettled, same⟩ :=
      inductionHypothesis (({ n with kernel } : Node).report (.sent sending.peer result))
    refine ⟨.sent sending.peer result :: news, ?_, ?_⟩
    · intro promise result listed
      rcases List.mem_cons.mp listed with ⟨⟨⟩⟩ | later
      exact unsettled promise result later
    · have first : n.kernel.undergo (sending.deed now) = kernel := by
        simp [Kernel.undergo, Sending.deed, sent]
      have next : n.sendAll now (sending :: rest) =
          (({ n with kernel } : Node).report (.sent sending.peer result)).sendAll now rest := by
        simp [sendAll, sent]
      rw [next, same]
      simp [report, Kernel.live, first]

/-- What it is to tell the application something about a peer. -/
structure Told (now : Nat) (peer : PeerId) (n : Node) (upcall : Upcall) (after : Node)
    (works : List Work) (news : List Report) : Prop where
  eq : after = { n with
    kernel := n.kernel.live ((upcall.sendings n.application peer).map (·.deed now))
    works := n.works ++ works
    reports := n.reports ++ news.toArray }
  works : ∀ work ∈ works, work.peer = peer ∧
    ∃ payload, work.reaction = n.application.onMessage peer payload
  settled : ∀ promise result, .settled promise result ∈ news → upcall = .settled promise result

/-- To tell the application something about a peer sends what it then asks for, and otherwise adds
work and news about this peer. -/
theorem tell_told (now : Nat) (peer : PeerId) (n : Node) (upcall : Upcall) :
    ∃ works news, n.Told now peer upcall (n.tell now peer upcall) works news := by
  have sent (first : Report) (sendings : List Sending) (asks : upcall.sendings n.application peer =
      sendings) (settles : ∀ promise result, first = .settled promise result →
        upcall = .settled promise result) :
      ∃ works news, n.Told now peer upcall ((n.report first).sendAll now sendings) works news := by
    obtain ⟨news, unsettled, same⟩ := (n.report first).sendAll_eq now sendings
    refine ⟨[], first :: news, ?_, nofun, ?_⟩
    · rw [same, asks]
      simp [report]
    · intro promise result listed
      rcases List.mem_cons.mp listed with now' | later
      · exact settles promise result now'.symm
      · exact absurd later (unsettled promise result)
  cases upcall with
  | message payload =>
    refine ⟨[⟨peer, now + (n.application.onMessage peer payload).delay,
      n.application.onMessage peer payload⟩], [.message peer payload], ?_, ?_, nofun⟩
    · simp [tell, report, Upcall.sendings, Kernel.live]
    · intro work listed
      rw [List.mem_singleton.mp listed]
      exact ⟨rfl, payload, rfl⟩
  | settled promise result => exact sent (.settled promise result) _ rfl (by simp)
  | gaveUp => exact sent (.gaveUp peer) _ rfl nofun
  | restarted incarnation =>
    refine ⟨[], [.restarted peer incarnation], ?_, nofun, nofun⟩
    simp [tell, report, Upcall.sendings, Kernel.live]

/-- The ends that the attempts to connect to a peer have. -/
def Dials (n : Node) (peer : PeerId) (e : Endpoint) : Prop :=
  ∃ d ∈ n.dialings, d.peer = peer ∧ e ∈ d.endpoints

/-- What it is to do what the session of a peer asks for: the kernel sends what the application
asks for when it is told something, and all else is about this peer. -/
structure Performed (now : Nat) (peer : PeerId) (n : Node) (network : Network)
    (effects : List Effect) (after : Node) (rest : Network) : Prop where
  same : after = { n with
    kernel := after.kernel, works := after.works, reports := after.reports
    dialings := after.dialings, writers := after.writers }
  kernel : after.kernel =
    n.kernel.live ((effects.flatMap (·.sendings n.application peer)).map (·.deed now))
  works : ∃ more, after.works = n.works ++ more ∧ ∀ work ∈ more, work.peer = peer ∧
    ∃ payload, work.reaction = n.application.onMessage peer payload
  reports : ∃ news, after.reports = n.reports ++ List.toArray news ∧
    ∀ promise result, .settled promise result ∈ news → .tell (.settled promise result) ∈ effects
  begun : ∀ d ∈ after.dialings,
    d ∈ n.dialings ∨ d.peer = peer ∧ d.approach = none ∧ d.outcome = none
  dialings : after.dialings.filter (·.peer ≠ peer) = n.dialings.filter (·.peer ≠ peer)
  opened : ∀ w ∈ after.writers, (∃ v ∈ n.writers, v.endpoint = w.endpoint ∧ v.peer = w.peer) ∨
    w.peer = peer ∧ ∃ effect ∈ effects, w.endpoint ∈ effect.endpoints
  writers : ∀ other, other ≠ peer →
    (∀ w ∈ n.writers, w.peer = other → ∀ effect ∈ effects, w.endpoint ∉ effect.endpoints) →
      after.writers.filter (·.peer = other) = n.writers.filter (·.peer = other)
  network : network.Touched
    (fun e => (∃ effect ∈ effects, e ∈ effect.endpoints) ∨ n.Dials peer e) rest

section Performing

variable {now : Nat} {peer : PeerId} {n : Node} {network : Network}

/-- To do nothing is what a session asks for that asks for nothing. -/
theorem Performed.nothing : n.Performed now peer network [] n network where
  same := rfl
  kernel := rfl
  works := ⟨[], (List.append_nil _).symm, nofun⟩
  reports := ⟨[], by simp, nofun⟩
  begun _ := .inl
  dialings := rfl
  opened w listed := .inl ⟨w, listed, rfl, rfl⟩
  writers _ _ _ := rfl
  network := .refl _ network

/-- To drop an attempt is to let go of its ends. -/
theorem hangUpDialing_touched (d : Dialing) (network : Network) :
    network.Touched (· ∈ d.endpoints) (hangUpDialing d network) := by
  unfold hangUpDialing Dialing.endpoints
  cases d.approach with
  | some approach =>
    apply (network.hangUp_touched approach.endpoint).mono
    simp
  | none =>
    cases d.outcome with
    | none => exact .refl _ network
    | some outcome =>
      cases outcome with
      | error error => exact .refl _ network
      | ok greeted =>
        apply (network.hangUp_touched greeted.endpoint).mono
        simp

/-- To drop the attempt to connect to a peer hangs up its ends and does nothing else on the
network. -/
theorem dropDialing_touched (peer : PeerId) (n : Node) (network : Network) :
    network.Touched (n.Dials peer) (n.dropDialing peer network).2 := by
  have dropped (dialings : List Dialing) (within : dialings ⊆ n.dialings.filter (·.peer = peer))
      (left : Network) : left.Touched (n.Dials peer)
        (dialings.foldl (fun network d => hangUpDialing d network) left) := by
    induction dialings generalizing left with
    | nil => exact .refl _ left
    | cons d rest inductionHypothesis =>
      obtain ⟨first, others⟩ := List.cons_subset.mp within
      obtain ⟨listed, named⟩ := List.mem_filter.mp first
      apply Network.Touched.trans _ (inductionHypothesis others _)
      apply (hangUpDialing_touched d left).mono
      exact fun e mine => ⟨d, listed, by simpa using named, mine⟩
  exact dropped _ (List.Subset.refl _) network

/-- An effect that the application is not told of is about attempts, writers and ends only. -/
theorem Performed.untold {effect : Effect} {rest : Network} {dialings : List Dialing}
    {writers : List Writer} (untold : effect.sendings n.application peer = [])
    (begun : ∀ d ∈ dialings, d ∈ n.dialings ∨ d.peer = peer ∧ d.approach = none ∧ d.outcome = none)
    (others : dialings.filter (·.peer ≠ peer) = n.dialings.filter (·.peer ≠ peer))
    (opened : ∀ w ∈ writers, (∃ v ∈ n.writers, v.endpoint = w.endpoint ∧ v.peer = w.peer) ∨
      w.peer = peer ∧ w.endpoint ∈ effect.endpoints)
    (apart : ∀ other, other ≠ peer →
      (∀ w ∈ n.writers, w.peer = other → w.endpoint ∉ effect.endpoints) →
        writers.filter (·.peer = other) = n.writers.filter (·.peer = other))
    (network' : network.Touched (fun e => e ∈ effect.endpoints ∨ n.Dials peer e) rest) :
    n.Performed now peer network [effect] { n with dialings, writers } rest where
  same := rfl
  kernel := by simp [untold, Kernel.live]
  works := ⟨[], (List.append_nil _).symm, nofun⟩
  reports := ⟨[], by simp, nofun⟩
  begun := begun
  dialings := others
  opened := by simpa using opened
  writers := by simpa using apart
  network := by simpa using network'

/-- Each effect is about the peer whose session asks for it. There is one case for each effect;
where nothing is told, only attempts, writers and the network change. -/
theorem perform_performed (effect : Effect) :
    n.Performed now peer network [effect] (n.perform now peer network effect).1
      (n.perform now peer network effect).2 := by
  have kept (w : Writer) (listed : w ∈ n.writers) :
      (∃ v ∈ n.writers, v.endpoint = w.endpoint ∧ v.peer = w.peer) ∨
        w.peer = peer ∧ w.endpoint ∈ effect.endpoints := .inl ⟨w, listed, rfl, rfl⟩
  have alone : network.Touched (fun e => e ∈ effect.endpoints ∨ n.Dials peer e) network :=
    .refl _ network
  have dropped : (n.dialings.filter (·.peer ≠ peer)).filter (·.peer ≠ peer) =
      n.dialings.filter (·.peer ≠ peer) := by simp
  have hungUp := (dropDialing_touched peer n network).mono
    fun e mine => (Or.inr mine : e ∈ effect.endpoints ∨ n.Dials peer e)
  cases effect with
  | dial dial =>
    apply Performed.untold rfl _ _ kept (fun _ _ _ => rfl) hungUp
    · intro d listed
      rcases List.mem_append.mp listed with old | new
      · exact .inl (List.mem_filter.mp old).1
      · rw [List.mem_singleton.mp new]
        exact .inr ⟨rfl, rfl, rfl⟩
    · rw [List.filter_append, dropped]
      simp
  | cancelDial =>
    apply Performed.untold rfl _ dropped kept (fun _ _ _ => rfl) hungUp
    exact fun d listed => .inl (List.mem_filter.mp listed).1
  | opened endpoint =>
    apply Performed.untold rfl (fun d => .inl) rfl _ _ alone
    · intro w listed
      rcases List.mem_append.mp listed with old | new
      · exact kept w old
      · rw [List.mem_singleton.mp new]
        exact .inr ⟨rfl, List.mem_singleton_self _⟩
    · intro other different _
      rw [List.filter_append]
      simp [different.symm]
  | write endpoint dispatches =>
    apply Performed.untold rfl (fun d => .inl) rfl _ _ alone
    · intro w listed
      obtain ⟨v, old, rfl⟩ := List.mem_map.mp listed
      refine .inl ⟨v, old, ?_⟩
      split <;> exact ⟨rfl, rfl⟩
    · intro other different apart
      rw [List.filter_map]
      have keeps : ((fun w : Writer => decide (w.peer = other)) ∘ fun w : Writer =>
          if w.endpoint = endpoint then { w with queue := w.queue ++ dispatches.map (·.frame) }
          else w) = fun w => decide (w.peer = other) := by
        funext w
        dsimp only [Function.comp_apply]
        split <;> rfl
      rw [keeps]
      refine (List.map_congr_left fun w listed => ?_).trans (List.map_id _)
      obtain ⟨there, named⟩ := List.mem_filter.mp listed
      have elsewhere := apart w there (by simpa using named)
      simp only [Effect.endpoints, List.mem_singleton] at elsewhere
      rw [if_neg elsewhere, id]
  | hangUp endpoint =>
    have ended := (network.hangUp_touched endpoint).mono fun e mine =>
      (Or.inl (List.mem_singleton.mpr mine) :
        e ∈ (Effect.hangUp endpoint).endpoints ∨ n.Dials peer e)
    apply Performed.untold rfl (fun d => .inl) rfl _ _ ended
    · exact fun w listed => kept w (List.mem_filter.mp listed).1
    · intro other different apart
      rw [List.filter_filter]
      apply List.filter_congr
      intro w listed
      by_cases named : w.peer = other
      · have elsewhere := apart w listed named
        simpa [named, Effect.endpoints] using elsewhere
      · simp [named]
  | tell upcall =>
    obtain ⟨works, news, told⟩ := n.tell_told now peer upcall
    have same : (n.perform now peer network (.tell upcall)).1 = n.tell now peer upcall := rfl
    rw [same, told.eq]
    constructor
    case same => rfl
    case kernel => simp [Effect.sendings]
    case works => exact ⟨works, rfl, told.works⟩
    case reports =>
      refine ⟨news, rfl, fun promise result listed => ?_⟩
      rw [told.settled promise result listed]
      exact List.mem_singleton_self _
    case begun => exact fun d => .inl
    case dialings => rfl
    case opened => exact fun w listed => .inl ⟨w, listed, rfl, rfl⟩
    case writers => exact fun _ _ _ => rfl
    case network => exact .refl _ network

/-- To do one thing and then others is to do all that was asked for. What both change is put
together field by field. -/
theorem Performed.cons {effect : Effect} {effects : List Effect} {middle after : Node}
    {left rest : Network} (first : n.Performed now peer network [effect] middle left)
    (later : middle.Performed now peer left effects after rest) :
    n.Performed now peer network (effect :: effects) after rest := by
  have identity : middle.application = n.application := by rw [first.same]
  have one (e : Endpoint) : (∃ f ∈ [effect], e ∈ f.endpoints) ↔ e ∈ effect.endpoints := by simp
  have heard (e : Endpoint) (mine : (∃ f ∈ effects, e ∈ f.endpoints) ∨ middle.Dials peer e) :
      (∃ f ∈ effect :: effects, e ∈ f.endpoints) ∨ n.Dials peer e := by
    rcases mine with ⟨f, listed, mine⟩ | ⟨d, listed, named, mine⟩
    · exact .inl ⟨f, List.mem_cons_of_mem _ listed, mine⟩
    · rcases first.begun d listed with old | ⟨_, unreached, pending⟩
      · exact .inr ⟨d, old, named, mine⟩
      · simp [Dialing.endpoints, unreached, pending] at mine
  constructor
  case same =>
    rw [later.same, first.same]
  case kernel =>
    rw [later.kernel, first.kernel, identity]
    simp [Kernel.live]
  case works =>
    obtain ⟨more, same, about⟩ := first.works
    obtain ⟨others, onward, further⟩ := later.works
    refine ⟨more ++ others, ?_, ?_⟩
    · rw [onward, same, List.append_assoc]
    · intro work listed
      rcases List.mem_append.mp listed with early | late
      · exact about work early
      · exact identity ▸ further work late
  case reports =>
    obtain ⟨news, same, settled⟩ := first.reports
    obtain ⟨others, onward, further⟩ := later.reports
    refine ⟨news ++ others, ?_, ?_⟩
    · rw [onward, same]
      simp
    · intro promise result listed
      rcases List.mem_append.mp listed with early | late
      · exact List.mem_cons.mpr (.inl (List.mem_singleton.mp (settled promise result early)))
      · exact List.mem_cons_of_mem _ (further promise result late)
  case begun =>
    intro d listed
    rcases later.begun d listed with old | fresh
    · exact first.begun d old
    · exact .inr fresh
  case dialings => exact later.dialings.trans first.dialings
  case opened =>
    intro w listed
    rcases later.opened w listed with ⟨v, there, endpoint, named⟩ | ⟨mine, f, asked, about⟩
    · rcases first.opened v there with ⟨u, old, before, same⟩ | ⟨mine, f, asked, about⟩
      · exact .inl ⟨u, old, before.trans endpoint, same.trans named⟩
      · refine .inr ⟨named ▸ mine, effect, List.mem_cons_self, ?_⟩
        rw [← endpoint, ← List.mem_singleton.mp asked]
        exact about
    · exact .inr ⟨mine, f, List.mem_cons_of_mem _ asked, about⟩
  case writers =>
    intro other different apart
    have before := first.writers other different fun w listed named f asked =>
      apart w listed named f (List.mem_cons.mpr (.inl (List.mem_singleton.mp asked)))
    rw [← before]
    apply later.writers other different
    intro w listed named f asked
    have there : w ∈ middle.writers.filter (·.peer = other) :=
      List.mem_filter.mpr ⟨listed, by simpa using named⟩
    rw [before] at there
    exact apart w (List.mem_filter.mp there).1 named f (List.mem_cons_of_mem _ asked)
  case network =>
    apply (first.network.mono _).trans (later.network.mono heard)
    rintro e (mine | mine)
    · exact .inl ⟨effect, List.mem_cons_self, (one e).mp mine⟩
    · exact .inr mine

/-- All that the session of a peer asks for is about this peer. -/
theorem performAll_performed (effects : List Effect) :
    n.Performed now peer network effects (n.performAll now peer network effects).1
      (n.performAll now peer network effects).2 := by
  induction effects generalizing n network with
  | nil => exact .nothing
  | cons effect effects inductionHypothesis =>
    exact (perform_performed effect).cons inductionHypothesis

end Performing

end Node

end Courier
