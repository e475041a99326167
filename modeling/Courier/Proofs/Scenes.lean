import Courier.Proofs.Steps
import Courier.World.Clock
import Mathlib.Logic.Relation

/-!
# Scenes

A scene is a world together with what parties without a kernel hold on its network. In a scene
activities go on in any order, a session takes up any event that is there, and time passes;
applications call their kernels; kernels are set up, started, stopped and dropped; and visitors
dial, listen, read and write as they like. The running of a world, and the stopping of a kernel
with all that goes on meanwhile, are made of such steps.
-/

namespace Courier

open Handshake

/-- The kernel of a node comes to the end of stopping. -/
def World.finish (w : World) (number : Nat) : World :=
  w.change number fun n network _ => ({ n with kernel := n.kernel.finishStop }, network)

/-- The letters that a kernel accepts with a deed. -/
def Kernel.accepts (k : Kernel) : Deed → List Sending
  | .send peer letter now =>
    match (k.send peer letter now).1 with
    | .ok () => [⟨peer, letter⟩]
    | .error _ => []
  | _ => []

/-- The letters that a kernel accepts in a life, in order. -/
def Kernel.accepted (k : Kernel) : List Deed → List Sending
  | [] => []
  | deed :: life => k.accepts deed ++ (k.undergo deed).accepted life

/-- Whether a deed is a call from outside on sessions, or tells one to end. -/
def Deed.isCall : Deed → Bool
  | .send _ _ _ | .addHints _ _ | .reconnect _ _ | .close _ | .resetBackoffs | .shutdown _ => true
  | _ => false

/-- The piece that a step reads at an end while greetings are exchanged there. -/
def Node.hears (n : Node) (network : Network) (activity : Activity) (e : Endpoint) :
    List ByteArray :=
  match activity with
  | .welcome endpoint =>
    if e = endpoint then
      ((n.arrival? endpoint).map (·.welcome.hears endpoint network)).getD []
    else []
  | .dialing peer =>
    match n.attempt? peer with
    | none => []
    | some d => if e ∈ d.endpoints then d.hears network else []
  | _ => []

/-- A world, the ends and the listeners that parties without a kernel hold on its network, and a
record of what went on: the pieces that were read at each end while greetings were exchanged
there, and the letters that the nodes accepted since they were started, by their numbers. -/
structure Scene where
  world : World := {}
  ends : List Endpoint := []
  posts : List Nat := []
  heard : Endpoint → List ByteArray := fun _ => []
  accepted : List (Nat × Sending) := []

namespace Scene

/-- What goes on while no kernel is set up, started, stopped or dropped. -/
inductive Stirs (s : Scene) : Scene → Prop where
  | acted (n : Node) (listed : n ∈ s.world.nodes) (activity : Activity) (after : Node)
      (rest : Network)
      (stepped : n.step? (s.world.clock n) s.world.network activity = some (after, rest)) :
      Stirs s { s with
        world := { s.world.set after with network := rest }
        heard := fun e => s.heard e ++ n.hears s.world.network activity e
        accepted := s.accepted ++
          (n.kernel.accepted (n.deeds (s.world.clock n) s.world.network activity)).map
            (n.number, ·) }
  | passed (later : Nat) (onward : s.world.now ≤ later) :
      Stirs s { s with world := { s.world with now := later } }
  | called (n : Node) (listed : n ∈ s.world.nodes) (deed : Deed) (call : deed.isCall = true) :
      Stirs s { s with
        world := s.world.set { n with kernel := n.kernel.undergo deed }
        accepted := s.accepted ++ (n.kernel.accepts deed).map (n.number, ·) }
  /-- A session is ended at once. -/
  | aborted (n : Node) (listed : n ∈ s.world.nodes) (peer : PeerId) :
      Stirs s { s with
        world := { s.world.set (n.abort (s.world.clock n) peer s.world.network).1 with
          network := (n.abort (s.world.clock n) peer s.world.network).2 } }
  | buried : Stirs s { s with world := s.world.bury }
  | forgot : Stirs s { s with world := s.world.forgetReports }

/-- What a party without a kernel may do on the network. -/
inductive Visits (s : Scene) : Scene → Prop where
  | dialed (address : Address) (endpoint : Endpoint) (rest : Network)
      (dialed : s.world.network.dial address = (.ok endpoint, rest)) :
      Visits s { s with world := { s.world with network := rest }, ends := endpoint :: s.ends }
  | refused (address : Address) (error : NetworkError) (rest : Network)
      (dialed : s.world.network.dial address = (.error error, rest)) :
      Visits s { s with world := { s.world with network := rest } }
  | listened (text : String) (number : Nat) (key : String) (rest : Network)
      (bound : s.world.network.listen text = .ok (number, key, rest)) :
      Visits s { s with world := { s.world with network := rest }, posts := number :: s.posts }
  | unlistened (number : Nat) (held : number ∈ s.posts) :
      Visits s { s with
        world := { s.world with network := s.world.network.unlisten number }
        posts := s.posts.filter (· ≠ number) }
  | accepted (number : Nat) (held : number ∈ s.posts) (arrival : Endpoint × String)
      (rest : Network) (taken : s.world.network.accept? number = some (arrival, rest)) :
      Visits s { s with world := { s.world with network := rest }, ends := arrival.1 :: s.ends }
  | wrote (e : Endpoint) (held : e ∈ s.ends) (bytes : ByteArray) (start count : Nat)
      (rest : Network) (wrote : s.world.network.write? e bytes start = some (count, rest)) :
      Visits s { s with world := { s.world with network := rest } }
  | read (e : Endpoint) (held : e ∈ s.ends) (limit : Nat) :
      Visits s { s with world := { s.world with network := (s.world.network.read e limit).2 } }
  | shut (e : Endpoint) (held : e ∈ s.ends) :
      Visits s { s with world := { s.world with network := s.world.network.shutdown e } }
  | hungUp (e : Endpoint) (held : e ∈ s.ends) :
      Visits s { s with
        world := { s.world with network := s.world.network.hangUp e }
        ends := s.ends.filter (· ≠ e) }

/-- A node that withdraws closes its listeners and lets go of whoever arrived. -/
def withdrawing (n : Node) (network : Network) : Node × Network :=
  ({ n with kernel := (n.kernel.beginStop network).1 } : Node).dismiss
    (n.kernel.beginStop network).2

/-- The scene once a node has withdrawn. -/
def withdrawn (s : Scene) (number : Nat) : Scene :=
  { s with world := s.world.withdraw number }

/-- One step of a scene. -/
inductive Step (s : Scene) : Scene → Prop where
  | stirred (t : Scene) (stirs : s.Stirs t) : Step s t
  | visited (t : Scene) (visits : s.Visits t) : Step s t
  | added (name : String) (application : Application) (seed : UInt64) :
      Step s { s with world := s.world.add name application seed }
  | started (n : Node) (listed : n ∈ s.world.nodes) (seed : List UInt8) (options : Options) :
      Step s { s with
        world := (s.world.start n seed options).2
        accepted := if (s.world.start n seed options).1 = .ok () then
          s.accepted.filter fun entry => entry.1 ≠ n.number else s.accepted }
  | withdrew (n : Node) (listed : n ∈ s.world.nodes) :
      Step s { s with
        world := { s.world.set (withdrawing n s.world.network).1 with
          network := (withdrawing n s.world.network).2 } }
  | dropped (n : Node) (listed : n ∈ s.world.nodes) :
      Step s { s with
        world := s.world.set { n with
          dropped := true
          kernel := { n.kernel with
            sessions := n.kernel.sessions.map fun entry => (entry.1, entry.2.push .shutdown) } } }
  | finished (n : Node) (listed : n ∈ s.world.nodes) :
      Step s { s with world := s.world.set { n with kernel := n.kernel.finishStop } }

/-- A scene that comes about from an empty world. -/
def Reachable (s : Scene) : Prop := Relation.ReflTransGen Step {} s

/-- What may become of a scene while no kernel is set up, started, stopped or dropped. -/
abbrev GoesOn : Scene → Scene → Prop := Relation.ReflTransGen Stirs

section Running

variable {s : Scene} {w : World} {number : Nat}

/-- A scene may go on to a world. -/
def Leads (s : Scene) (w : World) : Prop := ∃ t, s.GoesOn t ∧ t.world = w

/-- A scene leads to its own world. -/
theorem Leads.refl (s : Scene) : s.Leads s.world := ⟨s, .refl, rfl⟩

/-- What leads on from where a scene leads is reached from the scene. -/
theorem Leads.trans {later : World} (first : s.Leads w)
    (second : ∀ t : Scene, t.world = w → t.Leads later) : s.Leads later := by
  obtain ⟨t, goes, rfl⟩ := first
  obtain ⟨u, further, same⟩ := second t rfl
  exact ⟨u, goes.trans further, same⟩

/-- A step of a world is one that a scene may take, whatever activity it is. -/
theorem step?_leads {activity : Activity} (stepped : s.world.step? number activity = some w) :
    s.Leads w := by
  unfold World.step? at stepped
  split at stepped
  · cases stepped
  · next n found =>
    obtain ⟨⟨after, rest⟩, acted, rfl⟩ := Option.map_eq_some_iff.mp stepped
    exact ⟨_, .single (.acted n (List.mem_of_find?_eq_some found) activity after rest acted), rfl⟩

/-- An agenda that goes on takes steps of its activities. -/
theorem exhaust_leads (agenda : List Activity) (fuel : Nat) (moved any : Bool)
    (ran : World.exhaust number agenda fuel moved s.world = some (any, w)) : s.Leads w := by
  induction fuel generalizing s moved with
  | zero => cases ran
  | succ fuel inductionHypothesis =>
    unfold World.exhaust at ran
    split at ran
    · cases ran
      exact .refl s
    · next later goes =>
      obtain ⟨_, _, stepped⟩ := List.exists_of_findSome?_eq_some goes
      apply (step?_leads stepped).trans
      rintro t rfl
      exact inductionHypothesis true ran

/-- A round of a world is made of steps that a scene may take. -/
theorem round_leads (any : Bool) (ran : s.world.round = some (any, w)) : s.Leads w := by
  have each (turns : List (Nat × List Activity)) (moved : Bool) (t : Scene)
      (ran : turns.foldlM (fun reached turn =>
        World.exhaust turn.1 turn.2 World.patience reached.1 reached.2) (moved, t.world) =
          some (any, w)) : t.Leads w := by
    induction turns generalizing moved t with
    | nil =>
      cases ran
      exact .refl t
    | cons turn turns inductionHypothesis =>
      rw [List.foldlM_cons] at ran
      obtain ⟨⟨more, later⟩, exhausted, onward⟩ := Option.bind_eq_some_iff.mp ran
      apply (exhaust_leads turn.2 _ moved more exhausted).trans
      rintro u rfl
      exact inductionHypothesis more u onward
  exact each _ false s ran

/-- To settle is to go on. -/
theorem settle_leads (settled : s.world.settle = some w) : s.Leads w := by
  have within (fuel : Nat) (t : Scene)
      (settled : World.settleWithin fuel t.world = some w) : t.Leads w := by
    induction fuel generalizing t with
    | zero => cases settled
    | succ fuel inductionHypothesis =>
      unfold World.settleWithin at settled
      split at settled
      · cases settled
      · next later ran =>
        apply (round_leads true ran).trans
        rintro u rfl
        exact inductionHypothesis u settled
      · next later ran =>
        cases settled
        apply (round_leads false ran).trans
        rintro u rfl
        exact ⟨_, .single .buried, rfl⟩
  exact within _ s settled

/-- The next time at which something is due is not in the past. -/
theorem nextDue_onward (w : World) (target : Nat) (ahead : w.now ≤ target) :
    w.now ≤ w.nextDue target := by
  have each (dues : List Nat) (later : ∀ due ∈ dues, w.now < due) (target : Nat)
      (ahead : w.now ≤ target) : w.now ≤ dues.foldl min target := by
    induction dues generalizing target with
    | nil => exact ahead
    | cons due dues inductionHypothesis =>
      rw [List.forall_mem_cons] at later
      apply inductionHypothesis later.2
      exact Nat.le_min.mpr ⟨ahead, Nat.le_of_lt later.1⟩
  apply each _ _ target ahead
  intro due listed
  simpa using (List.mem_filter.mp listed).2

/-- A world that runs until some time goes on as a scene may. -/
theorem runUntil_leads (enough : World → Bool) (target : Nat)
    (ran : s.world.runUntil enough target = some w) : s.Leads w := by
  have within (fuel : Nat) (t : Scene)
      (ran : World.runWithin enough target fuel t.world = some w) : t.Leads w := by
    induction fuel generalizing t with
    | zero => cases ran
    | succ fuel inductionHypothesis =>
      unfold World.runWithin at ran
      split at ran
      · cases ran
      · next later settled =>
        split at ran
        · cases ran
          exact settle_leads settled
        · next more =>
          apply (settle_leads settled).trans
          rintro u rfl
          have ahead : u.world.now ≤ target := by
            simp only [not_or, not_le] at more
            exact Nat.le_of_lt more.2
          have passed : u.Leads { u.world with now := u.world.nextDue target } :=
            ⟨_, .single (.passed _ (nextDue_onward u.world target ahead)), rfl⟩
          apply passed.trans
          rintro v same
          apply inductionHypothesis v
          rw [same]
          exact ran
  exact within _ s ran

/-- To let time pass is to go on. -/
theorem advance_leads (span : Nat) (ran : s.world.advance span = some w) : s.Leads w :=
  runUntil_leads _ _ ran

/-- A change of a node that is a step of the scene. -/
theorem change_leads (act : Node → Network → Nat → Node × Network)
    (stirs : ∀ n ∈ s.world.nodes, n.number = number → s.Leads { s.world.set
      (act n s.world.network (s.world.clock n)).1 with
        network := (act n s.world.network (s.world.clock n)).2 }) :
    s.Leads (s.world.change number act) := by
  unfold World.change
  split
  · exact .refl s
  · next n found =>
    exact stirs n (List.mem_of_find?_eq_some found) (by simpa using List.find?_some found)

/-- The end of a session is made of steps that a scene may take. -/
theorem endSession_leads (peer : PeerId) (ended : World.endSession number s.world peer = some w) :
    s.Leads w := by
  obtain ⟨later, ran, same⟩ := Option.map_eq_some_iff.mp ended
  have told : s.Leads (s.world.change number fun n network _ =>
      ({ n with kernel := n.kernel.command peer .shutdown }, network)) := by
    apply change_leads
    intro n listed _
    exact ⟨_, .single (.called n listed (.shutdown peer) rfl), rfl⟩
  apply told.trans
  intro t same'
  rw [← same'] at ran
  apply (runUntil_leads _ _ ran).trans
  rintro u rfl
  rw [← same]
  split
  · exact .refl u
  · apply change_leads
    intro n listed _
    exact ⟨_, .single (.aborted n listed peer), rfl⟩

/-- To stop is to withdraw, to let things go on while the sessions come to their end, and to
finish. -/
theorem stop_leads {n : Node} (active : n.kernel.service?.isSome)
    (stopped : s.world.stop n = some w) :
    ∃ t, (s.withdrawn n.number).GoesOn t ∧ w = t.world.finish n.number := by
  have each (peers : List PeerId) (t : Scene) (later : World)
      (ended : peers.foldlM (World.endSession n.number) t.world = some later) :
      t.Leads later := by
    induction peers generalizing t with
    | nil =>
      cases ended
      exact .refl t
    | cons peer peers inductionHypothesis =>
      rw [List.foldlM_cons] at ended
      obtain ⟨next, first, others⟩ := Option.bind_eq_some_iff.mp ended
      apply (endSession_leads peer first).trans
      rintro u rfl
      exact inductionHypothesis u others
  unfold World.stop at stopped
  split at stopped
  · next inactive =>
    rw [inactive] at active
    cases active
  · next service _ =>
    obtain ⟨ended, given, same⟩ := Option.map_eq_some_iff.mp stopped
    obtain ⟨settled, before, later⟩ := Option.bind_eq_some_iff.mp given
    have settles : (s.withdrawn n.number).Leads settled := by
      split at before
      · cases before
        exact .refl _
      · exact settle_leads before
    obtain ⟨t, goes, rfl⟩ := settles.trans fun u reached => by
      apply each _ u ended
      rw [reached]
      exact later
    exact ⟨t, goes, same.symm⟩

end Running

end Scene

end Courier
