import Courier.Proofs.Custody

/-!
# What becomes of a node

A scene is about many nodes on one network. For a single node it comes down to this: the node
takes steps, its kernel is called, started or brought to its end, and what it has is withdrawn,
ended or forgotten. The network may be any at each of these times, so what holds of a node however
it fares holds whatever other nodes and visitors do, and whatever bytes they send.
-/

namespace Courier

/-- Whether a deed comes from outside: a call on sessions, or the start or the end of a kernel. -/
def Deed.isOutside (deed : Deed) : Bool := deed.isCall || !deed.isOrdinary

namespace Node

/-- What may become of a node at a time, on any network. -/
inductive Fares (n : Node) : Node → Prop where
  | acted (now : Nat) (network rest : Network) (activity : Activity) (after : Node)
      (stepped : n.step? now network activity = some (after, rest)) : Fares n after
  | called (deed : Deed) (outside : deed.isOutside = true) :
      Fares n { n with kernel := n.kernel.undergo deed }
  | aborted (now : Nat) (peer : PeerId) (network : Network) :
      Fares n (n.abort now peer network).1
  | withdrew (network : Network) : Fares n (Scene.withdrawing n network).1
  | dropped : Fares n { n with
      dropped := true
      kernel := { n.kernel with
        sessions := n.kernel.sessions.map fun entry => (entry.1, entry.2.push .shutdown) } }
  | forgot : Fares n { n with reports := #[] }

/-- A node that comes about: it was set up, and fared somehow since then. -/
inductive ComesAbout : Node → Prop where
  | new (number : Nat) (name : String) (epoch : Nat) (application : Application)
      (seed : UInt64) :
      ComesAbout { number, name, epoch, application, kernel := { random := .ofSeed seed } }
  | fared (n after : Node) (earlier : n.ComesAbout) (fares : n.Fares after) : after.ComesAbout

end Node

namespace Scene

variable {s t : Scene}

/-- The nodes once one was put in the place of a node that came about. -/
theorem comesAbout_set {m : Node} (nodes : ∀ n ∈ s.world.nodes, n.ComesAbout)
    (comesAbout : m.ComesAbout) : ∀ n ∈ (s.world.set m).nodes, n.ComesAbout := by
  intro n listed
  rcases World.mem_set listed with ⟨old, _⟩ | rfl
  · exact nodes n old
  · exact comesAbout

/-- Every node of a scene comes about still when something stirs. -/
theorem comesAbout_stirs (nodes : ∀ n ∈ s.world.nodes, n.ComesAbout) (stirs : s.Stirs t) :
    ∀ n ∈ t.world.nodes, n.ComesAbout := by
  cases stirs with
  | acted n listed activity after rest stepped =>
    exact comesAbout_set nodes (.fared n _ (nodes n listed) (.acted _ _ rest activity _ stepped))
  | passed => exact nodes
  | called n listed deed call =>
    have outside : deed.isOutside = true := by simp [Deed.isOutside, call]
    exact comesAbout_set nodes (.fared n _ (nodes n listed) (.called deed outside))
  | aborted n listed peer =>
    exact comesAbout_set nodes (.fared n _ (nodes n listed) (.aborted _ peer _))
  | buried => exact fun n listed => nodes n (List.mem_filter.mp listed).1
  | forgot =>
    intro m listed
    obtain ⟨n, there, rfl⟩ := List.mem_map.mp listed
    exact .fared n _ (nodes n there) .forgot

/-- Every node of a scene comes about still after a step. -/
theorem comesAbout_step (nodes : ∀ n ∈ s.world.nodes, n.ComesAbout) (step : s.Step t) :
    ∀ n ∈ t.world.nodes, n.ComesAbout := by
  cases step with
  | stirred t stirs => exact comesAbout_stirs nodes stirs
  | visited t visits => cases visits <;> exact nodes
  | added name application seed =>
    intro n listed
    rcases List.mem_append.mp listed with old | new
    · exact nodes n old
    · rw [List.mem_singleton.mp new]
      exact .new _ name _ application seed
  | started n listed seed options =>
    have fares : n.Fares { n with
        kernel := n.kernel.undergo (.start s.world.network seed options) } := .called _ rfl
    exact comesAbout_set nodes (.fared n _ (nodes n listed) fares)
  | withdrew n listed =>
    exact comesAbout_set nodes (.fared n _ (nodes n listed) (.withdrew s.world.network))
  | dropped n listed => exact comesAbout_set nodes (.fared n _ (nodes n listed) .dropped)
  | finished n listed =>
    exact comesAbout_set nodes (.fared n _ (nodes n listed) (.called .finishStop rfl))

/-- Every node of a scene that comes about comes about itself. -/
theorem Reachable.comesAbout (reachable : s.Reachable) :
    ∀ n ∈ s.world.nodes, n.ComesAbout := by
  induction reachable with
  | refl => exact nofun
  | tail earlier step inductionHypothesis => exact comesAbout_step inductionHypothesis step

end Scene

end Courier
