import Courier.Proofs.Custody
import Courier.Proofs.Pledges

/-!
# What is owed to the application

A session owes the application an answer for each promise that waits for a reply of its peer. It
comes to owe an answer by taking a letter with a promise, and it settles no promise that it does
not owe, with a reply or when the peer is given up. So in every scene that comes about, what a node
owes for a peer it was handed with letters to this peer since it was started. Numbers play no part
in this: peers may name in their replies whatever they like.
-/

namespace Courier

namespace Session

variable {host : Host} {s : Session} {occurrence : Occurrence} {promise : PromiseId}

/-- A promise waits for a reply of the peer. -/
def OwesAnswer (s : Session) (promise : PromiseId) : Prop :=
  ∃ number, (number, promise) ∈ s.ledger.bindings

/-- Nothing is owed for a peer not heard of before. -/
theorem fresh_owesAnswer (peer : PeerId) (options : Options) :
    ¬ (fresh peer options).OwesAnswer promise := by
  rintro ⟨number, ⟨⟩⟩

/-- What a session owes it owed before, or it was handed it just now. -/
theorem owesAnswer_undergo (owes : (s.undergo host occurrence).OwesAnswer promise) :
    s.OwesAnswer promise ∨ ∃ pledge ∈ s.pledge? occurrence, pledge.promise = promise := by
  obtain ⟨number, waits⟩ := owes
  cases s.dealt host occurrence with
  | turned unpledged outcome =>
    left
    generalize s.asked host occurrence = effects at outcome
    cases outcome with
    | spared _ bears => exact ⟨number, bears.bindings ▸ waits⟩
    | answered _ _ _ _ _ bindings =>
      rw [bindings] at waits
      exact ⟨number, (List.mem_filter.mp waits).1⟩
    | gaveUp _ bindings =>
      rw [bindings] at waits
      cases waits
  | pledged pledge noted _ bindings =>
    rw [bindings] at waits
    rcases List.mem_append.mp waits with old | new
    · exact .inl ⟨number, old⟩
    · cases List.mem_singleton.mp new
      exact .inr ⟨pledge, noted, rfl⟩

/-- A session settles what it owes only. -/
theorem settles_owed {result : Except CommsError (List UInt8)}
    (settles : .tell (.settled promise result) ∈ s.asked host occurrence) :
    s.OwesAnswer promise := by
  have outcome : (Effect.tell (.settled promise result)).isOutcome = true := rfl
  cases s.dealt host occurrence with
  | turned unpledged dealt =>
    generalize s.asked host occurrence = effects at dealt settles
    cases dealt with
    | spared _ _ _ unreported => cases outcome.symm.trans (unreported _ settles)
    | answered number payload answered named bound =>
      cases List.mem_singleton.mp settles
      exact ⟨number, bound⟩
    | gaveUp =>
      -- Only what waits is rejected.
      obtain ⟨upcall, told, same⟩ := List.mem_map.mp settles
      cases same
      rcases List.mem_append.mp told with rejected | last
      · obtain ⟨binding, waits, same⟩ := List.mem_map.mp rejected
        cases same
        exact ⟨binding.1, waits⟩
      · cases List.mem_singleton.mp last
  | pledged _ _ _ _ _ _ _ unasked =>
    rw [unasked] at settles
    cases settles

end Session

namespace Kernel

variable {handed more : PeerId → Letter → Prop} {k : Kernel}

/-- Whatever the session of a peer owes was handed over with a letter to this peer. -/
def Owing (handed : PeerId → Letter → Prop) (k : Kernel) : Prop :=
  ∀ peer s, k.session? peer = some s → ∀ promise, s.OwesAnswer promise →
    ∃ letter, handed peer letter ∧ letter.promise = some promise

/-- What was handed over among fewer letters was handed over among more. -/
theorem Owing.mono (owing : k.Owing handed) (within : ∀ peer letter, handed peer letter →
    more peer letter) : k.Owing more := by
  intro peer s held promise owes
  obtain ⟨letter, given, same⟩ := owing peer s held promise owes
  exact ⟨letter, within peer letter given, same⟩

/-- A kernel without sessions owes nothing. -/
theorem owing_of_vacant (empty : k.sessions = []) : k.Owing handed := by
  intro peer s held
  simp [session?, empty] at held

/-- A kernel with the same sessions owes the same. -/
theorem Owing.same {after : Kernel} (owing : k.Owing handed)
    (sessions : after.sessions = k.sessions) : after.Owing handed := by
  intro peer s held
  apply owing peer s
  rw [← held, session?, session?, sessions]

/-- Sessions that are told to end owe what they owed. -/
theorem Owing.told (owing : k.Owing handed) : ({ k with
    sessions := k.sessions.map fun entry => (entry.1, entry.2.push .shutdown) } :
      Kernel).Owing handed := by
  intro peer s found promise owes
  rw [k.session?_told] at found
  obtain ⟨old, held, rfl⟩ := Option.map_eq_some_iff.mp found
  obtain ⟨commands, same, _⟩ := old.push_eq .shutdown
  rw [same] at owes
  exact owing peer old held promise owes

/-- A promise that a session is handed comes with a letter that its kernel accepts. -/
theorem accepts_pledge {host : Host} (running : k.host? = some host) {peer : PeerId} {deed : Deed}
    {occurrence : Occurrence} (occurs : k.Occurs peer deed occurrence) {pledge : Pledge}
    (pledged : pledge ∈ (k.session host peer).pledge? occurrence) :
    ∃ letter, ⟨peer, letter⟩ ∈ k.accepts deed ∧ letter.promise = some pledge.promise := by
  cases occurs with
  | post letter now fits active =>
    obtain ⟨service, active⟩ := Option.isSome_iff_exists.mp active
    obtain rfl : service.host = host :=
      Option.some.inj ((k.host?_of_service? service active).symm.trans running)
    simp only [Session.pledge?] at pledged
    split at pledged
    · next after posted =>
      obtain ⟨promise, promised, rfl⟩ := Option.map_eq_some_iff.mp pledged
      refine ⟨letter, ?_, promised⟩
      have sent : (k.send peer letter now).1 = .ok () := by
        rw [send, if_neg (Nat.not_lt.mpr fits)]
        exact (k.session?_withSession service active peer peer _).1.trans (by rw [posted])
      simp [accepts, sent]
    · cases pledged
  | _ => cases pledged

/-- A deed makes a kernel owe only what was handed over before, or is handed over with it. -/
theorem Owing.undergo (owing : k.Owing handed) (vacant : k.host? = none → k.sessions = [])
    (deed : Deed) (given : ∀ sending ∈ k.accepts deed, handed sending.peer sending.letter) :
    (k.undergo deed).Owing handed := by
  apply each_undergo vacant deed owing
  · exact fun host peer promise owes => absurd owes (Session.fresh_owesAnswer peer host.options)
  · intro host running peer began promise owes
    rcases k.occurrences_cases peer deed with none | ⟨occurrence, one, occurs⟩
    · rw [none, Session.live_nil] at owes
      exact began promise owes
    · rw [one, Session.live_one] at owes
      rcases Session.owesAnswer_undergo owes with before | ⟨pledge, pledged, rfl⟩
      · exact began promise before
      · obtain ⟨letter, accepted, same⟩ := accepts_pledge running occurs pledged
        exact ⟨letter, given _ accepted, same⟩

/-- All through its life a kernel owes only what was handed over before, or is handed over during
the life. -/
theorem Owing.live (owing : k.Owing handed) (vacant : k.host? = none → k.sessions = [])
    (life : List Deed) (given : ∀ sending ∈ k.accepted life, handed sending.peer sending.letter) :
    (k.live life).Owing handed := by
  induction life generalizing k with
  | nil => exact owing
  | cons deed rest inductionHypothesis =>
    obtain ⟨first, later⟩ := List.forall_mem_append.mp given
    exact inductionHypothesis (owing.undergo vacant deed first) (k.undergo_vacant vacant deed) later

/-- What the session of a peer settles in a turn was handed over with a letter to this peer. -/
theorem Owing.settles (owing : k.Owing handed) {peer : PeerId} {now : Nat} {event : Event}
    {promise : PromiseId} {result : Except CommsError (List UInt8)}
    (settles : .tell (.settled promise result) ∈ (k.turn peer now event).2) :
    ∃ letter, handed peer letter ∧ letter.promise = some promise := by
  unfold turn at settles
  split at settles
  · next host s _ held =>
    have owed : s.OwesAnswer promise := Session.settles_owed
      (show _ ∈ s.asked host (.turn now k.random event) from settles)
    exact owing peer s held promise owed
  · cases settles

/-- A session that takes up a reply of its application settles nothing. -/
theorem turn_replied (k : Kernel) (peer : PeerId) (now : Nat) (reply : Option (List UInt8))
    (promise : PromiseId) (result : Except CommsError (List UInt8)) :
    .tell (.settled promise result) ∉ (k.turn peer now (.replied reply)).2 := by
  have quiet {host : Host} {s after : Session} {effects : List Effect}
      (turned : Turned host now s (.replied reply) after effects) :
      .tell (.settled promise result) ∉ effects := by
    intro settles
    cases turned with
    | still | silent => cases settles
    | replied _ _ _ _ _ _ _ flushed => cases flushed.unreported _ settles
  unfold turn
  split
  · next host s _ _ =>
    obtain ⟨effects, asked, turned⟩ :=
      Turn.handle_goes host now ⟨s, k.random, []⟩ (.replied reply)
    change _ ∉ (Turn.handle host now ⟨s, k.random, []⟩ (.replied reply)).effects
    rw [asked]
    exact quiet turned
  · exact nofun

/-- A session that is ended at once tells nothing. -/
theorem abort_silent (k : Kernel) (peer : PeerId) (application : Application) :
    (k.abort peer).2.flatMap (·.sendings application peer) = [] := by
  unfold abort
  split
  · rfl
  · next s _ =>
    obtain ⟨effects, asked, parting, _⟩ := Turn.release_goes ⟨s, k.random, []⟩
    apply List.flatMap_eq_nil_iff.mpr
    intro effect among
    have listed : effect ∈ (Turn.release ⟨s, k.random, []⟩).effects := among
    rw [asked] at listed
    have parts := parting effect listed
    cases effect <;> first | rfl | cases parts

/-- A kernel that starts forgets its sessions, and one that does not start keeps them. -/
theorem start_sessions (k : Kernel) (network : Network) (seed : List UInt8) (options : Options) :
    (k.start network seed options).2.1.sessions =
      if (k.start network seed options).1 = .ok () then [] else k.sessions := by
  rcases k.start_cases network seed options with ⟨_, _, _, failed⟩ | ⟨_, _, _, succeeded, _⟩
  · simp [failed]
  · simp [succeeded, started]

end Kernel

/-- What a node owes was handed to it, and it reacts to messages as its application says. -/
structure Node.Accounted (accepted : List (Nat × Sending)) (n : Node) : Prop where
  owing : n.kernel.Owing fun peer letter => (n.number, ⟨peer, letter⟩) ∈ accepted
  works : ∀ work ∈ n.works, ∃ payload, work.reaction = n.application.onMessage work.peer payload

/-- What a node owes was handed to it among more letters as well. -/
theorem Node.Accounted.mono {accepted more : List (Nat × Sending)} {n : Node}
    (accounted : n.Accounted accepted)
    (within : ∀ sending, (n.number, sending) ∈ accepted → (n.number, sending) ∈ more) :
    n.Accounted more :=
  ⟨accounted.owing.mono fun _ _ => within _, accounted.works⟩

/-- What a step of a node settles was handed over with a letter to the peer that it is about. -/
theorem Node.Accounted.settles {accepted : List (Nat × Sending)} {now : Nat} {n after : Node}
    {network rest : Network} {activity : Activity} (accounted : n.Accounted accepted)
    (stepped : n.step? now network activity = some (after, rest)) : ∃ news,
      after.reports = n.reports ++ List.toArray news ∧
        ∀ promise result, .settled promise result ∈ news → ∃ peer letter,
          n.about? activity = some peer ∧ letter.promise = some promise ∧
            (n.number, ⟨peer, letter⟩) ∈ accepted := by
  obtain ⟨news, same, settled⟩ := n.step?_reports stepped
  refine ⟨news, same, fun promise result listed => ?_⟩
  obtain ⟨peer, sendings, event, about, which, settles⟩ := settled promise result listed
  rcases which with rfl | ⟨reply, rfl⟩
  · obtain ⟨letter, handed, promised⟩ := accounted.owing.settles settles
    exact ⟨peer, letter, about, promised, handed⟩
  · exact absurd settles (Kernel.turn_replied _ peer now reply promise result)

namespace Scene

variable {s t : Scene} {n : Node}

/-- What the nodes owe they were handed. -/
def Accounted (s : Scene) : Prop := ∀ n ∈ s.world.nodes, n.Accounted s.accepted

/-- A node is put in its place, and what the others were handed stays noted. -/
theorem Accounted.set (accounted : s.Accounted) {m : Node} {rest : Network}
    (world : t.world = { s.world.set m with network := rest })
    (kept : ∀ number sending, number ≠ m.number → (number, sending) ∈ s.accepted →
      (number, sending) ∈ t.accepted) (node : m.Accounted t.accepted) : t.Accounted := by
  unfold Accounted
  rw [world]
  intro k there
  rcases World.mem_set there with ⟨old, other⟩ | rfl
  · exact (accounted k old).mono fun sending => kept k.number sending other
  · exact node

/-- A node that owes what it owed is put in its place, and nothing is handed over. -/
theorem Accounted.still (accounted : s.Accounted) (m : Node) (rest : Network)
    (world : t.world = { s.world.set m with network := rest }) (accepted : t.accepted = s.accepted)
    (node : m.Accounted s.accepted) : t.Accounted :=
  accounted.set world (fun _ _ _ listed => accepted ▸ listed) (accepted ▸ node)

/-- What the nodes owe they were handed, still when something stirs. What a node does is a life of
its kernel, and the letters that this life accepts are noted along with it. -/
theorem Accounted.stirs (accounted : s.Accounted)
    (vacant : ∀ n ∈ s.world.nodes, n.kernel.host? = none → n.kernel.sessions = [])
    (stirs : s.Stirs t) : t.Accounted := by
  have noted {number : Nat} {sending : Sending} {letters : List Sending}
      (listed : sending ∈ letters) :
      (number, sending) ∈ s.accepted ++ letters.map (number, ·) :=
    List.mem_append_right _ (List.mem_map.mpr ⟨sending, listed, rfl⟩)
  cases stirs with
  | acted n listed activity after rest stepped =>
    have has := accounted n listed
    have same := Node.step?_same stepped
    have number : after.number = n.number := by rw [same]
    have application : after.application = n.application := by rw [same]
    apply accounted.set rfl (fun _ _ _ => List.mem_append_left _)
    constructor
    case owing =>
      rw [Node.step?_lives stepped, number]
      apply (has.owing.mono fun _ _ => List.mem_append_left _).live (vacant n listed)
      exact fun sending given => noted given
    case works =>
      rw [application]
      intro work there
      rcases Node.step?_works stepped work there with old | new
      · exact has.works work old
      · exact new
  | passed => exact accounted
  | called n listed deed call =>
    have has := accounted n listed
    apply accounted.set rfl (fun _ _ _ => List.mem_append_left _)
    refine ⟨?_, has.works⟩
    apply (has.owing.mono fun _ _ => List.mem_append_left _).undergo (vacant n listed)
    exact fun sending given => noted given
  | aborted n listed peer =>
    have has := accounted n listed
    have performed := Node.abort_performed (s.world.clock n) peer n s.world.network
    have number : (n.abort (s.world.clock n) peer s.world.network).1.number = n.number := by
      rw [performed.same]
    have application : (n.abort (s.world.clock n) peer s.world.network).1.application =
        n.application := by rw [performed.same]
    refine accounted.still (n.abort (s.world.clock n) peer s.world.network).1
      (n.abort (s.world.clock n) peer s.world.network).2 rfl rfl ?_
    constructor
    case owing =>
      rw [number, performed.kernel, Kernel.abort_silent]
      exact has.owing.undergo (vacant n listed) (.abort peer) nofun
    case works =>
      obtain ⟨more, kept, about⟩ := performed.works
      rw [application, kept]
      intro work there
      rcases List.mem_append.mp there with old | new
      · exact has.works work (List.mem_filter.mp old).1
      · obtain ⟨named, payload, made⟩ := about work new
        exact ⟨payload, named ▸ made⟩
  | buried => exact fun m there => accounted m (List.mem_filter.mp there).1
  | forgot =>
    intro m there
    obtain ⟨n, listed, rfl⟩ := List.mem_map.mp there
    exact ⟨(accounted n listed).owing, (accounted n listed).works⟩

/-- A node that starts owes nothing, and what was handed to it before is forgotten. -/
theorem Accounted.started (accounted : s.Accounted) (listed : n ∈ s.world.nodes)
    (seed : List UInt8) (options : Options) (world : t.world = (s.world.start n seed options).2)
    (accepted : t.accepted = if (s.world.start n seed options).1 = .ok () then
      s.accepted.filter fun entry => entry.1 ≠ n.number else s.accepted) : t.Accounted := by
  have has := accounted n listed
  have sessions := n.kernel.start_sessions s.world.network seed options
  apply accounted.set world
  case kept =>
    intro number sending other there
    rw [accepted]
    split
    · exact List.mem_filter.mpr ⟨there, by simpa using other⟩
    · exact there
  case node =>
    refine ⟨?_, has.works⟩
    by_cases ok : (n.kernel.start s.world.network seed options).1 = .ok ()
    · rw [if_pos ok] at sessions
      exact Kernel.owing_of_vacant sessions
    · rw [if_neg ok] at sessions
      have kept : t.accepted = s.accepted := accepted.trans (if_neg ok)
      rw [kept]
      exact has.owing.same sessions

/-- What the nodes owe they were handed, still after a step. -/
theorem Accounted.step (accounted : s.Accounted)
    (vacant : ∀ n ∈ s.world.nodes, n.kernel.host? = none → n.kernel.sessions = [])
    (step : s.Step t) : t.Accounted := by
  cases step with
  | stirred t stirs => exact accounted.stirs vacant stirs
  | visited t visits => cases visits <;> exact accounted
  | added name application seed =>
    intro m listed
    rcases List.mem_append.mp listed with old | new
    · exact accounted m old
    · rw [List.mem_singleton.mp new]
      exact ⟨Kernel.owing_of_vacant rfl, nofun⟩
  | started n listed seed options => exact accounted.started listed seed options rfl rfl
  | withdrew n listed =>
    have has := accounted n listed
    refine accounted.still (withdrawing n s.world.network).1 (withdrawing n s.world.network).2 rfl
      rfl ⟨has.owing.same ?_, has.works⟩
    change (n.kernel.beginStop s.world.network).1.sessions = n.kernel.sessions
    unfold Kernel.beginStop
    split <;> rfl
  | dropped n listed =>
    have has := accounted n listed
    exact accounted.still _ s.world.network rfl rfl ⟨has.owing.told, has.works⟩
  | finished n listed =>
    have has := accounted n listed
    refine accounted.still _ s.world.network rfl rfl ⟨?_, has.works⟩
    unfold Kernel.finishStop
    split
    · exact Kernel.owing_of_vacant rfl
    · exact has.owing

/-- In every scene that comes about, what the nodes owe they were handed since they started. -/
theorem Reachable.accounted (reachable : s.Reachable) : s.Accounted := by
  induction reachable with
  | refl => exact nofun
  | tail earlier step inductionHypothesis =>
    obtain ⟨owner, held⟩ := Reachable.held earlier
    exact inductionHypothesis.step (fun n listed => (held.nodes n listed).vacant) step

end Scene

end Courier
