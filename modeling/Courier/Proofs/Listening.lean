import Courier.Proofs.Performing
import Mathlib.Data.List.Nodup

/-!
# Binding addresses

A listener is bound to the transport part of the address that it was asked for, and no two
listeners are bound to the same. A kernel that starts binds its addresses one after another. When
one of them cannot be bound, because it is no address of this network, because somebody holds it,
or because it is the same as an earlier one, the listeners that were bound so far are closed
again, and the network is left with the listeners that it had.
-/

namespace Courier

namespace Network

/-- The addresses that are bound. -/
def bound (n : Network) : List String := n.listeners.map (·.key)

/-- The listeners by their numbers, with the addresses that they are bound to. -/
def bindings (n : Network) : List (Nat × String) := n.listeners.map fun l => (l.number, l.key)

/-- Each address and each number is that of one listener, and the numbers were given out. -/
structure Regular (n : Network) : Prop where
  keys : n.bound.Nodup
  numbers : (n.bindings.map (·.1)).Nodup
  given : ∀ entry ∈ n.bindings, entry.1 ≤ n.listenersMade

/-- The same listeners are bound to the same addresses. -/
structure SameBindings (n after : Network) : Prop where
  bindings : after.bindings = n.bindings
  made : after.listenersMade = n.listenersMade

section Listeners

variable {n after : Network}

/-- The addresses that are bound are those of the bindings. -/
theorem bound_eq (n : Network) : n.bound = n.bindings.map (·.2) := by
  simp [bound, bindings]

/-- An address is bound if a listener has its transport part. -/
theorem isBound_iff (n : Network) (text : String) : n.isBound text ↔ keyOf text ∈ n.bound := by
  simp [isBound, listener?, bound]

/-- The same listeners are bound if nothing happened. -/
theorem SameBindings.refl (n : Network) : n.SameBindings n := ⟨rfl, rfl⟩

/-- The same listeners are bound after two changes that keep them. -/
theorem SameBindings.trans {middle : Network} (first : n.SameBindings middle)
    (second : middle.SameBindings after) : n.SameBindings after :=
  ⟨second.bindings.trans first.bindings, second.made.trans first.made⟩

/-- With the same bindings the same addresses are bound. -/
theorem SameBindings.bound (same : n.SameBindings after) : after.bound = n.bound := by
  rw [bound_eq, bound_eq, same.bindings]

/-- Fewer listeners, or more given out. -/
theorem Regular.part (regular : n.Regular) (part : List.Sublist after.bindings n.bindings)
    (later : n.listenersMade ≤ after.listenersMade) : after.Regular := by
  constructor
  case keys =>
    have keys := regular.keys
    rw [bound_eq] at keys ⊢
    exact keys.sublist (part.map _)
  case numbers => exact regular.numbers.sublist (part.map _)
  case given =>
    intro entry listed
    exact Nat.le_trans (regular.given entry (part.subset listed)) later

/-- A network with the same bindings is regular as well. -/
theorem Regular.same (regular : n.Regular) (same : n.SameBindings after) : after.Regular :=
  regular.part (same.bindings ▸ .refl _) (Nat.le_of_eq same.made.symm)

/-- What is done at ends of connections binds nothing and frees nothing. -/
theorem Touched.sameBindings {ends : Endpoint → Prop} (touched : Touched ends n after) :
    n.SameBindings after := by
  constructor
  · unfold bindings
    rw [touched.listeners]
  · exact touched.listenersMade

/-- Whoever arrives or is taken up waits at the same listener. -/
theorem sameBindings_map (n : Network) (change : Listener → Listener)
    (number : ∀ l, (change l).number = l.number) (key : ∀ l, (change l).key = l.key)
    (dialsMade : Nat) (connections : List (Nat × Connection)) :
    n.SameBindings { n with listeners := n.listeners.map change, dialsMade, connections } := by
  constructor
  · simp [bindings, number, key]
  · rfl

/-- To take up who arrived binds nothing and frees nothing. -/
theorem accept?_sameBindings {number : Nat} {arrival : Endpoint × String}
    (taken : n.accept? number = some (arrival, after)) : n.SameBindings after := by
  unfold accept? at taken
  split at taken
  · cases taken
    apply n.sameBindings_map
    · intro l
      split <;> rfl
    · intro l
      split <;> rfl
  · cases taken

/-- To dial binds nothing and frees nothing. -/
theorem dial_sameBindings (n : Network) (address : Address) :
    n.SameBindings (n.dial address).2 := by
  unfold dial
  split
  · exact .refl n
  · dsimp only
    split
    · apply n.sameBindings_map
      · intro l
        split <;> rfl
      · intro l
        split <;> rfl
    · exact ⟨rfl, rfl⟩

/-- A listener is bound to an address of the memory transport that nobody holds. -/
structure Listens (n : Network) (text : String) (number : Nat) (key : String) (after : Network) :
    Prop where
  kind : Transport.classify text = some .memory
  named : key = keyOf text
  counted : number = n.listenersMade + 1
  free : key ∉ n.bound
  eq : after = { n with listeners := n.listeners ++ [{ key, number }], listenersMade := number }

/-- A listener that comes about is bound to an address that nobody held, and has the next number. -/
theorem listen_ok {text : String} {number : Nat} {key : String}
    (bound : n.listen text = .ok (number, key, after)) : n.Listens text number key after := by
  unfold listen at bound
  split at bound
  · cases bound
  · next kind =>
    dsimp only at bound
    split at bound
    · cases bound
    · next free =>
      cases bound
      constructor
      case kind => exact Decidable.not_not.mp kind
      case free => exact fun listed => free ((n.isBound_iff text).mpr listed)
      all_goals rfl

/-- An address of the memory transport that nobody holds can be bound. -/
theorem listen_able (n : Network) (text : String) (kind : Transport.classify text = some .memory)
    (free : keyOf text ∉ n.bound) : ∃ number key after,
      n.listen text = .ok (number, key, after) := by
  have unbound : ¬ (n.listener? (keyOf text)).isSome := fun found =>
    free ((n.isBound_iff text).mp found)
  have given : n.listen text = .ok (n.listenersMade + 1, keyOf text,
      { n with
        listeners := n.listeners ++ [{ key := keyOf text, number := n.listenersMade + 1 }]
        listenersMade := n.listenersMade + 1 }) := by
    simp [listen, kind, unbound]
  exact ⟨_, _, _, given⟩

/-- A listener has the next number. -/
theorem Listens.made {text : String} {number : Nat} {key : String}
    (listens : n.Listens text number key after) :
    number = n.listenersMade + 1 ∧ after.listenersMade = n.listenersMade + 1 := by
  refine ⟨listens.counted, ?_⟩
  rw [listens.eq]
  exact listens.counted

/-- The binding of a new listener comes behind the others. -/
theorem Listens.bindings {text : String} {number : Nat} {key : String}
    (listens : n.Listens text number key after) :
    after.bindings = n.bindings ++ [(number, key)] := by
  rw [listens.eq]
  simp [Network.bindings]

/-- The address of a new listener comes behind the others. -/
theorem Listens.bound {text : String} {number : Nat} {key : String}
    (listens : n.Listens text number key after) : after.bound = n.bound ++ [key] := by
  rw [bound_eq, listens.bindings, bound_eq]
  simp

/-- A network with a new listener is regular. -/
theorem Regular.listens {text : String} {number : Nat} {key : String} (regular : n.Regular)
    (listens : n.Listens text number key after) : after.Regular := by
  have made : after.listenersMade = number := by rw [listens.eq]
  constructor
  case keys =>
    rw [listens.bound, ← List.concat_eq_append]
    exact regular.keys.concat listens.free
  case numbers =>
    rw [listens.bindings, List.map_append, List.map_singleton, ← List.concat_eq_append]
    apply regular.numbers.concat
    intro listed
    obtain ⟨entry, old, same⟩ := List.mem_map.mp listed
    have given := regular.given entry old
    have fresh := listens.counted
    dsimp only at same
    omega
  case given =>
    rw [listens.bindings, made]
    intro entry listed
    rcases List.mem_append.mp listed with old | new
    · have given := regular.given entry old
      have fresh := listens.counted
      omega
    · obtain rfl := List.mem_singleton.mp new
      exact Nat.le_refl number

/-- To hang up connections is no matter of the listeners. -/
theorem foldl_hangUp {α : Type} (place : α → Endpoint) (n : Network) (items : List α) :
    n.Touched (fun _ => True) (items.foldl (fun n item => n.hangUp (place item)) n) := by
  induction items generalizing n with
  | nil => exact .refl _ n
  | cons item items inductionHypothesis =>
    have first := (n.hangUp_touched (place item)).mono fun _ _ => trivial
    exact first.trans (inductionHypothesis (n.hangUp (place item)))

/-- A listener that closes is gone. -/
theorem unlisten_touched (n : Network) (number : Nat) :
    { n with listeners := n.listeners.filter (·.number ≠ number) }.Touched (fun _ => True)
      (n.unlisten number) := by
  unfold unlisten
  split
  · next missing =>
    have same : n.listeners.filter (·.number ≠ number) = n.listeners := by
      apply List.filter_eq_self.mpr
      intro l listed
      simpa using List.find?_eq_none.mp missing l listed
    rw [same]
    exact .refl _ n
  · exact foldl_hangUp (fun arrival : Endpoint × String => arrival.1) _ _

/-- A listener that closes takes its own binding along and no other. -/
theorem unlisten_bindings (n : Network) (number : Nat) :
    (n.unlisten number).bindings = n.bindings.filter (·.1 ≠ number) := by
  unfold bindings
  rw [(n.unlisten_touched number).listeners, List.filter_map]
  rfl

/-- Whoever closes listeners leaves some of them, and makes no connection. -/
theorem unlistenAll_fewer (n : Network) (numbers : List Nat) :
    (numbers.foldl unlisten n).listeners ⊆ n.listeners ∧
      (numbers.foldl unlisten n).dialsMade = n.dialsMade := by
  induction numbers generalizing n with
  | nil => exact ⟨List.Subset.refl _, rfl⟩
  | cons number numbers inductionHypothesis =>
    obtain ⟨fewer, made⟩ := inductionHypothesis (n.unlisten number)
    have touched := n.unlisten_touched number
    refine ⟨List.Subset.trans fewer ?_, made.trans touched.dialsMade⟩
    rw [touched.listeners]
    exact List.filter_subset_self _

/-- Whoever closes several listeners closes each of them. -/
theorem unlistenAll_bindings (n : Network) (numbers : List Nat) :
    (numbers.foldl unlisten n).bindings = n.bindings.filter (·.1 ∉ numbers) ∧
      (numbers.foldl unlisten n).listenersMade = n.listenersMade := by
  induction numbers generalizing n with
  | nil => simp
  | cons number numbers inductionHypothesis =>
    obtain ⟨bindings, made⟩ := inductionHypothesis (n.unlisten number)
    constructor
    · rw [List.foldl_cons, bindings, unlisten_bindings, List.filter_filter]
      apply List.filter_congr
      intro entry _
      by_cases same : entry.1 = number <;> simp [same]
    · exact made.trans (n.unlisten_touched number).listenersMade

/-- A network where listeners closed is regular. -/
theorem Regular.closed {closed : List Nat} (regular : n.Regular)
    (bindings : after.bindings = n.bindings.filter (·.1 ∉ closed))
    (made : after.listenersMade = n.listenersMade) : after.Regular :=
  regular.part (bindings ▸ List.filter_sublist) (Nat.le_of_eq made.symm)

/-- Listeners that were just bound, at whom nobody waits. -/
def fresh (entries : List (Nat × String)) : List Listener :=
  entries.map fun entry => { key := entry.2, number := entry.1 }

/-- When the listeners that were bound last are closed, the others are left, and no connection is
hung up. The induction is on the listeners to be closed; nobody waits at them yet. -/
theorem close_fresh (n : Network) (before : List Listener) (entries : List (Nat × String))
    (listeners : n.listeners = before ++ fresh entries)
    (once : (n.listeners.map (·.number)).Nodup) :
    (entries.foldl (fun n entry => n.unlisten entry.1) n) = { n with listeners := before } := by
  induction entries generalizing n with
  | nil =>
    have same : n.listeners = before := listeners.trans (List.append_nil _)
    rw [List.foldl_nil, ← same]
  | cons entry entries inductionHypothesis =>
    obtain ⟨number, key⟩ := entry
    have moved : n.listeners.Perm ({ key, number } :: (before ++ fresh entries)) := by
      rw [listeners]
      exact List.perm_middle
    obtain ⟨apart, later⟩ := List.nodup_cons.mp ((moved.map (·.number)).nodup_iff.mp once)
    have others (l : Listener) (listed : l ∈ before ++ fresh entries) : l.number ≠ number :=
      fun same => apart (List.mem_map.mpr ⟨l, listed, same⟩)
    have unfound : before.find? (fun l => l.number = number) = none := by
      apply List.find?_eq_none.mpr
      intro l listed
      simpa using others l (List.mem_append_left _ listed)
    have found : (n.listeners.find? fun l => l.number = number) = some { key, number } := by
      rw [listeners, List.find?_append, unfound]
      simp [fresh]
    have kept : n.listeners.filter (fun l => l.number ≠ number) = before ++ fresh entries := by
      have same : (before ++ fresh entries).filter (fun l => l.number ≠ number) =
          before ++ fresh entries := by
        apply List.filter_eq_self.mpr
        intro l listed
        simpa using others l listed
      rw [List.filter_append] at same
      rw [listeners, ← same, List.filter_append]
      simp [fresh]
    have closed : n.unlisten number = { n with listeners := before ++ fresh entries } := by
      simp only [unlisten, found, kept, List.foldl_nil]
    rw [List.foldl_cons, closed]
    exact inductionHypothesis _ rfl later

end Listeners

end Network

/-- The addresses that a kernel with these options listens on. -/
def Options.keys (o : Options) : List String := o.listenAddresses.map Network.keyOf

namespace Kernel

open Network

variable {n after : Network}

/-- A kernel binds all addresses. -/
structure Binds (n : Network) (addresses : List String) (bound : List (Nat × String))
    (after : Network) : Prop where
  eq : ∃ made, after = { n with listeners := n.listeners ++ fresh bound, listenersMade := made }
  keys : bound.map (·.2) = addresses.map keyOf
  kinds : ∀ text ∈ addresses, Transport.classify text = some .memory
  regular : n.Regular → after.Regular
  later : n.listenersMade ≤ after.listenersMade
  new : ∀ entry ∈ bound, n.listenersMade < entry.1

/-- The bindings of a kernel that binds addresses come behind the others, in the order of the
addresses. -/
theorem Binds.bindings {addresses : List String} {bound : List (Nat × String)}
    (binds : Binds n addresses bound after) : after.bindings = n.bindings ++ bound := by
  obtain ⟨made, rfl⟩ := binds.eq
  simp [Network.bindings, fresh, Function.comp_def]

/-- The addresses that a kernel binds come behind the others. -/
theorem Binds.bound {addresses : List String} {bound : List (Nat × String)}
    (binds : Binds n addresses bound after) : after.bound = n.bound ++ addresses.map keyOf := by
  rw [bound_eq, binds.bindings, List.map_append, binds.keys, bound_eq]

/-- One more address is bound in front of the others. -/
theorem Binds.behind {next : Network} {address : String} {number : Nat} {key : String}
    {addresses : List String} {bound : List (Nat × String)}
    (binds : Binds next addresses bound after) (listens : n.Listens address number key next) :
    Binds n (address :: addresses) ((number, key) :: bound) after where
  eq := by
    obtain ⟨made, same⟩ := binds.eq
    refine ⟨made, ?_⟩
    rw [same, listens.eq]
    simp [fresh]
  keys := by
    rw [List.map_cons, List.map_cons, binds.keys, listens.named]
  kinds := List.forall_mem_cons.mpr ⟨listens.kind, binds.kinds⟩
  regular regular := binds.regular (regular.listens listens)
  later := by
    have later := binds.later
    have made := listens.made
    omega
  new := by
    have made := listens.made
    rw [List.forall_mem_cons]
    refine ⟨?_, fun entry listed => ?_⟩
    · dsimp only
      omega
    · have new := binds.new entry listed
      omega

/-- Either all addresses are bound, or the listeners are those from before. The induction is on the
addresses, behind those that are bound already; when one of them fails, exactly these are closed. -/
theorem listenAll_whole (n : Network) (before : List Listener) (entries : List (Nat × String))
    (addresses : List String) (listeners : n.listeners = before ++ fresh entries)
    (regular : n.Regular) :
    match listenAll n entries addresses with
    | (.ok all, after) => ∃ bound, all = entries ++ bound ∧ Binds n addresses bound after
    | (.error _, after) =>
      after = { n with listeners := before, listenersMade := after.listenersMade } ∧
        n.listenersMade ≤ after.listenersMade := by
  induction addresses generalizing n entries with
  | nil =>
    refine ⟨[], (List.append_nil entries).symm, ?_, rfl, nofun, id, Nat.le_refl _, nofun⟩
    exact ⟨n.listenersMade, by simp [fresh]⟩
  | cons address addresses inductionHypothesis =>
    unfold listenAll
    cases given : n.listen address with
    | error error =>
      dsimp only
      have once : (n.listeners.map (·.number)).Nodup := by
        have numbers := regular.numbers
        simpa [Network.bindings, Function.comp_def] using numbers
      rw [n.close_fresh before entries listeners once]
      exact ⟨rfl, Nat.le_refl _⟩
    | ok entry =>
      obtain ⟨number, key, next⟩ := entry
      have listens := listen_ok given
      have onward : next.listeners = before ++ fresh (entries ++ [(number, key)]) := by
        rw [listens.eq]
        simp [listeners, fresh]
      have goes := inductionHypothesis next (entries ++ [(number, key)]) onward
        (regular.listens listens)
      dsimp only
      split at goes
      · next all after same =>
        obtain ⟨bound, together, binds⟩ := goes
        refine ⟨(number, key) :: bound, ?_, ?_⟩
        · rw [together, List.append_assoc, List.singleton_append]
        · exact binds.behind listens
      · have made := listens.made
        refine ⟨?_, by omega⟩
        rw [listens.eq] at goes
        exact goes.1

/-- Addresses of the memory transport that nobody holds and that differ can all be bound. -/
theorem listenAll_able (n : Network) (entries : List (Nat × String)) (addresses : List String)
    (kinds : ∀ text ∈ addresses, Transport.classify text = some .memory)
    (once : (addresses.map keyOf).Nodup) (free : ∀ key ∈ addresses.map keyOf, key ∉ n.bound) :
    ∃ all after, listenAll n entries addresses = (.ok all, after) := by
  induction addresses generalizing n entries with
  | nil => exact ⟨entries, n, rfl⟩
  | cons address addresses inductionHypothesis =>
    rw [List.forall_mem_cons] at kinds
    rw [List.map_cons] at once free
    obtain ⟨apart, others⟩ := List.nodup_cons.mp once
    obtain ⟨first, later⟩ := List.forall_mem_cons.mp free
    obtain ⟨number, key, next, given⟩ := n.listen_able address kinds.1 first
    have listens := listen_ok given
    unfold listenAll
    rw [given]
    apply inductionHypothesis _ _ kinds.2 others
    intro key listed
    rw [listens.bound, listens.named]
    intro held
    rcases List.mem_append.mp held with old | new
    · exact later key listed old
    · rw [List.mem_singleton.mp new] at listed
      exact apart listed

/-- What it takes to become active: good options and a seed, and addresses of the memory transport
that differ and that nobody holds. -/
structure Startable (network : Network) (seed : List UInt8) (options : Options) : Prop where
  valid : options.validate = .ok ()
  seeded : seed ≠ []
  kinds : ∀ text ∈ options.listenAddresses, Transport.classify text = some .memory
  once : options.keys.Nodup
  free : ∀ key ∈ options.keys, key ∉ network.bound

/-- What became of a kernel that started, and of the network. -/
structure Started (k : Kernel) (network : Network) (seed : List UInt8) (options : Options)
    (after : Kernel) (rest : Network) : Prop where
  valid : options.validate = .ok ()
  seeded : seed ≠ []
  active : ∃ service bound, after.status = .active service ∧ after.sessions = [] ∧
    service.host.options = options ∧ service.listeners = bound.map (·.1) ∧
    Binds network options.listenAddresses bound rest

/-- A start that fails changes neither the stage of the kernel nor its sessions, and leaves the
listeners and connections that there were. -/
structure Unstarted (k : Kernel) (network : Network) (after : Kernel) (rest : Network) :
    Prop where
  status : after.status = k.status
  sessions : after.sessions = k.sessions
  later : network.listenersMade ≤ rest.listenersMade
  network : rest = { network with listenersMade := rest.listenersMade }

/-- An active kernel refuses to start, and nothing changes. -/
theorem start_active (k : Kernel) (network : Network) (seed : List UInt8) (options : Options)
    (active : k.service?.isSome) :
    k.start network seed options = (.error .alreadyInitialized, k, network) := by
  simp [start, active]

/-- A kernel that started could become active: what it bound was of the right kind, free, and bound
once each. -/
theorem Started.startable {k after : Kernel} {network rest : Network} {seed : List UInt8}
    {options : Options} (started : k.Started network seed options after rest)
    (regular : network.Regular) : Startable network seed options := by
  obtain ⟨service, bound, _, _, _, _, binds⟩ := started.active
  have once := (binds.regular regular).keys
  rw [binds.bound] at once
  obtain ⟨_, keys, apart⟩ := List.nodup_append.mp once
  refine ⟨started.valid, started.seeded, binds.kinds, keys, ?_⟩
  intro key listed held
  exact apart key held key listed rfl

/-- A start succeeds if it can, and otherwise it changes nothing. -/
theorem start_whole (k : Kernel) (network : Network) (regular : network.Regular)
    (seed : List UInt8) (options : Options) (inactive : k.service? = none) :
    match k.start network seed options with
    | (.ok (), after, rest) => k.Started network seed options after rest
    | (.error _, after, rest) =>
      k.Unstarted network after rest ∧ ¬ Startable network seed options := by
  unfold start
  rw [inactive]
  cases valid : options.validate with
  | error error =>
    refine ⟨⟨rfl, rfl, Nat.le_refl _, rfl⟩, fun able => ?_⟩
    cases valid.symm.trans able.valid
  | ok _ =>
    cases named : PeerId.ofSeed seed with
    | error error =>
      refine ⟨⟨rfl, rfl, Nat.le_refl _, rfl⟩, fun able => ?_⟩
      cases seed with
      | nil => exact able.seeded rfl
      | cons => simp [PeerId.ofSeed] at named
    | ok id =>
      have seeded : seed ≠ [] := by
        rintro rfl
        cases named
      have whole := listenAll_whole network network.listeners [] options.listenAddresses
        (List.append_nil _).symm regular
      cases bound : listenAll network [] options.listenAddresses with
      | mk result rest =>
        rw [bound] at whole
        cases result with
        | error error =>
          refine ⟨⟨rfl, rfl, whole.2, whole.1⟩, fun able => ?_⟩
          obtain ⟨all, after, done⟩ := listenAll_able network [] _ able.kinds able.once able.free
          cases bound.symm.trans done
        | ok all =>
          obtain ⟨more, rfl, binds⟩ := whole
          exact ⟨valid, seeded, _, all, rfl, rfl, rfl, rfl, binds⟩

end Kernel

end Courier
