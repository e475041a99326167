import Courier.Proofs.Starting

/-!
# Advertised addresses

A kernel advertises, for each listener, the address that the listener is bound to with its own id
behind it. The transport of an address is found by searching its text, so what is put together may
name another transport than its parts. One seam is weak: behind an address that ends in `/tcp` the
id completes the marker of another transport, and nobody can dial what was advertised. Behind every
other address the text names the memory transport and the id, and dialing it leaves a connection
with the listener that it was advertised for, and with no other.
-/

namespace Courier

namespace Text

/-- A pattern that begins with a separator and occurs in a text with another separator in it occurs
on one side of this, or goes on behind it. -/
theorem infix_seam (separator : Char) (pattern front back : List Char)
    (part : separator :: pattern <:+: front ++ separator :: back) :
    (separator :: pattern <:+: front ∨ separator :: pattern <:+: separator :: back) ∨
      ∃ before behind, pattern = before ++ separator :: behind ∧
        separator :: before <:+ front := by
  obtain ⟨start, stop, whole⟩ := part
  rcases List.append_eq_append_iff.mp whole with ⟨more, rfl, _⟩ | ⟨left, reach, same⟩
  · exact .inl (.inl ⟨start, more, by simp⟩)
  · rcases List.append_eq_append_iff.mp reach with ⟨before, rfl, split⟩ | ⟨more, _, rfl⟩
    · cases before with
      | nil =>
        rw [List.nil_append] at split
        exact .inl (.inr ⟨[], stop, by rw [List.nil_append, split, same]⟩)
      | cons c before =>
        obtain ⟨rfl, rfl⟩ := List.cons_eq_cons.mp split
        cases left with
        | nil => exact .inl (.inl ⟨start, [], by simp⟩)
        | cons d behind =>
          obtain ⟨rfl, _⟩ := List.cons_eq_cons.mp same
          exact .inr ⟨before, behind, rfl, start, rfl⟩
    · exact .inl (.inr ⟨more, stop, by rw [List.append_assoc] at same; simpa using same.symm⟩)

/-- Nothing goes on behind the separator if the pattern has no other. -/
theorem infix_apart (separator : Char) (pattern front back : List Char)
    (once : separator ∉ pattern) (part : separator :: pattern <:+: front ++ separator :: back) :
    separator :: pattern <:+: front ∨ separator :: pattern <:+: separator :: back := by
  rcases infix_seam separator pattern front back part with apart | ⟨before, behind, rfl, _⟩
  · exact apart
  · simp at once

end Text

namespace PeerId

/-- A peer component: the marker and the digits of an id. -/
def component (id : PeerId) : List Char := Address.peerMarker ++ id.text.toList

/-- A peer component is the marker and the digits of the id. -/
theorem component_eq (id : PeerId) :
    id.component = '/' :: 'p' :: '2' :: 'p' :: '/' :: id.text.toList := rfl

/-- The digits of an id are digits in hexadecimal and nothing else. -/
theorem digits_lack (id : PeerId) (c : Char) (other : Hex.isLower c = false) :
    c ∉ id.text.toList := by
  intro listed
  have wellFormed := id.wellFormed
  rw [isPeerId, Bool.and_eq_true] at wellFormed
  have digit := List.all_eq_true.mp wellFormed.2 c listed
  rw [other] at digit
  cases digit

/-- No other component is found behind the first character of a peer component. -/
theorem lacks_component (id : PeerId) (c : Char) (pattern : List Char)
    (other : Hex.isLower c = false) : ¬ '/' :: c :: pattern <:+: id.component.tail := by
  have passed (d : Char) (text : List Char) (apart : '/' ≠ d)
      (part : '/' :: c :: pattern <:+: d :: text) : '/' :: c :: pattern <:+: text := by
    rcases List.infix_cons_iff.mp part with front | behind
    · exact absurd (List.cons_prefix_cons.mp front).1 apart
    · exact behind
  intro part
  have digits : '/' :: c :: pattern <:+: '/' :: id.text.toList :=
    passed 'p' _ (by decide) (passed '2' _ (by decide) (passed 'p' _ (by decide) part))
  rcases List.infix_cons_iff.mp digits with front | inside
  · have named := (List.cons_prefix_cons.mp front).2
    exact id.digits_lack c other (named.subset List.mem_cons_self)
  · exact id.digits_lack '/' (by decide) (inside.subset List.mem_cons_self)

/-- A component that no peer component begins with does not come about by putting one behind an
address. -/
theorem component_behind (id : PeerId) (path : List Char) (c : Char) (pattern : List Char)
    (other : Hex.isLower c = false) (once : '/' ∉ c :: pattern)
    (begins : ¬ '/' :: c :: pattern <+: id.component) (lacks : ¬ '/' :: c :: pattern <:+: path) :
    ¬ '/' :: c :: pattern <:+: path ++ id.component := by
  intro part
  rcases Text.infix_apart '/' (c :: pattern) path _ once part with inside | behind
  · exact lacks inside
  · rcases List.infix_cons_iff.mp behind with here | later
    · exact begins here
    · exact id.lacks_component c pattern other later

end PeerId

namespace Address

/-- A text that names the memory transport begins so, and names no transport that is looked for
before. -/
structure NamesMemory (path : List Char) : Prop where
  unrelayed : ¬ "/p2p-circuit".toList <:+: path
  slow : ¬ "/quic-v1".toList <:+: path
  socketless : ¬ "/tcp/".toList <:+: path
  front : "/memory/".toList <+: path

/-- A text that is classified as one of the memory transport begins with its marker, and has that of
no other transport. -/
theorem namesMemory_of_classify (text : String)
    (classified : Transport.classify text = some .memory) : NamesMemory text.toList := by
  unfold Transport.classify at classified
  dsimp only at classified
  split at classified
  · cases classified
  · next unrelayed =>
    split at classified
    · cases classified
    · next slow =>
      split at classified
      · cases classified
      · next socketless =>
        split at classified
        · next front =>
          exact ⟨fun part => unrelayed ((Text.occurs_iff _ _).mpr part),
            fun part => slow ((Text.occurs_iff _ _).mpr part),
            fun part => socketless ((Text.occurs_iff _ _).mpr part),
            List.isPrefixOf_iff_prefix.mp front⟩
        · cases classified

/-- The transport part is the whole address, or what stands in front of a peer component. -/
theorem transportPath_cases (path : List Char) :
    transportPath path = path ∨ ∃ back, path = transportPath path ++ peerMarker ++ back := by
  unfold transportPath
  split
  · next front back split =>
    have whole := Text.splitLast_append peerMarker path front back split
    split
    · exact .inl rfl
    · exact .inr ⟨back, whole.symm⟩
  · exact .inl rfl

/-- The transport part of an address is its front. -/
theorem transportPath_front (path : List Char) : transportPath path <+: path := by
  rcases transportPath_cases path with same | ⟨back, whole⟩
  · exact ⟨[], by rw [List.append_nil, same]⟩
  · refine ⟨peerMarker ++ back, ?_⟩
    rw [← List.append_assoc]
    exact whole.symm

/-- The marker of the memory transport ends with a separator, which it may share with the marker
of a peer component; so it is there again as soon as some component stands behind the transport
part. -/
theorem transportPath_marked (path : List Char) (front : "/memory/".toList <+: path)
    (behind : List Char) : "/memory/".toList <+: transportPath path ++ '/' :: behind := by
  have part := transportPath_front path
  by_cases long : "/memory/".toList.length ≤ (transportPath path).length
  · exact (List.prefix_of_prefix_length_le front part long).trans (List.prefix_append _ _)
  · have short := Nat.lt_of_not_le long
    obtain ⟨rest, marked⟩ := front
    obtain ⟨back, whole⟩ : ∃ back, path = transportPath path ++ peerMarker ++ back := by
      refine (transportPath_cases path).resolve_left fun same => ?_
      rw [same, ← marked, List.length_append] at short
      exact Nat.not_le.mpr short (Nat.le_add_right _ _)
    obtain ⟨left, split⟩ : transportPath path <+: "/memory/".toList :=
      List.prefix_of_prefix_length_le part ⟨rest, marked⟩ (Nat.le_of_lt short)
    generalize transportPath path = taken at *
    -- What the marker of the memory transport has over begins like a peer component.
    have goes : left ++ rest = peerMarker ++ back := by
      rw [whole, ← split, List.append_assoc, List.append_assoc] at marked
      exact List.append_cancel_left marked
    have dropped : left = "/memory/".toList.drop taken.length := by rw [← split, List.drop_left]
    have nowhere : ∀ k < 7, ("/memory/".toList.drop k).take 2 ≠ peerMarker.take 2 ∧
        2 ≤ ("/memory/".toList.drop k).length := by decide
    have last : taken.length = 7 := by
      refine Nat.le_antisymm (Nat.le_of_lt_succ short) (Nat.le_of_not_lt fun early => ?_)
      obtain ⟨other, enough⟩ := nowhere _ early
      rw [← dropped] at other enough
      have begins := congrArg (List.take 2) goes
      rw [List.take_append_of_le_length enough] at begins
      exact other begins
    rw [last] at dropped
    refine ⟨behind, ?_⟩
    rw [← split, dropped, List.append_assoc]
    rfl

/-- A peer component behind the transport part names neither of the transports that are looked for
first. -/
theorem component_unnamed (path : List Char) (memory : NamesMemory path) (id : PeerId) :
    ¬ "/p2p-circuit".toList <:+: transportPath path ++ id.component ∧
      ¬ "/quic-v1".toList <:+: transportPath path ++ id.component := by
  have part := (transportPath_front path).isInfix
  constructor
  · exact id.component_behind _ 'p' ['2', 'p', '-', 'c', 'i', 'r', 'c', 'u', 'i', 't'] (by decide)
      (by decide) (by simp [id.component_eq]) fun inside => memory.unrelayed (inside.trans part)
  · exact id.component_behind _ 'q' ['u', 'i', 'c', '-', 'v', '1'] (by decide) (by decide)
      (by simp [id.component_eq]) fun inside => memory.slow (inside.trans part)

/-- The marker of a socket comes about exactly where the separator of the peer component completes
it. -/
theorem component_socket (path : List Char) (memory : NamesMemory path) (id : PeerId) :
    "/tcp/".toList <:+: transportPath path ++ id.component ↔
      "/tcp".toList <:+ transportPath path := by
  have part := (transportPath_front path).isInfix
  constructor
  · intro socket
    rcases Text.infix_seam '/' ['t', 'c', 'p', '/'] _ id.component.tail socket with
      (inside | within) | ⟨before, behind, split, seam⟩
    · exact absurd (inside.trans part) memory.socketless
    · rcases List.infix_cons_iff.mp within with here | later
      · have begins : ['/', 't', 'c', 'p', '/'] <+: id.component := here
        simp [id.component_eq] at begins
      · exact absurd later (id.lacks_component 't' _ (by decide))
    · obtain rfl : before = ['t', 'c', 'p'] := by
        rcases before with _ | ⟨a, _ | ⟨b, _ | ⟨c, _ | ⟨d, before⟩⟩⟩⟩ <;>
          simp [eq_comm] at split ⊢
        exact ⟨split.1, split.2.1, split.2.2.1⟩
      exact seam
  · rintro ⟨before, completes⟩
    refine ⟨before, id.component.tail, ?_⟩
    rw [← completes, List.append_assoc, List.append_assoc]
    rfl

/-- With a peer component behind it the transport part names the memory transport as the address
did, unless the separator completes the marker of a socket. -/
theorem classify_component (path : List Char) (memory : NamesMemory path) (id : PeerId) :
    Transport.classify (String.ofList (transportPath path ++ id.component)) =
      if "/tcp".toList <:+ transportPath path then some .tcp else some .memory := by
  obtain ⟨unrelayed, slow⟩ := component_unnamed path memory id
  have socket := component_socket path memory id
  have front := transportPath_marked path memory.front id.component.tail
  change "/memory/".toList <+: transportPath path ++ id.component at front
  have spelled : (String.ofList (transportPath path ++ id.component)).toList =
      transportPath path ++ id.component := String.toList_ofList
  unfold Transport.classify
  dsimp only
  rw [spelled, if_neg (mt (Text.occurs_iff _ _).mp unrelayed),
    if_neg (mt (Text.occurs_iff _ _).mp slow), if_pos (List.isPrefixOf_iff_prefix.mpr front)]
  by_cases ends : "/tcp".toList <:+ transportPath path
  · rw [if_pos ((Text.occurs_iff _ _).mpr (socket.mpr ends)), if_pos ends]
  · rw [if_neg fun found => ends (socket.mp ((Text.occurs_iff _ _).mp found)), if_neg ends]

/-- What stands behind the last peer marker of an advertised address is the id. -/
theorem splitLast_component (path : List Char) (id : PeerId) :
    Text.splitLast? peerMarker (path ++ id.component) = some (path, id.text.toList) := by
  have last : Text.occurs peerMarker (peerMarker ++ id.text.toList).tail = false := by
    refine Bool.eq_false_iff.mpr fun found => ?_
    exact id.lacks_component 'p' ['2', 'p', '/'] (by decide) ((Text.occurs_iff _ _).mp found)
  rw [PeerId.component, ← List.append_assoc]
  exact Text.splitLast_eq peerMarker path id.text.toList (by decide) last

/-- A text that names a transport is read as an address of it. -/
theorem parse_classified (text : String) (kind : Transport)
    (classified : Transport.classify text = some kind) : ∃ a, parse text = some a ∧ a.text = text ∧
      a.kind = kind := by
  refine ⟨⟨text, kind, classified⟩, parse_text ⟨text, kind, classified⟩, rfl, rfl⟩

/-- An address with a peer component behind it names that peer, and its transport part stands in
front. -/
theorem parts_component (a : Address) (path : List Char) (id : PeerId)
    (spelled : a.text.toList = path ++ id.component) :
    a.peerSuffix = some id.text ∧ a.transportPart = String.ofList path := by
  have split := splitLast_component path id
  have whole : id.text.toList ≠ [] := by
    intro empty
    have wellFormed := id.wellFormed
    rw [empty] at wellFormed
    cases wellFormed
  have alone : id.text.toList.contains '/' = false := by
    simpa using id.digits_lack '/' (by decide)
  constructor
  · have suffix : (id.text.toList.isEmpty || id.text.toList.contains '/') = false := by
      rw [alone, Bool.or_false, List.isEmpty_eq_false_iff]
      exact whole
    rw [peerSuffix, spelled, split]
    dsimp only
    rw [suffix, if_neg Bool.false_ne_true, String.ofList_toList]
  · rw [transportPart, spelled, transportPath, split]
    dsimp only
    rw [alone, if_neg Bool.false_ne_true]

end Address

namespace Network

/-- The network when somebody arrived at the listener of a number. -/
def arriving (n : Network) (number : Nat) : Network :=
  let made := n.dialsMade + 1
  { n with
    listeners := n.listeners.map fun listener =>
      if listener.number = number then
        { listener with waiting := listener.waiting ++
            [(⟨made, .acceptor⟩, "/memory/client-" ++ toString made)] }
      else listener
    dialsMade := made
    connections := (made, {}) :: n.connections }

/-- Dialing an address of the memory transport leaves a connection with the listener that is bound
to it, and with no other. -/
theorem dial_bound (n : Network) (regular : n.Regular) (a : Address) (memory : a.kind = .memory)
    (entry : Nat × String) (bound : entry ∈ n.bindings) (key : a.transportPart = entry.2) :
    n.dial a = (.ok ⟨n.dialsMade + 1, .dialer⟩, n.arriving entry.1) := by
  have keys := regular.keys
  rw [bound_eq] at keys
  have same (l : Listener) (listed : l ∈ n.listeners) : l.key = entry.2 ↔ l.number = entry.1 := by
    have held : (l.number, l.key) ∈ n.bindings := List.mem_map.mpr ⟨l, listed, rfl⟩
    constructor
    · intro named
      exact congrArg Prod.fst (List.inj_on_of_nodup_map keys held bound named)
    · intro counted
      exact congrArg Prod.snd (List.inj_on_of_nodup_map regular.numbers held bound counted)
  have found : (n.listener? a.transportPart).isSome := by
    obtain ⟨l, listed, rfl⟩ := List.mem_map.mp bound
    rw [key, listener?, List.find?_isSome]
    exact ⟨l, listed, by simp⟩
  have places : (n.listeners.map fun listener =>
      if listener.key = a.transportPart then
        { listener with waiting := listener.waiting ++
            [(⟨n.dialsMade + 1, .acceptor⟩, "/memory/client-" ++ toString (n.dialsMade + 1))] }
      else listener) = (n.arriving entry.1).listeners := by
    refine List.map_congr_left fun l listed => ?_
    rw [key]
    by_cases here : l.number = entry.1
    · rw [if_pos ((same l listed).mpr here), if_pos here]
    · rw [if_neg fun named => here ((same l listed).mp named), if_neg here]
  unfold dial
  rw [if_neg (not_not.mpr memory)]
  dsimp only
  change (if (n.listener? a.transportPart).isSome = true then _ else _) = _
  rw [if_pos found, places]
  rfl

end Network

namespace Kernel

open Network

/-- What an address has to be that a kernel advertises for a listener: an address of the memory
transport that names the kernel, and by which whoever dials arrives at this listener, as long as
it is bound, and at no other. -/
def Leads (text : String) (id : PeerId) (entry : Nat × String) : Prop :=
  ∃ a, Address.parse text = some a ∧ a.kind = .memory ∧ a.peerSuffix = some id.text ∧
    ∀ n : Network, n.Regular → entry ∈ n.bindings →
      n.dial a = (.ok ⟨n.dialsMade + 1, .dialer⟩, n.arriving entry.1)

/-- What an address is that nobody can dial: it names a transport that is not at hand. -/
def Misleads (text : String) : Prop :=
  ∃ a, Address.parse text = some a ∧ a.kind = .tcp ∧
    ∀ n : Network, n.dial a = (.error a.unavailable, n)

/-- The address that is advertised for a listener leads to it, unless a socket marker would end
the address that the listener is bound to. -/
theorem advertised_leads (text : String) (memory : Transport.classify text = some .memory)
    (id : PeerId) (entry : Nat × String) (key : entry.2 = keyOf text) :
    if "/tcp".toList <:+ entry.2.toList then Misleads (advertised entry.2 id)
    else Leads (advertised entry.2 id) id entry := by
  have names := Address.namesMemory_of_classify text memory
  have path : entry.2.toList = Address.transportPath text.toList := by
    obtain ⟨a, parsed, rfl, _⟩ := Address.parse_classified text .memory memory
    rw [key, keyOf, parsed, Option.map_some, Option.getD_some, Address.transportPart,
      String.toList_ofList]
  have spelled : (advertised entry.2 id).toList =
      Address.transportPath text.toList ++ id.component := by
    rw [advertised, String.toList_append, String.toList_append, path, List.append_assoc]
    rfl
  have classified := Address.classify_component text.toList names id
  rw [← spelled, String.ofList_toList, ← path] at classified
  split
  · next ends =>
    rw [if_pos ends] at classified
    obtain ⟨a, parsed, _, kind⟩ := Address.parse_classified _ _ classified
    refine ⟨a, parsed, kind, fun n => ?_⟩
    rw [Network.dial, if_pos (by rw [kind]; decide)]
  · next ends =>
    rw [if_neg ends] at classified
    obtain ⟨a, parsed, same, kind⟩ := Address.parse_classified _ _ classified
    obtain ⟨suffix, part⟩ := Address.parts_component a _ id (by rw [same, spelled])
    refine ⟨a, parsed, kind, suffix, fun n regular bound => ?_⟩
    refine n.dial_bound regular a kind entry bound ?_
    rw [part, ← path, String.ofList_toList]

/-- What a kernel that started advertises: for each listener that it bound, in the order of its
options, the address that the listener is bound to with its id behind it, and then the circuits
through its relays. -/
theorem start_advertised (k after : Kernel) (network rest : Network) (seed : List UInt8)
    (options : Options) (regular : network.Regular)
    (succeeded : k.start network seed options = (.ok (), after, rest)) :
    ∃ service bound, after.status = .active service ∧ service.listeners = bound.map (·.1) ∧
      Binds network options.listenAddresses bound rest ∧ after.addresses =
        bound.map (fun entry => advertised entry.2 service.host.id) ++
          options.relays.map fun relay => Ledger.circuit relay service.host.id := by
  unfold start at succeeded
  split at succeeded
  · cases succeeded
  · split at succeeded
    · cases succeeded
    · split at succeeded
      · cases succeeded
      · next id _ =>
        dsimp only at succeeded
        have whole := listenAll_whole network network.listeners [] options.listenAddresses
          (List.append_nil _).symm regular
        split at succeeded
        · cases succeeded
        · next bound _ listened =>
          rw [listened] at whole
          obtain ⟨_, rfl, binds⟩ := whole
          cases succeeded
          exact ⟨_, bound, rfl, rfl, binds, rfl⟩

/-- An address that leads somewhere does not mislead. -/
theorem Leads.not_misleads {text : String} {id : PeerId} {entry : Nat × String}
    (leads : Leads text id entry) : ¬ Misleads text := by
  rintro ⟨a, parsed, socket, _⟩
  obtain ⟨b, same, memory, _⟩ := leads
  cases parsed.symm.trans same
  cases socket.symm.trans memory

/-- Every address that a kernel advertises for a listener leads to this listener, unless a socket
marker ends the address that the listener is bound to; then the advertised one misleads. -/
theorem start_advertises (k after : Kernel) (network rest : Network) (seed : List UInt8)
    (options : Options) (regular : network.Regular)
    (succeeded : k.start network seed options = (.ok (), after, rest)) :
    ∃ service bound, after.status = .active service ∧ service.listeners = bound.map (·.1) ∧
      bound.map (·.2) = options.keys ∧ rest.Regular ∧
      rest.bindings = network.bindings ++ bound ∧ after.addresses =
        bound.map (fun entry => advertised entry.2 service.host.id) ++
          options.relays.map (fun relay => Ledger.circuit relay service.host.id) ∧
      ∀ entry ∈ bound,
        (Leads (advertised entry.2 service.host.id) service.host.id entry ↔
          ¬ "/tcp".toList <:+ entry.2.toList) ∧
        ("/tcp".toList <:+ entry.2.toList → Misleads (advertised entry.2 service.host.id)) := by
  obtain ⟨service, bound, active, listeners, binds, addresses⟩ :=
    k.start_advertised after network rest seed options regular succeeded
  refine ⟨service, bound, active, listeners, binds.keys, binds.regular regular, binds.bindings,
    addresses, fun entry listed => ?_⟩
  obtain ⟨text, asked, key⟩ : ∃ text ∈ options.listenAddresses, keyOf text = entry.2 := by
    rw [← List.mem_map, ← binds.keys]
    exact List.mem_map_of_mem listed
  have leads := advertised_leads text (binds.kinds text asked) service.host.id entry key.symm
  split at leads
  · next ends =>
    exact ⟨⟨fun leading => absurd leads leading.not_misleads, fun apart => absurd ends apart⟩,
      fun _ => leads⟩
  · next apart => exact ⟨⟨fun _ => apart, fun _ => leads⟩, fun ends => absurd ends apart⟩

/-- A kernel on an address of its own advertises it, and leads whoever dials to its listener. -/
theorem home_advertised : ∃ after rest service entry,
    ({ random := quiet } : Kernel).start {} [1] Scene.home = (.ok (), after, rest) ∧
      after.status = .active service ∧ entry ∈ rest.bindings ∧ entry.2 = "/memory/a" ∧
      after.addresses = [advertised entry.2 service.host.id] ∧
      Leads (advertised entry.2 service.host.id) service.host.id entry := by
  have regular : ({} : Network).Regular := ⟨.nil, .nil, nofun⟩
  have succeeds := start_able { random := quiet } {} regular rfl Scene.home_startable
  rcases start : ({ random := quiet } : Kernel).start {} [1] Scene.home with ⟨result, after, rest⟩
  rw [start] at succeeds
  cases succeeds
  obtain ⟨service, bound, active, _, keys, _, bindings, addresses, leads⟩ :=
    start_advertises { random := quiet } after {} rest [1] Scene.home regular start
  have one : bound.map (·.2) = ["/memory/a"] := keys.trans (by decide)
  obtain ⟨entry, rfl, key⟩ := List.map_eq_singleton_iff.mp one
  have dialable : ¬ "/tcp".toList <:+ entry.2.toList := by
    rw [key]
    decide
  refine ⟨after, rest, service, entry, rfl, active, ?_, key, addresses, ?_⟩
  · rw [bindings]
    exact List.mem_append_right _ List.mem_cons_self
  · exact (leads entry List.mem_cons_self).1.mpr dialable

/-- Options of a kernel that listens on an address that ends like a socket. -/
def socketlike : Options := { listenAddresses := ["/memory/a/tcp"] }

/-- A kernel can start on the address that ends like a socket. -/
theorem socketlike_startable : Startable {} [1] socketlike := by
  constructor
  case valid => rfl
  case seeded => simp
  case kinds | once => decide
  case free => exact fun key _ => List.not_mem_nil

/-- Nobody can dial what is advertised for an address that ends like a socket. -/
theorem socketlike_misleads : ¬ ∀ (k after : Kernel) (network rest : Network) (seed : List UInt8)
    (options : Options), network.Regular →
    k.start network seed options = (.ok (), after, rest) →
    ∀ service, after.status = .active service → ∀ entry ∈ rest.bindings,
      entry.1 ∈ service.listeners →
        Leads (advertised entry.2 service.host.id) service.host.id entry := by
  intro leading
  have regular : ({} : Network).Regular := ⟨.nil, .nil, nofun⟩
  have succeeds := start_able { random := quiet } {} regular rfl socketlike_startable
  rcases start : ({ random := quiet } : Kernel).start {} [1] socketlike with ⟨result, after, rest⟩
  rw [start] at succeeds
  cases succeeds
  obtain ⟨service, bound, active, listeners, binds, _⟩ :=
    start_advertised { random := quiet } after {} rest [1] socketlike regular start
  have one : bound.map (·.2) = ["/memory/a/tcp"] := binds.keys.trans (by decide)
  obtain ⟨entry, rfl, key⟩ := List.map_eq_singleton_iff.mp one
  have listed : entry ∈ rest.bindings := by
    rw [binds.bindings]
    exact List.mem_append_right _ List.mem_cons_self
  have leads := leading _ after _ rest _ _ regular start service active entry listed
    (by simp [listeners])
  have misleads := advertised_leads "/memory/a/tcp" (by decide) service.host.id entry
    (key.trans (by decide))
  rw [if_pos (by rw [key]; decide)] at misleads
  exact leads.not_misleads misleads

end Kernel

end Courier
