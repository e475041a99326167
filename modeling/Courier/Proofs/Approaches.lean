import Courier.Proofs.Greetings
import Courier.Proofs.Performing

/-!
# Steps outside of sessions

Greetings on an accepted connection, an attempt to connect, and a writer each go on in small
steps. Here each step is taken apart once: what it is for the kernel, what it changes of the
things that are under way, and at which end of a connection it does something.
-/

namespace Courier

open Handshake

/-- The greeting that was found on an accepted connection. -/
def Welcome.hello? : Welcome → Option Hello
  | .reading buffer =>
    match take? buffer with
    | .ok (some (hello, _)) => some hello
    | _ => none
  | .answering hello _ _ _ => some hello

/-- What the next step of the greetings on an accepted connection is for the kernel. -/
def Welcome.deeds (endpoint : Endpoint) : Welcome → List Deed
  | .reading buffer =>
    match take? buffer with
    | .ok (some (hello, _)) => [.meet hello.peer]
    | _ => []
  | .answering hello surplus frame written =>
    if frame.size ≤ written then [.attach ⟨endpoint, hello, surplus⟩] else []

/-- Greetings on an accepted connection are for the kernel that a peer is met, or that the
connection is handed over. -/
theorem Welcome.mem_deeds {endpoint : Endpoint} {welcome : Welcome} {deed : Deed}
    (listed : deed ∈ welcome.deeds endpoint) :
    (∃ hello, deed = .meet hello.peer ∧ welcome.hello? = some hello) ∨
      ∃ hello surplus frame written, deed = .attach ⟨endpoint, hello, surplus⟩ ∧
        welcome = .answering hello surplus frame written := by
  cases welcome with
  | reading buffer =>
    simp only [deeds] at listed
    split at listed
    · next hello surplus taken =>
      refine .inl ⟨hello, List.mem_singleton.mp listed, ?_⟩
      simp [hello?, taken]
    · cases listed
  | answering hello surplus frame written =>
    simp only [deeds] at listed
    split at listed
    · exact .inr ⟨hello, surplus, frame, written, List.mem_singleton.mp listed, rfl⟩
    · cases listed

/-- The piece that is read next for an attempt to connect. -/
def Dialing.hears (d : Dialing) (network : Network) : List ByteArray :=
  match d.approach with
  | some ⟨endpoint, _, .reading buffer⟩ => piece network endpoint buffer
  | _ => []

/-- What the next step of a writer is for the kernel. -/
def Writer.deeds (w : Writer) : List Deed :=
  match w.writing with
  | none => []
  | some writing =>
    if !w.failed && writing.frame.size ≤ writing.written then
      [.wrote w.peer writing.frame.size]
    else []

/-- What a step makes of an attempt to connect to a peer: the piece read, how far the attempt has
come, and the network. -/
inductive Dialing.Moves (peer : PeerId) (network : Network) :
    Dialing → List ByteArray → Dialing → Network → Prop where
  | exhausted (d : Dialing) (unreached : d.approach = none) (pending : d.outcome = none) :
      Moves peer network d [] { d with outcome := some (.error d.failure) } network
  /-- A candidate cannot be reached, or there is nothing to greet it with. -/
  | missed (d : Dialing) (address : Address) (remaining : List Address) (failure : LinkError)
      (rest : Network) (unreached : d.approach = none) (pending : d.outcome = none)
      (given : (network.dial address).2.Touched (· = ⟨network.dialsMade + 1, .dialer⟩) rest) :
      Moves peer network d [] { d with remaining, failure } rest
  | reached (d : Dialing) (address : Address) (remaining : List Address) (endpoint : Endpoint)
      (due : Nat) (frame : ByteArray) (rest : Network) (unreached : d.approach = none)
      (pending : d.outcome = none) (dialed : network.dial address = (.ok endpoint, rest)) :
      Moves peer network d []
        { d with remaining, approach := some ⟨endpoint, due, .greeting frame 0⟩ } rest
  | passed (d : Dialing) (approach : Approach) (failure : LinkError) (rest : Network)
      (approached : d.approach = some approach) (pending : d.outcome = none)
      (touched : network.Touched (· = approach.endpoint) rest) :
      Moves peer network d [] { d with approach := none, failure } rest
  | wrote (d : Dialing) (endpoint : Endpoint) (due : Nat) (frame : ByteArray)
      (written more : Nat) (rest : Network)
      (greeting : d.approach = some ⟨endpoint, due, .greeting frame written⟩)
      (pending : d.outcome = none) (touched : network.Touched (· = endpoint) rest) :
      Moves peer network d []
        { d with approach := some ⟨endpoint, due, .greeting frame more⟩ } rest
  | greeted (d : Dialing) (endpoint : Endpoint) (due : Nat) (frame : ByteArray) (written : Nat)
      (greeting : d.approach = some ⟨endpoint, due, .greeting frame written⟩)
      (pending : d.outcome = none) :
      Moves peer network d []
        { d with approach := some ⟨endpoint, due, .reading .empty⟩ } network
  | heard (d : Dialing) (endpoint : Endpoint) (due : Nat) (buffer bytes : ByteArray)
      (rest : Network) (reading : d.approach = some ⟨endpoint, due, .reading buffer⟩)
      (pending : d.outcome = none) (incomplete : take? buffer = .ok none)
      (touched : network.Touched (· = endpoint) rest) :
      Moves peer network d [bytes]
        { d with approach := some ⟨endpoint, due, .reading (buffer ++ bytes)⟩ } rest
  | met (d : Dialing) (endpoint : Endpoint) (due : Nat) (buffer : ByteArray) (hello : Hello)
      (surplus : ByteArray) (reading : d.approach = some ⟨endpoint, due, .reading buffer⟩)
      (pending : d.outcome = none) (taken : take? buffer = .ok (some (hello, surplus)))
      (meant : mismatch? peer hello = none) :
      Moves peer network d []
        { d with approach := none, outcome := some (.ok ⟨endpoint, hello, surplus⟩) } network

namespace Node

/-- What a step of the greetings on an accepted connection changes: the kernel, what is known of
the connection, and the connection. -/
structure Greets (endpoint : Endpoint) (n : Node) (network : Network) (deeds : List Deed)
    (after : Node) (rest : Network) : Prop where
  kernel : after.kernel = n.kernel.live deeds
  same : after = { n with kernel := after.kernel, arrivals := after.arrivals }
  network : network.Touched (· = endpoint) rest
  arrivals : ∀ a ∈ after.arrivals,
    a ∈ n.arrivals ∧ a.endpoint ≠ endpoint ∨ after.arrival? endpoint = some a
  handed : ∀ greeted, .attach greeted ∈ deeds → after.arrival? endpoint = none

section Steps

variable {now : Nat} {n after : Node} {network rest left : Network}

section Greeting

variable {endpoint : Endpoint} {kernel : Kernel} {deeds : List Deed}

/-- A connection that is turned away in the middle of the greetings is no longer there. -/
theorem Greets.away (lives : kernel = n.kernel.live deeds)
    (touched : network.Touched (· = endpoint) left) :
    n.Greets endpoint network deeds (({ n with kernel } : Node).turnAway endpoint left).1
      (({ n with kernel } : Node).turnAway endpoint left).2 where
  kernel := lives
  same := rfl
  network := touched.trans (left.hangUp_touched endpoint)
  arrivals a listed := .inl (by simpa [turnAway] using listed)
  handed _ _ := ({ n with kernel } : Node).arrival?_removed endpoint

/-- The greetings on an accepted connection go on from what is known of it then. -/
theorem Greets.onward {a : Arrival} (found : n.arrival? endpoint = some a) (due : Nat)
    (welcome : Welcome) (lives : kernel = n.kernel.live deeds)
    (touched : network.Touched (· = endpoint) left)
    (unattached : ∀ greeted, .attach greeted ∉ deeds) :
    n.Greets endpoint network deeds
      (({ n with kernel } : Node).setArrival ⟨endpoint, due, welcome⟩) left where
  kernel := lives
  same := rfl
  network := touched
  arrivals b listed := by
    obtain ⟨old, there, rfl⟩ := List.mem_map.mp listed
    dsimp only
    split
    · right
      exact setArrival_onward found { n with kernel } rfl due welcome
    · next other => exact .inl ⟨there, other⟩
  handed greeted attached := absurd attached (unattached greeted)

/-- A step of the greetings while one is being read: more is read, the greeting found is taken up,
or the connection is turned away. -/
theorem welcome?_greets_reading {due : Nat} {buffer : ByteArray}
    (found : n.arrival? endpoint = some ⟨endpoint, due, .reading buffer⟩)
    (stepped : n.welcome? now endpoint network = some (after, rest)) :
    n.Greets endpoint network ((Welcome.reading buffer).deeds endpoint) after rest := by
  have untouched : network.Touched (· = endpoint) network := .refl _ network
  unfold welcome? at stepped
  rw [show n.arrivals.find? _ = some _ from found] at stepped
  dsimp only at stepped
  split at stepped
  · next error wrong =>
    cases stepped
    have nothing : (Welcome.reading buffer).deeds endpoint = [] := by
      simp [Welcome.deeds, wrong]
    rw [nothing]
    exact .away rfl untouched
  · next incomplete =>
    have nothing : (Welcome.reading buffer).deeds endpoint = [] := by
      simp [Welcome.deeds, incomplete]
    rw [nothing]
    have read := network.read_touched endpoint Handshake.chunk
    split at stepped
    · next bytes left seen =>
      cases stepped
      rw [seen] at read
      exact .onward found _ _ rfl read fun _ => List.not_mem_nil
    · next left seen =>
      cases stepped
      rw [seen] at read
      exact .away rfl read
    · next left seen =>
      split at stepped
      · cases stepped
        rw [seen] at read
        exact .away rfl read
      · cases stepped
  · next hello surplus taken =>
    have meets : (Welcome.reading buffer).deeds endpoint = [.meet hello.peer] := by
      simp [Welcome.deeds, taken]
    rw [meets]
    split at stepped
    · next refusal kernel given =>
      cases stepped
      apply Greets.away _ untouched
      simp [Kernel.live, Kernel.undergo, given]
    · next own kernel given =>
      have lives : kernel = n.kernel.live [.meet hello.peer] := by
        simp [Kernel.live, Kernel.undergo, given]
      split at stepped
      · cases stepped
        exact .away lives untouched
      · cases stepped
        exact .onward found _ _ lives untouched (by simp)

/-- A step of the greetings while the answer is being written: more is written, the connection is
handed to the session, or it is turned away. -/
theorem welcome?_greets_answering {due : Nat} {hello : Hello} {surplus frame : ByteArray}
    {written : Nat}
    (found : n.arrival? endpoint = some ⟨endpoint, due, .answering hello surplus frame written⟩)
    (stepped : n.welcome? now endpoint network = some (after, rest)) :
    n.Greets endpoint network ((Welcome.answering hello surplus frame written).deeds endpoint)
      after rest := by
  have untouched : network.Touched (· = endpoint) network := .refl _ network
  unfold welcome? at stepped
  rw [show n.arrivals.find? _ = some _ from found] at stepped
  dsimp only [Welcome.deeds] at stepped ⊢
  split at stepped
  · next done =>
    rw [if_pos done]
    split at stepped
    · next unattached =>
      cases stepped
      apply Greets.away _ untouched
      simp [Kernel.live, Kernel.undergo, unattached]
    · next kernel attached =>
      cases stepped
      constructor
      case kernel => simp [Kernel.live, Kernel.undergo, attached]
      case same => rfl
      case network => exact untouched
      case arrivals => exact fun a listed => .inl (by simpa using listed)
      case handed => exact fun _ _ => n.arrival?_removed endpoint
  · next unwritten =>
    rw [if_neg unwritten]
    split at stepped
    · cases stepped
      exact .away rfl untouched
    · next left full =>
      split at stepped
      · cases stepped
        exact .away rfl (Network.write_touched _ endpoint _ _ _ full)
      · cases stepped
    · next count left _ wrote =>
      cases stepped
      exact .onward found _ _ rfl (Network.write_touched _ endpoint _ _ _ wrote)
        fun _ => List.not_mem_nil

/-- A step of the greetings on an accepted connection is about this connection only. -/
theorem welcome?_greets (stepped : n.welcome? now endpoint network = some (after, rest)) :
    ∃ a, n.arrival? endpoint = some a ∧
      n.Greets endpoint network (a.welcome.deeds endpoint) after rest := by
  cases found : n.arrival? endpoint with
  | none =>
    unfold welcome? at stepped
    rw [show n.arrivals.find? _ = none from found] at stepped
    cases stepped
  | some a =>
    refine ⟨a, rfl, ?_⟩
    have named := arrival?_endpoint found
    obtain ⟨endpoint, due, welcome⟩ := a
    cases named
    cases welcome with
    | reading buffer => exact welcome?_greets_reading found stepped
    | answering hello surplus frame written => exact welcome?_greets_answering found stepped

end Greeting

section Dialing

variable {peer : PeerId} {d : Dialing} {endpoint : Endpoint} {due : Nat}

/-- An attempt to connect moves on, and nothing else of the node does. -/
def MovesOn (peer : PeerId) (d : Dialing) (n : Node) (network : Network) (after : Node)
    (rest : Network) : Prop :=
  ∃ later, after = n.setDialing later ∧ later.peer = d.peer ∧
    d.Moves peer network (d.hears network) later rest

/-- A candidate is passed over, and its connection let go. -/
theorem MovesOn.passed {introduction : Introduction}
    (reached : d.approach = some ⟨endpoint, due, introduction⟩) (pending : d.outcome = none)
    (unheard : d.hears network = []) (failure : LinkError)
    (touched : network.Touched (· = endpoint) left) :
    n.MovesOn peer d network (n.passOver failure d left).1 (n.passOver failure d left).2 := by
  have passing : n.passOver failure d left =
      (n.setDialing { d with approach := none, failure }, left.hangUp endpoint) := by
    simp [passOver, reached]
  rw [passing]
  refine ⟨{ d with approach := none, failure }, rfl, rfl, ?_⟩
  rw [unheard]
  exact .passed d _ failure _ reached pending (touched.trans (left.hangUp_touched endpoint))

/-- An attempt without a connection goes on to its next candidate, or ends. -/
theorem dialing?_dials (found : n.attempt? peer = some d) (unreached : d.approach = none)
    (pending : d.outcome = none) (stepped : n.dialing? now peer network = some (after, rest)) :
    n.MovesOn peer d network after rest := by
  have unheard : d.hears network = [] := by simp [Dialing.hears, unreached]
  unfold dialing? at stepped
  rw [show n.dialings.find? _ = some d from found] at stepped
  simp only [pending, unreached] at stepped
  split at stepped
  · cases stepped
    refine ⟨{ d with outcome := some (.error d.failure) }, ?_, rfl, ?_⟩
    · rw [unreached]
    · rw [unheard]
      exact .exhausted d unreached pending
  · next address remaining _ =>
    split at stepped
    · next error left dialed =>
      cases stepped
      refine ⟨{ d with remaining, failure := .network error.message }, ?_, rfl, ?_⟩
      · rw [unreached, pending]
      · rw [unheard]
        apply Dialing.Moves.missed d address remaining _ _ unreached pending
        rw [dialed]
        exact .refl _ _
    · next endpoint left dialed =>
      split at stepped
      · next error _ =>
        cases stepped
        refine ⟨{ d with remaining, failure := .wire error }, ?_, rfl, ?_⟩
        · rw [unreached, pending]
        · rw [unheard]
          apply Dialing.Moves.missed d address remaining _ _ unreached pending
          rw [dialed, ← Network.dial_endpoint network address endpoint dialed]
          exact left.hangUp_touched endpoint
      · next frame framed =>
        cases stepped
        refine ⟨{ d with remaining, approach := some ⟨endpoint, n.dialDue now,
          .greeting frame.toByteArray 0⟩ }, ?_, rfl, ?_⟩
        · rw [pending]
        · rw [unheard]
          exact .reached d address remaining endpoint _ _ _ unreached pending dialed

/-- The greeting is written out. -/
theorem dialing?_greets {frame : ByteArray} {written : Nat} (found : n.attempt? peer = some d)
    (reached : d.approach = some ⟨endpoint, due, .greeting frame written⟩)
    (pending : d.outcome = none) (stepped : n.dialing? now peer network = some (after, rest)) :
    n.MovesOn peer d network after rest := by
  have unheard : d.hears network = [] := by simp [Dialing.hears, reached]
  unfold dialing? at stepped
  rw [show n.dialings.find? _ = some d from found] at stepped
  simp only [pending, reached] at stepped
  split at stepped
  · cases stepped
    refine ⟨{ d with approach := some ⟨endpoint, due, .reading .empty⟩ }, ?_, rfl, ?_⟩
    · rw [pending]
    · rw [unheard]
      exact .greeted d endpoint due frame written reached pending
  · split at stepped
    · cases stepped
      exact .passed reached pending unheard _ (.refl _ network)
    · next left full =>
      split at stepped
      · cases stepped
        exact .passed reached pending unheard _ (Network.write_touched _ endpoint _ _ _ full)
      · cases stepped
    · next count left _ wrote =>
      cases stepped
      refine ⟨{ d with approach := some ⟨endpoint, due, .greeting frame (written + count)⟩ }, ?_,
        rfl, ?_⟩
      · rw [pending]
      · rw [unheard]
        exact .wrote d endpoint due frame written _ _ reached pending
          (Network.write_touched _ endpoint _ _ _ wrote)

/-- The greeting of the peer is read, and judged once it is complete. It depends on what the buffer
begins with, and on what is there to be read. -/
theorem dialing?_reads {buffer : ByteArray} (found : n.attempt? peer = some d)
    (reached : d.approach = some ⟨endpoint, due, .reading buffer⟩)
    (pending : d.outcome = none) (stepped : n.dialing? now peer network = some (after, rest)) :
    n.MovesOn peer d network after rest := by
  have hears : d.hears network = piece network endpoint buffer := by
    simp [Dialing.hears, reached]
  have read := network.read_touched endpoint Handshake.chunk
  unfold dialing? at stepped
  rw [show n.dialings.find? _ = some d from found] at stepped
  simp only [pending, reached] at stepped
  split at stepped
  · next error wrong =>
    have unheard : d.hears network = [] := by simp [hears, piece, wrong]
    cases stepped
    exact .passed reached pending unheard _ (.refl _ network)
  · next incomplete =>
    split at stepped
    · next bytes left seen =>
      have heard : d.hears network = [bytes] := by simp [hears, piece, incomplete, seen]
      cases stepped
      rw [seen] at read
      refine ⟨{ d with approach := some ⟨endpoint, due, .reading (buffer ++ bytes)⟩ }, ?_, rfl, ?_⟩
      · rw [pending]
      · rw [heard]
        exact .heard d endpoint due buffer bytes _ reached pending incomplete read
    · next left seen =>
      have unheard : d.hears network = [] := by simp [hears, piece, seen]
      cases stepped
      rw [seen] at read
      exact .passed reached pending unheard _ read
    · next left seen =>
      have unheard : d.hears network = [] := by simp [hears, piece, seen]
      split at stepped
      · cases stepped
        rw [seen] at read
        exact .passed reached pending unheard _ read
      · cases stepped
  · next hello surplus taken =>
    have unheard : d.hears network = [] := by simp [hears, piece, taken]
    split at stepped
    · cases stepped
      exact .passed reached pending unheard _ (.refl _ network)
    · next meant =>
      cases stepped
      refine ⟨{ d with approach := none, outcome := some (.ok ⟨endpoint, hello, surplus⟩) }, rfl,
        rfl, ?_⟩
      rw [unheard]
      exact .met d endpoint due buffer hello surplus reached pending taken meant

/-- A step of an attempt to connect is of one of the kinds, and changes nothing else. -/
theorem dialing?_moves (stepped : n.dialing? now peer network = some (after, rest)) :
    ∃ d, n.attempt? peer = some d ∧ n.MovesOn peer d network after rest := by
  cases found : n.attempt? peer with
  | none =>
    unfold dialing? at stepped
    rw [show n.dialings.find? _ = none from found] at stepped
    cases stepped
  | some d =>
    refine ⟨d, rfl, ?_⟩
    cases pending : d.outcome with
    | some outcome =>
      unfold dialing? at stepped
      rw [show n.dialings.find? _ = some d from found] at stepped
      simp [pending] at stepped
    | none =>
      cases reached : d.approach with
      | none => exact dialing?_dials found reached pending stepped
      | some approach =>
        obtain ⟨endpoint, due, introduction⟩ := approach
        cases introduction with
        | greeting frame written => exact dialing?_greets found reached pending stepped
        | reading buffer => exact dialing?_reads found reached pending stepped

end Dialing

/-- A step of a writer changes what is known of the writer, and the tally of its peer. A frame is
taken from the queue, or more of it is written, or it is counted and done with, or the writer is
found to have failed. -/
theorem writer?_writes {endpoint : Endpoint}
    (stepped : n.writer? now endpoint network = some (after, rest)) : ∃ w later,
      (n.writers.find? fun w => w.endpoint = endpoint) = some w ∧
        after = ({ n with kernel := after.kernel } : Node).setWriter later ∧
        later.endpoint = w.endpoint ∧ later.peer = w.peer ∧
        after.kernel = n.kernel.live w.deeds ∧
        network.Touched (· = endpoint) rest := by
  unfold writer? at stepped
  cases found : n.writers.find? fun w => w.endpoint = endpoint with
  | none =>
    rw [found] at stepped
    cases stepped
  | some w =>
    rw [found] at stepped
    have untouched : network.Touched (· = endpoint) network := .refl _ network
    suffices goes : ∃ later,
        after = ({ n with kernel := after.kernel } : Node).setWriter later ∧
        later.endpoint = w.endpoint ∧ later.peer = w.peer ∧
        after.kernel = n.kernel.live w.deeds ∧ network.Touched (· = endpoint) rest by
      obtain ⟨later, goes⟩ := goes
      exact ⟨w, later, rfl, goes⟩
    dsimp only at stepped
    split at stepped
    · cases stepped
    · next sound =>
      split at stepped
      · next idle =>
        have nothing : w.deeds = [] := by simp [Writer.deeds, idle]
        rw [nothing]
        split at stepped
        · cases stepped
        · cases stepped
          exact ⟨_, rfl, rfl, rfl, rfl, untouched⟩
      · next writing busy =>
        split at stepped
        · next done =>
          have wrote : w.deeds = [.wrote w.peer writing.frame.size] := by
            simp [Writer.deeds, busy, sound, done]
          rw [wrote]
          cases stepped
          exact ⟨_, rfl, rfl, rfl, rfl, untouched⟩
        · next undone =>
          have nothing : w.deeds = [] := by
            simpa [Writer.deeds, busy, sound] using undone
          rw [nothing]
          split at stepped
          · cases stepped
            exact ⟨_, rfl, rfl, rfl, rfl, untouched⟩
          · next left full =>
            split at stepped
            · cases stepped
              exact ⟨_, rfl, rfl, rfl, rfl, Network.write_touched _ endpoint _ _ _ full⟩
            · cases stepped
          · next count left _ wrote =>
            cases stepped
            exact ⟨_, rfl, rfl, rfl, rfl, Network.write_touched _ endpoint _ _ _ wrote⟩

end Steps

end Node

end Courier
