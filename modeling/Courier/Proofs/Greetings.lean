import Courier.Proofs.Arrival
import Courier.Proofs.Cutting
import Courier.World.Activity

/-!
# Reading a greeting

Either end of a new connection reads one greeting before the connection is handed to a session.
It reads pieces while the greeting is incomplete, takes it from the front of what it has, and
keeps the bytes behind it. What is found does not depend on the pieces: it is what is found at
the front of the whole stream, and the bytes behind it, kept or not yet read, are the rest of the
stream.

A node does this for a connection that was accepted and for one that it dialed, one step at a
time and with other things going on in between. Both keep to the same loop.
-/

namespace Courier

open Courier.Frame

namespace Handshake

/-- What was found, with more behind it. -/
def leaving (more : ByteArray) (found : Except LinkError (Option (Hello × ByteArray))) :
    Except LinkError (Option (Hello × ByteArray)) :=
  found.map (Option.map fun (hello, surplus) => (hello, surplus ++ more))

/-- Read pieces until a greeting is found or something is wrong, and tell which pieces were left
unread. -/
def await (buffer : ByteArray) :
    List ByteArray → Except LinkError (Option (Hello × ByteArray)) × List ByteArray
  | [] => (take? buffer, [])
  | piece :: later =>
    match take? buffer with
    | .ok none => await (buffer ++ piece) later
    | found => (found, piece :: later)

/-- A greeting is the envelope of the first frame. -/
theorem take?_takes (buffer : ByteArray) (hello : Hello) (surplus : ByteArray)
    (taken : take? buffer = .ok (some (hello, surplus))) : ∃ e,
      next? buffer = .ok (some (e, surplus)) ∧ e.body = .ok (some (.hello hello)) := by
  unfold take? at taken
  split at taken
  · cases taken
  · cases taken
  · next e rest found =>
    split at taken
    · cases taken
    · next other body =>
      cases taken
      exact ⟨e, found, body⟩
    · cases taken

/-- What is found at the front of a buffer is found with more behind it. -/
theorem take?_append (buffer more : ByteArray) (settled : take? buffer ≠ .ok none) :
    take? (buffer ++ more) = leaving more (take? buffer) := by
  cases found : next? buffer with
  | error error =>
    unfold take?
    rw [next?_error_append buffer more error found, found]
    rfl
  | ok front =>
    cases front with
    | none =>
      apply absurd _ settled
      rw [take?, found]
    | some taken =>
      obtain ⟨e, rest⟩ := taken
      unfold take?
      rw [next?_some_append buffer more e rest found, found]
      dsimp only
      split <;> rfl

/-- No piece is read once a greeting is found or something is wrong. -/
theorem await_settled (buffer : ByteArray) (later : List ByteArray)
    (settled : take? buffer ≠ .ok none) : await buffer later = (take? buffer, later) := by
  cases later with
  | nil => rfl
  | cons piece later =>
    unfold await
    split
    · next incomplete => exact absurd incomplete settled
    · rfl

/-- One more piece is read while the greeting is incomplete. -/
theorem await_more (buffer piece : ByteArray) (later : List ByteArray)
    (incomplete : take? buffer = .ok none) :
    await buffer (piece :: later) = await (buffer ++ piece) later := by
  rw [await, incomplete]

/-- What is found is what the front of the whole stream holds. -/
theorem await_together (buffer : ByteArray) (pieces : List ByteArray) :
    leaving (together (await buffer pieces).2) (await buffer pieces).1 =
      take? (buffer ++ together pieces) := by
  induction pieces generalizing buffer with
  | nil =>
    have all (found : Except LinkError (Option (Hello × ByteArray))) :
        leaving .empty found = found := by
      rcases found with error | _ | ⟨hello, surplus⟩
      · rfl
      · rfl
      · simp [leaving, Except.map]
    rw [together_nil, ByteArray.append_empty]
    exact all (take? buffer)
  | cons piece later inductionHypothesis =>
    by_cases incomplete : take? buffer = .ok none
    · rw [await_more buffer piece later incomplete, inductionHypothesis, together_cons,
        ByteArray.append_assoc]
    · rw [await_settled buffer _ incomplete, take?_append buffer _ incomplete]

/-- The greeting found is the first envelope of the stream, and the bytes kept and the pieces left
unread give the others. -/
theorem await_onward (pieces later : List ByteArray) (hello : Hello) (surplus : ByteArray)
    (found : await .empty pieces = (.ok (some (hello, surplus)), later)) : ∃ e,
      e.body = .ok (some (.hello hello)) ∧
        takePieces pieces = (takePieces (surplus :: later)).behind [e] := by
  have taken := await_together .empty pieces
  rw [found, ByteArray.empty_append] at taken
  obtain ⟨e, front, body⟩ := take?_takes _ hello _ taken.symm
  refine ⟨e, body, ?_⟩
  rw [takePieces_together, takeAll_some _ e _ front, takePieces_together, together_cons]

/-- Once these pieces are read, a greeting is still awaited behind these bytes. -/
def Awaits (pieces : List ByteArray) (buffer : ByteArray) : Prop :=
  ∀ later, await .empty (pieces ++ later) = await buffer later

/-- Once these pieces are read, this greeting is found, and these bytes are kept. -/
def Finds (pieces : List ByteArray) (hello : Hello) (surplus : ByteArray) : Prop :=
  ∀ later, await .empty (pieces ++ later) = (.ok (some (hello, surplus)), later)

/-- A greeting is awaited at the beginning. -/
theorem Awaits.begin : Awaits [] .empty := fun _ => rfl

/-- A greeting is awaited still behind one more piece, if what was there before is incomplete. -/
theorem Awaits.more {pieces : List ByteArray} {buffer : ByteArray} (awaits : Awaits pieces buffer)
    (incomplete : take? buffer = .ok none) (piece : ByteArray) :
    Awaits (pieces ++ [piece]) (buffer ++ piece) := by
  intro later
  rw [List.append_assoc, List.singleton_append, awaits, await_more buffer piece later incomplete]

/-- The greeting that is taken off the bytes kept is the one that is found. -/
theorem Awaits.finds {pieces : List ByteArray} {buffer : ByteArray}
    (awaits : Awaits pieces buffer) (hello : Hello) (surplus : ByteArray)
    (taken : take? buffer = .ok (some (hello, surplus))) : Finds pieces hello surplus := by
  intro later
  rw [awaits, await_settled buffer later (by simp [taken]), taken]

/-- A greeting that is cut anywhere is found with the second piece, and what follows it there is
kept. -/
theorem finds_cut (hello : Hello) (fits : hello.ack ≤ Json.maxWord) (d : Dispatch)
    (framed : Dispatch.of? (.hello hello) 0 hello.ack = some d) (cut : Nat)
    (short : cut < d.frame.length) (more : ByteArray) :
    Finds [⟨(d.frame.take cut).toArray⟩, ⟨(d.frame.drop cut).toArray⟩ ++ more] hello more := by
  obtain ⟨_, _, _, encoded⟩ := Dispatch.of?_eq _ _ _ d framed
  have lacks : d.frame.drop cut ≠ [] := by
    apply List.ne_nil_of_length_pos
    rw [List.length_drop]
    omega
  have incomplete : take? ⟨(d.frame.take cut).toArray⟩ = .ok none := by
    rw [take?, next?_partial _ _ _ encoded _ (List.take_append_drop cut d.frame) lacks]
  have taken : take? (⟨(d.frame.take cut).toArray⟩ ++ (⟨(d.frame.drop cut).toArray⟩ ++ more)) =
      .ok (some (hello, more)) := by
    obtain ⟨surplus, taken, left⟩ := take?_front hello fits d framed
      (⟨(d.frame.take cut).toArray⟩ ++ (⟨(d.frame.drop cut).toArray⟩ ++ more)) more.data.toList
      (by simp [← List.append_assoc])
    rw [taken, ByteArray.ext (Array.toList_inj.mp left)]
  have begun : Awaits [⟨(d.frame.take cut).toArray⟩] (.empty ++ ⟨(d.frame.take cut).toArray⟩) :=
    Awaits.begin.more rfl _
  rw [ByteArray.empty_append] at begun
  exact (begun.more incomplete _).finds hello more taken

/-- The piece that is read next, if a greeting is awaited and anything is there. -/
def piece (network : Network) (endpoint : Endpoint) (buffer : ByteArray) : List ByteArray :=
  match take? buffer, (network.read endpoint chunk).1 with
  | .ok none, .bytes bytes => [bytes]
  | _, _ => []

end Handshake

open Handshake

/-- How far the greetings on an accepted connection have come agrees with the pieces read. -/
def Welcome.Keeps (pieces : List ByteArray) : Welcome → Prop
  | .reading buffer => Awaits pieces buffer
  | .answering hello surplus _ _ => Finds pieces hello surplus

/-- The piece that is read next for an accepted connection. -/
def Welcome.hears (endpoint : Endpoint) (network : Network) : Welcome → List ByteArray
  | .reading buffer => piece network endpoint buffer
  | .answering _ _ _ _ => []

/-- What a step makes of an accepted connection: the piece read, how far the greetings have come,
unless the connection is no longer there, and what it is for the kernel. -/
inductive Welcomed (endpoint : Endpoint) : Welcome → List ByteArray → Option Welcome →
    List Deed → Prop where
  | away (welcome : Welcome) (deeds : List Deed)
      (unattached : ∀ greeted, .attach greeted ∉ deeds) : Welcomed endpoint welcome [] none deeds
  | heard (buffer bytes : ByteArray) (incomplete : take? buffer = .ok none) :
      Welcomed endpoint (.reading buffer) [bytes] (some (.reading (buffer ++ bytes))) []
  | greeted (buffer : ByteArray) (hello : Hello) (surplus frame : ByteArray)
      (taken : take? buffer = .ok (some (hello, surplus))) :
      Welcomed endpoint (.reading buffer) [] (some (.answering hello surplus frame 0))
        [.meet hello.peer]
  | wrote (hello : Hello) (surplus frame : ByteArray) (written count : Nat) :
      Welcomed endpoint (.answering hello surplus frame written) []
        (some (.answering hello surplus frame (written + count))) []
  | handed (hello : Hello) (surplus frame : ByteArray) (written : Nat) :
      Welcomed endpoint (.answering hello surplus frame written) [] none
        [.attach ⟨endpoint, hello, surplus⟩]

namespace Node

/-- The accepted connection at an end. -/
def arrival? (endpoint : Endpoint) (n : Node) : Option Arrival :=
  n.arrivals.find? fun a => a.endpoint = endpoint

/-- The connection found at an end is at this end. -/
theorem arrival?_endpoint {endpoint : Endpoint} {n : Node} {a : Arrival}
    (found : n.arrival? endpoint = some a) : a.endpoint = endpoint := by
  simpa using List.find?_some found

/-- A connection that was taken off is no longer there. -/
theorem arrival?_removed (endpoint : Endpoint) (n : Node) :
    arrival? endpoint { n with
      arrivals := n.arrivals.filter fun a => a.endpoint ≠ endpoint } = none := by
  apply List.find?_eq_none.mpr
  intro a listed
  simpa using (List.mem_filter.mp listed).2

/-- A connection that is put in its place is found there. -/
theorem setArrival_arrival? (n : Node) (a b : Arrival)
    (found : n.arrival? a.endpoint = some b) :
    (n.setArrival a).arrival? a.endpoint = some a := by
  have same : (fun other : Arrival => decide ((if other.endpoint = a.endpoint then a
      else other).endpoint = a.endpoint)) = fun other => decide (other.endpoint = a.endpoint) := by
    funext other
    by_cases here : other.endpoint = a.endpoint <;> simp [here]
  have there := arrival?_endpoint found
  unfold arrival? at found
  unfold arrival? setArrival
  rw [List.find?_map, Function.comp_def, same, found]
  simp [there]

/-- A connection that is turned away is no longer there. -/
theorem turnAway_welcomed (m : Node) (endpoint : Endpoint) (left : Network) (welcome : Welcome)
    (deeds : List Deed) (unattached : ∀ greeted, .attach greeted ∉ deeds) :
    Welcomed endpoint welcome [] (((m.turnAway endpoint left).1.arrival? endpoint).map (·.welcome))
      deeds := by
  have gone : (m.turnAway endpoint left).1.arrival? endpoint = none := m.arrival?_removed endpoint
  rw [gone]
  exact .away welcome deeds unattached

/-- A connection that is put in its place is found there, whatever else changed on the node. -/
theorem setArrival_onward {n : Node} {endpoint : Endpoint} {a : Arrival}
    (found : n.arrival? endpoint = some a) (m : Node) (same : m.arrivals = n.arrivals) (due : Nat)
    (later : Welcome) :
    (m.setArrival ⟨endpoint, due, later⟩).arrival? endpoint = some ⟨endpoint, due, later⟩ := by
  apply m.setArrival_arrival? ⟨endpoint, due, later⟩ a
  rw [arrival?, same]
  exact found

section Steps

variable {now due : Nat} {endpoint : Endpoint} {n after : Node} {network rest : Network}

/-- While a greeting is awaited, a step reads a piece, takes the greeting, or turns the connection
away. It depends on what the buffer begins with, and on what is there to be read. -/
theorem welcome?_reading {buffer : ByteArray}
    (found : n.arrival? endpoint = some ⟨endpoint, due, .reading buffer⟩)
    (stepped : n.welcome? now endpoint network = some (after, rest)) : ∃ deeds,
      after.kernel = n.kernel.live deeds ∧
        Welcomed endpoint (.reading buffer) (piece network endpoint buffer)
          ((after.arrival? endpoint).map (·.welcome)) deeds := by
  have away (unheard : piece network endpoint buffer = []) (m : Node) (left : Network)
      (deeds : List Deed) (unattached : ∀ greeted, .attach greeted ∉ deeds) :
      Welcomed endpoint (.reading buffer) (piece network endpoint buffer)
        (((m.turnAway endpoint left).1.arrival? endpoint).map (·.welcome)) deeds := by
    rw [unheard]
    exact m.turnAway_welcomed endpoint left _ deeds unattached
  have looked : (n.arrivals.find? fun a => a.endpoint = endpoint) = some ⟨_, _, _⟩ := found
  unfold welcome? at stepped
  rw [looked] at stepped
  dsimp only at stepped
  split at stepped
  · next error wrong =>
    cases stepped
    exact ⟨[], rfl, away (by simp [piece, wrong]) n network [] nofun⟩
  · next incomplete =>
    split at stepped
    · next bytes left read =>
      cases stepped
      have heard : piece network endpoint buffer = [bytes] := by simp [piece, incomplete, read]
      rw [heard, setArrival_onward found n rfl]
      exact ⟨[], rfl, .heard buffer bytes incomplete⟩
    · next left read =>
      cases stepped
      exact ⟨[], rfl, away (by simp [piece, read]) n left [] nofun⟩
    · next left read =>
      split at stepped
      · cases stepped
        exact ⟨[], rfl, away (by simp [piece, read]) n left [] nofun⟩
      · cases stepped
  · next hello surplus taken =>
    have unheard : piece network endpoint buffer = [] := by simp [piece, taken]
    have met (kernel : Kernel) (given : (n.kernel.admitPeer hello.peer).2 = kernel) :
        kernel = n.kernel.live [.meet hello.peer] := by
      rw [← given]
      rfl
    split at stepped
    · next refusal kernel given =>
      cases stepped
      refine ⟨[.meet hello.peer], met kernel (by rw [given]), ?_⟩
      exact away unheard { n with kernel } network _ (by simp)
    · next own kernel given =>
      have lives := met kernel (by rw [given])
      split at stepped
      · cases stepped
        exact ⟨[.meet hello.peer], lives, away unheard { n with kernel } network _ (by simp)⟩
      · next frame framed =>
        cases stepped
        rw [unheard, setArrival_onward found { n with kernel } rfl]
        exact ⟨[.meet hello.peer], lives, .greeted buffer hello surplus _ taken⟩

/-- Once a greeting was found, a step writes of the own one, hands the connection to a session, or
turns it away. -/
theorem welcome?_answering {hello : Hello} {surplus frame : ByteArray} {written : Nat}
    (found : n.arrival? endpoint = some ⟨endpoint, due, .answering hello surplus frame written⟩)
    (stepped : n.welcome? now endpoint network = some (after, rest)) : ∃ deeds,
      after.kernel = n.kernel.live deeds ∧
        Welcomed endpoint (.answering hello surplus frame written) []
          ((after.arrival? endpoint).map (·.welcome)) deeds := by
  have looked : (n.arrivals.find? fun a => a.endpoint = endpoint) = some ⟨_, _, _⟩ := found
  unfold welcome? at stepped
  rw [looked] at stepped
  dsimp only at stepped
  split at stepped
  · split at stepped
    · cases stepped
      exact ⟨[], rfl, n.turnAway_welcomed endpoint network _ [] nofun⟩
    · next kernel attached =>
      cases stepped
      have gone := arrival?_removed endpoint { n with kernel }
      dsimp only at gone
      rw [gone]
      refine ⟨[.attach ⟨endpoint, hello, surplus⟩], ?_, .handed hello surplus frame written⟩
      simp [Kernel.live, Kernel.undergo, attached]
  · split at stepped
    · cases stepped
      exact ⟨[], rfl, n.turnAway_welcomed endpoint network _ [] nofun⟩
    · next left full =>
      split at stepped
      · cases stepped
        exact ⟨[], rfl, n.turnAway_welcomed endpoint left _ [] nofun⟩
      · cases stepped
    · next count left _ wrote =>
      cases stepped
      rw [setArrival_onward found n rfl]
      exact ⟨[], rfl, .wrote hello surplus frame written count⟩

/-- A step of the greetings on an accepted connection is of one of the kinds. -/
theorem welcome?_goes {welcome : Welcome}
    (found : n.arrival? endpoint = some ⟨endpoint, due, welcome⟩)
    (stepped : n.welcome? now endpoint network = some (after, rest)) : ∃ deeds,
      after.kernel = n.kernel.live deeds ∧
        Welcomed endpoint welcome (welcome.hears endpoint network)
          ((after.arrival? endpoint).map (·.welcome)) deeds := by
  cases welcome with
  | reading buffer => exact welcome?_reading found stepped
  | answering hello surplus frame written => exact welcome?_answering found stepped

end Steps

/-- The greetings on an accepted connection, with the pieces that were read for them: they begin
with none, and go on in steps, with anything in between that leaves the connection alone. -/
inductive Welcoming (endpoint : Endpoint) : Node → List ByteArray → Prop where
  | begun (n : Node) (due : Nat)
      (found : n.arrival? endpoint = some ⟨endpoint, due, .reading .empty⟩) :
      Welcoming endpoint n []
  | apart (n after : Node) (pieces : List ByteArray) (earlier : Welcoming endpoint n pieces)
      (alone : after.arrival? endpoint = n.arrival? endpoint) : Welcoming endpoint after pieces
  | stepped (n after : Node) (network rest : Network) (now : Nat) (pieces : List ByteArray)
      (a : Arrival) (earlier : Welcoming endpoint n pieces)
      (found : n.arrival? endpoint = some a)
      (stepped : n.welcome? now endpoint network = some (after, rest)) :
      Welcoming endpoint after (pieces ++ a.welcome.hears endpoint network)

end Node

/-- A step keeps what is known in agreement with the pieces read. -/
theorem Welcomed.keeps {endpoint : Endpoint} {welcome later : Welcome}
    {pieces heard : List ByteArray} {deeds : List Deed} (keeps : welcome.Keeps pieces)
    (welcomed : Welcomed endpoint welcome heard (some later) deeds) :
    later.Keeps (pieces ++ heard) := by
  cases welcomed with
  | heard buffer bytes incomplete => exact Awaits.more keeps incomplete bytes
  | greeted buffer hello surplus frame taken =>
    rw [List.append_nil]
    exact Awaits.finds keeps hello surplus taken
  | wrote hello surplus frame written count =>
    rw [List.append_nil]
    exact keeps

/-- What a step hands over is what was found. -/
theorem Welcomed.hands {endpoint : Endpoint} {welcome : Welcome} {later : Option Welcome}
    {pieces heard : List ByteArray} {deeds : List Deed} (keeps : welcome.Keeps pieces)
    (welcomed : Welcomed endpoint welcome heard later deeds) (greeted : Greeted)
    (handed : .attach greeted ∈ deeds) :
    greeted.endpoint = endpoint ∧ Finds pieces greeted.hello greeted.surplus := by
  cases welcomed with
  | away welcome deeds unattached => exact absurd handed (unattached greeted)
  | heard | wrote => cases handed
  | greeted => cases List.mem_singleton.mp handed
  | handed hello surplus frame written =>
    cases List.mem_singleton.mp handed
    exact ⟨rfl, keeps⟩

namespace Node

/-- As far as the greetings on an accepted connection have come, they agree with the pieces read. -/
theorem Welcoming.keeps {endpoint : Endpoint} {n : Node} {pieces : List ByteArray}
    (welcoming : Welcoming endpoint n pieces) (a : Arrival)
    (found : n.arrival? endpoint = some a) : a.welcome.Keeps pieces := by
  induction welcoming generalizing a with
  | begun n due begun =>
    cases begun.symm.trans found
    exact Awaits.begin
  | apart n after pieces earlier alone inductionHypothesis =>
    exact inductionHypothesis a (alone.symm.trans found)
  | stepped n after network rest now pieces before earlier there stepped inductionHypothesis =>
    obtain ⟨_, due, welcome⟩ := before
    have named := arrival?_endpoint there
    subst named
    obtain ⟨deeds, _, welcomed⟩ := welcome?_goes there stepped
    rw [found] at welcomed
    exact welcomed.keeps (inductionHypothesis _ there)

/-- A connection is handed to a session with the greeting that was found and the bytes kept. -/
theorem Welcoming.hands {endpoint : Endpoint} {n after : Node} {pieces : List ByteArray}
    (welcoming : Welcoming endpoint n pieces) {now : Nat} {network rest : Network}
    (stepped : n.welcome? now endpoint network = some (after, rest)) : ∃ deeds,
      after.kernel = n.kernel.live deeds ∧ ∀ greeted, .attach greeted ∈ deeds →
        greeted.endpoint = endpoint ∧ Finds pieces greeted.hello greeted.surplus := by
  cases found : n.arrival? endpoint with
  | none =>
    unfold welcome? at stepped
    rw [show n.arrivals.find? _ = none from found] at stepped
    cases stepped
  | some a =>
    have keeps := welcoming.keeps a found
    obtain ⟨_, due, welcome⟩ := a
    have named := arrival?_endpoint found
    subst named
    obtain ⟨deeds, lives, welcomed⟩ := welcome?_goes found stepped
    exact ⟨deeds, lives, welcomed.hands keeps⟩

/-- The attempt to connect to a peer. -/
def attempt? (peer : PeerId) (n : Node) : Option Dialing :=
  n.dialings.find? fun d => d.peer = peer

/-- An attempt that is put in its place is found there. -/
theorem setDialing_attempt? (n : Node) (d e : Dialing) (found : n.attempt? d.peer = some e) :
    (n.setDialing d).attempt? d.peer = some d := by
  have same : (fun other : Dialing => decide ((if other.peer = d.peer then d
      else other).peer = d.peer)) = fun other => decide (other.peer = d.peer) := by
    funext other
    by_cases here : other.peer = d.peer <;> simp [here]
  have there : e.peer = d.peer := by simpa using List.find?_some found
  unfold attempt? at found
  unfold attempt? setDialing
  rw [List.find?_map, Function.comp_def, same, found]
  simp [there]

end Node

/-- A greeting is being read at an end, with these bytes so far. -/
def Dialing.Hears (d : Dialing) (endpoint : Endpoint) (buffer : ByteArray) : Prop :=
  d.outcome = none ∧ ∃ due, d.approach = some ⟨endpoint, due, .reading buffer⟩

/-- How far an attempt to connect has come at an end agrees with the pieces read. -/
structure Dialing.Keeps (d : Dialing) (endpoint : Endpoint) (pieces : List ByteArray) : Prop where
  awaits : ∀ buffer, d.Hears endpoint buffer → Awaits pieces buffer
  finds : ∀ greeted, d.outcome = some (.ok greeted) →
    greeted.endpoint = endpoint ∧ Finds pieces greeted.hello greeted.surplus

namespace Node

/-- A step that reads a greeting keeps what is known in agreement with the pieces read. The greeting
is found in the buffer, which agrees with what was read. -/
theorem dialing?_keeps {now : Nat} {peer : PeerId} {endpoint : Endpoint} {n after : Node}
    {network rest : Network} {d : Dialing} {buffer : ByteArray} {pieces : List ByteArray}
    (found : n.attempt? peer = some d) (hears : d.Hears endpoint buffer)
    (awaits : Awaits pieces buffer)
    (stepped : n.dialing? now peer network = some (after, rest)) : ∃ later,
      after.attempt? peer = some later ∧
        later.Keeps endpoint (pieces ++ piece network endpoint buffer) := by
  obtain ⟨pending, due, reading⟩ := hears
  have named : d.peer = peer := by simpa using List.find?_some found
  have onward (later : Dialing) (same : later.peer = peer) :
      (n.setDialing later).attempt? peer = some later := by
    subst same
    exact n.setDialing_attempt? later d found
  have passed (failure : LinkError) (left : Network) (heard : List ByteArray) : ∃ later,
      (n.passOver failure d left).1.attempt? peer = some later ∧ later.Keeps endpoint heard := by
    refine ⟨{ d with approach := none, failure }, onward _ named, ?_, ?_⟩
    · rintro _ ⟨_, _, ⟨⟩⟩
    · intro greeted reached
      cases pending.symm.trans reached
  unfold dialing? at stepped
  rw [show (n.dialings.find? fun d => d.peer = peer) = some d from found] at stepped
  dsimp only at stepped
  rw [pending, reading] at stepped
  dsimp only at stepped
  split at stepped
  · next error wrong =>
    cases stepped
    exact passed error network _
  · next incomplete =>
    split at stepped
    · next bytes left read =>
      cases stepped
      have heard : piece network endpoint buffer = [bytes] := by simp [piece, incomplete, read]
      refine ⟨_, onward _ named, ?_, ?_⟩
      · rintro _ ⟨_, _, ⟨⟩⟩
        rw [heard]
        exact awaits.more incomplete bytes
      · rintro greeted ⟨⟩
    · next left read =>
      cases stepped
      exact passed .connectionLost left _
    · next left read =>
      split at stepped
      · cases stepped
        exact passed .dialTimeout left _
      · cases stepped
  · next hello surplus taken =>
    have unheard : piece network endpoint buffer = [] := by simp [piece, taken]
    split at stepped
    · next error meant =>
      cases stepped
      exact passed error network _
    · cases stepped
      refine ⟨_, onward _ named, ?_, ?_⟩
      · rintro _ ⟨⟨⟩, _⟩
      · rintro greeted ⟨⟩
        rw [unheard, List.append_nil]
        exact ⟨rfl, awaits.finds hello surplus taken⟩

/-- The greetings at an end of an attempt to connect, with the pieces that were read for them:
they begin once the own greeting is written, and go on in steps, with anything in between that
leaves the attempt alone. -/
inductive Reaching (peer : PeerId) (endpoint : Endpoint) : Node → List ByteArray → Prop where
  | begun (n : Node) (d : Dialing) (found : n.attempt? peer = some d)
      (hears : d.Hears endpoint .empty) : Reaching peer endpoint n []
  | apart (n after : Node) (pieces : List ByteArray) (earlier : Reaching peer endpoint n pieces)
      (alone : after.attempt? peer = n.attempt? peer) : Reaching peer endpoint after pieces
  | stepped (n after : Node) (network rest : Network) (now : Nat) (pieces : List ByteArray)
      (d : Dialing) (buffer : ByteArray) (earlier : Reaching peer endpoint n pieces)
      (found : n.attempt? peer = some d) (hears : d.Hears endpoint buffer)
      (stepped : n.dialing? now peer network = some (after, rest)) :
      Reaching peer endpoint after (pieces ++ piece network endpoint buffer)

/-- As far as an attempt to connect has come, it agrees with the pieces read. -/
theorem Reaching.keeps {peer : PeerId} {endpoint : Endpoint} {n : Node} {pieces : List ByteArray}
    (reaching : Reaching peer endpoint n pieces) (d : Dialing)
    (found : n.attempt? peer = some d) : d.Keeps endpoint pieces := by
  induction reaching generalizing d with
  | begun n e begun hears =>
    cases begun.symm.trans found
    obtain ⟨pending, due, reading⟩ := hears
    constructor
    case awaits =>
      rintro buffer ⟨_, _, same⟩
      cases reading.symm.trans same
      exact .begin
    case finds =>
      intro greeted reached
      cases pending.symm.trans reached
  | apart n after pieces earlier alone inductionHypothesis =>
    exact inductionHypothesis d (alone.symm.trans found)
  | stepped n after network rest now pieces e buffer earlier there hears stepped
      inductionHypothesis =>
    obtain ⟨later, same, keeps⟩ :=
      dialing?_keeps there hears ((inductionHypothesis e there).awaits buffer hears) stepped
    cases same.symm.trans found
    exact keeps

end Node

end Courier
