import Courier.World.Basic

/-!
# Running a world

At each instant everything that can take a step does so before time goes on. The
activities take turns: each goes on until it cannot, then the next, until none can
take a step any more; then the clock moves on to the next time at which something is
due. A session takes its turn as a whole, with the first event that is there in a fixed
order. Where the order of activities within an instant makes a difference, this is one
order among many.

Applications may keep each other busy at one instant for ever. Running is therefore
bounded by a number of steps far beyond any that comes to an end, and says so when
the bound is reached.
-/

namespace Courier

/-- The occasions of a session, in the order in which a running world looks for them. -/
def Occasion.order : List Occasion :=
  [.onward, .dialed, .command, .wake, .backoff, .ack, .reading, .failure]

/-- What takes turns at a node. Of the activities that share a turn the first goes ahead that
can take a step. -/
def Node.agendas (n : Node) : List (List Activity) :=
  ((n.kernel.service?.map (·.listeners)).getD []).map (fun listener => [.accept listener]) ++
    n.arrivals.map (fun a => [.welcome a.endpoint]) ++
    n.dialings.map (fun d => [.dialing d.peer]) ++
    n.kernel.sessions.map (fun entry => Occasion.order.map (.session entry.1)) ++
    n.writers.map (fun w => [.writer w.endpoint])

namespace World

/-- The number of steps after which an instant counts as endless. -/
def patience : Nat := 1 <<< 40

/-- Let one agenda go on until it cannot, and tell whether it took a step. -/
def exhaust (number : Nat) (agenda : List Activity) : Nat → Bool → World → Option (Bool × World)
  | 0, _, _ => none
  | fuel + 1, moved, w =>
    match agenda.findSome? (w.step? number) with
    | none => some (moved, w)
    | some w => exhaust number agenda fuel true w

/-- Let all activities go on in turn, and tell whether any took a step. -/
def round (w : World) : Option (Bool × World) :=
  (w.nodes.flatMap fun n => n.agendas.map fun agenda => (n.number, agenda)).foldlM
    (fun (moved, w) (number, agenda) => exhaust number agenda patience moved w) (false, w)

/-- Forget the dropped nodes that came to their end. -/
def bury (w : World) : World :=
  { w with nodes := w.nodes.filter fun n => !(n.dropped && n.idle) }

/-- Let everything go on until nothing can. -/
def settleWithin : Nat → World → Option World
  | 0, _ => none
  | fuel + 1, w =>
    match w.round with
    | none => none
    | some (true, w) => settleWithin fuel w
    | some (false, w) => some w.bury

/-- Let everything go on until nothing can. `none` when that does not come to an end. -/
def settle (w : World) : Option World := settleWithin patience w

/-- The times after now at which something is due. -/
def dues (w : World) : List Nat :=
  (w.nodes.flatMap fun n => n.dues.map (n.epoch + ·)).filter (w.now < ·)

/-- The next time at which something is due, or the target if that comes first. -/
def nextDue (w : World) (target : Nat) : Nat := w.dues.foldl min target

/-- Let time go on up to the target, or until a condition holds. -/
def runWithin (enough : World → Bool) (target : Nat) : Nat → World → Option World
  | 0, _ => none
  | fuel + 1, w =>
    match w.settle with
    | none => none
    | some w =>
      if enough w ∨ target ≤ w.now then some w
      else runWithin enough target fuel { w with now := w.nextDue target }

/-- Let time go on up to the target, or until a condition holds. Each round moves the
clock, so as many rounds as milliseconds suffice. -/
def runUntil (w : World) (enough : World → Bool) (target : Nat) : Option World :=
  runWithin enough target (target - w.now + 1) w

/-- Let so many milliseconds pass. -/
def advance (w : World) (span : Nat) : Option World :=
  w.runUntil (fun _ => false) (w.now + span)

/-- The milliseconds that a session has to come to its end. -/
def grace : Nat := 1000

/-- Whether the session of a peer at a node has ended. -/
def hasEnded (w : World) (number : Nat) (peer : PeerId) : Bool :=
  (w.nodes.find? fun n => n.number = number).all fun n =>
    (n.kernel.session? peer).all fun s => s.stage = .ended

/-- Tell a session to end, let it, and end it when it takes too long. -/
def endSession (number : Nat) (w : World) (peer : PeerId) : Option World :=
  let told := w.change number fun n network _ =>
    ({ n with kernel := n.kernel.command peer .shutdown }, network)
  (told.runUntil (fun w => w.hasEnded number peer) (w.now + grace)).map fun w =>
    if w.hasEnded number peer then w
    else w.change number fun n network now => n.abort now peer network

/-- Stop the kernel of a node, if it is active: the listeners close, the sessions end
one after another, and the kernel is stopped. -/
def stop (w : World) (n : Node) : Option World :=
  match n.kernel.service? with
  | none => some w
  | some service =>
    let withdrawn := w.withdraw n.number
    let settled := if service.listeners.isEmpty then some withdrawn else withdrawn.settle
    let ended := settled.bind fun w =>
      (n.kernel.sessions.map (·.1)).foldlM (endSession n.number) w
    ended.map fun w =>
      w.change n.number fun n network _ => ({ n with kernel := n.kernel.finishStop }, network)

/-- Drop the node of a name, if there is one, and let it come to its end as far as that
takes no time. -/
def drop (w : World) (name : String) : Option World :=
  match w.node? name with
  | none => some w
  | some n => (w.release n.number).settle

/-- Set up a node in the place of an older one of the same name. -/
def found (w : World) (name : String) (application : Application) (seed : UInt64) :
    Option World :=
  (w.drop name).map fun w => w.add name application seed

end World

end Courier
