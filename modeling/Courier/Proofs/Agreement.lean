import Courier.Proofs.Receiving
import Courier.Proofs.Sending

/-!
# What always holds between two kernels

The account of the messages from one kernel agrees with its ledger, with the ledger of the
other kernel, and with all that either ever wrote to a connection. Most of what can happen
keeps this for one of a few reasons: a connection goes on, a session changes along with the
account, or nothing that matters changes. The turns of a session that write are put
together from these.
-/

namespace Courier

open Happening Json

/-- A session that may only let go of connections, and change what it has queued. -/
structure Session.Calm (host : Host) (s after : Session) : Prop where
  received : after.ledger.window.received = s.ledger.window.received := by rfl
  incarnation : after.ledger.incarnation = s.ledger.incarnation := by rfl
  link : after.link = none ∨ after.link = s.link := by exact .inr rfl
  commands : after.commands <:+ s.commands := by exact List.suffix_refl _
  dial : ∀ dial, after.dial = some dial →
    s.dial = some dial ∨ dial.hello = host.hello s.ledger := by exact fun _ => .inl

/-- A quiet turn is calm. -/
theorem Session.Quiet.calm {host : Host} {s after : Session} (quiet : s.Quiet host after) :
    s.Calm host after := { quiet with }

namespace Correspondence

/-- The account of the messages from here. -/
def account (x : Correspondence) : Account :=
  ⟨(x.host .here).incarnation, (x.session .here).ledger.window.sent, x.log⟩

/-- What always holds between two kernels of which the first lasts. -/
structure Sound (x : Correspondence) : Prop where
  sends : Sends x.account (x.session .here).ledger
  honest : ∀ c p, ∀ d ∈ (x.passage c).written p, x.account.Honest p d
  gapless : ∀ c, x.account.Gapless ((x.passage c).written .here)
  marked : ∀ link, (x.session .here).link = some link →
    Marked (x.session .here).ledger.outbox ((x.passage link.endpoint.connection).written .here)
  receives : Receives x.account (x.host .there).incarnation (x.former .there)
    (x.session .there).ledger
  holds : ∀ p, Holds x.account p (x.session p) x.passage
  dials : ∀ p dial, (x.session p).dial = some dial → x.account.Greets p dial.hello
  received : ∀ p, (x.session p).ledger.window.received ≤ maxWord
  unused : ∀ c, (x.passage c).dialer = none → ∀ p, (x.passage c).joined p = false
  untouched : ∀ c p, (x.passage c).joined p = false → (x.passage c).taken p = 0

variable {x : Correspondence}

/-- The session of a party is the one that it was amended to. -/
@[simp]
theorem amend_session (x : Correspondence) (p : Party) (s : Session) :
    (x.amend p s).session p = s := Function.update_self _ _ _

/-- A session that is amended twice is the second one. -/
theorem amend_amend (x : Correspondence) (p : Party) (s t : Session) :
    (x.amend p s).amend p t = x.amend p t := by
  unfold amend
  simp

/-- The account after one of the two sessions changed and something was noted. -/
theorem account_here (x : Correspondence) (t : Session) (news : List Happening) :
    ((x.amend .here t).note news).account =
      ⟨x.account.own, t.ledger.window.sent, x.log ++ news⟩ := by
  unfold Correspondence.account note amend
  simp

/-- What is noted along with a session there comes to the account of here. -/
theorem account_there (x : Correspondence) (t : Session) (news : List Happening) :
    ((x.amend .there t).note news).account = ⟨x.account.own, x.account.sent, x.log ++ news⟩ := by
  unfold Correspondence.account note amend
  simp

/-- A change of one connection changes no other one. -/
theorem change_passage (x : Correspondence) (c k : Nat) (f : Passage → Passage) :
    (x.change c f).passage k = if k = c then f (x.passage c) else x.passage k :=
  Function.update_apply _ _ _ _

/-- A connection may be dialed, go on, or be joined. Every condition is about one connection at a
time, so it is enough to look at the one that changes. -/
theorem Sound.changed (sound : Sound x) (c : Nat) (f : Passage → Passage)
    (grows : ∀ p, (x.passage c).joined p = true → (f (x.passage c)).joined p = true ∧
      (f (x.passage c)).taken p = (x.passage c).taken p ∧
      ∀ q, (x.passage c).written q <+: (f (x.passage c)).written q)
    (unused : (f (x.passage c)).dialer = none → ∀ p, (f (x.passage c)).joined p = false)
    (untouched : ∀ p, (f (x.passage c)).joined p = false → (f (x.passage c)).taken p = 0)
    (honest : ∀ p, ∀ d ∈ (f (x.passage c)).written p, x.account.Honest p d)
    (gapless : x.account.Gapless ((f (x.passage c)).written .here)) : Sound (x.change c f) := by
  have account : (x.change c f).account = x.account := rfl
  refine ⟨sound.sends, ?_, ?_, ?_, sound.receives, ?_, sound.dials, sound.received, ?_, ?_⟩
  · intro k p d listed
    rw [change_passage] at listed
    rw [account]
    split at listed
    · exact honest p d listed
    · exact sound.honest k p d listed
  · intro k
    rw [change_passage, account]
    split
    · exact gapless
    · exact sound.gapless k
  · intro link held
    have marked := sound.marked link held
    rw [change_passage]
    split
    · next same =>
      have joined := (sound.holds .here).joined _ (Holds.link_ends _ link held)
      rw [same] at marked joined
      obtain ⟨more, longer⟩ := (grows .here joined).2.2 .here
      rw [← longer]
      exact marked.append more
    · exact marked
  · intro p
    refine (sound.holds p).longer _ fun k joined => ?_
    rw [change_passage]
    split
    · next same =>
      subst same
      obtain ⟨still, taken, longer⟩ := grows p joined
      exact ⟨still, taken, longer p.other⟩
    · exact ⟨joined, rfl, List.prefix_refl _⟩
  · intro k
    rw [change_passage]
    split
    · exact unused
    · exact sound.unused k
  · intro k p
    rw [change_passage]
    split
    · exact untouched p
    · exact sound.untouched k p

/-- What a party writes goes behind what it wrote before. -/
theorem Sound.wrote (sound : Sound x) (p : Party) (c : Nat) (f : Passage → Passage)
    (dispatches : List Dispatch) (dialer : (f (x.passage c)).dialer = (x.passage c).dialer)
    (joined : (f (x.passage c)).joined = (x.passage c).joined)
    (taken : (f (x.passage c)).taken = (x.passage c).taken)
    (writes : (f (x.passage c)).written = ((x.passage c).append p dispatches).written)
    (honest : ∀ d ∈ dispatches, x.account.Honest p d)
    (gapless : p = .here → x.account.Gapless ((x.passage c).written .here ++ dispatches)) :
    Sound (x.change c f) := by
  have written (q : Party) : (f (x.passage c)).written q =
      if q = p then (x.passage c).written p ++ dispatches else (x.passage c).written q := by
    rw [writes, Passage.append_written]
  refine sound.changed c _ ?_ ?_ ?_ ?_ ?_
  · intro q before
    rw [joined, taken]
    refine ⟨before, rfl, fun r => ?_⟩
    rw [written]
    split
    · next same =>
      rw [same]
      exact List.prefix_append _ _
    · exact List.prefix_refl _
  · rw [dialer, joined]
    exact sound.unused c
  · rw [joined, taken]
    exact sound.untouched c
  · intro q d listed
    rw [written] at listed
    split at listed
    · next same =>
      rw [same]
      exact (List.mem_append.mp listed).elim (sound.honest c p d) (honest d)
    · exact sound.honest c q d listed
  · rw [written]
    split
    · next same =>
      subst same
      exact gapless rfl
    · exact sound.gapless c

/-- What is on its way agrees with an account that has grown. -/
theorem Sound.written_extends (sound : Sound x) {b : Account} (later : x.account.Extends b) :
    (∀ c p, ∀ d ∈ (x.passage c).written p, b.Honest p d) ∧
      ∀ c, b.Gapless ((x.passage c).written .here) :=
  ⟨fun c p d listed => (sound.honest c p d listed).extends later,
    fun c => (sound.gapless c).extends (sound.honest c .here) later⟩

/-- The session here may change along with the account. -/
theorem Sound.amendHere (sound : Sound x) (t : Session) (news : List Happening)
    (later : x.account.Extends ((x.amend .here t).note news).account)
    (handed : ∀ run, handedBy .there run news = [])
    (sends : Sends ((x.amend .here t).note news).account t.ledger)
    (marked : ∀ link, t.link = some link →
      Marked t.ledger.outbox ((x.passage link.endpoint.connection).written .here))
    (holds : Holds x.account .here t x.passage)
    (dials : ∀ dial, t.dial = some dial → x.account.Greets .here dial.hello)
    (received : t.ledger.window.received ≤ maxWord) : Sound ((x.amend .here t).note news) := by
  have same (run : Incarnation) :
      handedBy .there run (x.log ++ news) = handedBy .there run x.log := by
    rw [handedBy_append, handed, List.append_nil]
  obtain ⟨honest, gapless⟩ := sound.written_extends later
  refine ⟨sends, honest, gapless, marked, ?_, ?_, ?_, ?_, sound.unused, sound.untouched⟩
  · exact sound.receives.extends later same rfl sound.receives.seen
  · intro p
    cases p with
    | here => exact holds.grown later
    | there => exact (sound.holds .there).grown later
  · intro p dial begun
    cases p with
    | here => exact (dials dial begun).extends later
    | there => exact (sound.dials .there dial begun).extends later
  · intro p
    cases p with
    | here => exact received
    | there => exact sound.received .there

/-- The session there may change along with what was handed out. -/
theorem Sound.amendThere (sound : Sound x) (t : Session) (news : List Happening)
    (accepted : acceptedBy .here news = [])
    (receives : Receives ((x.amend .there t).note news).account (x.host .there).incarnation
      (x.former .there) t.ledger)
    (holds : Holds ((x.amend .there t).note news).account .there t x.passage)
    (dials : ∀ dial, t.dial = some dial →
      ((x.amend .there t).note news).account.Greets .there dial.hello)
    (received : t.ledger.window.received ≤ maxWord) : Sound ((x.amend .there t).note news) := by
  have later : x.account.Extends ((x.amend .there t).note news).account :=
    x.account.extends_note _ news (Nat.le_refl _) (by simp [accepted])
  obtain ⟨honest, gapless⟩ := sound.written_extends later
  refine ⟨sound.sends.note news accepted, honest, gapless, sound.marked, receives, ?_, ?_, ?_,
    sound.unused, sound.untouched⟩
  · intro p
    cases p with
    | here => exact (sound.holds .here).grown later
    | there => exact holds
  · intro p dial begun
    cases p with
    | here => exact (sound.dials .here dial begun).extends later
    | there => exact dials dial begun
  · intro p
    cases p with
    | here => exact sound.received .here
    | there => exact received

/-- Other things may be noted. -/
theorem Sound.noted (sound : Sound x) (news : List Happening)
    (accepted : acceptedBy .here news = []) (handed : ∀ run, handedBy .there run news = []) :
    Sound (x.note news) := by
  have later : x.account.Extends (x.note news).account :=
    x.account.extends_note _ news (Nat.le_refl _) (by simp [accepted])
  have same (run : Incarnation) :
      handedBy .there run (x.log ++ news) = handedBy .there run x.log := by
    rw [handedBy_append, handed, List.append_nil]
  obtain ⟨honest, gapless⟩ := sound.written_extends later
  refine ⟨sound.sends.note news accepted, honest, gapless, sound.marked, ?_, ?_, ?_,
    sound.received, sound.unused, sound.untouched⟩
  · exact sound.receives.extends later same rfl sound.receives.seen
  · intro p
    exact (sound.holds p).grown later
  · intro p dial begun
    exact (sound.dials p dial begun).extends later

/-- To note nothing changes nothing. -/
theorem note_nil (x : Correspondence) : x.note [] = x := by
  unfold note
  rw [List.append_nil]

/-- The session here may change while the account stays. -/
theorem Sound.replaceHere (sound : Sound x) (t : Session) (sends : Sends x.account t.ledger)
    (marked : ∀ link, t.link = some link →
      Marked t.ledger.outbox ((x.passage link.endpoint.connection).written .here))
    (holds : Holds x.account .here t x.passage)
    (dials : ∀ dial, t.dial = some dial → x.account.Greets .here dial.hello)
    (received : t.ledger.window.received ≤ maxWord) : Sound (x.amend .here t) := by
  have account : ((x.amend .here t).note []).account = x.account := by
    rw [account_here, List.append_nil, sends.sent]
    rfl
  have amended := sound.amendHere t [] (account ▸ .refl _) (fun _ => rfl) (account ▸ sends)
    marked holds dials received
  rwa [note_nil] at amended

/-- The session there may change while the account stays. -/
theorem Sound.replaceThere (sound : Sound x) (t : Session)
    (receives : Receives x.account (x.host .there).incarnation (x.former .there) t.ledger)
    (holds : Holds x.account .there t x.passage)
    (dials : ∀ dial, t.dial = some dial → x.account.Greets .there dial.hello)
    (received : t.ledger.window.received ≤ maxWord) : Sound (x.amend .there t) := by
  have account : ((x.amend .there t).note []).account = x.account := by
    rw [account_there, List.append_nil]
    rfl
  have amended := sound.amendThere t [] rfl (account ▸ receives) (account ▸ holds)
    (account ▸ dials) received
  rwa [note_nil] at amended

/-- The greeting of a party says what it may. -/
theorem Sound.greets (sound : Sound x) (p : Party) :
    x.account.Greets p ((x.host p).hello (x.session p).ledger) := by
  refine ⟨sound.received p, ?_⟩
  cases p with
  | here => rfl
  | there => exact sound.receives.covered

/-- The session here may let go of connections, and change what it has queued along with
the account. -/
theorem Sound.calmHere (sound : Sound x) (t : Session) (news : List Happening)
    (calm : (x.session .here).Calm (x.host .here) t)
    (later : x.account.Extends ((x.amend .here t).note news).account)
    (handed : ∀ run, handedBy .there run news = [])
    (sends : Sends ((x.amend .here t).note news).account t.ledger)
    (written : ∀ e ∈ t.ledger.outbox.written, e ∈ (x.session .here).ledger.outbox.written) :
    Sound ((x.amend .here t).note news) := by
  refine sound.amendHere t news later handed sends ?_ ?_ ?_ ?_
  · intro link held
    rcases calm.link with gone | same
    · rw [gone] at held
      cases held
    · exact (sound.marked link (same ▸ held)).fewer written
  · exact (sound.holds .here).fewer calm.link calm.commands nofun
  · intro dial begun
    rcases calm.dial dial begun with before | now
    · exact sound.dials .here dial before
    · rw [now]
      exact sound.greets .here
  · rw [calm.received]
    exact sound.received .here

/-- What is queued there does not matter. -/
theorem Sound.calmThere (sound : Sound x) (t : Session)
    (calm : (x.session .there).Calm (x.host .there) t) : Sound (x.amend .there t) := by
  refine sound.replaceThere t ?_ ?_ ?_ ?_
  · refine sound.receives.extends (.refl _) (fun _ => rfl) calm.received ?_
    rw [calm.incarnation]
    exact sound.receives.seen
  · exact (sound.holds .there).fewer calm.link calm.commands
      fun _ => Nat.le_of_eq calm.received.symm
  · intro dial begun
    rcases calm.dial dial begun with before | now
    · exact sound.dials .there dial before
    · rw [now]
      exact sound.greets .there
  · rw [calm.received]
    exact sound.received .there

/-- A quiet turn changes nothing that matters. -/
theorem Sound.quiet (sound : Sound x) (p : Party) (t : Session)
    (quiet : (x.session p).Quiet (x.host p) t) : Sound (x.amend p t) := by
  cases p with
  | here =>
    have account : ((x.amend .here t).note []).account = x.account := by
      rw [account_here, List.append_nil, quiet.sent]
      rfl
    have sends := sound.sends.same quiet.outbox quiet.sent quiet.acked quiet.nextBinding
    have calmed := sound.calmHere t [] quiet.calm (account ▸ .refl _) (fun _ => rfl)
      (account ▸ sends) (quiet.outbox ▸ fun _ listed => listed)
    rwa [note_nil] at calmed
  | there => exact sound.calmThere t quiet.calm

/-- A connection becomes the live one. Here the mark goes back to the front, so that nothing counts
as written to it; there the peer is still the same run, so that what was received stays. -/
theorem Sound.joined (sound : Sound x) (p : Party) (now : Nat) (greeted : Greeted) (t : Session)
    (quiet : (x.session p).Quiet (x.host p) t) (s : Session)
    (holds : Holds x.account p s x.passage) (first : s.commands = .attach greeted :: t.commands)
    (same : s.ledger.window.received = (x.session p).ledger.window.received) :
    Sound (x.amend p (t.joined (x.host p) now greeted)) := by
  have waits : Command.attach greeted ∈ s.commands := first ▸ List.mem_cons_self
  have greets := (holds.waiting greeted waits).2
  obtain ⟨seen, received⟩ := t.joined_seen (x.host p) now greeted
  have bounded : (t.joined (x.host p) now greeted).ledger.window.received ≤ maxWord := by
    rw [received]
    split
    · exact Nat.zero_le _
    · exact quiet.received ▸ sound.received p
  cases p with
  | here =>
    obtain ⟨sends, unwritten⟩ := Sends.connected
      (l := { t.ledger with phase := .connected }.count
        (if t.link.isSome then Tally.duplicate else id))
      (sound.sends.same quiet.outbox quiet.sent quiet.acked quiet.nextBinding)
      (x.host .here).incarnation greeted.hello (.ofMillis now) fun _ => greets.2
    have joins : Holds x.account .here (t.joined (x.host .here) now greeted) x.passage :=
      holds.joins greeted _ first rfl rfl rfl nofun
    refine sound.replaceHere _ sends ?_ joins nofun bounded
    intro link _ e listed
    have none : (t.joined (x.host .here) now greeted).ledger.outbox.written = [] := unwritten
    rw [none] at listed
    cases listed
  | there =>
    have lasting :
        Incarnation.restarted t.ledger.incarnation greeted.hello.incarnation = false := by
      unfold Incarnation.restarted
      split
      · rfl
      · next previous known =>
        have own := sound.receives.seen previous (quiet.incarnation ▸ known)
        have theirs : greeted.hello.incarnation = x.account.own := greets.2
        simp [own, theirs]
    have kept : (t.joined (x.host .there) now greeted).ledger.window.received =
        (x.session .there).ledger.window.received := by
      refine received.trans ?_
      rw [lasting]
      exact quiet.received
    have grown : s.ledger.window.received ≤
        (t.joined (x.host .there) now greeted).ledger.window.received :=
      Nat.le_of_eq (same.trans kept.symm)
    refine sound.replaceThere _ ?_ (holds.joins greeted _ first rfl rfl rfl fun _ => grown) nofun
      bounded
    refine sound.receives.extends (.refl _) (fun _ => rfl) kept ?_
    intro incarnation held
    have same : some greeted.hello.incarnation = some incarnation := seen.symm.trans held
    cases same
    exact greets.2

/-- Carrying out what a turn writes does not get in the way of its session. -/
theorem carry_amend (p q : Party) (x : Correspondence) (t : Session) (effects : List Effect) :
    effects.foldl (carry p) (x.amend q t) = (effects.foldl (carry p) x).amend q t := by
  induction effects generalizing x with
  | nil => rfl
  | cons effect rest inductionHypothesis =>
    rw [List.foldl_cons, List.foldl_cons, ← inductionHypothesis]
    cases effect <;> rfl

/-- Carrying out what is silent changes nothing. -/
theorem carry_silent (p : Party) (x : Correspondence) (effects : List Effect)
    (silent : ∀ effect ∈ effects, effect.isSilent = true) : effects.foldl (carry p) x = x := by
  induction effects with
  | nil => rfl
  | cons effect rest inductionHypothesis =>
    obtain ⟨first, others⟩ := List.forall_mem_cons.mp silent
    rw [List.foldl_cons]
    cases effect with
    | write => cases first
    | _ => exact inductionHypothesis others

/-- What a turn writes goes behind what was written before, and nothing else changes. -/
theorem Sound.carried (sound : Sound x) (p : Party) (endpoint : Endpoint)
    (dispatches : List Dispatch) (honest : ∀ d ∈ dispatches, x.account.Honest p d)
    (gapless : p = .here →
      x.account.Gapless ((x.passage endpoint.connection).written .here ++ dispatches)) :
    ∃ y, (Session.writings endpoint dispatches).foldl (carry p) x = y ∧ Sound y ∧
      y.host = x.host ∧ y.session = x.session ∧ y.account = x.account ∧
      (y.passage endpoint.connection).written p =
        (x.passage endpoint.connection).written p ++ dispatches := by
  unfold Session.writings
  cases dispatches with
  | nil =>
    refine ⟨x, rfl, sound, rfl, rfl, rfl, ?_⟩
    rw [List.append_nil]
  | cons d rest =>
    have written := sound.wrote p endpoint.connection (fun w => w.append p (d :: rest)) (d :: rest)
      rfl rfl rfl rfl honest gapless
    refine ⟨x.change endpoint.connection fun w => w.append p (d :: rest), rfl, written, rfl, rfl,
      rfl, ?_⟩
    rw [change_passage, if_pos rfl]
    exact Function.update_self _ _ _

/-- An outbox may be drained to the live connection. The messages are written one after another;
each of them comes behind all that it should come behind, which was settled or is on the same
stream. -/
theorem Sound.flushed (sound : Sound x) (p : Party) (after : Session) (effects : List Effect)
    (flushed : Flushed (x.session p) after effects) :
    Sound (effects.foldl (carry p) (x.amend p after)) := by
  cases flushed with
  | nothing => exact sound.quiet p _ (.refl _ _)
  | written link writes =>
    obtain ⟨held, _, _⟩ := writes
    rw [carry_amend]
    cases p with
    | here =>
      obtain ⟨gapless, marked⟩ := sound.sends.flushes (sound.gapless link.endpoint.connection)
        (sound.marked link held) (sound.received .here)
      have honest (d : Dispatch) (listed : d ∈ (x.session .here).dispatches) :
          x.account.Honest .here d := by
        obtain ⟨e, queued, encoded⟩ := List.mem_filterMap.mp listed
        obtain ⟨body, seq, _, _⟩ := Dispatch.of?_eq _ _ _ d encoded
        have stored : e ∈ (x.session .here).ledger.outbox.entries := by
          rw [← Outbox.written_append_unwritten]
          exact List.mem_append_right _ queued
        refine ⟨Dispatch.of?_formed _ _ _ d encoded, ?_, ?_, nofun⟩
        · intro hello greeting
          rw [body] at greeting
          cases greeting
        · intro _ parcel same
          rw [body] at same
          cases same
          rw [seq]
          exact ⟨sound.sends.below e stored, sound.sends.genuine e stored⟩
      obtain ⟨y, carried, still, host, session, account, written⟩ :=
        sound.carried .here link.endpoint _ honest fun _ => gapless
      rw [carried]
      have bounded : (y.session .here).ledger.window.received ≤ maxWord := still.received .here
      rw [session] at bounded
      refine still.replaceHere _ (account ▸ sound.sends.drained) ?_ ?_ ?_ bounded
      · intro other live
        have same : some link = some other := held.symm.trans live
        cases same
        rw [written]
        exact marked
      · have holds := still.holds .here
        rw [session] at holds
        exact holds.fewer (.inr rfl) (List.suffix_refl _) nofun
      · have dials := still.dials .here
        rw [session] at dials
        exact dials
    | there =>
      have honest (d : Dispatch) (listed : d ∈ (x.session .there).dispatches) :
          x.account.Honest .there d := by
        obtain ⟨e, queued, encoded⟩ := List.mem_filterMap.mp listed
        obtain ⟨body, _, ack, _⟩ := Dispatch.of?_eq _ _ _ d encoded
        refine ⟨Dispatch.of?_formed _ _ _ d encoded, ?_, nofun, ?_⟩
        · intro hello greeting
          rw [body] at greeting
          cases greeting
        · intro _
          rw [ack]
          exact sound.receives.covered
      obtain ⟨y, carried, still, host, session, account, written⟩ :=
        sound.carried .there link.endpoint _ honest nofun
      have receives := still.receives
      have holds := still.holds .there
      have dials := still.dials .there
      have bounded := still.received .there
      rw [session] at receives holds dials bounded
      rw [carried]
      refine still.replaceThere _ ?_ ?_ dials bounded
      · exact receives.extends (.refl _) (fun _ => rfl) rfl receives.seen
      · exact holds.fewer (.inr rfl) (List.suffix_refl _) fun _ => Nat.le_refl _

/-- What was received may be acknowledged on the live connection. -/
theorem Sound.acknowledged (sound : Sound x) (p : Party) (endpoint : Endpoint) (after : Session)
    (quiet : (x.session p).Quiet (x.host p) after) :
    Sound ((Session.writings endpoint
      (Dispatch.of? .ack 0 (x.session p).ledger.window.received).toList).foldl (carry p)
        (x.amend p after)) := by
  have honest (d : Dispatch)
      (listed : d ∈ (Dispatch.of? .ack 0 (x.session p).ledger.window.received).toList) :
      x.account.Honest p d ∧ d.body = .ack := by
    have encoded := Option.mem_toList.mp listed
    obtain ⟨body, _, ack, _⟩ := Dispatch.of?_eq _ _ _ d encoded
    refine ⟨⟨Dispatch.of?_formed _ _ _ d encoded, ?_, ?_, ?_⟩, body⟩
    · intro hello greeting
      rw [body] at greeting
      cases greeting
    · intro _ parcel same
      rw [body] at same
      cases same
    · rintro rfl
      rw [ack]
      exact sound.receives.covered
  have gapless : p = .here → x.account.Gapless ((x.passage endpoint.connection).written .here ++
      (Dispatch.of? .ack 0 (x.session p).ledger.window.received).toList) := by
    intro _
    cases written : Dispatch.of? .ack 0 (x.session p).ledger.window.received with
    | none =>
      rw [Option.toList_none, List.append_nil]
      exact sound.gapless _
    | some d =>
      rw [Option.toList_some]
      refine (sound.gapless _).snoc d ?_
      rintro ⟨parcel, same⟩
      rw [written] at honest
      rw [(honest d (List.mem_singleton_self d)).2] at same
      cases same
  obtain ⟨y, carried, still, host, session, _, _⟩ :=
    sound.carried p endpoint _ (fun d listed => (honest d listed).1) gapless
  rw [carry_amend, carried]
  refine still.quiet p after ?_
  rw [session, host]
  exact quiet

/-- What happened may be noted before or after effects are carried out. -/
theorem carry_note (p : Party) (x : Correspondence) (news : List Happening)
    (effects : List Effect) :
    effects.foldl (carry p) (x.note news) = (effects.foldl (carry p) x).note news := by
  induction effects generalizing x with
  | nil => rfl
  | cons effect rest inductionHypothesis =>
    rw [List.foldl_cons, List.foldl_cons, ← inductionHypothesis]
    cases effect <;> rfl

/-- A parcel may be queued here, at the cost of what is evicted for it. -/
theorem Sound.queuedHere (sound : Sound x) (t : Session) (parcel : Parcel) (now : Duration)
    (made : Outbox Parcel) (evicted : Option (Entry Parcel)) (news : List Happening)
    (calm : (x.session .here).Calm (x.host .here) t)
    (room : (x.session .here).ledger.outbox.makeRoom = .ok (made, evicted))
    (outbox : t.ledger.outbox =
      made.enqueue ((x.session .here).ledger.window.sent + 1) parcel now)
    (sent : t.ledger.window.sent = (x.session .here).ledger.window.sent + 1)
    (acked : t.ledger.window.acked = (x.session .here).ledger.window.acked)
    (binding : t.ledger.nextBinding ≤ (x.session .here).ledger.nextBinding + 1)
    (fresh : ∀ m ∈ acceptedBy .here news, m.1 = (x.session .here).ledger.window.sent + 1)
    (alone : (acceptedBy .here news).length ≤ 1) (handed : ∀ run, handedBy .there run news = [])
    (genuine : ((x.amend .here t).note ((x.session .here).ledger.outbox.evicted.map
      (.discarded .here (x.host .here).incarnation) ++ news)).account.Genuine
        ((x.session .here).ledger.window.sent + 1) parcel) :
    Sound ((x.amend .here t).note ((x.session .here).ledger.outbox.evicted.map
      (.discarded .here (x.host .here).incarnation) ++ news)) := by
  generalize origin : (x.session .here).ledger.outbox.evicted.map
    (Happening.discarded .here (x.host .here).incarnation) = costs at *
  have silent (any : Incarnation) :
      acceptedBy .here costs = [] ∧ handedBy .there any costs = [] := by
    rw [← origin]
    exact ⟨(discards_silent .here .here _ any _).1, (discards_silent .here .there _ any _).2⟩
  have free : acceptedBy .here costs = [] := (silent default).1
  have account : ((x.amend .here t).note (costs ++ news)).account =
      ⟨x.account.own, x.account.sent + 1, (x.log ++ costs) ++ news⟩ := by
    rw [account_here, sent, List.append_assoc]
    rfl
  have within := (x.session .here).ledger.outbox.makeRoom_sound made sound.sends.sound evicted room
  have roomed : Sends ⟨x.account.own, x.account.sent, x.log ++ costs⟩
      { (x.session .here).ledger with outbox := made } := by
    refine (sound.sends.note costs free).roomed made evicted room ?_ rfl rfl rfl rfl
    intro seq listed
    change seq ∈ discardedBy .here (x.log ++ costs)
    rw [discardedBy_append, ← origin, discarded_here]
    exact List.mem_append_right _ listed
  have sends : Sends _ t.ledger := roomed.pushed parcel now news outbox sent acked binding account
    fresh alone genuine
  refine sound.calmHere t (costs ++ news) calm ?_ ?_ sends ?_
  · rw [account, List.append_assoc]
    refine x.account.extends_note _ (costs ++ news) (Nat.le_succ _) ?_
    intro m listed
    rw [acceptedBy_append, free, List.nil_append] at listed
    rw [fresh m listed]
    exact Nat.lt_succ_self _
  · intro run
    rw [handedBy_append, (silent run).2, handed]
    rfl
  · intro e listed
    rw [outbox, Outbox.enqueue_written _ within] at listed
    exact ((x.session .here).ledger.outbox.makeRoom_fewer made evicted room).2 e listed

end Correspondence

end Courier
