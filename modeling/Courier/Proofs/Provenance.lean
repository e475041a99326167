import Courier.Proofs.Delivery
import Courier.Proofs.Exchange

/-!
# Where outcomes come from

Two kernels are started any number of times, and connections between their runs come and go.
A promise is only ever settled with the reply to the message that brought it, and it was the
run that accepted this message which settles it. An acknowledgement only ever retires what was
counted from this very run. So a reply or an acknowledgement that was meant for an earlier run
has no effect, although later runs use the same bindings and numbers again.
-/

namespace Courier

open Json

/-- Settling a promise does not change what the application is at work on. -/
theorem Run.onward_settled (r : Run) (sender : Option Incarnation) (after : Session)
    (promise : PromiseId) (reply : List UInt8) :
    r.onward sender after [.tell (.settled promise (.ok reply))] = { r with session := after } :=
  rfl

namespace Traffic

variable {x : Traffic} {a : Actor} {r : Run}

/-- Every affair of a reachable state goes back to what was noted before it. -/
theorem Reachable.founded (reachable : Reachable x) (before later : List Note) (affair : Affair)
    (noted : x.log = before ++ ⟨a, affair⟩ :: later) : Founded before a affair := by
  refine reachable.sound.justified before a affair ⟨later, ?_⟩
  rw [noted, List.append_assoc]
  rfl

/-- A run writes only to connections on which it greeted, once another run greeted back. -/
theorem Reachable.writes (reachable : Reachable x) (runs : x.run a = some r) (now : Nat)
    (random : Random.Stream) (event : Event) (own : event.isOwn = true) (c : Nat) (d : Dispatch)
    (written : d ∈ (Turn.handle (x.host a r) now ⟨r.session, random, []⟩ event).effects.flatMap
      (Effect.writes c)) : (x.passage c).run a.party = some a.run ∧
        ∃ k, (x.passage c).run a.party.other = some k := by
  obtain ⟨effects, asked, turned⟩ :=
    Turn.handle_goes (x.host a r) now ⟨r.session, random, []⟩ event
  have asked : (Turn.handle (x.host a r) now ⟨r.session, random, []⟩ event).effects = effects :=
    asked
  rw [asked] at written
  obtain ⟨_, _, writes, _⟩ := reachable.sound.hears runs now event _ effects turned
    (by rintro bytes rfl; cases own) (by rintro greeted rfl; cases own) _ rfl
  obtain ⟨ours, k, theirs, _⟩ := writes c d written
  exact ⟨ours, k, theirs⟩

/-- When a run settles a promise with a reply, the same run had accepted a message with that
promise, and some run of the other kernel had handed exactly this message to its application
and got that reply. -/
theorem settled_answered (reachable : Reachable x) (before later : List Note)
    (promise : PromiseId) (reply : List UInt8)
    (settled : x.log = before ++ ⟨a, .settled promise reply⟩ :: later) :
    ∃ seq payload n k, ⟨a, .promised seq payload n promise⟩ ∈ before ∧
      ⟨a.across k, .answered ⟨some a.run, seq, payload⟩ reply⟩ ∈ before :=
  reachable.founded before later _ settled

/-- When an acknowledgement takes a message from the outbox of a run, some run of the other
kernel had counted the number of the message, or a higher one, as received from this very run.
For the number received is always one that was counted from the incarnation that the ledger
names, and it is zero before any is known. -/
theorem retired_counted (reachable : Reachable x) :
    (∀ before later a seq, x.log = before ++ ⟨a, .retired seq⟩ :: later →
      ∃ k n, seq ≤ n ∧ ⟨a.across k, .counted (some a.run) n⟩ ∈ before) ∧
    ∀ a r, x.run a = some r →
      (r.session.ledger.incarnation = none → r.session.ledger.window.received = 0) ∧
      ∀ k, r.session.ledger.incarnation = some k → r.session.ledger.window.received = 0 ∨
        ⟨a, .counted (some k) r.session.ledger.window.received⟩ ∈ x.log := by
  refine ⟨fun before later a seq retired => reachable.founded before later _ retired, ?_⟩
  intro a r runs
  have trusts := (reachable.sound.runs a r runs).trusts
  refine ⟨fun unknown => ?_, trusts.earned⟩
  refine trusts.received.resolve_right ?_
  rintro ⟨k, known, _⟩
  cases unknown.symm.trans known

section Inquiry

open Correspondence (acquaintances greeting greets greets_framed greets_taken made made_eq
  arriving arriving_bytes empty_of_bytes)

/-- A run that asks something, for runs on fixed inputs. -/
def asker : Actor := ⟨.here, (acquaintances .here).incarnation⟩

/-- The run that answers. -/
def adviser : Actor := ⟨.there, (acquaintances .there).incarnation⟩

/-- A turn leads to where its session and what it asks for do. -/
theorem Reachable.followed (reachable : Reachable x) (runs : x.run a = some r) (now : Nat)
    (random : Random.Stream) (event : Event) (own : event.isOwn = true) (after : Session)
    (effects : List Effect)
    (session : (Turn.handle (x.host a r) now ⟨r.session, random, []⟩ event).session = after)
    (asks : (Turn.handle (x.host a r) now ⟨r.session, random, []⟩ event).effects = effects) :
    Reachable (x.followed a r event after effects) := by
  rw [← session, ← asks]
  exact reachable.tail (.turn a r runs now random event own)

/-- The message with a promise, and the reply to it, which acknowledges the message. -/
def question : Dispatch := made (.parcel (.message [1, 2] (some 1))) 1 0

@[inherit_doc question]
def advice : Dispatch := made (.parcel (.reply 1 [3])) 1 1

/-- The question fits in a frame. -/
theorem question_fits : (Body.parcel (.message [1, 2] (some 1))).Fits := by
  rintro n ⟨⟩
  decide

/-- The reply fits in a frame. -/
theorem advice_fits : (Body.parcel (.reply 1 [3])).Fits := by
  change 1 ≤ maxWord
  decide

/-- The question is the message with its frame. -/
theorem question_framed :
    Dispatch.of? (.parcel (.message [1, 2] (some 1))) 1 0 = some question :=
  made_eq (Dispatch.of?_parcel _ question_fits 1 0 (by decide) (by decide) (by decide))

/-- The reply is the message with its frame. -/
theorem advice_framed : Dispatch.of? (.parcel (.reply 1 [3])) 1 1 = some advice :=
  made_eq (Dispatch.of?_parcel _ advice_fits 1 1 (by decide) (by decide) (by decide))

/-- What is kept of a run that was started. -/
def kept (x : Traffic) (a : Actor) : Run := (x.run a).getD ⟨{}, .fresh bob {}, none⟩

/-- Both kernels are started. -/
def begun : Traffic :=
  (({ peer := fun p => (acquaintances p).id } : Traffic).amend asker
    ⟨(acquaintances .here).options, .fresh bob (acquaintances .here).options, none⟩).amend adviser
      ⟨{}, .fresh (acquaintances .here).id {}, none⟩

/-- A letter with a promise is posted. -/
def posted : Traffic :=
  begun.called asker (begun.kept asker) (.post ⟨[1, 2], some ⟨"advice"⟩⟩ (.ofMillis 0))

/-- An attempt to connect begins. -/
def calling : Traffic := posted.turned asker (posted.kept asker) 0 quiet .wake

/-- Both runs have greeted on a connection. -/
def greeted : Traffic :=
  (calling.change 0 fun _ =>
    ({ dialer := some .here } : Passage).greet .here asker.run (greets .here)).change 0
      fun w => w.greet .there adviser.run (greets .there)

/-- Both kernels start, a letter with a promise is posted, and an attempt begins. -/
theorem calling_reachable : Reachable calling := by
  have started : Reachable begun :=
    ⟨_, .tail (.tail .refl (.start asker _ rfl)) (.start adviser {} rfl)⟩
  have posts : Step begun posted := by
    refine .call asker _ rfl _ ?_
    change [1, 2].length ≤ Frame.maxPayload
    decide
  exact (started.tail posts).tail (.turn asker _ rfl 0 quiet .wake rfl)

/-- The attempt makes a connection, and both kernels greet on it. -/
theorem greeted_reachable : Reachable greeted := by
  have reached := calling_reachable
  have dialed := reached.tail
    (.dial asker _ rfl ⟨[], greeting .here⟩ 0 (greets .here) rfl rfl (greets_framed .here))
  refine dialed.tail (.answer adviser (begun.kept adviser) rfl 0 (arriving (greets .here))
    (greeting .here) .empty (greets .there) rfl rfl ?_ (greets_taken .here) rfl (by decide)
    (greets_framed .there))
  exact Passage.offers_next _ _ [] [] (greets .here) _ rfl rfl (arriving_bytes _)

/-- The connection is with the session that answers. -/
def attached : Traffic :=
  (greeted.change 0 fun w => w.join .there (arriving (greets .here)).size).amend adviser
    { greeted.kept adviser with
      session := (greeted.kept adviser).session.push
        (.attach ⟨⟨0, .acceptor⟩, greeting .here, .empty⟩) }

/-- The run that answers has adopted it. -/
def adopted : Traffic := attached.turned adviser (attached.kept adviser) 0 quiet .command

/-- Both have. -/
def joined : Traffic :=
  (adopted.change 0 fun w => w.join .here (arriving (greets .there)).size).turned asker
    (adopted.kept asker) 0 quiet (.dialed (.ok ⟨⟨0, .dialer⟩, greeting .there, .empty⟩))

/-- The message is written. -/
def asked : Traffic :=
  joined.followed asker (joined.kept asker) .proceed { (joined.kept asker).session with
    ledger := (joined.kept asker).session.ledger.drain.2.2
    ackDue := none
    stage := .reading } [.write ⟨0, .dialer⟩ [question]]

/-- Each kernel adopts the connection. -/
theorem joined_reachable : Reachable joined := by
  have reached := greeted_reachable
  have attaches : Reachable attached := reached.tail
    (.attach adviser (greeted.kept adviser) rfl 0 (arriving (greets .here)) (greeting .here) .empty
      rfl rfl rfl (Passage.offers_next _ _ [] [] (greets .here) _ rfl rfl (arriving_bytes _))
      (greets_taken .here))
  have adopts : Reachable adopted :=
    attaches.tail (.turn adviser _ rfl 0 quiet .command rfl)
  refine adopts.tail (.reach asker (adopted.kept asker) rfl 0 (arriving (greets .there))
    (greeting .there) .empty 0 quiet rfl rfl rfl ?_ (greets_taken .there) rfl rfl rfl)
  exact Passage.offers_next _ _ [] [] (greets .there) _ rfl rfl (arriving_bytes _)

/-- The question is written. -/
theorem asked_reachable : Reachable asked := by
  have reached := joined_reachable
  have dispatches : (joined.kept asker).session.dispatches = [question] := by
    change Entry.dispatches 0 [⟨1, .message [1, 2] (some 1), .ofMillis 0⟩] = [question]
    simp [Entry.dispatches, question_framed]
  have writes := (joined.kept asker).session.handle_greeting
    (joined.host asker (joined.kept asker)) 0 quiet ⟨⟨0, .dialer⟩, adviser.run, .empty⟩ rfl
    ⟨rfl, rfl, by decide⟩
  rw [dispatches] at writes
  exact reached.followed rfl 0 quiet .proceed rfl _ _ (congrArg (·.session) writes)
    (congrArg (·.effects) writes)

/-- The run that answers is ready to read. -/
def ready : Traffic :=
  let greets := asked.turned adviser (asked.kept adviser) 0 quiet .proceed
  greets.turned adviser (greets.kept adviser) 0 quiet .proceed

/-- The message has arrived. -/
def arrived : Traffic :=
  (ready.change 0 fun w => w.take .there (arriving question).size).turned adviser
    (ready.kept adviser) 0 quiet (.received (arriving question))

/-- The message is handed out. -/
def handed : Traffic :=
  { arrived.amend adviser { arrived.kept adviser with
      session := { (arrived.kept adviser).session with
        link := some ⟨⟨0, .acceptor⟩, asker.run, .empty⟩
        ledger := { (arrived.kept adviser).session.ledger with
          window := { received := 1, ackPending := true }
          tally := (arrived.kept adviser).session.ledger.tally.received }
        stage := .handling (some 1) }
      errand := some ⟨some asker.run, 1, [1, 2]⟩ } with
    log := arrived.log ++ adviser.notes [.counted (some asker.run) 1] }

/-- The ledger with the reply. -/
def queued : Ledger := (handed.kept adviser).session.ledger.push (.reply 1 [3]) (.ofMillis 0)

/-- The reply is written. -/
def advised : Traffic :=
  handed.followed adviser (handed.kept adviser) (.replied (some [3]))
    { (handed.kept adviser).session with
      ledger := queued.drain.2.2
      ackDue := none
      stage := .reading } [.write ⟨0, .acceptor⟩ [advice]]

/-- The run that asked is ready to read. -/
def waiting : Traffic := advised.turned asker (advised.kept asker) 0 quiet .proceed

/-- The reply has arrived. -/
def returned : Traffic :=
  (waiting.change 0 fun w => w.take .here (arriving advice).size).turned asker
    (waiting.kept asker) 0 quiet (.received (arriving advice))

/-- The reply settles the promise, and retires the message. -/
def settled : Traffic :=
  { returned.amend asker { returned.kept asker with
      session := { (returned.kept asker).session with
        link := some ⟨⟨0, .dialer⟩, adviser.run, .empty⟩
        ledger := { (returned.kept asker).session.ledger.applyAck 1 with
          window := { sent := 1, acked := 1, received := 1, ackPending := true }
          tally := ((returned.kept asker).session.ledger.applyAck 1).tally.received
          bindings := [] } } } with
    log := returned.log ++ asker.notes
      [.counted (some adviser.run) 1, .settled ⟨"advice"⟩ [3], .retired 1] }

/-- The kernel that is to answer becomes ready to read, and the question arrives. -/
theorem arrived_reachable : Reachable arrived := by
  have reached := asked_reachable
  have reads : Reachable ready :=
    (reached.tail (.turn adviser _ rfl 0 quiet .proceed rfl)).tail
      (.turn adviser _ rfl 0 quiet .proceed rfl)
  refine reads.tail (.receive adviser (ready.kept adviser) rfl ⟨⟨0, .acceptor⟩, asker.run, .empty⟩
    (arriving question) 0 quiet rfl rfl ?_)
  refine Passage.offers_next _ _ [greets .here] [] question _ rfl ?_ (arriving_bytes _)
  change 0 + (arriving (greets .here)).size = _
  simp [Dispatch.bytes, arriving, ByteArray.size]

/-- The question is read and handed out. -/
theorem handed_reachable : Reachable handed := by
  have reached := arrived_reachable
  obtain ⟨body, seq, ack, _⟩ := Dispatch.of?_eq _ _ _ question question_framed
  have formed := Dispatch.of?_formed _ _ _ question question_framed
  have fits := Dispatch.of?_fits _ _ _ question question_framed question_fits (by decide)
    (by decide)
  -- The link gets a name, so that the frame in its buffer is never spelled out.
  generalize link : (⟨⟨0, .acceptor⟩, asker.run, .empty ++ .empty ++ arriving question⟩ : Link) =
    live
  have held : (arrived.kept adviser).session.link = some live := link ▸ rfl
  have front : live.buffer.data.toList = question.frame ++ [] := by
    rw [← link]
    simp [arriving_bytes]
  obtain ⟨rest, empty, session, effects⟩ := (arrived.kept adviser).session.takes_message
    (arrived.host adviser (arrived.kept adviser)) 0 quiet live question [] rfl held formed fits
    front [1, 2] (some 1) body (seq ▸ Nat.one_pos)
  have unheeded : (arrived.kept adviser).session.ledger.heeding question.envelope =
      (arrived.kept adviser).session.ledger := if_neg (Nat.not_lt_of_le (Nat.le_of_eq ack))
  have number := (arrived.kept adviser).session.frontSeq_front live question [] held formed fits
    front
  have turned := reached.followed rfl 0 quiet .proceed rfl _ _ session effects
  rw [followed_unwritten _ _ _ _ _ _ fun _ => rfl, empty_of_bytes empty, unheeded, seq, ← link]
    at turned
  unfold Run.onward Run.hearings at turned
  rw [number, seq] at turned
  exact turned

/-- The application replies, and the reply is written with an acknowledgement of the question. -/
theorem advised_reachable : Reachable advised := by
  have reached := handed_reachable
  have accepted : (handed.kept adviser).session.ledger.enqueueReply 1 [3] (.ofMillis 0) =
      .ok queued := rfl
  have dispatches : ({ (handed.kept adviser).session with
      ledger := queued } : Session).dispatches = [advice] := by
    change Entry.dispatches 1 [⟨1, .reply 1 [3], .ofMillis 0⟩] = [advice]
    simp [Entry.dispatches, advice_framed]
  have writes := (handed.kept adviser).session.handle_replied
    (handed.host adviser (handed.kept adviser)) 0 quiet ⟨⟨0, .acceptor⟩, asker.run, .empty⟩ 1 [3]
    queued rfl accepted ⟨rfl, rfl, by decide⟩
  rw [dispatches] at writes
  exact reached.followed rfl 0 quiet (.replied (some [3])) rfl _ _
    (congrArg (·.session) writes) (congrArg (·.effects) writes)

/-- The kernel that asked becomes ready to read, and the reply arrives. -/
theorem returned_reachable : Reachable returned := by
  have reached := advised_reachable
  have reads : Reachable waiting :=
    reached.tail (.turn asker _ rfl 0 quiet .proceed rfl)
  refine reads.tail (.receive asker (waiting.kept asker) rfl ⟨⟨0, .dialer⟩, adviser.run, .empty⟩
    (arriving advice) 0 quiet rfl rfl ?_)
  refine Passage.offers_next _ _ [greets .there] [] advice _ rfl ?_ (arriving_bytes _)
  change 0 + (arriving (greets .there)).size = _
  simp [Dispatch.bytes, arriving, ByteArray.size]

/-- The reply is read, which settles the promise and retires the question. -/
theorem settled_reachable : Reachable settled := by
  have reached := returned_reachable
  obtain ⟨body, seq, ack, _⟩ := Dispatch.of?_eq _ _ _ advice advice_framed
  have formed := Dispatch.of?_formed _ _ _ advice advice_framed
  have fits := Dispatch.of?_fits _ _ _ advice advice_framed advice_fits (by decide) (by decide)
  generalize link : (⟨⟨0, .dialer⟩, adviser.run, .empty ++ .empty ++ arriving advice⟩ : Link) =
    live
  have held : (returned.kept asker).session.link = some live := link ▸ rfl
  have front : live.buffer.data.toList = advice.frame ++ [] := by
    rw [← link]
    simp [arriving_bytes]
  obtain ⟨rest, empty, session, effects⟩ := (returned.kept asker).session.takes_reply
    (returned.host asker (returned.kept asker)) 0 quiet live advice [] rfl held formed fits front
    [3] 1 body (seq ▸ Nat.one_pos) ⟨"advice"⟩
    { (returned.kept asker).session.ledger with bindings := [] } rfl
  have heeded : (returned.kept asker).session.ledger.heeding advice.envelope =
      (returned.kept asker).session.ledger.applyAck 1 := by
    have counts : advice.envelope.ack = 1 := ack
    rw [Ledger.heeding, counts, if_pos Nat.one_pos]
  have number := (returned.kept asker).session.frontSeq_front live advice [] held formed fits front
  have turned := reached.followed rfl 0 quiet .proceed rfl _ _ session effects
  rw [followed_unwritten _ _ _ _ _ _ fun _ => rfl, empty_of_bytes empty, heeded, seq, ← link,
    Run.onward_settled] at turned
  unfold Run.hearings at turned
  rw [number, seq] at turned
  exact turned

/-- What was noted until then. -/
def asking : List Note :=
  [⟨asker, .promised 1 [1, 2] 1 ⟨"advice"⟩⟩, ⟨adviser, .counted (some asker.run) 1⟩,
    ⟨adviser, .answered ⟨some asker.run, 1, [1, 2]⟩ [3]⟩, ⟨asker, .counted (some adviser.run) 1⟩]

/-- At the end the log tells of the promise that was settled and of the number that was retired. -/
theorem settled_log :
    settled.log = asking ++ [⟨asker, .settled ⟨"advice"⟩ [3]⟩, ⟨asker, .retired 1⟩] := rfl

/-- The promise is settled with what the application of the other kernel answered. -/
theorem advice_settles :
    settled.log = asking ++ ⟨asker, .settled ⟨"advice"⟩ [3]⟩ :: [⟨asker, .retired 1⟩] ∧
    ∃ seq payload n k, ⟨asker, .promised seq payload n ⟨"advice"⟩⟩ ∈ asking ∧
      ⟨asker.across k, .answered ⟨some asker.run, seq, payload⟩ [3]⟩ ∈ asking :=
  ⟨settled_log, settled_answered settled_reachable _ _ _ _ settled_log⟩

/-- The message is retired because it was counted. -/
theorem advice_retires :
    settled.log = (asking ++ [⟨asker, .settled ⟨"advice"⟩ [3]⟩]) ++ ⟨asker, .retired 1⟩ :: [] ∧
    (∃ k n, 1 ≤ n ∧ ⟨asker.across k, .counted (some asker.run) n⟩ ∈
      asking ++ [⟨asker, .settled ⟨"advice"⟩ [3]⟩]) ∧
    (settled.kept asker).session.ledger.incarnation = some adviser.run ∧
    ⟨asker, .counted (some adviser.run) 1⟩ ∈ settled.log := by
  obtain ⟨retired, received⟩ := retired_counted settled_reachable
  refine ⟨settled_log, retired _ _ _ _ settled_log, rfl, ?_⟩
  exact ((received asker _ rfl).2 adviser.run rfl).resolve_left (Nat.succ_ne_zero 0)

end Inquiry

end Traffic

end Courier
