import Courier.Proofs.Sending
import Courier.Proofs.Traffic

/-!
# What the log vouches for

A run says things of other runs: an acknowledgement is about the messages of one run, and a
reply is meant for the promise of one run, although the numbers alone do not tell which. What
it says is true when the log vouches for it, and the log does so for ever, because it only
grows.

The ledger of a run is trusted when the log vouches for all that it holds. The number
received is one of the incarnation that the ledger names, or nothing was received; and what
the outbox holds is a message with a promise of the run, or the reply to a message of the
incarnation that the ledger names. Every operation on the ledger keeps this.
-/

namespace Courier

open Json

/-- The other party of the other one is the party itself. -/
@[simp]
theorem Party.other_other (p : Party) : p.other.other = p := by
  cases p <;> rfl

/-- Across from a run that is across is a run of the same party. -/
@[simp]
theorem Actor.across_across (a : Actor) (k run : Incarnation) :
    (a.across k).across run = ⟨a.party, run⟩ := by
  unfold Actor.across
  rw [Party.other_other]

/-- The notes of a run are its affairs, each with the run. -/
theorem Actor.mem_notes (a b : Actor) (affair : Affair) (affairs : List Affair) :
    ⟨b, affair⟩ ∈ a.notes affairs ↔ b = a ∧ affair ∈ affairs := by
  unfold Actor.notes
  constructor
  · intro listed
    obtain ⟨_, found, same⟩ := List.mem_map.mp listed
    cases same
    exact ⟨rfl, found⟩
  · rintro ⟨rfl, listed⟩
    exact List.mem_map_of_mem listed

namespace Traffic

/-- Whether a run counted a number as received from a run of the other kernel. Nothing is
counted at the beginning. -/
def Earned (log : List Note) (a : Actor) (k : Incarnation) (n : Nat) : Prop :=
  n = 0 ∨ ⟨a, .counted (some k) n⟩ ∈ log

/-- Whether some run of the other kernel counted a number of a run, or a higher one. -/
def Acknowledged (log : List Note) (a : Actor) (n : Nat) : Prop :=
  n = 0 ∨ ∃ k m, n ≤ m ∧ ⟨a.across k, .counted (some a.run) m⟩ ∈ log

/-- Whether a run replied to the message that a run of the other kernel sent under a
binding. -/
def Answers (log : List Note) (a : Actor) (k : Incarnation) (n : Nat) (reply : List UInt8) :
    Prop :=
  ∃ seq payload promise, ⟨a.across k, .promised seq payload n promise⟩ ∈ log ∧
    ⟨a, .answered ⟨some k, seq, payload⟩ reply⟩ ∈ log

/-- Whether a run may send a parcel to the incarnation that it saw last. -/
def Backed (log : List Note) (a : Actor) (seen : Option Incarnation) (seq : Nat) : Parcel → Prop
  | .message payload replyTo =>
    ∀ n ∈ replyTo, n ≤ seq ∧ ∃ promise, ⟨a, .promised seq payload n promise⟩ ∈ log
  | .reply n reply => n ≤ maxWord ∧ ∃ k, seen = some k ∧ Answers log a k n reply

/-- Whether the greeting of a run is true. -/
structure Vouches (log : List Note) (a : Actor) (hello : Hello) : Prop where
  incarnation : hello.incarnation = a.run
  small : hello.ack ≤ maxWord
  acked : ∀ k, hello.acked = some k → Earned log a k hello.ack

/-- Whether what a run wrote behind its greeting is true, on a connection to a run of the
other kernel. -/
structure Utters (log : List Note) (a : Actor) (k : Incarnation) (d : Dispatch) : Prop where
  formed : d.Formed
  ack : Earned log a k d.ack
  parcel : ∀ parcel, d.body = .parcel parcel → Backed log a (some k) d.seq parcel
  bare : ∀ hello, d.body ≠ .hello hello

/-- What an affair goes back to. A promise is settled with the reply to the message that
brought it, and only numbers that were counted are retired. -/
def Founded (log : List Note) (a : Actor) : Affair → Prop
  | .settled promise reply => ∃ seq payload n k, ⟨a, .promised seq payload n promise⟩ ∈ log ∧
      ⟨a.across k, .answered ⟨some a.run, seq, payload⟩ reply⟩ ∈ log
  | .retired seq => ∃ k n, seq ≤ n ∧ ⟨a.across k, .counted (some a.run) n⟩ ∈ log
  | _ => True

/-- Every affair goes back to what was noted before it. -/
def Justified (log : List Note) : Prop :=
  ∀ before a affair, before ++ [⟨a, affair⟩] <+: log → Founded before a affair

/-- A run gives out a binding once. -/
def Distinct (log : List Note) : Prop :=
  ∀ a n seq payload promise seq' payload' promise',
    ⟨a, .promised seq payload n promise⟩ ∈ log → ⟨a, .promised seq' payload' n promise'⟩ ∈ log →
      seq = seq' ∧ payload = payload' ∧ promise = promise'

section Growing

variable {log later : List Note} {a : Actor} (grown : log ⊆ later)

include grown

/-- What was counted stays so as the log grows. -/
theorem Earned.grow {k : Incarnation} {n : Nat} (earned : Earned log a k n) :
    Earned later a k n := earned.imp_right fun noted => grown noted

/-- What was acknowledged stays so as the log grows. -/
theorem Acknowledged.grow {n : Nat} (acknowledged : Acknowledged log a n) :
    Acknowledged later a n := by
  refine acknowledged.imp_right ?_
  rintro ⟨k, m, most, noted⟩
  exact ⟨k, m, most, grown noted⟩

/-- A reply stays one as the log grows. -/
theorem Answers.grow {k : Incarnation} {n : Nat} {reply : List UInt8}
    (answers : Answers log a k n reply) : Answers later a k n reply := by
  obtain ⟨seq, payload, promise, asked, answered⟩ := answers
  exact ⟨seq, payload, promise, grown asked, grown answered⟩

/-- A parcel that may be sent may still be sent as the log grows. -/
theorem Backed.grow {seen : Option Incarnation} {seq : Nat} {parcel : Parcel}
    (backed : Backed log a seen seq parcel) : Backed later a seen seq parcel := by
  cases parcel with
  | message payload replyTo =>
    intro n named
    obtain ⟨small, promise, noted⟩ := backed n named
    exact ⟨small, promise, grown noted⟩
  | reply n reply =>
    obtain ⟨small, k, known, answers⟩ := backed
    exact ⟨small, k, known, answers.grow grown⟩

/-- A true greeting stays true as the log grows. -/
theorem Vouches.grow {hello : Hello} (vouches : Vouches log a hello) : Vouches later a hello :=
  ⟨vouches.incarnation, vouches.small, fun k named => (vouches.acked k named).grow grown⟩

/-- What was true when it was written stays true as the log grows. -/
theorem Utters.grow {k : Incarnation} {d : Dispatch} (utters : Utters log a k d) :
    Utters later a k d :=
  ⟨utters.formed, utters.ack.grow grown, fun parcel body => (utters.parcel parcel body).grow grown,
    utters.bare⟩

/-- An affair goes back to the same notes as the log grows. -/
theorem Founded.grow {affair : Affair} (founded : Founded log a affair) :
    Founded later a affair := by
  cases affair with
  | settled promise reply =>
    obtain ⟨seq, payload, n, k, asked, answered⟩ := founded
    exact ⟨seq, payload, n, k, grown asked, grown answered⟩
  | retired seq =>
    obtain ⟨k, n, most, noted⟩ := founded
    exact ⟨k, n, most, grown noted⟩
  | promised | answered | counted => trivial

end Growing

variable {log later : List Note} {a : Actor}

/-- With a number every lower one is acknowledged. -/
theorem Acknowledged.mono {m n : Nat} (acknowledged : Acknowledged log a n) (less : m ≤ n) :
    Acknowledged log a m := by
  rcases acknowledged with rfl | ⟨k, most, high, noted⟩
  · exact .inl (Nat.le_zero.mp less)
  · exact .inr ⟨k, most, less.trans high, noted⟩

/-- A number that is acknowledged may be retired. -/
theorem Acknowledged.retires {n seq : Nat} (acknowledged : Acknowledged log a n)
    (positive : 0 < seq) (covered : seq ≤ n) : Founded log a (.retired seq) := by
  rcases acknowledged with rfl | ⟨k, m, most, noted⟩
  · exact absurd covered (Nat.not_le_of_lt positive)
  · exact ⟨k, m, covered.trans most, noted⟩

/-- A message is for whoever comes next. -/
theorem Backed.message {seen any : Option Incarnation} {seq : Nat} {parcel : Parcel}
    (backed : Backed log a seen seq parcel) (message : parcel.isReply = false) :
    Backed log a any seq parcel := by
  cases parcel with
  | message => exact backed
  | reply => cases message

/-- What a run says is read as it was written. -/
theorem Utters.reads {k : Incarnation} {d : Dispatch} {e : Envelope} (utters : Utters log a k d)
    (reads : d.Reads e) : e.body = .ok (some d.body) := by
  refine reads.body ?_
  cases body : d.body with
  | hello hello => exact absurd body (utters.bare hello)
  | ack => trivial
  | parcel parcel =>
    have backed := utters.parcel parcel body
    cases parcel with
    | message payload replyTo =>
      intro n named
      exact (backed n named).1.trans (reads.seq ▸ reads.bounded.1)
    | reply n reply => exact backed.1

/-- Affairs may be noted that go back to what was noted before all of them. -/
theorem Justified.append (justified : Justified log) (news : List Affair)
    (founded : ∀ affair ∈ news, Founded log a affair) : Justified (log ++ a.notes news) := by
  -- One affair is noted after the other, and every log on the way vouches for the next.
  induction news generalizing log with
  | nil => rwa [Actor.notes, List.map_nil, List.append_nil]
  | cons next rest inductionHypothesis =>
    have snoc : Justified (log ++ [⟨a, next⟩]) := by
      intro before b affair begins
      rcases List.prefix_concat_iff.mp begins with whole | earlier
      · obtain ⟨rfl, same⟩ := List.append_inj' whole rfl
        cases same
        exact founded _ List.mem_cons_self
      · exact justified before b affair earlier
    have regroup : log ++ a.notes (next :: rest) = (log ++ [⟨a, next⟩]) ++ a.notes rest := by
      simp [Actor.notes]
    rw [regroup]
    refine inductionHypothesis snoc fun affair listed => ?_
    exact (founded affair (List.mem_cons_of_mem _ listed)).grow (List.subset_append_left _ _)

/-- Bindings stay distinct when what is noted makes no promise. -/
theorem Distinct.append (distinct : Distinct log) (news : List Affair)
    (silent : ∀ seq payload n promise, .promised seq payload n promise ∉ news) :
    Distinct (log ++ a.notes news) := by
  have old (b : Actor) (seq : Nat) (payload : List UInt8) (n : Nat) (promise : PromiseId)
      (noted : ⟨b, .promised seq payload n promise⟩ ∈ log ++ a.notes news) :
      ⟨b, .promised seq payload n promise⟩ ∈ log := by
    refine (List.mem_append.mp noted).resolve_right fun new => ?_
    exact silent _ _ _ _ ((a.mem_notes b _ news).mp new).2
  intro b n seq payload promise seq' payload' promise' first second
  exact distinct b n _ _ _ _ _ _ (old _ _ _ _ _ first) (old _ _ _ _ _ second)

end Traffic

/-- A connection as a party speaks on it: nothing, or a true greeting of the run that
greeted, and behind it only what is true for the run at the other end. -/
structure Passage.Spoken (log : List Note) (w : Passage) (p : Party) : Prop where
  mute : w.run p = none → w.written p = []
  begun : ∀ run, w.run p = some run → ∃ first rest hello, w.written p = first :: rest ∧
    first.Formed ∧ first.body = .hello hello ∧ Traffic.Vouches log ⟨p, run⟩ hello ∧
    ∀ d ∈ rest, ∃ k, w.run p.other = some k ∧ Traffic.Utters log ⟨p, run⟩ k d

/-- A connection stays truly spoken on as the log grows. -/
theorem Passage.Spoken.grow {log later : List Note} {w : Passage} {p : Party}
    (spoken : w.Spoken log p) (grown : log ⊆ later) : w.Spoken later p := by
  refine ⟨spoken.mute, fun run greeted => ?_⟩
  obtain ⟨first, rest, hello, written, formed, body, vouches, utters⟩ := spoken.begun run greeted
  refine ⟨first, rest, hello, written, formed, body, vouches.grow grown, fun d listed => ?_⟩
  obtain ⟨k, heard, truly⟩ := utters d listed
  exact ⟨k, heard, truly.grow grown⟩

/-- All that a party wrote on a connection is well formed. -/
theorem Passage.Spoken.formed {log : List Note} {w : Passage} {p : Party}
    (spoken : w.Spoken log p) : ∀ d ∈ w.written p, d.Formed := by
  intro d listed
  cases greeted : w.run p with
  | none => cases spoken.mute greeted ▸ listed
  | some run =>
    obtain ⟨first, rest, _, written, formed, _, _, utters⟩ := spoken.begun run greeted
    rw [written] at listed
    rcases List.mem_cons.mp listed with rfl | behind
    · exact formed
    · obtain ⟨_, _, truly⟩ := utters d behind
      exact truly.formed

namespace Traffic

/-- A ledger that the log vouches for. -/
structure Trusts (log : List Note) (a : Actor) (l : Ledger) : Prop where
  received : l.window.received = 0 ∨
    ∃ k, l.incarnation = some k ∧ ⟨a, .counted (some k) l.window.received⟩ ∈ log
  small : l.window.received ≤ maxWord
  acked : Acknowledged log a l.window.acked
  queued : ∀ e ∈ l.outbox.entries, 0 < e.seq ∧ Backed log a l.incarnation e.seq e.body
  fresh : ∀ seq payload n promise, ⟨a, .promised seq payload n promise⟩ ∈ log → n < l.nextBinding
  numbered : l.nextBinding ≤ l.window.sent + 1

namespace Trusts

variable {log later : List Note} {a : Actor} {l after : Ledger}

/-- The number received is one of the incarnation that the ledger names. -/
theorem earned (trusts : Trusts log a l) (k : Incarnation) (known : l.incarnation = some k) :
    Earned log a k l.window.received := by
  refine trusts.received.imp_right ?_
  rintro ⟨seen, named, noted⟩
  cases known.symm.trans named
  exact noted

/-- A run greets truly. -/
theorem vouches (trusts : Trusts log a l) (host : Host) (own : host.incarnation = a.run) :
    Vouches log a (host.hello l) := ⟨own, trusts.small, trusts.earned⟩

/-- A trusted ledger stays trusted as the log grows, unless the run makes a promise. -/
theorem grow (trusts : Trusts log a l) (grown : log ⊆ later)
    (old : ∀ seq payload n promise, ⟨a, .promised seq payload n promise⟩ ∈ later →
      ⟨a, .promised seq payload n promise⟩ ∈ log) : Trusts later a l where
  received := by
    refine trusts.received.imp_right ?_
    rintro ⟨k, named, noted⟩
    exact ⟨k, named, grown noted⟩
  small := trusts.small
  acked := trusts.acked.grow grown
  queued := fun e listed => (trusts.queued e listed).imp_right fun backed => backed.grow grown
  fresh := fun _ _ _ _ noted => trusts.fresh _ _ _ _ (old _ _ _ _ noted)
  numbered := trusts.numbered

/-- The ledger may forget messages, and hear more acknowledgements. -/
theorem fewer (trusts : Trusts log a l)
    (part : List.Sublist after.outbox.entries l.outbox.entries)
    (sent : after.window.sent = l.window.sent)
    (received : after.window.received = l.window.received)
    (incarnation : after.incarnation = l.incarnation)
    (binding : after.nextBinding = l.nextBinding) (acked : Acknowledged log a after.window.acked) :
    Trusts log a after where
  received := by
    rw [received, incarnation]
    exact trusts.received
  small := received ▸ trusts.small
  acked
  queued := by
    rw [incarnation]
    exact fun e listed => trusts.queued e (part.subset listed)
  fresh := binding ▸ trusts.fresh
  numbered := by
    rw [binding, sent]
    exact trusts.numbered

/-- A ledger that differs in nothing the log vouches for is trusted as well. -/
theorem same (trusts : Trusts log a l) (outbox : after.outbox = l.outbox := by rfl)
    (sent : after.window.sent = l.window.sent := by rfl)
    (acked : after.window.acked = l.window.acked := by rfl)
    (received : after.window.received = l.window.received := by rfl)
    (incarnation : after.incarnation = l.incarnation := by rfl)
    (binding : after.nextBinding = l.nextBinding := by rfl) : Trusts log a after :=
  trusts.fewer (outbox ▸ .refl _) sent received incarnation binding (acked ▸ trusts.acked)

/-- A higher number is received from the incarnation that the ledger names. -/
theorem raised (trusts : Trusts log a l) (outbox : after.outbox = l.outbox)
    (sent : after.window.sent = l.window.sent) (acked : after.window.acked = l.window.acked)
    (incarnation : after.incarnation = l.incarnation)
    (binding : after.nextBinding = l.nextBinding) (small : after.window.received ≤ maxWord)
    (rises : l.window.received < after.window.received →
      ∃ k, l.incarnation = some k ∧ ⟨a, .counted (some k) after.window.received⟩ ∈ log)
    (grown : l.window.received ≤ after.window.received) : Trusts log a after where
  received := by
    rcases Nat.lt_or_eq_of_le grown with higher | same
    · rw [incarnation]
      exact .inr (rises higher)
    · rw [← same, incarnation]
      exact trusts.received
  small
  acked := acked ▸ trusts.acked
  queued := by
    rw [outbox, incarnation]
    exact trusts.queued
  fresh := binding ▸ trusts.fresh
  numbered := by
    rw [binding, sent]
    exact trusts.numbered

/-- Heeding a true acknowledgement keeps a ledger trusted. -/
theorem heeded (trusts : Trusts log a l) (n : Nat) (acknowledged : Acknowledged log a n) :
    Trusts log a (l.applyAck n) := by
  refine trusts.fewer (l.applyAck_sublist n) rfl rfl rfl rfl ?_
  rcases l.applyAck_acked n with same | less
  · exact same ▸ trusts.acked
  · exact acknowledged.mono less

/-- With a peer that restarted nothing is left of what was received, nor of the replies. -/
theorem observed (trusts : Trusts log a l) (k : Incarnation) : Trusts log a (l.observe k) := by
  unfold Ledger.observe
  by_cases restarted : Incarnation.restarted l.incarnation k
  · rw [if_pos restarted]
    refine ⟨.inl rfl, Nat.zero_le _, trusts.acked, ?_, trusts.fresh, trusts.numbered⟩
    intro e listed
    obtain ⟨held, kept⟩ := List.mem_filter.mp listed
    obtain ⟨positive, backed⟩ := trusts.queued e held
    exact ⟨positive, backed.message (Bool.eq_false_iff.mpr fun reply => by simp [reply] at kept)⟩
  · rw [if_neg restarted]
    cases known : l.incarnation with
    | none =>
      -- Nobody was known, so that nothing was received and no reply can be queued.
      refine ⟨?_, trusts.small, trusts.acked, ?_, trusts.fresh, trusts.numbered⟩
      · refine trusts.received.imp_right ?_
        rintro ⟨other, named, _⟩
        cases known.symm.trans named
      · intro e listed
        obtain ⟨positive, backed⟩ := trusts.queued e listed
        refine ⟨positive, backed.message ?_⟩
        cases body : e.body with
        | message => rfl
        | reply n reply =>
          rw [body, known] at backed
          obtain ⟨_, _, named, _⟩ := backed
          cases named
    | some previous =>
      have same : previous = k := by simpa [Incarnation.restarted, known] using restarted
      subst same
      refine trusts.fewer (.refl _) rfl rfl known.symm rfl trusts.acked

/-- A true greeting is taken in. -/
theorem connected (trusts : Trusts log a l) (hello : Hello) (now : Duration)
    (vouches : Vouches log (a.across hello.incarnation) hello) :
    Trusts log a (l.onConnected a.run hello now) := by
  refine l.onConnected_keeps a.run hello now (trusts.observed hello.incarnation) ?_ ?_
  · intro named m trusts
    refine trusts.heeded hello.ack ((vouches.acked a.run named).imp_right fun noted => ?_)
    exact ⟨hello.incarnation, hello.ack, Nat.le_refl _, noted⟩
  · exact fun m _ trusts => trusts.fewer (.refl _) rfl rfl rfl rfl trusts.acked

/-- A true parcel is queued behind all others. -/
theorem push (trusts : Trusts log a l) (grown : log ⊆ later) (made : Outbox Parcel)
    (evicted : Option (Entry Parcel)) (room : l.outbox.makeRoom = .ok (made, evicted))
    (parcel : Parcel) (now : Duration)
    (outbox : after.outbox = made.enqueue (l.window.sent + 1) parcel now)
    (sent : after.window.sent = l.window.sent + 1) (acked : after.window.acked = l.window.acked)
    (received : after.window.received = l.window.received)
    (incarnation : after.incarnation = l.incarnation)
    (binding : after.nextBinding ≤ l.nextBinding + 1)
    (fresh : ∀ seq payload n promise, ⟨a, .promised seq payload n promise⟩ ∈ later →
      n < after.nextBinding)
    (backed : Backed later a l.incarnation (l.window.sent + 1) parcel) :
    Trusts later a after where
  received := by
    rw [received, incarnation]
    refine trusts.received.imp_right ?_
    rintro ⟨k, named, noted⟩
    exact ⟨k, named, grown noted⟩
  small := received ▸ trusts.small
  acked := acked ▸ trusts.acked.grow grown
  queued := by
    rw [outbox, incarnation]
    intro e listed
    rcases List.mem_append.mp listed with old | last
    · have held := (l.outbox.makeRoom_fewer made evicted room).1.subset old
      exact (trusts.queued e held).imp_right fun backed => backed.grow grown
    · rw [List.mem_singleton.mp last]
      exact ⟨Nat.succ_pos _, backed⟩
  fresh
  numbered := by
    rw [sent]
    exact binding.trans (Nat.succ_le_succ trusts.numbered)

/-- The numbers that leave the outbox for an acknowledgement were counted. -/
theorem retires {s : Session} (trusts : Trusts log a s.ledger) (after : Session)
    (acknowledged : Acknowledged log a after.ledger.window.acked) :
    ∀ seq ∈ s.retires after, Founded log a (.retired seq) := by
  intro seq listed
  obtain ⟨e, covered, rfl⟩ := List.mem_map.mp listed
  obtain ⟨held, low⟩ := List.mem_filter.mp covered
  exact acknowledged.retires (trusts.queued e held).1 (of_decide_eq_true low)

end Trusts

end Traffic

end Courier
