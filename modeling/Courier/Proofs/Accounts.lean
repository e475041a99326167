import Courier.Proofs.Correspondence
import Courier.Outbox.Lemmas

/-!
# Keeping account of messages

Of the messages that one kernel accepted for the other, the first in each account below,
each is still in the outbox of the kernel, was discarded by it, or was handed out by some
run of the other. A number is covered when every message up to it was discarded or handed
out; only covered numbers may ever be acknowledged. Accounts only grow, and what is covered
stays covered, because later messages have higher numbers.
-/

namespace Courier

namespace Happening

/-- The messages that a party accepted, in order. -/
def acceptedBy (p : Party) (log : List Happening) : List (Nat × List UInt8) :=
  log.filterMap fun happening =>
    match happening with
    | .accepted party _ seq payload => if party = p then some (seq, payload) else none
    | _ => none

/-- The numbers of the messages that a party discarded. -/
def discardedBy (p : Party) (log : List Happening) : List Nat :=
  log.filterMap fun happening =>
    match happening with
    | .discarded party _ seq => if party = p then some seq else none
    | _ => none

/-- The messages that one run of a party handed to its application, in order. -/
def handedBy (p : Party) (run : Incarnation) (log : List Happening) :
    List (Nat × List UInt8) :=
  log.filterMap fun happening =>
    match happening with
    | .handed party at' seq payload =>
      if party = p ∧ at' = run then some (seq, payload) else none
    | _ => none

/-- Whether a message was discarded here, or handed out there in some run. -/
def Settled (log : List Happening) (m : Nat × List UInt8) : Prop :=
  m.1 ∈ discardedBy .here log ∨ ∃ run, m ∈ handedBy .there run log

/-- The messages accepted in two logs are those accepted in either. -/
theorem acceptedBy_append (p : Party) (log news : List Happening) :
    acceptedBy p (log ++ news) = acceptedBy p log ++ acceptedBy p news := List.filterMap_append

/-- The messages discarded in two logs are those discarded in either. -/
theorem discardedBy_append (p : Party) (log news : List Happening) :
    discardedBy p (log ++ news) = discardedBy p log ++ discardedBy p news := List.filterMap_append

/-- The messages handed out in two logs are those handed out in either. -/
theorem handedBy_append (p : Party) (run : Incarnation) (log news : List Happening) :
    handedBy p run (log ++ news) = handedBy p run log ++ handedBy p run news :=
  List.filterMap_append

/-- What is settled stays settled. -/
theorem Settled.append {log : List Happening} {m : Nat × List UInt8} (settled : Settled log m)
    (news : List Happening) : Settled (log ++ news) m := by
  rcases settled with discarded | ⟨run, handed⟩
  · left
    rw [discardedBy_append]
    exact List.mem_append_left _ discarded
  · right
    refine ⟨run, ?_⟩
    rw [handedBy_append]
    exact List.mem_append_left _ handed

/-- Discards are neither accepted nor handed out. -/
theorem discards_silent (p q : Party) (run any : Incarnation) (seqs : List Nat) :
    acceptedBy q (seqs.map (.discarded p run)) = [] ∧
      handedBy q any (seqs.map (.discarded p run)) = [] := by
  induction seqs with
  | nil => exact ⟨rfl, rfl⟩
  | cons seq rest inductionHypothesis => exact inductionHypothesis

/-- The numbers noted as discarded are the ones that were discarded. -/
theorem discarded_here (run : Incarnation) (seqs : List Nat) :
    discardedBy .here (seqs.map (.discarded .here run)) = seqs := by
  induction seqs with
  | nil => rfl
  | cons seq rest inductionHypothesis => exact congrArg (seq :: ·) inductionHypothesis

end Happening

open Happening

/-- What the messages of one kernel are judged by: its incarnation, the last number it gave
out, and what happened. -/
structure Account where
  own : Incarnation
  sent : Nat
  log : List Happening

namespace Account

/-- The messages accepted. -/
def accepted (a : Account) : List (Nat × List UInt8) := acceptedBy .here a.log

/-- A number up to which every message is settled. -/
def Covered (a : Account) (n : Nat) : Prop :=
  n ≤ a.sent ∧ ∀ m ∈ a.accepted, m.1 ≤ n → Settled a.log m

/-- A later account. -/
structure Extends (a b : Account) : Prop where
  own : b.own = a.own
  sent : a.sent ≤ b.sent
  settled : ∀ m, Settled a.log m → Settled b.log m
  accepted : ∀ m ∈ a.accepted, m ∈ b.accepted
  later : ∀ m ∈ b.accepted, m ∈ a.accepted ∨ a.sent < m.1

/-- An account extends itself. -/
theorem Extends.refl (a : Account) : a.Extends a :=
  ⟨rfl, Nat.le_refl _, fun _ settled => settled, fun _ listed => listed,
    fun _ listed => .inl listed⟩

/-- An account is extended by what happens later. -/
theorem extends_note (a : Account) (sent : Nat) (news : List Happening) (more : a.sent ≤ sent)
    (later : ∀ m ∈ acceptedBy .here news, a.sent < m.1) :
    a.Extends ⟨a.own, sent, a.log ++ news⟩ := by
  have split : (⟨a.own, sent, a.log ++ news⟩ : Account).accepted =
      a.accepted ++ acceptedBy .here news := acceptedBy_append .here a.log news
  refine ⟨rfl, more, fun m settled => settled.append news, ?_, ?_⟩
  · intro m listed
    rw [split]
    exact List.mem_append_left _ listed
  · intro m listed
    rw [split] at listed
    exact (List.mem_append.mp listed).imp id (later m)

/-- What is covered stays covered. -/
theorem Covered.extends {a b : Account} {n : Nat} (covered : a.Covered n) (extends' : a.Extends b) :
    b.Covered n := by
  refine ⟨Nat.le_trans covered.1 extends'.sent, fun m listed small => ?_⟩
  rcases extends'.later m listed with before | later
  · exact extends'.settled m (covered.2 m before small)
  · have := covered.1
    omega

/-- With a number every lower one is covered. -/
theorem Covered.mono {a : Account} {n k : Nat} (covered : a.Covered n) (small : k ≤ n) :
    a.Covered k :=
  ⟨Nat.le_trans small covered.1, fun m listed below =>
    covered.2 m listed (Nat.le_trans below small)⟩

/-- Whether a parcel under a number is what the number was given out for: a message that was
accepted under it, with a binding no higher than the number, or a reply. -/
def Genuine (a : Account) (seq : Nat) : Parcel → Prop
  | .message payload replyTo => (seq, payload) ∈ a.accepted ∧
      payload.length ≤ Frame.maxPayload ∧ ∀ n ∈ replyTo, n ≤ seq
  | .reply _ _ => ∀ m ∈ a.accepted, m.1 ≠ seq

/-- What is genuine stays so in a later account, as its number was given out before. -/
theorem Genuine.extends {a b : Account} {seq : Nat} {parcel : Parcel}
    (genuine : a.Genuine seq parcel) (given : seq ≤ a.sent) (extends' : a.Extends b) :
    b.Genuine seq parcel := by
  cases parcel with
  | message payload replyTo => exact ⟨extends'.accepted _ genuine.1, genuine.2⟩
  | reply replyTo payload =>
    intro m listed
    rcases extends'.later m listed with before | later
    · exact genuine m before
    · omega

/-- What goes under the number of an accepted message is no reply. -/
theorem Genuine.message {a : Account} {m : Nat × List UInt8} {parcel : Parcel}
    (genuine : a.Genuine m.1 parcel) (accepted : m ∈ a.accepted) : parcel.isReply = false := by
  cases parcel with
  | message => rfl
  | reply => exact absurd rfl (genuine m accepted)

/-- Whether a greeting of a party says what it may: its incarnation here, and a covered
acknowledgement there. -/
def Greets (a : Account) (p : Party) (hello : Hello) : Prop :=
  hello.ack ≤ Json.maxWord ∧
    match p with
    | .here => hello.incarnation = a.own
    | .there => a.Covered hello.ack

/-- A greeting that says what it may does so still in a later account. -/
theorem Greets.extends {a b : Account} {p : Party} {hello : Hello} (greets : a.Greets p hello)
    (extends' : a.Extends b) : b.Greets p hello := by
  refine ⟨greets.1, ?_⟩
  cases p with
  | here => exact greets.2.trans extends'.own.symm
  | there => exact Covered.extends greets.2 extends'

/-- Whether a message that a party wrote says what it may. -/
structure Honest (a : Account) (p : Party) (d : Dispatch) : Prop where
  formed : d.Formed
  hello : ∀ hello, d.body = .hello hello → a.Greets p hello
  parcel : p = .here → ∀ parcel, d.body = .parcel parcel →
    d.seq ≤ a.sent ∧ a.Genuine d.seq parcel
  ack : p = .there → a.Covered d.ack

/-- A message that says what it may does so still in a later account. -/
theorem Honest.extends {a b : Account} {p : Party} {d : Dispatch} (honest : a.Honest p d)
    (extends' : a.Extends b) : b.Honest p d := by
  refine ⟨honest.formed, ?_, ?_, ?_⟩
  · intro hello greeting
    exact (honest.hello hello greeting).extends extends'
  · intro at' parcel body
    obtain ⟨given, genuine⟩ := honest.parcel at' parcel body
    exact ⟨Nat.le_trans given extends'.sent, genuine.extends given extends'⟩
  · intro at'
    exact (honest.ack at').extends extends'

end Account

/-- Whether what was written carries a message of the application. -/
def Dispatch.IsMessage (d : Dispatch) : Prop :=
  ∃ payload replyTo, d.body = .parcel (.message payload replyTo)

/-- Whether a message with a number is in a stream. -/
def Dispatch.Among (stream : List Dispatch) (seq : Nat) : Prop :=
  ∃ d ∈ stream, d.seq = seq ∧ d.IsMessage

/-- A message is among the dispatches still when more are written. -/
theorem Dispatch.Among.append {stream : List Dispatch} {seq : Nat}
    (among : Dispatch.Among stream seq) (more : List Dispatch) :
    Dispatch.Among (stream ++ more) seq := by
  obtain ⟨d, listed, carries⟩ := among
  exact ⟨d, List.mem_append_left _ listed, carries⟩

namespace Account

/-- No parcel overtakes a message: wherever a stream carries a parcel whose number is a word,
each message with a lower number is settled or was written before on the same stream. -/
def Gapless (a : Account) (stream : List Dispatch) : Prop :=
  ∀ front d, front ++ [d] <+: stream → (∃ parcel, d.body = .parcel parcel) →
    d.seq ≤ Json.maxWord → ∀ m ∈ a.accepted, m.1 < d.seq →
      Settled a.log m ∨ Dispatch.Among front m.1

/-- A stream without gaps has none in a later account either: messages accepted later have higher
numbers. -/
theorem Gapless.extends {a b : Account} {stream : List Dispatch} (gapless : a.Gapless stream)
    (honest : ∀ d ∈ stream, a.Honest .here d) (extends' : a.Extends b) : b.Gapless stream := by
  intro front d begins carries small m listed below
  rcases extends'.later m listed with before | later
  · exact (gapless front d begins carries small m before below).imp (extends'.settled m) id
  · obtain ⟨parcel, body⟩ := carries
    have held : d ∈ stream := begins.subset (List.mem_append_right _ (List.mem_singleton_self d))
    have given := ((honest d held).parcel rfl parcel body).1
    omega

/-- Nothing has no gaps. -/
theorem gapless_nil (a : Account) : a.Gapless [] := by
  intro front d begins
  have := List.prefix_nil.mp begins
  simp at this

/-- A stream goes on without a gap if what is written next overtakes nothing. -/
theorem Gapless.snoc {a : Account} {stream : List Dispatch} (gapless : a.Gapless stream)
    (d : Dispatch) (next : (∃ parcel, d.body = .parcel parcel) → d.seq ≤ Json.maxWord →
      ∀ m ∈ a.accepted, m.1 < d.seq → Settled a.log m ∨ Dispatch.Among stream m.1) :
    a.Gapless (stream ++ [d]) := by
  intro front e begins
  rcases List.prefix_concat_iff.mp begins with whole | before
  · obtain ⟨rfl, same⟩ := List.append_inj' whole rfl
    cases same
    exact next
  · exact gapless front e before

end Account

/-- The written messages of an outbox are in the stream that they were written to, as far as
their numbers are words. -/
def Marked (o : Outbox Parcel) (stream : List Dispatch) : Prop :=
  ∀ e ∈ o.written, e.body.isReply = false → e.seq ≤ Json.maxWord → Dispatch.Among stream e.seq

/-- What counts as written is in the stream still when more is written. -/
theorem Marked.append {o : Outbox Parcel} {stream : List Dispatch} (marked : Marked o stream)
    (more : List Dispatch) : Marked o (stream ++ more) :=
  fun e listed message small => (marked e listed message small).append more

/-- What counts as written is in the stream still when less of it counts. -/
theorem Marked.fewer {o after : Outbox Parcel} {stream : List Dispatch}
    (marked : Marked o stream) (fewer : ∀ e ∈ after.written, e ∈ o.written) :
    Marked after stream :=
  fun e listed => marked e (fewer e listed)

end Courier
