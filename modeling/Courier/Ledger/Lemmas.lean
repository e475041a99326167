import Courier.Ledger
import Courier.Outbox.Lemmas

/-!
# What each operation makes of a ledger

One equation for each operation that is made up of others. What an operation leaves alone is read
off its equation, and whatever its parts keep, it keeps.
-/

namespace Courier.Ledger

/-- Making room changes the outbox, and counts what was evicted. -/
theorem makeRoom_eq (l made : Ledger) (room : l.makeRoom = .ok made) : ∃ outbox evicted tally,
    l.outbox.makeRoom = .ok (outbox, evicted) ∧
      tally = (if evicted.isSome then l.tally.discarded 1 else l.tally) ∧
      made = { l with outbox, tally } := by
  unfold makeRoom at room
  split at room
  · cases room
  · next outbox evicted given =>
    cases room
    exact ⟨outbox, evicted, _, given, rfl, rfl⟩

/-- A promise is bound under the next number. -/
theorem bind_eq (l : Ledger) (promise : Option PromiseId) :
    l.bind promise = (promise.map fun _ => l.nextBinding, { l with
      bindings := l.bindings ++ (promise.map (l.nextBinding, ·)).toList
      nextBinding := l.nextBinding + promise.toList.length }) := by
  cases promise with
  | none => simp [bind]
  | some promise => rfl

/-- A promise is bound under the next number, and at most one number is given out for it. -/
theorem bind_number (l : Ledger) (promise : Option PromiseId) :
    (∀ n ∈ (l.bind promise).1, n = l.nextBinding) ∧
      (l.bind promise).2.nextBinding ≤ l.nextBinding + 1 := by
  cases promise with
  | none => exact ⟨nofun, Nat.le_succ _⟩
  | some promise =>
    refine ⟨?_, Nat.le_refl _⟩
    rintro n ⟨⟩
    rfl

/-- A letter is queued behind all others, under the binding of its promise if it has one. -/
theorem enqueueLetter_eq (l queued : Ledger) (letter : Letter) (now : Duration)
    (accepted : l.enqueueLetter letter now = .ok queued) : ∃ outbox evicted tally,
      l.outbox.makeRoom = .ok (outbox, evicted) ∧
      tally = (if evicted.isSome then l.tally.discarded 1 else l.tally) ∧
      queued = { l with
        window := { l.window with sent := l.window.sent + 1 }
        outbox := outbox.enqueue (l.window.sent + 1)
          (.message letter.payload (l.bind letter.promise).1) now
        bindings := (l.bind letter.promise).2.bindings
        nextBinding := (l.bind letter.promise).2.nextBinding
        tally } := by
  unfold enqueueLetter at accepted
  split at accepted
  · cases accepted
  · next made room =>
    obtain ⟨outbox, evicted, tally, given, counts, rfl⟩ := l.makeRoom_eq made room
    cases accepted
    refine ⟨outbox, evicted, tally, given, counts, ?_⟩
    cases letter.promise <;> rfl

/-- A reply is queued behind all others. -/
theorem enqueueReply_eq (l queued : Ledger) (replyTo : Nat) (payload : List UInt8)
    (now : Duration) (accepted : l.enqueueReply replyTo payload now = .ok queued) :
    ∃ outbox evicted tally,
      l.outbox.makeRoom = .ok (outbox, evicted) ∧
      tally = (if evicted.isSome then l.tally.discarded 1 else l.tally) ∧
      queued = { l with
        window := { l.window with sent := l.window.sent + 1 }
        outbox := outbox.enqueue (l.window.sent + 1) (.reply replyTo payload) now
        tally } := by
  unfold enqueueReply at accepted
  split at accepted
  · cases accepted
  · next made room =>
    obtain ⟨outbox, evicted, tally, given, counts, rfl⟩ := l.makeRoom_eq made room
    cases accepted
    exact ⟨outbox, evicted, tally, given, counts, rfl⟩

/-- An acknowledgement takes from the front whatever is acknowledged by then. -/
theorem applyAck_entries (l : Ledger) (seq : Nat) : (l.applyAck seq).outbox.entries =
    l.outbox.entries.dropWhile (·.seq ≤ (l.applyAck seq).window.acked) := l.outbox.ack_entries _

/-- An acknowledgement leaves a part of the queue, in order. -/
theorem applyAck_sublist (l : Ledger) (seq : Nat) :
    List.Sublist (l.applyAck seq).outbox.entries l.outbox.entries := List.drop_sublist _ _

/-- No message leaves the outbox that is not acknowledged. -/
theorem applyAck_covers (l : Ledger) (seq : Nat) (e : Entry Parcel)
    (listed : e ∈ l.outbox.entries) :
    e ∈ (l.applyAck seq).outbox.entries ∨ e.seq ≤ (l.applyAck seq).window.acked := by
  rw [applyAck_entries]
  rw [← List.takeWhile_append_dropWhile (p := fun e : Entry Parcel =>
    e.seq ≤ (l.applyAck seq).window.acked) (l := l.outbox.entries)] at listed
  rcases List.mem_append.mp listed with front | behind
  · have small := List.all_eq_true.mp List.all_takeWhile e front
    exact .inr (of_decide_eq_true small)
  · exact .inl behind

/-- An acknowledgement makes nothing written. -/
theorem applyAck_written (l : Ledger) (seq : Nat) :
    ∀ e ∈ (l.applyAck seq).outbox.written, e ∈ l.outbox.written := by
  intro e listed
  have dropped : (l.applyAck seq).outbox.written = l.outbox.written.drop _ :=
    l.outbox.ack_written _
  rw [dropped] at listed
  exact List.mem_of_mem_drop listed

/-- What is acknowledged was so before, or the acknowledgement claims it. -/
theorem applyAck_acked (l : Ledger) (seq : Nat) :
    (l.applyAck seq).window.acked = l.window.acked ∨ (l.applyAck seq).window.acked ≤ seq := by
  change max l.window.acked (min seq l.window.sent) = _ ∨ max _ _ ≤ _
  omega

/-- Whoever connects is known from then on. What was received counts only if the peer did not
restart meanwhile. -/
theorem onConnected_eq (l : Ledger) (own : Incarnation) (hello : Hello) (now : Duration) :
    ∃ outbox acked dropped again, l.onConnected own hello now = { l with
      attempt := 0
      incarnation := some hello.incarnation
      window := { (if Incarnation.restarted l.incarnation hello.incarnation then
        l.window.forgetReceived else l.window) with acked }
      outbox
      tally := (l.tally.discarded dropped).connected now again } := by
  unfold onConnected observe
  split
  · split <;> exact ⟨_, _, _, _, rfl⟩
  · split <;> exact ⟨_, _, 0, _, rfl⟩

/-- What holds once the peer is named, and is kept when it restarted, holds once it is observed. -/
theorem observe_keeps {P : Ledger → Prop} (l : Ledger) (incarnation : Incarnation)
    (named : P { l with incarnation := some incarnation })
    (restarted : P { l with incarnation := some incarnation } →
      P ({ l with incarnation := some incarnation } : Ledger).onRestart) :
    P (l.observe incarnation) := by
  unfold observe
  split
  · exact restarted named
  · exact named

/-- What holds once the peer is observed, and is kept by an acknowledgement and by the rewind, holds
once the peer is connected. -/
theorem onConnected_keeps {P : Ledger → Prop} (l : Ledger) (own : Incarnation) (hello : Hello)
    (now : Duration) (observed : P (l.observe hello.incarnation))
    (acknowledged : hello.acked = some own → ∀ m, P m → P (m.applyAck hello.ack))
    (rewound : ∀ m tally, P m → P { m with attempt := 0, outbox := m.outbox.rewind.2, tally }) :
    P (l.onConnected own hello now) := by
  unfold onConnected
  refine rewound _ _ ?_
  split
  · next names => exact acknowledged names _ observed
  · exact observed

end Courier.Ledger
