import Courier.Outbox

/-!
# The written and the unwritten messages

What each operation does to the two lists of an outbox, as long as the mark lies within
the messages held, and that every operation keeps it there. Draining moves the
unwritten messages behind the written ones, a rewind makes all of them unwritten, and
filtering keeps each message on its side. An acknowledgement and an eviction take messages
from the front, and neither makes a written message unwritten or the other way around.
-/

namespace Courier.Outbox

variable {β : Type}

/-- The mark lies within the messages held. -/
def Sound (o : Outbox β) : Prop := o.marked ≤ o.size

/-- The two lists hold everything, in order. -/
theorem written_append_unwritten (o : Outbox β) : o.written ++ o.unwritten = o.entries :=
  List.take_append_drop o.marked o.entries

/-- As long as the mark lies within, it counts the written messages. -/
theorem length_written (o : Outbox β) (sound : o.Sound) : o.written.length = o.marked := by
  rw [written, List.length_take]
  exact Nat.min_eq_left sound

/-- The number still to be written is that of the messages behind the mark. -/
theorem length_unwritten (o : Outbox β) : o.unwritten.length = o.unsent := by
  rw [unwritten, List.length_drop, unsent, size]

/-- An empty outbox has its mark at the front. -/
theorem empty_sound (capacity : Nat) (overflow : Overflow) :
    (empty capacity overflow : Outbox β).Sound := Nat.le_refl 0

/-- A new message is not written yet. -/
theorem enqueue_written (o : Outbox β) (sound : o.Sound) (seq : Nat) (body : β)
    (queuedAt : Duration) : (o.enqueue seq body queuedAt).written = o.written :=
  List.take_append_of_le_length sound

/-- A new message is the last one to be written. -/
theorem enqueue_unwritten (o : Outbox β) (sound : o.Sound) (seq : Nat) (body : β)
    (queuedAt : Duration) :
    (o.enqueue seq body queuedAt).unwritten = o.unwritten ++ [⟨seq, body, queuedAt⟩] :=
  List.drop_append_of_le_length sound

/-- A longer queue leaves the mark within. -/
theorem enqueue_sound (o : Outbox β) (sound : o.Sound) (seq : Nat) (body : β)
    (queuedAt : Duration) : (o.enqueue seq body queuedAt).Sound := by
  have longer : (o.enqueue seq body queuedAt).size = o.size + 1 := by simp [enqueue, size]
  show o.marked ≤ _
  have := sound
  unfold Sound at this
  omega

/-- Draining leaves nothing unwritten. -/
theorem drain_unwritten (o : Outbox β) : o.drain.2.unwritten = [] := List.drop_length

/-- Draining moves what was to be written behind what was written, in order. -/
theorem drain_written (o : Outbox β) : o.drain.2.written = o.written ++ o.unwritten := by
  rw [written_append_unwritten]
  exact List.take_length

/-- Draining puts the mark at the very end. -/
theorem drain_sound (o : Outbox β) : o.drain.2.Sound := Nat.le_refl o.size

/-- A rewind makes everything unwritten, in its order. -/
theorem rewind_unwritten (o : Outbox β) : o.rewind.2.unwritten = o.written ++ o.unwritten := by
  rw [written_append_unwritten]
  rfl

/-- Nothing counts as written once the mark is rewound. -/
theorem rewind_written (o : Outbox β) : o.rewind.2.written = [] := rfl

/-- A rewound mark is at the front. -/
theorem rewind_sound (o : Outbox β) : o.rewind.2.Sound := Nat.zero_le _

/-- An acknowledgement removes the messages at the front that it covers. -/
theorem ack_entries (o : Outbox β) (seq : Nat) :
    (o.ack seq).2.entries = o.entries.dropWhile (·.seq ≤ seq) := by
  change o.entries.drop (o.entries.takeWhile _).length = _
  have parts := List.takeWhile_append_dropWhile (p := (·.seq ≤ seq)) (l := o.entries)
  conv => lhs; arg 2; rw [← parts]
  exact List.drop_left

/-- An acknowledgement takes written messages from the front. -/
theorem ack_written (o : Outbox β) (seq : Nat) :
    (o.ack seq).2.written = o.written.drop (o.ack seq).1 := by
  unfold written
  rw [List.drop_take]
  rfl

/-- What an acknowledgement leaves to be written was to be written before. -/
theorem ack_unwritten (o : Outbox β) (seq : Nat) :
    ∀ e ∈ (o.ack seq).2.unwritten, e ∈ o.unwritten := by
  intro e listed
  have dropped : e ∈ (o.entries.drop (o.ack seq).1).drop (o.marked - (o.ack seq).1) := listed
  rw [List.drop_drop] at dropped
  exact List.drop_subset_drop_left _ (by omega) dropped

/-- What an ordered outbox holds behind an acknowledgement is not covered by it. -/
theorem ack_above (o : Outbox β) (ordered : o.entries.Pairwise fun e f => e.seq < f.seq)
    (seq : Nat) : ∀ e ∈ (o.ack seq).2.entries, seq < e.seq := by
  rw [o.ack_entries]
  generalize o.entries = entries at ordered
  -- Entries are dropped up to the first that is not covered, and all behind it are above.
  induction entries with
  | nil => exact nofun
  | cons first rest inductionHypothesis =>
    obtain ⟨least, ordered⟩ := List.pairwise_cons.mp ordered
    rw [List.dropWhile_cons]
    split
    · exact inductionHypothesis ordered
    · next high =>
      have above : seq < first.seq := Nat.lt_of_not_le fun low => high (decide_eq_true low)
      exact List.forall_mem_cons.mpr ⟨above, fun e listed => Nat.lt_trans above (least e listed)⟩

/-- An acknowledgement takes the mark back by as many messages as it removes, so that the mark stays
within what is left. -/
theorem ack_sound (o : Outbox β) (sound : o.Sound) (seq : Nat) : (o.ack seq).2.Sound := by
  unfold Sound size at *
  simp only [ack, List.length_drop]
  omega

/-- The mark moves down by the written messages that are filtered out. -/
theorem retain_marked (o : Outbox β) (sound : o.Sound) (keep : β → Bool) :
    (o.retain keep).2.marked = (o.written.filter fun e => keep e.body).length := by
  have count := o.length_written sound
  have sides := List.length_eq_countP_add_countP (fun e => keep e.body) (l := o.written)
  simp only [List.countP_eq_length_filter, Bool.not_eq_true, Bool.decide_eq_false] at sides
  change o.marked - (o.written.filter fun e => !keep e.body).length = _
  omega

/-- Filtering keeps each message on its side. -/
theorem retain_split (o : Outbox β) (sound : o.Sound) (keep : β → Bool) :
    (o.retain keep).2.written = o.written.filter (fun e => keep e.body) ∧
      (o.retain keep).2.unwritten = o.unwritten.filter fun e => keep e.body := by
  have parts : (o.retain keep).2.entries =
      o.written.filter (fun e => keep e.body) ++ o.unwritten.filter fun e => keep e.body := by
    rw [← List.filter_append, written_append_unwritten]
    rfl
  constructor
  · rw [written, retain_marked o sound, parts]
    exact List.take_left
  · rw [unwritten, retain_marked o sound, parts]
    exact List.drop_left

/-- Filtering keeps the mark within the messages held. -/
theorem retain_sound (o : Outbox β) (sound : o.Sound) (keep : β → Bool) :
    (o.retain keep).2.Sound := by
  have part : (o.written.filter fun e => keep e.body).length ≤
      (o.entries.filter fun e => keep e.body).length :=
    ((List.take_sublist o.marked o.entries).filter _).length_le
  rw [Sound, retain_marked o sound]
  exact part

/-- Room is made in one of two ways: there is some already, or a full outbox that drops the oldest
message loses it. -/
theorem makeRoom_cases (o made : Outbox β) (evicted : Option (Entry β))
    (room : o.makeRoom = .ok (made, evicted)) :
    (o.size < o.capacity ∧ made = o ∧ evicted = none) ∨
      (o.capacity ≤ o.size ∧ o.overflow = .dropOldest ∧ evicted = o.entries.head? ∧
        made = { o with entries := o.entries.tail, marked := o.marked - 1 }) := by
  unfold makeRoom at room
  split at room
  · next free =>
    cases room
    exact .inl ⟨free, rfl, rfl⟩
  · next full =>
    split at room
    · cases room
    · next policy =>
      cases room
      exact .inr ⟨Nat.le_of_not_lt full, policy, rfl, rfl⟩

/-- Room is made by removing at most the oldest message, and only from a full outbox
that drops the oldest. -/
theorem makeRoom_entries (o made : Outbox β) (evicted : Option (Entry β))
    (room : o.makeRoom = .ok (made, evicted)) :
    evicted.toList ++ made.entries = o.entries ∧
      (evicted.isSome → o.capacity ≤ o.size ∧ o.overflow = .dropOldest) := by
  obtain ⟨_, rfl, rfl⟩ | ⟨full, policy, rfl, rfl⟩ := o.makeRoom_cases made evicted room
  · simp
  · refine ⟨?_, fun _ => ⟨full, policy⟩⟩
    cases o.entries <;> simp

/-- Making room takes the mark back by one where it removes a message, and keeps it within. -/
theorem makeRoom_sound (o made : Outbox β) (sound : o.Sound) (evicted : Option (Entry β))
    (room : o.makeRoom = .ok (made, evicted)) : made.Sound := by
  obtain ⟨_, rfl, _⟩ | ⟨_, _, _, rfl⟩ := o.makeRoom_cases made evicted room
  · exact sound
  · unfold Sound size at *
    simp only [List.length_tail]
    omega

/-- What is left once room was made was held before, and what is left written was written. -/
theorem makeRoom_fewer (o made : Outbox β) (evicted : Option (Entry β))
    (room : o.makeRoom = .ok (made, evicted)) :
    List.Sublist made.entries o.entries ∧ ∀ e ∈ made.written, e ∈ o.written := by
  obtain ⟨_, rfl, _⟩ | ⟨_, _, _, rfl⟩ := o.makeRoom_cases made evicted room
  · exact ⟨.refl _, fun _ => id⟩
  · refine ⟨List.tail_sublist _, fun e listed => ?_⟩
    unfold written at listed ⊢
    cases entries : o.entries with
    | nil => simp [entries] at listed
    | cons first rest =>
      simp only [entries, List.tail_cons] at listed
      cases marked : o.marked with
      | zero => simp [marked] at listed
      | succ n =>
        rw [marked, Nat.add_sub_cancel] at listed
        exact List.mem_cons_of_mem _ listed

/-- Making room leaves nothing to be written that was written before. -/
theorem makeRoom_unwritten (o made : Outbox β) (evicted : Option (Entry β))
    (room : o.makeRoom = .ok (made, evicted)) : ∀ e ∈ made.unwritten, e ∈ o.unwritten := by
  obtain ⟨_, rfl, _⟩ | ⟨_, _, _, rfl⟩ := o.makeRoom_cases made evicted room
  · exact fun _ => id
  · intro e listed
    unfold unwritten at listed ⊢
    cases marked : o.marked with
    | zero => exact List.mem_of_mem_tail (by simpa [marked] using listed)
    | succ count => simpa [marked] using listed

/-- An outbox discards something to make room only if it is to discard the oldest. -/
theorem makeRoom_keeps (o made : Outbox β) (evicted : Option (Entry β))
    (room : o.makeRoom = .ok (made, evicted)) : made.overflow = o.overflow ∧
      (o.overflow = .rejectNew → made.entries = o.entries) := by
  obtain ⟨_, rfl, _⟩ | ⟨_, oldest, _, rfl⟩ := o.makeRoom_cases made evicted room
  · exact ⟨rfl, fun _ => rfl⟩
  · refine ⟨rfl, fun refuses => ?_⟩
    cases oldest.symm.trans refuses

/-- An outbox with room for something has room for one more once room was made. -/
theorem makeRoom_below (o made : Outbox β) (evicted : Option (Entry β))
    (room : o.makeRoom = .ok (made, evicted)) (positive : 0 < o.capacity)
    (within : o.size ≤ o.capacity) : made.capacity = o.capacity ∧ made.size < o.capacity := by
  obtain ⟨free, rfl, _⟩ | ⟨_, _, _, rfl⟩ := o.makeRoom_cases made evicted room
  · exact ⟨rfl, free⟩
  · refine ⟨rfl, ?_⟩
    unfold size at *
    simp only [List.length_tail]
    omega

end Courier.Outbox
