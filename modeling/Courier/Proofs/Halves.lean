import Courier.Proofs.Regularity

/-!
# The outbox as two lists

An outbox behaves as a pair of lists, the written and the unwritten messages, whatever is done
with it: the mark between them is a number that six operations move, and each of them moves it
so that every message stays on its side. It takes two rules from those who use an outbox. A
message is queued into room that was made for it, and its number is above all numbers before.
Then the messages are in the order of their numbers, so that the front which an acknowledgement
covers is all that it covers, and the mark never leaves the messages held.
-/

namespace Courier

namespace Outbox

/-- What may be done with an outbox. -/
inductive Operation (β : Type) where
  | makeRoom
  | enqueue (seq : Nat) (body : β) (queuedAt : Duration)
  | drain
  | ack (seq : Nat)
  | rewind
  | retain (keep : β → Bool)
  | clear

/-- What an operation answers. -/
inductive Answer (β : Type) where
  /-- There is room, perhaps at the cost of a message. -/
  | room (evicted : Option (Entry β))
  | full (refusal : OutboxFull)
  | taken (entries : List (Entry β))
  | counted (count : Nat)
  | done

variable {β : Type}

/-- Perform an operation. A refusal leaves the outbox as it is. -/
def perform (o : Outbox β) : Operation β → Answer β × Outbox β
  | .makeRoom =>
    match o.makeRoom with
    | .ok (made, evicted) => (.room evicted, made)
    | .error refusal => (.full refusal, o)
  | .enqueue seq body queuedAt => (.done, o.enqueue seq body queuedAt)
  | .drain => (.taken o.drain.1, o.drain.2)
  | .ack seq => (.counted (o.ack seq).1, (o.ack seq).2)
  | .rewind => (.counted o.rewind.1, o.rewind.2)
  | .retain keep => (.counted (o.retain keep).1, (o.retain keep).2)
  | .clear => (.done, o.clear)

/-- Perform operations one after another, on whatever keeps the messages. -/
def performAll {σ : Type} (perform : σ → Operation β → Answer β × σ) (s : σ) :
    List (Operation β) → List (Answer β) × σ
  | [] => ([], s)
  | operation :: rest =>
    let (answer, s) := perform s operation
    let (answers, s) := performAll perform s rest
    (answer :: answers, s)

/-- Whether operations are performed by the rules: `room` tells whether there is room that was
made and not used yet, and `given` holds the numbers of the messages queued so far. -/
def ByRules (o : Outbox β) (room : Bool) (given : List Nat) : List (Operation β) → Prop
  | [] => True
  | .makeRoom :: rest =>
    match o.makeRoom with
    | .ok (made, _) => ByRules made true given rest
    | .error _ => ByRules o room given rest
  | .enqueue seq body queuedAt :: rest =>
    room = true ∧ (∀ n ∈ given, n < seq) ∧
      ByRules (o.enqueue seq body queuedAt) false (given ++ [seq]) rest
  | operation :: rest => ByRules (o.perform operation).2 room given rest

end Outbox

/-- The written and the unwritten messages of an outbox. -/
structure Halves (β : Type) where
  written : List (Entry β) := []
  unwritten : List (Entry β) := []
  capacity : Nat
  overflow : Overflow

namespace Halves

open Outbox

variable {β : Type}

/-- All messages, in order. -/
def entries (h : Halves β) : List (Entry β) := h.written ++ h.unwritten

/-- Without the oldest message. -/
def evict (h : Halves β) : Halves β :=
  match h.written with
  | [] => { h with unwritten := h.unwritten.tail }
  | _ :: rest => { h with written := rest }

/-- With only those messages that pass a test. -/
def filter (h : Halves β) (test : Entry β → Bool) : Halves β :=
  { h with written := h.written.filter test, unwritten := h.unwritten.filter test }

/-- What the operations mean for the two lists. -/
def perform (h : Halves β) : Operation β → Answer β × Halves β
  | .makeRoom =>
    if h.entries.length < h.capacity then (.room none, h)
    else
      match h.overflow with
      | .rejectNew => (.full ⟨h.capacity⟩, h)
      | .dropOldest => (.room h.entries.head?, h.evict)
  | .enqueue seq body queuedAt =>
    (.done, { h with unwritten := h.unwritten ++ [⟨seq, body, queuedAt⟩] })
  | .drain => (.taken h.unwritten, { h with written := h.entries, unwritten := [] })
  | .ack seq =>
    (.counted (h.entries.filter (·.seq ≤ seq)).length, h.filter (seq < ·.seq))
  | .rewind => (.counted h.written.length, { h with written := [], unwritten := h.entries })
  | .retain keep =>
    (.counted (h.entries.filter fun e => !keep e.body).length, h.filter fun e => keep e.body)
  | .clear => (.done, { h with written := [], unwritten := [] })

end Halves

namespace Outbox

variable {β : Type}

/-- The two lists of an outbox. -/
def halves (o : Outbox β) : Halves β := ⟨o.written, o.unwritten, o.capacity, o.overflow⟩

/-- The two lists hold the messages of the outbox, in order. -/
theorem halves_entries (o : Outbox β) : o.halves.entries = o.entries := o.written_append_unwritten

/-- A number covers none of the messages above it. -/
theorem filter_of_above {entries : List (Entry β)} {seq : Nat}
    (above : ∀ e ∈ entries, seq < e.seq) :
    entries.filter (·.seq ≤ seq) = [] ∧ entries.filter (seq < ·.seq) = entries :=
  ⟨List.filter_eq_nil_iff.mpr fun e listed => by simp [above e listed],
    List.filter_eq_self.mpr fun e listed => by simp [above e listed]⟩

/-- A number covers all of the messages up to it. -/
theorem filter_of_covered {entries : List (Entry β)} {seq : Nat}
    (covered : ∀ e ∈ entries, e.seq ≤ seq) :
    entries.filter (·.seq ≤ seq) = entries ∧ entries.filter (seq < ·.seq) = [] :=
  ⟨List.filter_eq_self.mpr fun e listed => by simp [covered e listed],
    List.filter_eq_nil_iff.mpr fun e listed => by simp [covered e listed]⟩

section Ordered

variable {entries : List (Entry β)} (ordered : entries.Pairwise fun e f => e.seq < f.seq)
  (seq : Nat)

include ordered

/-- The messages that a number covers stand in front of those that it does not cover. -/
theorem covered_append_above :
    entries.filter (·.seq ≤ seq) ++ entries.filter (seq < ·.seq) = entries := by
  induction entries with
  | nil => rfl
  | cons first rest inductionHypothesis =>
    obtain ⟨least, ordered⟩ := List.pairwise_cons.mp ordered
    by_cases covered : first.seq ≤ seq
    · simpa [covered, Nat.not_lt.mpr covered] using inductionHypothesis ordered
    · have above : ∀ e ∈ rest, seq < e.seq := fun e listed =>
        (Nat.lt_of_not_le covered).trans (least e listed)
      obtain ⟨none, all⟩ := filter_of_above above
      simp [covered, Nat.lt_of_not_le covered, none, all]

/-- The front that a number covers is all that it covers. -/
theorem takeWhile_covered : entries.takeWhile (·.seq ≤ seq) = entries.filter (·.seq ≤ seq) := by
  have above : (entries.filter (seq < ·.seq)).takeWhile (·.seq ≤ seq) = [] := by
    rw [List.takeWhile_eq_nil_iff]
    intro some'
    have passed := (List.mem_filter.mp (List.get_mem _ ⟨0, some'⟩)).2
    simpa using passed
  have covered : ∀ e ∈ entries.filter (·.seq ≤ seq), decide (e.seq ≤ seq) = true :=
    fun e listed => (List.mem_filter.mp listed).2
  conv => lhs; rw [← covered_append_above ordered seq]
  rw [List.takeWhile_append_of_pos covered, above, List.append_nil]

/-- In an ordered queue, what an acknowledgement covers is its front. -/
theorem drop_covered :
    entries.drop (entries.filter (·.seq ≤ seq)).length = entries.filter (seq < ·.seq) := by
  calc
    _ = (entries.filter (·.seq ≤ seq) ++ entries.filter (seq < ·.seq)).drop
        (entries.filter (·.seq ≤ seq)).length := by rw [covered_append_above ordered seq]
    _ = _ := List.drop_left

end Ordered

/-- An acknowledgement takes from both lists what it covers. The queue is in the order of its
numbers, so what is covered is a front of it, which ends within the written messages or behind
them. -/
theorem ack_halves (o : Outbox β) (sound : o.Sound)
    (ordered : o.entries.Pairwise fun e f => e.seq < f.seq) (seq : Nat) :
    (o.ack seq).1 = (o.entries.filter (·.seq ≤ seq)).length ∧
      (o.ack seq).2.halves = o.halves.filter (seq < ·.seq) := by
  have count : (o.ack seq).1 = (o.entries.filter (·.seq ≤ seq)).length :=
    congrArg List.length (takeWhile_covered ordered seq)
  have parts := o.written_append_unwritten
  have marked := o.length_written sound
  have whole := ordered
  rw [← parts, List.pairwise_append] at whole
  obtain ⟨front, back, across⟩ := whole
  have counts : (o.ack seq).1 = (o.written.filter (·.seq ≤ seq)).length +
      (o.unwritten.filter (·.seq ≤ seq)).length := by
    rw [count, ← parts, List.filter_append, List.length_append]
  have rest : (o.ack seq).2.unwritten = o.entries.drop (max (o.ack seq).1 o.marked) := by
    change (o.entries.drop (o.ack seq).1).drop (o.marked - (o.ack seq).1) = _
    rw [List.drop_drop]
    congr 1
    omega
  refine ⟨count, ?_⟩
  suffices sides : (o.ack seq).2.written = o.written.filter (seq < ·.seq) ∧
      (o.ack seq).2.unwritten = o.unwritten.filter (seq < ·.seq) by
    unfold halves Halves.filter
    rw [sides.1, sides.2]
    rfl
  rw [o.ack_written, rest]
  -- Either nothing unwritten is covered, or everything written is.
  by_cases reaches : ∃ e ∈ o.unwritten, e.seq ≤ seq
  · obtain ⟨late, listed, covered⟩ := reaches
    obtain ⟨all, none⟩ : o.written.filter (·.seq ≤ seq) = o.written ∧
        o.written.filter (seq < ·.seq) = [] :=
      filter_of_covered fun e early => (Nat.le_of_lt (across e early late listed)).trans covered
    rw [all] at counts
    constructor
    · rw [none, List.drop_eq_nil_iff]
      omega
    · rw [Nat.max_eq_left (by omega), ← parts, counts, ← List.drop_drop, List.drop_left]
      exact drop_covered back seq
  · obtain ⟨none, all⟩ : o.unwritten.filter (·.seq ≤ seq) = [] ∧
        o.unwritten.filter (seq < ·.seq) = o.unwritten :=
      filter_of_above fun e late => Nat.lt_of_not_le fun low => reaches ⟨e, late, low⟩
    have few := List.length_filter_le (fun e : Entry β => decide (e.seq ≤ seq)) o.written
    rw [none, List.length_nil, Nat.add_zero] at counts
    constructor
    · rw [counts]
      exact drop_covered front seq
    · rw [Nat.max_eq_right (by omega), all]
      rfl

/-- Making room takes the oldest message out of its list, if anything. -/
theorem evict_halves (o : Outbox β) :
    ({ o with entries := o.entries.tail, marked := o.marked - 1 } : Outbox β).halves =
      o.halves.evict := by
  obtain ⟨entries, marked, capacity, overflow⟩ := o
  cases marked with
  | zero => simp [halves, written, unwritten, Halves.evict]
  | succ marked => cases entries <;> simp [halves, written, unwritten, Halves.evict]

/-- What filtering removes from the messages is what fails the test. -/
theorem retain_count (o : Outbox β) (keep : β → Bool) :
    (o.retain keep).1 = (o.entries.filter fun e => !keep e.body).length := by
  have sides := List.length_eq_countP_add_countP (fun e => keep e.body) (l := o.entries)
  simp only [List.countP_eq_length_filter, Bool.not_eq_true, Bool.decide_eq_false] at sides
  change o.entries.length - (o.entries.filter fun e => keep e.body).length = _
  omega

/-- Each operation does to an outbox in order what it means for the two lists. There is one case for
each operation, by the lemmas about what it does to the written and to the unwritten messages. -/
theorem perform_halves (o : Outbox β) (sound : o.Sound)
    (ordered : o.entries.Pairwise fun e f => e.seq < f.seq) (operation : Operation β) :
    o.halves.perform operation = ((o.perform operation).1, (o.perform operation).2.halves) := by
  cases operation with
  | makeRoom =>
    have length : o.halves.entries.length = o.size := congrArg List.length o.halves_entries
    by_cases free : o.halves.entries.length < o.halves.capacity
    · have made : o.makeRoom = .ok (o, none) := if_pos (length ▸ free)
      simp only [Halves.perform, perform, if_pos free, made]
    · have crowded : ¬ o.size < o.capacity := length ▸ free
      cases policy : o.overflow with
      | rejectNew =>
        have same : o.halves.overflow = .rejectNew := policy
        have refused : o.makeRoom = .error ⟨o.capacity⟩ := by
          simp only [makeRoom, if_neg crowded, policy]
        simp only [Halves.perform, perform, if_neg free, same, refused]
        rfl
      | dropOldest =>
        have same : o.halves.overflow = .dropOldest := policy
        have made : o.makeRoom = .ok ({ o with
            entries := o.entries.tail, marked := o.marked - 1 }, o.entries.head?) := by
          simp only [makeRoom, if_neg crowded, policy]
        have oldest : o.halves.entries.head? = o.entries.head? :=
          congrArg List.head? o.halves_entries
        simp only [Halves.perform, perform, if_neg free, same, made, oldest, ← o.evict_halves]
  | enqueue seq body queuedAt =>
    have before := o.enqueue_written sound seq body queuedAt
    have behind := o.enqueue_unwritten sound seq body queuedAt
    simp only [Halves.perform, perform, halves, before, behind]
    rfl
  | drain =>
    have written := o.drain_written
    have unwritten := o.drain_unwritten
    simp only [Halves.perform, perform, halves, Halves.entries, written, unwritten]
    rfl
  | ack seq =>
    obtain ⟨count, sides⟩ := o.ack_halves sound ordered seq
    simp only [Halves.perform, perform, count, sides, halves_entries]
  | rewind =>
    have written := o.rewind_written
    have unwritten := o.rewind_unwritten
    have marked := o.length_written sound
    simp only [Halves.perform, perform, halves, Halves.entries, written, unwritten, marked]
    rfl
  | retain keep =>
    obtain ⟨written, unwritten⟩ := o.retain_split sound keep
    simp only [Halves.perform, perform, o.retain_count, halves_entries]
    simp only [halves, Halves.filter, written, unwritten]
    rfl
  | clear => simp [Halves.perform, perform, halves, clear, written, unwritten]

/-- An outbox that is used by the rules: how much it holds at most, the numbers of the messages
queued so far, and whether there is room that was made and not used yet. -/
structure InUse (limit : Nat) (given : List Nat) (room : Bool) (o : Outbox β) : Prop where
  sound : o.Sound
  ordered : o.entries.Pairwise fun e f => e.seq < f.seq
  numbered : ∀ e ∈ o.entries, e.seq ∈ given
  capacity : o.capacity = limit
  within : o.size ≤ limit
  roomy : room = true → o.size < limit

namespace InUse

variable {limit : Nat} {given : List Nat} {room : Bool} {o after : Outbox β}

/-- An empty outbox is in use from the beginning. -/
theorem empty (capacity : Nat) (overflow : Overflow) :
    (Outbox.empty capacity overflow : Outbox β).InUse (max 1 capacity) [] false where
  sound := empty_sound capacity overflow
  ordered := .nil
  numbered := nofun
  capacity := Nat.max_comm _ _
  within := Nat.zero_le _
  roomy := nofun

/-- Messages may leave an outbox at any time. -/
theorem fewer (inUse : o.InUse limit given room) (part : List.Sublist after.entries o.entries)
    (sound : after.Sound) (capacity : after.capacity = o.capacity := by rfl) :
    after.InUse limit given room where
  sound := sound
  ordered := inUse.ordered.sublist part
  numbered e listed := inUse.numbered e (part.subset listed)
  capacity := capacity.trans inUse.capacity
  within := part.length_le.trans inUse.within
  roomy made := part.length_le.trans_lt (inUse.roomy made)

/-- An outbox with room made is in use, and has room for one message. -/
theorem makeRoom (inUse : o.InUse limit given room) (positive : 0 < limit)
    (evicted : Option (Entry β)) (made : o.makeRoom = .ok (after, evicted)) :
    after.InUse limit given true := by
  have part := (o.makeRoom_fewer after evicted made).1
  obtain ⟨capacity, below⟩ := o.makeRoom_below after evicted made
    (inUse.capacity.symm ▸ positive) (inUse.capacity.symm ▸ inUse.within)
  have kept := inUse.fewer part (o.makeRoom_sound after inUse.sound evicted made) capacity
  exact { kept with roomy := fun _ => inUse.capacity ▸ below }

/-- A message that is queued into room uses it up. -/
theorem enqueue (inUse : o.InUse limit given true) (seq : Nat) (above : ∀ n ∈ given, n < seq)
    (body : β) (queuedAt : Duration) :
    (o.enqueue seq body queuedAt).InUse limit (given ++ [seq]) false where
  sound := o.enqueue_sound inUse.sound seq body queuedAt
  ordered := by
    refine List.pairwise_append.mpr ⟨inUse.ordered, List.pairwise_singleton _ _, ?_⟩
    intro e old f last
    rw [List.mem_singleton.mp last]
    exact above e.seq (inUse.numbered e old)
  numbered e listed := by
    refine List.mem_append.mpr ((List.mem_append.mp listed).imp (inUse.numbered e) fun last => ?_)
    simp [List.mem_singleton.mp last]
  capacity := inUse.capacity
  within := by
    have longer : (o.enqueue seq body queuedAt).size = o.size + 1 := by
      simp [Outbox.enqueue, size]
    exact longer ▸ inUse.roomy rfl
  roomy := nofun

/-- An operation by the rules leaves an outbox that is used by the rules, and the rules for
what comes next. -/
theorem perform (inUse : o.InUse limit given room) (positive : 0 < limit)
    (operation : Operation β) (rest : List (Operation β))
    (rules : o.ByRules room given (operation :: rest)) : ∃ given room,
      (o.perform operation).2.InUse limit given room ∧
        (o.perform operation).2.ByRules room given rest := by
  cases operation with
  | makeRoom =>
    unfold ByRules at rules
    split at rules
    · next made evicted succeeded =>
      have next : (o.perform .makeRoom).2 = made := by simp only [Outbox.perform, succeeded]
      rw [next]
      exact ⟨given, true, inUse.makeRoom positive evicted succeeded, rules⟩
    · next refusal refused =>
      have same : (o.perform .makeRoom).2 = o := by simp only [Outbox.perform, refused]
      rw [same]
      exact ⟨given, room, inUse, rules⟩
  | enqueue seq body queuedAt =>
    obtain ⟨rfl, above, rules⟩ := rules
    exact ⟨_, _, inUse.enqueue seq above body queuedAt, rules⟩
  | drain => exact ⟨_, _, inUse.fewer (.refl _) o.drain_sound, rules⟩
  | ack seq =>
    refine ⟨_, _, inUse.fewer ?_ (o.ack_sound inUse.sound seq), rules⟩
    exact List.drop_sublist _ _
  | rewind => exact ⟨_, _, inUse.fewer (.refl _) o.rewind_sound, rules⟩
  | retain keep =>
    refine ⟨_, _, inUse.fewer ?_ (o.retain_sound inUse.sound keep), rules⟩
    exact List.filter_sublist
  | clear => exact ⟨_, _, inUse.fewer (List.nil_sublist _) (Nat.zero_le 0), rules⟩

/-- By the rules, an outbox does the same as its two lists, and remains in use. -/
theorem performAll (inUse : o.InUse limit given room) (positive : 0 < limit)
    (operations : List (Operation β)) (rules : o.ByRules room given operations)
    (past : List (Operation β)) (early : past <+: operations) :
    (∃ given room, (Outbox.performAll Outbox.perform o past).2.InUse limit given room) ∧
      Outbox.performAll Halves.perform o.halves past =
        ((Outbox.performAll Outbox.perform o past).1,
          (Outbox.performAll Outbox.perform o past).2.halves) := by
  induction operations generalizing o given room past with
  | nil =>
    obtain rfl := List.prefix_nil.mp early
    exact ⟨⟨given, room, inUse⟩, rfl⟩
  | cons operation rest inductionHypothesis =>
    rcases List.prefix_cons_iff.mp early with rfl | ⟨later, rfl, within⟩
    · exact ⟨⟨given, room, inUse⟩, rfl⟩
    · obtain ⟨given', room', next, rules⟩ := inUse.perform positive operation rest rules
      obtain ⟨inUse', same⟩ := inductionHypothesis next rules later within
      refine ⟨inUse', ?_⟩
      simp only [Outbox.performAll, o.perform_halves inUse.sound inUse.ordered, same]

end InUse

/-- The mark can be counted down by what an operation takes from the written messages, and
counting and reading behind it never leave the messages held. -/
structure InBounds (o : Outbox β) : Prop where
  marked : o.marked ≤ o.size
  retained (keep : β → Bool) : (o.written.filter fun e => !keep e.body).length ≤ o.marked
  kept (keep : β → Bool) : (o.retain keep).2.size ≤ o.size

/-- A mark that lies within the outbox is never counted below zero. -/
theorem Sound.inBounds {o : Outbox β} (sound : o.Sound) : o.InBounds where
  marked := sound
  retained _ := (List.length_filter_le _ _).trans (Nat.le_of_eq (o.length_written sound))
  kept _ := List.length_filter_le _ _

/-- Whatever is done with an outbox by the rules, it answers as its two lists do and holds what
they hold, and at every time the mark is within the messages held, and these within the
capacity. -/
theorem answers_as_halves (capacity : Nat) (overflow : Overflow)
    (operations : List (Operation β))
    (rules : (empty capacity overflow).ByRules false [] operations) :
    performAll Halves.perform ⟨[], [], max 1 capacity, overflow⟩ operations =
        ((performAll perform (empty capacity overflow) operations).1,
          (performAll perform (empty capacity overflow) operations).2.halves) ∧
      ∀ past, past <+: operations →
        (performAll perform (empty capacity overflow : Outbox β) past).2.InBounds ∧
        (performAll perform (empty capacity overflow : Outbox β) past).2.size ≤
          max 1 capacity := by
  have start : (empty capacity overflow : Outbox β).halves =
      ⟨[], [], max 1 capacity, overflow⟩ := by
    simp [halves, empty, written, unwritten, Nat.max_comm]
  have positive : 0 < max 1 capacity := Nat.lt_of_lt_of_le Nat.one_pos (Nat.le_max_left _ _)
  have inUse : (empty capacity overflow : Outbox β).InUse (max 1 capacity) [] false :=
    .empty capacity overflow
  refine ⟨?_, fun past early => ?_⟩
  · rw [← start]
    exact (inUse.performAll positive operations rules operations List.prefix_rfl).2
  · obtain ⟨⟨_, _, inUse⟩, _⟩ := inUse.performAll positive operations rules past early
    exact ⟨inUse.sound.inBounds, inUse.within⟩

/-- An outbox with room for two messages, of which the second is still to be written when a
third one evicts the first. -/
def crowding : List (Operation Nat) :=
  [.makeRoom, .enqueue 1 10 .zero, .drain, .makeRoom, .enqueue 2 20 .zero, .makeRoom,
    .enqueue 4 40 .zero, .drain, .ack 3, .rewind, .retain (· = 10), .clear]

/-- What it answers. -/
theorem crowding_answers : (empty 2 .dropOldest).ByRules false [] crowding ∧
    (performAll perform (empty 2 .dropOldest) crowding).1 =
      [.room none, .done, .taken [⟨1, 10, .zero⟩], .room none, .done,
        .room (some ⟨1, 10, .zero⟩), .done, .taken [⟨2, 20, .zero⟩, ⟨4, 40, .zero⟩],
        .counted 1, .counted 1, .counted 1, .done] := by
  have rules : (empty 2 .dropOldest).ByRules false [] crowding :=
    ⟨rfl, by decide, rfl, by decide, rfl, by decide, trivial⟩
  obtain ⟨same, _⟩ := answers_as_halves 2 .dropOldest crowding rules
  exact ⟨rules, (congrArg Prod.fst same).symm.trans rfl⟩

end Outbox

end Courier
