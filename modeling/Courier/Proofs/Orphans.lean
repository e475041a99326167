import Courier.Proofs.Regularity
import Courier.Proofs.Settlement
import Mathlib.Data.List.Nodup
import Mathlib.Data.List.Perm.Subperm

/-!
# Promises without a letter

A promise that waits is a number in the bindings; the letter that names the number is in the
outbox until the peer acknowledges it. The two are kept apart, and one operation removes only
one of them: making room in a full outbox evicts the oldest letter and leaves its promise
waiting. Such a promise is an orphan, since no reply can come for it, until the peer happens to
acknowledge the number of the letter or is given up. All other promises that wait have their
letters queued or acknowledged, so that as long as nothing is acknowledged no more of them
begin to wait than the outbox holds. An outbox that refuses new letters makes no orphans.
-/

namespace Courier

/-- An outbox has room for one message at least. -/
theorem Options.room_pos (options : Options) : 0 < max options.maxQueue 1 :=
  Nat.lt_of_lt_of_le Nat.one_pos (Nat.le_max_right _ _)

section Missing

variable {β : Type} [DecidableEq β] {entries more others : List (Entry β)}

/-- The entries of one list that are missing from another one. -/
def Entry.missing (entries others : List (Entry β)) : List (Entry β) :=
  entries.filter fun e => e ∉ others

/-- An entry is missing from a list if it is one of the entries and not in the list. -/
theorem Entry.mem_missing {e : Entry β} :
    e ∈ missing entries others ↔ e ∈ entries ∧ e ∉ others := by
  simp [missing]

/-- Nothing is missing from a list that has all the entries. -/
theorem Entry.missing_nil (within : ∀ e ∈ entries, e ∈ others) : missing entries others = [] :=
  List.eq_nil_iff_forall_not_mem.mpr fun e lacks =>
    (mem_missing.mp lacks).2 (within e (mem_missing.mp lacks).1)

/-- What is missing of two lists of entries is what is missing of either. -/
theorem Entry.missing_append :
    missing (entries ++ more) others = missing entries others ++ missing more others :=
  List.filter_append entries more

end Missing

/-- A ledger that only lets go of what is acknowledged, and of replies. -/
structure Ledger.Sheds (l after : Ledger) : Prop where
  part : List.Sublist after.outbox.entries l.outbox.entries
  acked : l.window.acked ≤ after.window.acked
  kept : ∀ e ∈ l.outbox.entries, e.body.isReply = false →
    e ∈ after.outbox.entries ∨ e.seq ≤ after.window.acked
  overflow : after.outbox.overflow = l.outbox.overflow

namespace Ledger

/-- A ledger with the same outbox lets go of nothing. -/
theorem Sheds.same {l after : Ledger} (outbox : after.outbox.entries = l.outbox.entries)
    (acked : after.window.acked = l.window.acked := by rfl)
    (overflow : after.outbox.overflow = l.outbox.overflow := by rfl) : l.Sheds after where
  part := outbox ▸ List.Sublist.refl _
  acked := Nat.le_of_eq acked.symm
  kept e listed _ := by
    rw [outbox]
    exact .inl listed
  overflow := overflow

/-- Letting go of what is acknowledged twice is letting go of what is acknowledged. -/
theorem Sheds.trans {l middle after : Ledger} (first : l.Sheds middle)
    (second : middle.Sheds after) : l.Sheds after where
  part := second.part.trans first.part
  acked := first.acked.trans second.acked
  kept e listed letter := by
    rcases first.kept e listed letter with still | covered
    · exact second.kept e still letter
    · exact .inr (covered.trans second.acked)
  overflow := second.overflow.trans first.overflow

/-- What an acknowledgement takes from the front, it covers. -/
theorem applyAck_sheds (l : Ledger) (seq : Nat) : l.Sheds (l.applyAck seq) where
  part := l.applyAck_sublist seq
  acked := l.window.acked_le_acknowledge seq
  kept e listed _ := l.applyAck_covers seq e listed
  overflow := rfl

/-- A restart of the peer lets go of replies only. -/
theorem onRestart_sheds (l : Ledger) : l.Sheds l.onRestart where
  part := List.filter_sublist
  acked := Nat.le_refl _
  kept e listed letter := .inl (List.mem_filter.mpr ⟨listed, by simp [letter]⟩)
  overflow := rfl

/-- Heeding an acknowledgement lets go of what it acknowledges. -/
theorem heeding_sheds (l : Ledger) (e : Envelope) : l.Sheds (l.heeding e) :=
  l.heeding_keeps e (.same rfl rfl rfl) (l.applyAck_sheds e.ack)

/-- A connection that is made sends nothing. -/
theorem onConnected_sent (l : Ledger) (own : Incarnation) (hello : Hello) (now : Duration) :
    (l.onConnected own hello now).window.sent = l.window.sent := by
  obtain ⟨_, _, _, _, same⟩ := l.onConnected_eq own hello now
  rw [same]
  split <;> rfl

/-- A connection that is made lets go of what the greeting acknowledges, and of replies if the peer
restarted. -/
theorem onConnected_sheds (l : Ledger) (own : Incarnation) (hello : Hello) (now : Duration) :
    l.Sheds (l.onConnected own hello now) := by
  refine l.onConnected_keeps own hello now ?_ ?_ ?_
  · exact l.observe_keeps hello.incarnation (.same rfl rfl rfl) fun seen =>
      seen.trans (onRestart_sheds _)
  · exact fun _ m sheds => sheds.trans (m.applyAck_sheds hello.ack)
  · exact fun m _ sheds => sheds.trans (.same rfl rfl rfl)

/-- One number is given to one message only. -/
theorem Orderly.unique {limit : Nat} {l : Ledger} (orderly : l.Orderly limit)
    (e f : Entry Parcel) (first : e ∈ l.outbox.entries) (second : f ∈ l.outbox.entries)
    (same : e.seq = f.seq) : e = f := by
  have distinct : (l.outbox.entries.map (·.seq)).Nodup :=
    List.pairwise_map.mpr (orderly.ordered.imp Nat.ne_of_lt)
  exact List.inj_on_of_nodup_map distinct first second same

/-- No more bindings are named by queued letters than there are letters. -/
theorem Orderly.named_length {limit : Nat} {l : Ledger} (orderly : l.Orderly limit)
    (bindings : List (Nat × PromiseId)) (distinct : (bindings.map (·.1)).Nodup)
    (queued : ∀ binding ∈ bindings,
      ∃ e ∈ l.outbox.entries, e.body.binding? = some binding.1) : bindings.length ≤ limit := by
  have names : bindings.map (·.1) ⊆ l.outbox.entries.filterMap fun e => e.body.binding? := by
    intro n listed
    obtain ⟨binding, among, rfl⟩ := List.mem_map.mp listed
    exact List.mem_filterMap.mpr (queued binding among)
  calc
    bindings.length = (bindings.map (·.1)).length := (List.length_map _).symm
    _ ≤ (l.outbox.entries.filterMap fun e => e.body.binding?).length :=
      (List.subperm_of_subset distinct names).length_le
    _ ≤ l.outbox.entries.length := List.length_filterMap_le _ _
    _ ≤ limit := orderly.within

/-- A ledger is regular from the beginning, with room for one message at least. -/
theorem fresh_regular_max (peer : PeerId) (options : Options) :
    (fresh peer options).Regular (max options.maxQueue 1) where
  capacity := rfl
  acked := Nat.le_refl 0
  ordered := .nil
  between := nofun
  within := Nat.zero_le _
  marked := Nat.le_refl 0
  named := nofun
  distinct := .nil
  bound := nofun

end Ledger

namespace Session

/-- What leaves the outbox when something else is queued. -/
def evicts (host : Host) (s : Session) (occurrence : Occurrence) : List (Entry Parcel) :=
  if s.ledger.window.sent < (s.undergo host occurrence).ledger.window.sent then
    Entry.missing s.ledger.outbox.entries (s.undergo host occurrence).ledger.outbox.entries
  else []

/-- What was discarded during a life to make room. -/
def evictions (host : Host) (s : Session) (life : List Occurrence) : List (Entry Parcel) :=
  s.along host (evicts host) life

/-- The numbers of the promises whose letters were discarded during a life and are not
acknowledged. -/
def orphans (host : Host) (s : Session) (life : List Occurrence) : List Nat :=
  ((s.pledged host life).filter fun pledge =>
    (s.live host life).ledger.window.acked < pledge.seq ∧
      pledge.seq ∈ (s.evictions host life).map (·.seq)).map (·.number)

/-- What becomes of the letters that carry promises. -/
structure Traces (host : Host) (s : Session) (occurrence : Occurrence) : Prop where
  /-- A letter that carried a promise stays, or is acknowledged, discarded or given up. -/
  retained : ∀ e ∈ s.ledger.outbox.entries, ∀ n, e.body.binding? = some n →
    e ∈ (s.undergo host occurrence).ledger.outbox.entries ∨
      e.seq ≤ (s.undergo host occurrence).ledger.window.acked ∨
      e ∈ s.evicts host occurrence ∨ (s.undergo host occurrence).ledger.bindings = []
  /-- What is new has the next number, and names a binding only for a promise of its own. -/
  arrived : ∀ e ∈ (s.undergo host occurrence).ledger.outbox.entries,
    e ∈ s.ledger.outbox.entries ∨ e.seq = s.ledger.window.sent + 1 ∧
      ∀ n, e.body.binding? = some n → ∃ pledge, s.pledge? occurrence = some pledge ∧
        pledge.number = n ∧ pledge.seq = e.seq
  queued : ∀ pledge ∈ s.pledge? occurrence, pledge.seq = s.ledger.window.sent + 1 ∧
    (s.undergo host occurrence).ledger.window.sent = s.ledger.window.sent + 1 ∧
    ∃ e ∈ (s.undergo host occurrence).ledger.outbox.entries,
      e.seq = pledge.seq ∧ e.body.binding? = some pledge.number
  overflow : (s.undergo host occurrence).ledger.outbox.overflow = s.ledger.outbox.overflow
  refusing : s.ledger.outbox.overflow = .rejectNew → s.evicts host occurrence = []

/-- A parcel that names a binding is no reply. -/
theorem Parcel.binding_letter {parcel : Parcel} {n : Nat} (named : parcel.binding? = some n) :
    parcel.isReply = false := by
  cases parcel with
  | message => rfl
  | reply => cases named

/-- Nothing is discarded where nothing is queued. -/
theorem Traces.shed {host : Host} {s : Session} {occurrence : Occurrence}
    (sheds : s.ledger.Sheds (s.undergo host occurrence).ledger)
    (unpledged : s.pledge? occurrence = none)
    (sent : (s.undergo host occurrence).ledger.window.sent = s.ledger.window.sent) :
    s.Traces host occurrence := by
  constructor
  case retained =>
    intro e listed n named
    exact (sheds.kept e listed (Parcel.binding_letter named)).imp_right .inl
  case arrived => exact fun e listed => .inl (sheds.part.subset listed)
  case queued => simp [unpledged]
  case overflow => exact sheds.overflow
  case refusing => simp [evicts, sent]

/-- What is queued goes behind all that stays, and the rest is discarded. -/
theorem Traces.enqueued {host : Host} {s : Session} {occurrence : Occurrence}
    (made : Outbox Parcel) (evicted : Option (Entry Parcel)) (parcel : Parcel) (now : Duration)
    (room : s.ledger.outbox.makeRoom = .ok (made, evicted))
    (entries : (s.undergo host occurrence).ledger.outbox.entries =
      made.entries ++ [⟨s.ledger.window.sent + 1, parcel, now⟩])
    (overflow : (s.undergo host occurrence).ledger.outbox.overflow = made.overflow)
    (sent : (s.undergo host occurrence).ledger.window.sent = s.ledger.window.sent + 1)
    (named : ∀ n, parcel.binding? = some n → ∃ pledge, s.pledge? occurrence = some pledge ∧
      pledge.number = n ∧ pledge.seq = s.ledger.window.sent + 1)
    (pledged : ∀ pledge ∈ s.pledge? occurrence, parcel.binding? = some pledge.number ∧
      pledge.seq = s.ledger.window.sent + 1) : s.Traces host occurrence := by
  have part := (s.ledger.outbox.makeRoom_fewer made evicted room).1
  obtain ⟨same, refuses⟩ := s.ledger.outbox.makeRoom_keeps made evicted room
  have more : s.ledger.window.sent < (s.undergo host occurrence).ledger.window.sent := by
    rw [sent]
    exact Nat.lt_succ_self _
  constructor
  case retained =>
    intro e listed n _
    by_cases stays : e ∈ (s.undergo host occurrence).ledger.outbox.entries
    · exact .inl stays
    · right; right; left
      rw [evicts, if_pos more]
      exact Entry.mem_missing.mpr ⟨listed, stays⟩
  case arrived =>
    intro e listed
    rw [entries] at listed
    rcases List.mem_append.mp listed with old | last
    · exact .inl (part.subset old)
    · rw [List.mem_singleton.mp last]
      exact .inr ⟨rfl, named⟩
  case queued =>
    intro pledge noted
    obtain ⟨binding, seq⟩ := pledged pledge noted
    refine ⟨seq, sent, ⟨s.ledger.window.sent + 1, parcel, now⟩, ?_, seq.symm, binding⟩
    rw [entries]
    exact List.mem_append_right _ (List.mem_singleton_self _)
  case overflow => exact overflow.trans same
  case refusing =>
    intro refusing
    rw [evicts, if_pos more, entries, refuses refusing]
    exact Entry.missing_nil fun e => List.mem_append_left _

end Session

/-- A failed attempt leaves the outbox alone, or else the peer is given up. -/
theorem Turned.failed {host : Host} {now : Nat} {error : LinkError} {s after : Session}
    {effects : List Effect} (turned : Turned host now s (.dialed (.error error)) after effects) :
    after.ledger.outbox = s.ledger.outbox ∨ after.ledger.bindings = [] := by
  cases turned with
  | still | dialStale | dialRetry => exact .inl rfl
  | dialGiveUp => exact .inr rfl

/-- What a turn does to the outbox: it lets go of what it may, or it queues a reply, or the
peer is given up. -/
inductive Stored (now : Nat) (s after : Session) : Prop where
  | shed (sheds : s.ledger.Sheds after.ledger)
      (sent : after.ledger.window.sent = s.ledger.window.sent)
  | replied (replyTo : Nat) (payload : List UInt8) (made : Outbox Parcel)
      (evicted : Option (Entry Parcel)) (stage : s.stage = .handling (some replyTo))
      (room : s.ledger.outbox.makeRoom = .ok (made, evicted))
      (entries : after.ledger.outbox.entries =
        made.entries ++ [⟨s.ledger.window.sent + 1, .reply replyTo payload, .ofMillis now⟩])
      (overflow : after.ledger.outbox.overflow = made.overflow)
      (sent : after.ledger.window.sent = s.ledger.window.sent + 1)
  | cleared (outbox : after.ledger.outbox = s.ledger.outbox.clear)
      (bindings : after.ledger.bindings = [])
      (sent : after.ledger.window.sent = s.ledger.window.sent)

/-- What a turn does to the outbox. There is one case for each kind of turn; only the reply of the
application is queued, and only giving up empties the outbox. -/
theorem Turned.stored {host : Host} {now : Nat} {event : Event} {s after : Session}
    {effects : List Effect} (turned : Turned host now s event after effects) :
    Stored now s after := by
  have quiet (t : Session) (quiet : s.Quiet host t) : s.ledger.Sheds t.ledger :=
    .same (by rw [quiet.outbox]) quiet.acked (by rw [quiet.outbox])
  have flushes (t after : Session) (effects : List Effect) (flushed : Flushed t after effects) :
      t.ledger.Sheds after.ledger ∧ after.ledger.window.sent = t.ledger.window.sent := by
    cases flushed <;> exact ⟨.same rfl rfl rfl, rfl⟩
  cases turned.moved with
  | quiet _ _ _ spared silent => exact .shed (quiet after spared) spared.sent
  | acknowledged _ link _ held spared => exact .shed (quiet after spared) spared.sent
  | received bytes link held => exact .shed (.same rfl rfl rfl) rfl
  | joined _ greeted t _ spared origin link silent =>
    have opened : t.ledger.Sheds ({ t.ledger with phase := .connected }.count
        (if t.link.isSome then Tally.duplicate else id)) := .same rfl rfl rfl
    refine .shed ((quiet t spared).trans (opened.trans (Ledger.onConnected_sheds _ _ _ _))) ?_
    exact (Ledger.onConnected_sent _ _ _ _).trans spared.sent
  | flushed _ t flushed _ _ before flush behind =>
    obtain ⟨sheds, sent⟩ := flushes t flushed effects flush
    have later : flushed.ledger.Sheds after.ledger :=
      .same (by rw [behind.outbox]) behind.acked (by rw [behind.outbox])
    exact .shed (((quiet t before).trans sheds).trans later)
      (behind.sent.trans (sent.trans before.sent))
  | replied replyTo payload ledger _ _ stage queued flush =>
    obtain ⟨made, evicted, tally, room, _, rfl⟩ := s.ledger.enqueueReply_eq _ _ _ _ queued
    cases flush with
    | nothing => exact .replied replyTo payload made evicted stage room rfl rfl rfl
    | written => exact .replied replyTo payload made evicted stage room rfl rfl rfl
  | read link e rest _ _ held complete took =>
    have leaves := took.leaves
    have kept : (s.ledger.heeding e).Sheds after.ledger :=
      .same (by rw [leaves.outbox]) leaves.acked (by rw [leaves.outbox])
    refine .shed ((s.ledger.heeding_sheds e).trans kept) ?_
    rw [leaves.sent]
    obtain ⟨_, _, same⟩ := s.ledger.heeding_eq e
    rw [same]
  | gaveUp error _ t spared cleared =>
    rcases turned.failed with same | bindings
    · refine .shed (.same (by rw [same]) ?_ (by rw [same])) ?_
      · rw [cleared]
        exact spared.acked
      · rw [cleared]
        exact spared.sent
    · refine .cleared ?_ bindings ?_
      · rw [cleared]
      · rw [cleared]
        exact spared.sent

namespace Session

/-- Every occurrence treats the letters so. A letter that is queued and a turn each have their own
reasons; nothing else touches the outbox. -/
theorem traces (host : Host) (s : Session) (occurrence : Occurrence) :
    s.Traces host occurrence := by
  have undergone := s.undergone host occurrence
  generalize same : s.undergo host occurrence = after at undergone
  cases undergone with
  | spared _ _ spared refused called =>
    have unpledged : s.pledge? occurrence = none := by
      cases occurrence with
      | post letter now =>
        obtain ⟨error, refusal⟩ := refused letter now rfl
        simp [pledge?, refusal]
      | _ => rfl
    refine .shed ?_ unpledged ?_
    · rw [same]
      exact .same (by rw [spared.outbox]) (by rw [spared.window]) (by rw [spared.outbox])
    · rw [same, spared.window]
  | posted letter now queued accepted posted =>
    have pledges := s.pledge?_posted letter now _ posted
    obtain ⟨made, evicted, tally, room, _, rfl⟩ :=
      s.ledger.enqueueLetter_eq queued letter now accepted
    refine .enqueued made evicted (.message letter.payload (s.ledger.bind letter.promise).1) now
      room (by rw [same]; rfl) (by rw [same]; rfl) (by rw [same]) ?_ ?_
    · intro n named
      rw [pledges]
      cases promised : letter.promise with
      | none =>
        rw [promised] at named
        cases named
      | some promise =>
        rw [promised] at named
        cases named
        exact ⟨_, rfl, rfl, rfl⟩
    · intro pledge noted
      rw [pledges] at noted
      cases promised : letter.promise with
      | none =>
        rw [promised] at noted
        cases noted
      | some promise =>
        rw [promised] at noted
        cases noted
        exact ⟨rfl, rfl⟩
  | turned now random event =>
    obtain ⟨effects, turned⟩ := s.undergo_turn host now random event
    cases turned.stored with
    | shed sheds sent => exact .shed sheds rfl sent
    | replied replyTo payload made evicted stage room entries overflow sent =>
      refine .enqueued made evicted (.reply replyTo payload) (.ofMillis now) room entries
        overflow sent ?_ ?_
      · intro n named
        cases named
      · intro pledge noted
        cases noted
    | cleared outbox bindings sent =>
      constructor
      case retained => exact fun _ _ _ _ => .inr (.inr (.inr bindings))
      case arrived => simp [outbox, Outbox.clear]
      case queued =>
        intro pledge noted
        cases noted
      case overflow => rw [outbox]; rfl
      case refusing => simp [evicts, sent]

/-- What a life tells of the letters that carried promises, and of what was discarded. -/
structure Tracks (pledged : List Pledge) (evicted : List (Entry Parcel)) (s : Session) :
    Prop where
  sent : ∀ pledge ∈ pledged, pledge.seq ≤ s.ledger.window.sent
  named : ∀ e ∈ s.ledger.outbox.entries, ∀ n, e.body.binding? = some n →
    ∃ pledge ∈ pledged, pledge.number = n ∧ pledge.seq = e.seq
  gone : ∀ d ∈ evicted, d.seq ≤ s.ledger.window.sent ∧
    ∀ e ∈ s.ledger.outbox.entries, e.seq ≠ d.seq
  backed : ∀ binding ∈ s.ledger.bindings, ∃ pledge ∈ pledged, pledge.number = binding.1 ∧
    ((∃ e ∈ s.ledger.outbox.entries,
        e.seq = pledge.seq ∧ e.body.binding? = some pledge.number) ∨
      pledge.seq ≤ s.ledger.window.acked ∨ ∃ d ∈ evicted, d.seq = pledge.seq)

/-- One occurrence keeps track of the letters. A letter that leaves the outbox was acknowledged or
discarded, unless nothing waits any more; and a number that was given out once does not come
back. -/
theorem Tracks.undergo {pledged : List Pledge} {evicted : List (Entry Parcel)} {s : Session}
    {limit : Nat} (tracks : Tracks pledged evicted s) (numbered : s.Numbered)
    (regular : s.ledger.Regular limit) (positive : 0 < limit) (host : Host)
    (occurrence : Occurrence) :
    Tracks (pledged ++ (s.pledge? occurrence).toList) (evicted ++ s.evicts host occurrence)
      (s.undergo host occurrence) := by
  have traces := s.traces host occurrence
  have balanced := numbered.balanced host occurrence
  have advances := (s.undergo_regular host positive regular occurrence).1
  have dropped (d : Entry Parcel) (now : d ∈ s.evicts host occurrence) :
      d ∈ s.ledger.outbox.entries ∧
        d ∉ (s.undergo host occurrence).ledger.outbox.entries := by
    unfold evicts at now
    split at now
    · exact Entry.mem_missing.mp now
    · cases now
  constructor
  case sent =>
    intro pledge listed
    rcases List.mem_append.mp listed with before | now
    · exact (tracks.sent pledge before).trans advances.sent
    · obtain ⟨seq, sent, _⟩ := traces.queued pledge (Option.mem_toList.mp now)
      exact Nat.le_of_eq (seq.trans sent.symm)
  case named =>
    intro e listed n names
    rcases traces.arrived e listed with old | ⟨_, new⟩
    · obtain ⟨pledge, before, same⟩ := tracks.named e old n names
      exact ⟨pledge, List.mem_append_left _ before, same⟩
    · obtain ⟨pledge, noted, same⟩ := new n names
      exact ⟨pledge, List.mem_append_right _ (Option.mem_toList.mpr noted), same⟩
  case gone =>
    intro d listed
    rcases List.mem_append.mp listed with before | now
    · obtain ⟨below, absent⟩ := tracks.gone d before
      refine ⟨below.trans advances.sent, fun e stays same => ?_⟩
      rcases traces.arrived e stays with old | ⟨next, _⟩
      · exact absent e old same
      · omega
    · obtain ⟨was, left⟩ := dropped d now
      have below := (regular.between d was).2
      refine ⟨below.trans advances.sent, fun e stays same => ?_⟩
      rcases traces.arrived e stays with old | ⟨next, _⟩
      · exact left (regular.toOrderly.unique e d old was same ▸ stays)
      · omega
  case backed =>
    intro binding waits
    rcases List.mem_append.mp (balanced.kept.subset waits) with old | new
    · obtain ⟨pledge, before, number, held⟩ := tracks.backed binding old
      refine ⟨pledge, List.mem_append_left _ before, number, ?_⟩
      rcases held with ⟨e, listed, seq, names⟩ | covered | ⟨d, listed, seq⟩
      · rcases traces.retained e listed _ names with stays | covered | now | none
        · exact .inl ⟨e, stays, seq, names⟩
        · exact .inr (.inl (seq ▸ covered))
        · exact .inr (.inr ⟨e, List.mem_append_right _ now, seq⟩)
        · rw [none] at waits
          cases waits
      · exact .inr (.inl (covered.trans advances.acked))
      · exact .inr (.inr ⟨d, List.mem_append_left _ listed, seq⟩)
    · obtain ⟨pledge, noted, rfl⟩ := List.mem_map.mp new
      obtain ⟨_, _, queued⟩ := traces.queued pledge (Option.mem_toList.mp noted)
      exact ⟨pledge, List.mem_append_right _ noted, rfl, .inl queued⟩

section Lives

variable (host : Host) (peer : PeerId) (life : List Occurrence)

/-- A number is among the orphans if its letter was discarded and is not acknowledged. -/
theorem mem_orphans (s : Session) (number : Nat) : number ∈ s.orphans host life ↔
    ∃ pledge ∈ s.pledged host life, pledge.number = number ∧
      (s.live host life).ledger.window.acked < pledge.seq ∧
      ∃ d ∈ s.evictions host life, d.seq = pledge.seq := by
  simp only [orphans, List.mem_map, List.mem_filter, decide_eq_true_eq]
  constructor
  · rintro ⟨pledge, ⟨listed, unacked, gone⟩, number⟩
    exact ⟨pledge, listed, number, unacked, gone⟩
  · rintro ⟨pledge, listed, number, unacked, gone⟩
    exact ⟨pledge, ⟨listed, unacked, gone⟩, number⟩

/-- All through a life the ledger is regular, and an outbox has room for one message at least. -/
theorem live_regular_max :
    ((fresh peer host.options).live host life).ledger.Regular (max host.options.maxQueue 1) :=
  regular_live host _ host.options.room_pos (Ledger.fresh_regular_max peer host.options) life

/-- All through a life, the letter of every promise that waits is queued, acknowledged or discarded,
by induction on the occurrences. -/
theorem live_tracks : Tracks ((fresh peer host.options).pledged host life)
    ((fresh peer host.options).evictions host life) ((fresh peer host.options).live host life) := by
  induction life using List.reverseRecOn with
  | nil => exact ⟨nofun, nofun, nofun, nofun⟩
  | append_singleton life occurrence inductionHypothesis =>
    rw [pledged, evictions, along_append_one, along_append_one, live_append]
    exact inductionHypothesis.undergo (live_numbered host peer life)
      (live_regular_max host peer life) host.options.room_pos host occurrence

/-- An outbox that refuses new letters discards none. -/
theorem evictions_refusing (refusing : host.options.overflow = .rejectNew) :
    (fresh peer host.options).evictions host life = [] ∧
      ((fresh peer host.options).live host life).ledger.outbox.overflow = .rejectNew := by
  induction life using List.reverseRecOn with
  | nil => exact ⟨rfl, refusing⟩
  | append_singleton life occurrence inductionHypothesis =>
    obtain ⟨none, policy⟩ := inductionHypothesis
    have traces := traces host ((fresh peer host.options).live host life) occurrence
    rw [evictions] at none
    rw [evictions, along_append_one, none, live_append, live_one, traces.refusing policy,
      traces.overflow]
    exact ⟨rfl, policy⟩

/-- One number is given to one promise only. -/
theorem pledged_unique (p q : Pledge) (first : p ∈ (fresh peer host.options).pledged host life)
    (second : q ∈ (fresh peer host.options).pledged host life) (same : p.number = q.number) :
    p = q := by
  have distinct : (((fresh peer host.options).pledged host life).map (·.number)).Nodup :=
    (pledged_numbers host peer life).1.imp Nat.ne_of_lt
  exact List.inj_on_of_nodup_map distinct first second same

/-- A promise is handed over with a letter behind all that was sent before. -/
theorem pledged_since (later : List Occurrence) :
    ((fresh peer host.options).live host life).ledger.window.sent ≤
        ((fresh peer host.options).live host (life ++ later)).ledger.window.sent ∧
      ∀ pledge ∈ (fresh peer host.options).pledged host (life ++ later),
        pledge.number < ((fresh peer host.options).live host life).ledger.nextBinding ∨
          ((fresh peer host.options).live host life).ledger.window.sent < pledge.seq := by
  induction later using List.reverseRecOn with
  | nil =>
    rw [List.append_nil]
    refine ⟨Nat.le_refl _, fun pledge listed => .inl ?_⟩
    exact (pledged_numbers host peer life).2 pledge listed
  | append_singleton later occurrence inductionHypothesis =>
    obtain ⟨grown, since⟩ := inductionHypothesis
    have advances := (undergo_regular host _ host.options.room_pos
      (live_regular_max host peer (life ++ later)) occurrence).1
    rw [← List.append_assoc, live_append host _ (life ++ later), live_one, pledged,
      along_append_one]
    refine ⟨grown.trans advances.sent, fun pledge listed => ?_⟩
    rcases List.mem_append.mp listed with before | now
    · exact since pledge before
    · have queued := (traces host _ occurrence).queued pledge (Option.mem_toList.mp now)
      exact .inr (queued.1 ▸ Nat.lt_succ_of_le grown)

/-- The letter of a promise is queued, or it is acknowledged. -/
def Backed (s : Session) (pledged : List Pledge) (number : Nat) : Prop :=
  (∃ e ∈ s.ledger.outbox.entries, e.body.binding? = some number) ∨
    ∃ pledge ∈ pledged, pledge.number = number ∧ pledge.seq ≤ s.ledger.window.acked

/-- What a life makes of the promises that wait. -/
structure Tethered (host : Host) (origin : Session) (life : List Occurrence) : Prop where
  /-- A promise that waits has its letter queued or acknowledged exactly if it is no orphan. -/
  backed : ∀ binding ∈ (origin.live host life).ledger.bindings,
    (origin.live host life).Backed (origin.pledged host life) binding.1 ↔
      binding.1 ∉ origin.orphans host life
  /-- Refusing new letters makes no orphans. -/
  refusing : host.options.overflow = .rejectNew → origin.orphans host life = []
  /-- While nothing is acknowledged, no more promises begin to wait than the outbox has room
  for, not counting orphans. -/
  bounded : ∀ past later, life = past ++ later →
    (origin.live host life).ledger.window.acked = (origin.live host past).ledger.window.acked →
    ((origin.live host life).ledger.bindings.filter fun binding =>
      (origin.live host past).ledger.nextBinding ≤ binding.1 ∧
        binding.1 ∉ origin.orphans host life).length ≤ max host.options.maxQueue 1

/-- A letter that is queued was not discarded, and what is acknowledged makes no orphan. -/
theorem Backed.unorphaned (number : Nat) (backed : ((fresh peer host.options).live host life).Backed
    ((fresh peer host.options).pledged host life) number) :
    number ∉ (fresh peer host.options).orphans host life := by
  have tracks := live_tracks host peer life
  intro orphaned
  obtain ⟨pledge, listed, same, unacked, d, gone, seq⟩ := (mem_orphans host life _ _).mp orphaned
  rcases backed with ⟨e, queued, names⟩ | ⟨other, among, number, covered⟩
  · obtain ⟨other, among, number, place⟩ := tracks.named e queued _ names
    cases pledged_unique host peer life pledge other listed among (same.trans number.symm)
    exact (tracks.gone d gone).2 e queued (place.symm.trans seq.symm)
  · cases pledged_unique host peer life pledge other listed among (same.trans number.symm)
    exact Nat.not_lt_of_le covered unacked

/-- Of the promises that wait only orphans have their letters neither queued nor acknowledged. -/
theorem backed_of_unorphaned (binding : Nat × PromiseId)
    (waits : binding ∈ ((fresh peer host.options).live host life).ledger.bindings)
    (unorphaned : binding.1 ∉ (fresh peer host.options).orphans host life) :
    ((fresh peer host.options).live host life).Backed
      ((fresh peer host.options).pledged host life) binding.1 := by
  obtain ⟨pledge, listed, number, held⟩ := (live_tracks host peer life).backed binding waits
  rcases held with ⟨e, queued, _, names⟩ | covered | gone
  · exact .inl ⟨e, queued, number ▸ names⟩
  · exact .inr ⟨pledge, listed, number, covered⟩
  · refine .inr ⟨pledge, listed, number, Nat.le_of_not_lt fun unacked => unorphaned ?_⟩
    exact (mem_orphans host life _ _).mpr ⟨pledge, listed, number, unacked, gone⟩

/-- Whatever a session lives through, only what it discards makes orphans. -/
theorem live_tethered : (fresh peer host.options).Tethered host life := by
  constructor
  case backed =>
    intro binding waits
    constructor
    · exact Backed.unorphaned host peer life binding.1
    · exact backed_of_unorphaned host peer life binding waits
  case refusing =>
    intro refusing
    simp [orphans, (evictions_refusing host peer life refusing).1]
  case bounded =>
    rintro past later rfl idle
    have regular := live_regular_max host peer (past ++ later)
    have numbered := live_numbered host peer (past ++ later)
    refine regular.toOrderly.named_length _ ?_ ?_
    · have distinct : (((fresh peer host.options).live host
          (past ++ later)).ledger.bindings.map (·.1)).Nodup :=
        List.pairwise_map.mpr (numbered.ordered.imp Nat.ne_of_lt)
      exact distinct.sublist (List.filter_sublist.map _)
    · -- What began to wait since has its letter queued, since nothing was acknowledged.
      intro binding listed
      obtain ⟨waits, since⟩ := List.mem_filter.mp listed
      obtain ⟨new, unorphaned⟩ := of_decide_eq_true since
      rcases backed_of_unorphaned host peer _ binding waits unorphaned with
        queued | ⟨pledge, among, number, covered⟩
      · exact queued
      · have before := (live_regular_max host peer past).acked
        rcases (pledged_since host peer past later).2 pledge among with old | late <;> omega

end Lives

/-- A kernel whose outboxes hold one message. -/
def narrow : Host := { aliceService.host with options := { maxQueue := 1 } }

/-- The second of two letters with promises takes the room of the first, whose promise waits on
without its letter. -/
theorem second_letter_orphans : ¬ ∀ (host : Host) (peer : PeerId) (life : List Occurrence),
    ∀ binding ∈ ((fresh peer host.options).live host life).ledger.bindings,
      ((fresh peer host.options).live host life).Backed
        ((fresh peer host.options).pledged host life) binding.1 := by
  intro backed
  have first := backed narrow bob [.post ⟨[1], some ⟨"p"⟩⟩ (.ofMillis 0),
    .post ⟨[2], some ⟨"q"⟩⟩ (.ofMillis 0)] (1, ⟨"p"⟩) (by decide)
  exact Backed.unorphaned narrow bob _ 1 first (by decide)

end Session

end Courier
